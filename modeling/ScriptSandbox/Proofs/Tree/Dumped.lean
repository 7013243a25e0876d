import ScriptSandbox.Proofs.Json.Names
import ScriptSandbox.Proofs.Tree.Loaded

/-!
# Dumped trees

A node is well-formed when its fields have distinct names, none of them `kind` or
`attributes`, and no object in a field is shaped like a node.  Files give well-formed nodes
only.  The dump of a node has the kind as `nodeType`, unless the node has a field of that
name: the value of the field then stands there.  Without such fields, loading the dump of a
well-formed node gives the node again.
-/

namespace ScriptSandbox

/-! ## Well-formed nodes -/

def Kind.isReadable (kind : Kind) : Bool :=
  Kind.ofSpelling? kind.spelling = some kind

private theorem Kind.isReadable_of_ofSpelling? {text : String} {kind : Kind}
    (h : Kind.ofSpelling? text = some kind) : kind.isReadable = true := by
  rw [isReadable, spelling_of_ofSpelling? h, decide_eq_true_eq]
  exact h

def areFieldNames (names : List String) : Bool :=
  decide names.Nodup && "kind" ∉ names && "attributes" ∉ names

mutual

def Node.wellFormed : Node → Bool
  | ⟨kind, _, fields, generated⟩ =>
      !generated && kind.isReadable && areFieldNames (Record.names fields) &&
        fieldsWellFormed fields
  termination_by structural node => node

/-- No pair and no object that is shaped like a node is left in a loaded tree. -/
def Value.wellFormed : Value → Bool
  | .node n => n.wellFormed
  | .list items => itemsWellFormed items
  | .pair _ _ => false
  | .scalar _ => true
  | .obj fields => !isNodeShaped fields
  termination_by structural value => value

def itemsWellFormed : List Value → Bool
  | [] => true
  | item :: rest => item.wellFormed && itemsWellFormed rest
  termination_by structural items => items

def fieldsWellFormed : List (String × Value) → Bool
  | [] => true
  | (_, value) :: rest => value.wellFormed && fieldsWellFormed rest
  termination_by structural fields => fields

end

@[simp] theorem areFieldNames_iff {names : List String} :
    areFieldNames names = true ↔ names.Nodup ∧ "kind" ∉ names ∧ "attributes" ∉ names := by
  simp only [areFieldNames, Bool.and_eq_true, decide_eq_true_eq, and_assoc]

private theorem Node.wellFormed_mk_iff {kind : Kind} {attributes : Record Json}
    {fields : Record Value}
    {generated : Bool} :
    (Node.mk kind attributes fields generated).wellFormed = true ↔
      generated = false ∧ kind.isReadable = true ∧
        areFieldNames (Record.names fields) = true ∧ fieldsWellFormed fields = true := by
  simp only [Node.wellFormed, Bool.and_eq_true, Bool.not_eq_true', and_assoc]

/-! ## Loading gives well-formed nodes -/

private theorem names_loadFields {entry : String} {fields : List (String × Json)}
    {loaded : List (String × Value)} (h : loadFields entry fields = .ok loaded) :
    Record.names loaded = (Record.names fields).filter (isFieldName entry) := by
  induction fields generalizing loaded with
  | nil =>
      cases h
      rfl
  | cons field rest ih =>
      obtain ⟨name, item⟩ := field
      rw [loadFields] at h
      split at h
      case isTrue hname =>
        obtain ⟨value, _, h⟩ := bind_eq_ok.mp h
        obtain ⟨others, hothers, h⟩ := bind_eq_ok.mp h
        cases h
        have hrest := ih hothers
        simp only [Record.names, List.map_cons] at hrest ⊢
        rw [hrest, List.filter_cons_of_pos hname]
      case isFalse hname =>
        have hrest := ih h
        simp only [Record.names, List.map_cons] at hrest ⊢
        rw [hrest, List.filter_cons_of_neg hname]

private theorem areFieldNames_loadFields {fields : List (String × Json)}
    {loaded : List (String × Value)}
    (hnames : (Record.names fields).Nodup)
    (h : loadFields (kindEntry fields) fields = .ok loaded) :
    areFieldNames (Record.names loaded) = true := by
  rw [names_loadFields h, areFieldNames_iff]
  refine ⟨hnames.filter _, fun hkind => ?_, fun hattributes => ?_⟩
  · obtain ⟨hmem, hfield⟩ := List.mem_filter.mp hkind
    -- Where an entry `kind` is present, it is the one that holds the kind.
    have hentry : kindEntry fields = "kind" := by
      rw [kindEntry, if_pos]
      rw [← Bool.not_eq_false, Record.has_eq_false_iff]
      exact fun hnot => hnot hmem
    simp [isFieldName, hentry] at hfield
  · have hfield := (List.mem_filter.mp hattributes).2
    simp [isFieldName] at hfield

private theorem assemble_wellFormed {fields : Record Json} {loaded : Record Value} {n : Node}
    (hnames : areFieldNames (Record.names loaded) = true)
    (hloaded : fieldsWellFormed loaded = true) (h : assemble fields loaded = .ok n) :
    n.wellFormed = true := by
  unfold assemble at h
  split at h
  next kind attributes hkind _ =>
    cases h
    have hreadable : kind.isReadable = true := by
      unfold loadKind at hkind
      split at hkind
      · cases hkind
      · split at hkind
        next hspelling =>
          cases hkind
          exact Kind.isReadable_of_ofSpelling? hspelling
        next => cases hkind
      · cases hkind
    exact Node.wellFormed_mk_iff.mpr ⟨rfl, hreadable, hnames, hloaded⟩
  all_goals cases h

mutual

private theorem loadValue_wellFormed :
    ∀ {data : Json} {value : Value}, data.wellFormed = true → loadValue data = .ok value →
      value.wellFormed = true
  | .scalar _, value, _, h => by
      cases h
      rfl
  | .arr items, value, hdata, h => by
      rw [loadValue] at h
      obtain ⟨loaded, hloaded, h⟩ := bind_eq_ok.mp h
      cases h
      rw [Value.wellFormed]
      exact loadItems_wellFormed hdata hloaded
  | .obj fields, value, hdata, h => by
      rw [Json.wellFormed, Bool.and_eq_true, decide_eq_true_eq] at hdata
      rw [loadValue] at h
      split at h
      case isTrue =>
        obtain ⟨loaded, hloaded, h⟩ := bind_eq_ok.mp h
        obtain ⟨n, hn, h⟩ := bind_eq_ok.mp h
        cases h
        rw [Value.wellFormed]
        exact assemble_wellFormed (areFieldNames_loadFields hdata.1 hloaded)
          (loadFields_wellFormed hdata.2 hloaded) hn
      case isFalse hshape =>
        cases h
        rw [Value.wellFormed, Bool.not_eq_true', ← Bool.not_eq_true]
        exact hshape

private theorem loadItems_wellFormed :
    ∀ {items : List Json} {loaded : List Value}, Json.itemsWellFormed items = true →
      loadItems items = .ok loaded → itemsWellFormed loaded = true
  | [], loaded, _, h => by
      cases h
      rfl
  | item :: rest, loaded, hdata, h => by
      rw [Json.itemsWellFormed, Bool.and_eq_true] at hdata
      rw [loadItems] at h
      obtain ⟨value, hvalue, h⟩ := bind_eq_ok.mp h
      obtain ⟨others, hothers, h⟩ := bind_eq_ok.mp h
      cases h
      rw [itemsWellFormed, loadValue_wellFormed hdata.1 hvalue,
        loadItems_wellFormed hdata.2 hothers]
      rfl

private theorem loadFields_wellFormed :
    ∀ {kindEntry : String} {fields : List (String × Json)} {loaded : List (String × Value)},
      Json.fieldsWellFormed fields = true → loadFields kindEntry fields = .ok loaded →
      fieldsWellFormed loaded = true
  | _, [], loaded, _, h => by
      cases h
      rfl
  | kindEntry, (name, item) :: rest, loaded, hdata, h => by
      rw [Json.fieldsWellFormed, Bool.and_eq_true] at hdata
      rw [loadFields] at h
      split at h
      · obtain ⟨value, hvalue, h⟩ := bind_eq_ok.mp h
        obtain ⟨others, hothers, h⟩ := bind_eq_ok.mp h
        cases h
        rw [fieldsWellFormed, loadValue_wellFormed hdata.1 hvalue,
          loadFields_wellFormed hdata.2 hothers]
        rfl
      · exact loadFields_wellFormed hdata.2 h

end

private theorem loadNode_wellFormed {data : Json} {n : Node} (hdata : data.wellFormed = true)
    (h : loadNode data = .ok n) : n.wellFormed = true := by
  cases data with
  | scalar value => cases h
  | arr items => cases h
  | obj fields =>
      rw [Json.wellFormed, Bool.and_eq_true, decide_eq_true_eq] at hdata
      rw [loadNode] at h
      obtain ⟨loaded, hloaded, h⟩ := bind_eq_ok.mp h
      exact assemble_wellFormed (areFieldNames_loadFields hdata.1 hloaded)
        (loadFields_wellFormed hdata.2 hloaded) h

/-! ## Dropping marks -/

@[simp] theorem names_stripFields (fields : List (String × Value)) :
    Record.names (stripFields fields) = Record.names fields := by
  induction fields with
  | nil => rfl
  | cons entry rest ih => exact congrArg (entry.1 :: ·) ih

mutual

@[simp] theorem Node.wellFormed_stripMarks : ∀ n : Node, n.stripMarks.wellFormed = n.wellFormed
  | ⟨_, _, fields, _⟩ => by
      simp [Node.stripMarks, Node.wellFormed, fieldsWellFormed_stripFields fields]

@[simp] theorem Value.wellFormed_stripMarks :
    ∀ value : Value, value.stripMarks.wellFormed = value.wellFormed
  | .node n => by
      rw [Value.stripMarks, Value.wellFormed, Value.wellFormed, n.wellFormed_stripMarks]
  | .list items => by
      rw [Value.stripMarks, Value.wellFormed, Value.wellFormed, itemsWellFormed_stripItems items]
  | .scalar _ => rfl
  | .obj _ => rfl
  | .pair _ _ => rfl

@[simp] theorem itemsWellFormed_stripItems :
    ∀ items : List Value, itemsWellFormed (stripItems items) = itemsWellFormed items
  | [] => rfl
  | .node n :: rest => by
      rw [stripItems, itemsWellFormed, itemsWellFormed, Value.wellFormed, Value.wellFormed,
        n.wellFormed_stripMarks, itemsWellFormed_stripItems rest]
  | .list _ :: rest | .scalar _ :: rest | .obj _ :: rest | .pair _ _ :: rest => by
      simp only [stripItems, itemsWellFormed, itemsWellFormed_stripItems rest]

@[simp] theorem fieldsWellFormed_stripFields :
    ∀ fields : List (String × Value), fieldsWellFormed (stripFields fields) = fieldsWellFormed fields
  | [] => rfl
  | (_, value) :: rest => by
      rw [stripFields, fieldsWellFormed, fieldsWellFormed, value.wellFormed_stripMarks,
        fieldsWellFormed_stripFields rest]

end

theorem loadTree_wellFormed {strip : Bool} {data : Json} {nodes : List Node}
    (hdata : data.wellFormed = true) (h : loadTree strip data = .ok nodes) :
    ∀ n ∈ nodes, n.wellFormed = true := by
  have hnodes : ∀ loaded, loadNodes data = .ok loaded → ∀ n ∈ loaded, n.wellFormed = true := by
    intro loaded hloaded n hn
    cases data with
    | scalar value => cases hloaded
    | arr items =>
        obtain ⟨item, hmem, hitem⟩ := mem_of_mapM_eq_ok (mapError_eq_ok.mp hloaded) hn
        rw [Json.wellFormed, Json.itemsWellFormed_iff] at hdata
        exact loadNode_wellFormed (hdata item hmem) hitem
    | obj fields =>
        obtain ⟨item, hmem, hitem⟩ := mem_of_mapM_eq_ok (mapError_eq_ok.mp hloaded) hn
        rw [List.mem_singleton] at hmem
        subst hmem
        exact loadNode_wellFormed hdata hitem
  obtain ⟨loaded, hloaded, h⟩ := bind_eq_ok.mp h
  cases h
  intro n hn
  cases strip with
  | false => exact hnodes loaded hloaded n hn
  | true =>
      obtain ⟨source, hsource, rfl⟩ := List.mem_map.mp hn
      rw [Node.wellFormed_stripMarks]
      exact hnodes loaded hloaded source hsource

/-! ## What is inside a well-formed node -/

mutual

theorem Node.wellFormed_of_mem :
    ∀ {parent : Node}, parent.wellFormed = true → ∀ n ∈ parent.nodes, n.wellFormed = true
  | ⟨kind, attributes, fields, generated⟩, h, n, hn => by
      rw [Node.nodes, List.mem_append, List.mem_singleton] at hn
      rcases hn with hn | rfl
      · exact fieldsWellFormed_of_mem (Node.wellFormed_mk_iff.mp h).2.2.2 n hn
      · exact h

theorem Value.wellFormed_of_mem :
    ∀ {value : Value}, value.wellFormed = true → ∀ n ∈ value.nodes, n.wellFormed = true
  | .node _, h, n, hn => Node.wellFormed_of_mem h n hn
  | .list _, h, n, hn => itemsWellFormed_of_mem h n hn
  | .scalar _, _, _, hn => by cases hn
  | .obj _, _, _, hn => by cases hn
  | .pair _ _, h, _, _ => by cases h

private theorem itemsWellFormed_of_mem :
    ∀ {items : List Value}, itemsWellFormed items = true →
      ∀ n ∈ nodesIn items, n.wellFormed = true
  | [], _, _, hn => by cases hn
  | item :: rest, h, n, hn => by
      rw [itemsWellFormed, Bool.and_eq_true] at h
      rw [nodesIn, List.mem_append] at hn
      rcases hn with hn | hn
      · exact Value.wellFormed_of_mem h.1 n hn
      · exact itemsWellFormed_of_mem h.2 n hn

private theorem fieldsWellFormed_of_mem :
    ∀ {fields : List (String × Value)}, fieldsWellFormed fields = true →
      ∀ n ∈ nodesInFields fields, n.wellFormed = true
  | [], _, _, hn => by cases hn
  | (_, value) :: rest, h, n, hn => by
      rw [fieldsWellFormed, Bool.and_eq_true] at h
      rw [nodesInFields, List.mem_append] at hn
      rcases hn with hn | hn
      · exact Value.wellFormed_of_mem h.1 n hn
      · exact fieldsWellFormed_of_mem h.2 n hn

end

/-! ## The kind that is written -/

/-- What the dump of a node gives as the type of the node. -/
def Node.writtenKind (n : Node) : Option Json :=
  match n.dump with
  | .obj entries => Record.get? entries "nodeType"
  | _ => none

@[simp] theorem names_dumpFields (fields : List (String × Value)) :
    Record.names (dumpFields fields) = Record.names fields := by
  induction fields with
  | nil => rfl
  | cons entry rest ih => exact congrArg (entry.1 :: ·) ih

@[simp] theorem get?_dumpFields (fields : List (String × Value)) (name : String) :
    Record.get? (dumpFields fields) name = (Record.get? fields name).map Value.dump := by
  induction fields with
  | nil => rfl
  | cons entry rest ih =>
      by_cases h : entry.1 = name <;> simp [dumpFields, Record.get?, h, ih]

def dumpedEntries (kind : Kind) (attributes : Record Json) (fields : Record Value) : Record Json :=
  ("nodeType", .str kind.spelling) :: (dumpFields fields ++ [("attributes", .obj attributes)])

private theorem Node.dump_mk (kind : Kind) (attributes : Record Json) (fields : Record Value)
    (generated : Bool) :
    (Node.mk kind attributes fields generated).dump =
      .obj (Record.ofEntries (dumpedEntries kind attributes fields)) := rfl

theorem Node.writtenKind_eq {n : Node} (h : n.wellFormed = true) :
    n.writtenKind =
      some (((Record.get? n.fields "nodeType").map Value.dump).getD (.str n.kind.spelling)) := by
  obtain ⟨kind, attributes, fields, generated⟩ := n
  obtain ⟨_, _, hnames, _⟩ := Node.wellFormed_mk_iff.mp h
  have hnodup : (Record.names (dumpFields fields)).Nodup := by
    rw [names_dumpFields]
    exact (areFieldNames_iff.mp hnames).1
  rw [writtenKind, Node.dump_mk]
  simp only [Record.get?_ofEntries]
  rw [dumpedEntries, List.reverse_cons, List.reverse_append, List.reverse_singleton,
    List.singleton_append, List.cons_append, Record.get?, if_neg (by decide),
    Record.get?_append, Record.get?_reverse_of_nodup hnodup, get?_dumpFields]
  cases Record.get? fields "nodeType" <;> rfl

@[simp] theorem Value.dump_eq_str_iff {value : Value} {text : String} :
    value.dump = .str text ↔ value = .str text := by
  cases value with
  | node n => cases n; simp [Value.dump, Node.dump]
  | _ => simp [Value.dump]

/-! ## Loading a dump -/

section Entries

variable {kind : Kind} {attributes : Record Json} {fields : Record Value}

@[simp] theorem names_dumpedEntries :
    Record.names (dumpedEntries kind attributes fields) =
      "nodeType" :: (Record.names fields ++ ["attributes"]) := by
  rw [← names_dumpFields fields]
  simp only [Record.names, dumpedEntries, List.map_cons, List.map_append, List.map_nil]

@[simp] theorem isNodeShaped_dumpedEntries :
    isNodeShaped (dumpedEntries kind attributes fields) = true := by
  rw [isNodeShaped, Bool.or_eq_true]
  exact .inr (by simp [Record.has, Record.get?, dumpedEntries])

variable (hnames : areFieldNames (Record.names fields) = true)

include hnames

private theorem ofEntries_dumpedEntries (hfree : Record.has fields "nodeType" = false) :
    Record.ofEntries (dumpedEntries kind attributes fields) =
      dumpedEntries kind attributes fields := by
  obtain ⟨hnodup, _, hattributes⟩ := areFieldNames_iff.mp hnames
  rw [Record.has_eq_false_iff] at hfree
  apply Record.ofEntries_of_nodup
  rw [names_dumpedEntries, List.nodup_cons, List.mem_append, List.mem_singleton]
  refine ⟨fun h => h.elim hfree (by decide), List.nodup_append.mpr ⟨hnodup, by simp, ?_⟩⟩
  rintro name hname other hother rfl
  rw [List.mem_singleton] at hother
  exact hattributes (hother ▸ hname)

@[simp]
theorem kindEntry_dumpedEntries : kindEntry (dumpedEntries kind attributes fields) = "nodeType" := by
  have hkind : Record.has (dumpedEntries kind attributes fields) "kind" = false := by
    rw [Record.has_eq_false_iff, names_dumpedEntries, List.mem_cons, List.mem_append,
      List.mem_singleton]
    rintro (h | h | h)
    · exact absurd h (by decide)
    · exact (areFieldNames_iff.mp hnames).2.1 h
    · exact absurd h (by decide)
  rw [kindEntry, hkind, if_neg Bool.false_ne_true]

private theorem assemble_dumpedEntries (hkind : kind.isReadable = true) :
    assemble (dumpedEntries kind attributes fields) fields =
      .ok ⟨kind, attributes, fields, false⟩ := by
  have hspelling : Kind.ofSpelling? kind.spelling = some kind := of_decide_eq_true hkind
  have hloadKind : loadKind (dumpedEntries kind attributes fields) = .ok kind := by
    rw [loadKind, kindEntry_dumpedEntries hnames, dumpedEntries, Record.get?, if_pos rfl]
    simp only [hspelling]
  have hmissing : Record.get? (dumpFields fields) "attributes" = none := by
    rw [Record.get?_eq_none_iff, names_dumpFields]
    exact (areFieldNames_iff.mp hnames).2.2
  have hloadAttributes : loadAttributes (dumpedEntries kind attributes fields) = .ok attributes := by
    rw [loadAttributes, dumpedEntries, Record.get?, if_neg (by decide), Record.get?_append, hmissing]
    rfl
  rw [assemble, hloadKind, hloadAttributes]

end Entries

private theorem loadNode_of_loadFields {n : Node} (h : n.wellFormed = true)
    (hfree : Record.has n.fields "nodeType" = false)
    (hfields : loadFields "nodeType" (dumpFields n.fields ++ [("attributes", .obj n.attributes)]) =
      .ok n.fields) :
    n.dump = .obj (dumpedEntries n.kind n.attributes n.fields) ∧ loadNode n.dump = .ok n := by
  obtain ⟨kind, attributes, fields, generated⟩ := n
  obtain ⟨rfl, hkind, hnames, _⟩ := Node.wellFormed_mk_iff.mp h
  have hdump : (Node.mk kind attributes fields false).dump =
      .obj (dumpedEntries kind attributes fields) := by
    rw [Node.dump_mk, ofEntries_dumpedEntries hnames hfree]
  refine ⟨hdump, ?_⟩
  have hentries : loadFields "nodeType" (dumpedEntries kind attributes fields) = .ok fields := by
    rw [dumpedEntries, loadFields, if_neg (by decide)]
    exact hfields
  rw [hdump, loadNode, kindEntry_dumpedEntries hnames, hentries]
  exact assemble_dumpedEntries hnames hkind

private theorem loadValue_eq_loadNode {entries : Record Json} (h : isNodeShaped entries = true) :
    loadValue (.obj entries) = (loadNode (.obj entries)).map .node := by
  rw [loadValue, if_pos h, loadNode]
  cases loadFields (kindEntry entries) entries <;> rfl

mutual

private theorem loadNode_dump :
    ∀ {n : Node}, n.wellFormed = true → (∀ m ∈ n.nodes, Record.has m.fields "nodeType" = false) →
      n.dump = .obj (dumpedEntries n.kind n.attributes n.fields) ∧ loadNode n.dump = .ok n
  | ⟨kind, attributes, fields, generated⟩, h, hfree => by
      obtain ⟨hself, hinside⟩ := Node.forall_mem_nodes.mp hfree
      obtain ⟨_, _, hnames, hfields⟩ := Node.wellFormed_mk_iff.mp h
      refine loadNode_of_loadFields h hself (loadFields_dump attributes hfields ?_ ?_)
      · intro name hname
        rw [isFieldName, Bool.and_eq_true, decide_eq_true_eq, decide_eq_true_eq]
        refine ⟨?_, ?_⟩
        · rintro rfl
          exact Record.has_eq_false_iff.mp hself hname
        · rintro rfl
          exact (areFieldNames_iff.mp hnames).2.2 hname
      · intro m hm
        obtain ⟨entry, hentry, hm⟩ := mem_nodesInFields.mp hm
        exact hinside entry hentry m hm

private theorem loadValue_dump :
    ∀ {value : Value}, value.wellFormed = true →
      (∀ n ∈ value.nodes, Record.has n.fields "nodeType" = false) →
      loadValue value.dump = .ok value
  | .scalar _, _, _ => rfl
  | .obj fields, h, _ => by
      rw [Value.wellFormed, Bool.not_eq_true'] at h
      rw [Value.dump, loadValue, h]
      rfl
  | .list items, h, hfree => by
      rw [Value.dump, loadValue, loadItems_dump h hfree]
      rfl
  | .node n, h, hfree => by
      obtain ⟨hdump, hload⟩ := loadNode_dump (n := n) h hfree
      rw [Value.dump, hdump, loadValue_eq_loadNode isNodeShaped_dumpedEntries, ← hdump, hload]
      rfl
  | .pair _ _, h, _ => by cases h

private theorem loadItems_dump :
    ∀ {items : List Value}, itemsWellFormed items = true →
      (∀ n ∈ nodesIn items, Record.has n.fields "nodeType" = false) →
      loadItems (dumpItems items) = .ok items
  | [], _, _ => rfl
  | item :: rest, h, hfree => by
      rw [itemsWellFormed, Bool.and_eq_true] at h
      simp only [nodesIn, List.mem_append] at hfree
      rw [dumpItems, loadItems, loadValue_dump h.1 fun n hn => hfree n (.inl hn),
        loadItems_dump h.2 fun n hn => hfree n (.inr hn)]
      rfl

private theorem loadFields_dump (attributes : Record Json) :
    ∀ {fields : List (String × Value)}, fieldsWellFormed fields = true →
      (∀ name ∈ Record.names fields, isFieldName "nodeType" name = true) →
      (∀ n ∈ nodesInFields fields, Record.has n.fields "nodeType" = false) →
      loadFields "nodeType" (dumpFields fields ++ [("attributes", .obj attributes)]) = .ok fields
  | [], _, _, _ => rfl
  | (name, value) :: rest, h, hnames, hfree => by
      rw [fieldsWellFormed, Bool.and_eq_true] at h
      simp only [nodesInFields, List.mem_append] at hfree
      obtain ⟨hname, hrest⟩ := List.forall_mem_cons.mp hnames
      rw [dumpFields, List.cons_append, loadFields, if_pos hname,
        loadValue_dump h.1 fun n hn => hfree n (.inl hn),
        loadFields_dump attributes h.2 hrest fun n hn => hfree n (.inr hn)]
      rfl

end

/-! ## Dumping a tree -/

mutual

@[simp] theorem Node.hidesNode_of_wellFormed :
    ∀ {n : Node}, n.wellFormed = true → n.hidesNode = false
  | ⟨_, _, _, _⟩, h => by
      rw [Node.hidesNode]
      exact fieldsHideNode_of_wellFormed (Node.wellFormed_mk_iff.mp h).2.2.2

@[simp] theorem Value.hidesNode_of_wellFormed :
    ∀ {value : Value}, value.wellFormed = true → value.hidesNode = false
  | .node _, h => Node.hidesNode_of_wellFormed h
  | .list _, h => itemsHideNode_of_wellFormed h
  | .scalar _, _ => rfl
  | .obj _, _ => rfl
  | .pair _ _, h => by cases h

@[simp] theorem itemsHideNode_of_wellFormed :
    ∀ {items : List Value}, itemsWellFormed items = true → itemsHideNode items = false
  | [], _ => rfl
  | item :: rest, h => by
      rw [itemsWellFormed, Bool.and_eq_true] at h
      rw [itemsHideNode, Value.hidesNode_of_wellFormed h.1, itemsHideNode_of_wellFormed h.2]
      rfl

@[simp] theorem fieldsHideNode_of_wellFormed :
    ∀ {fields : List (String × Value)}, fieldsWellFormed fields = true →
      fieldsHideNode fields = false
  | [], _ => rfl
  | (_, value) :: rest, h => by
      rw [fieldsWellFormed, Bool.and_eq_true] at h
      rw [fieldsHideNode, Value.hidesNode_of_wellFormed h.1, fieldsHideNode_of_wellFormed h.2]
      rfl

end

@[simp] theorem mapM_node?_map_node (nodes : List Node) :
    (nodes.map Value.node).mapM Value.node? = some nodes := by
  induction nodes with
  | nil => rfl
  | cons n rest ih =>
      rw [List.map_cons, List.mapM_cons, ih]
      rfl

@[simp] theorem dumpableNodes_map_node {nodes : List Node} (h : ∀ n ∈ nodes, n.hidesNode = false) :
    dumpableNodes (nodes.map .node) = .ok nodes := by
  have hany : nodes.any Node.hidesNode = false :=
    List.any_eq_false.mpr fun n hn => by simp [h n hn]
  rw [dumpableNodes, mapM_node?_map_node]
  simp only [hany]
  rfl

@[simp] theorem dumpTree_of_wellFormed {nodes : List Node} (h : ∀ n ∈ nodes, n.wellFormed = true) :
    dumpTree (nodes.map .node) = .ok (.arr (nodes.map Node.dump)) := by
  rw [dumpTree, dumpableNodes_map_node fun n hn => Node.hidesNode_of_wellFormed (h n hn)]
  rfl

theorem loadTree_dump {nodes : List Node} (h : ∀ n ∈ nodes, n.wellFormed = true)
    (hfree : ∀ n ∈ nodes.flatMap Node.nodes, Record.has n.fields "nodeType" = false) :
    loadTree false (.arr (nodes.map Node.dump)) = .ok nodes := by
  have hnodes : (nodes.map Node.dump).mapM loadNode = .ok nodes := by
    induction nodes with
    | nil => rfl
    | cons n rest ih =>
        obtain ⟨hn, hrest⟩ := List.forall_mem_cons.mp h
        simp only [List.flatMap_cons, List.mem_append] at hfree
        have hload : loadNode n.dump = .ok n :=
          (loadNode_dump hn fun m hm => hfree m (.inl hm)).2
        rw [List.map_cons, List.mapM_cons, hload, ih hrest fun m hm => hfree m (.inr hm)]
        rfl
  rw [loadTree, loadNodes, hnodes]
  rfl

end ScriptSandbox
