import ScriptSandbox.Gate
import ScriptSandbox.Proofs.Enforce.Generated
import ScriptSandbox.Proofs.Enforce.Verdicts
import ScriptSandbox.Proofs.Walk.Placement

/-!
# Sound nodes

The invariant of validation.  A node without the mark meets the policy and stems from
a node that was offered, and a method call on the handle is a call that judging an
offered node has built.  What judging puts in the place of a sound node holds only
sound nodes, and it never puts the handle itself there.
-/

namespace ScriptSandbox

/-- The node is its origin, up to a class or uses that were replaced. -/
structure Node.StemsFrom (n origin : Node) : Prop where
  kind : n.kind = origin.kind
  attributes : n.attributes = origin.attributes
  field : ∀ name, name ≠ "class" → name ≠ "uses" →
    (n.field name).fresh = (origin.field name).fresh

theorem Node.StemsFrom.fresh {n origin : Node} (h : n.StemsFrom origin) :
    n.fresh.StemsFrom origin where
  kind := n.kind_fresh.trans h.kind
  attributes := n.attributes_fresh.trans h.attributes
  field name hclass huses := by
    rw [n.field_fresh, Value.fresh_fresh]
    exact h.field name hclass huses

structure Node.Sound (store : Store) (Origin : Node → Prop) (n : Node) : Prop where
  meets : n.isSynthetic = false → n.Meets store
  stems : n.isSynthetic = false → ∃ origin, Origin origin ∧ n.StemsFrom origin
  calls : n.CallsHandle store.handle →
    ∃ origin call, Origin origin ∧ RuntimeCall store origin call ∧ n.fresh = call.fresh

def Value.HoldsSound (store : Store) (Origin : Node → Prop) (value : Value) : Prop :=
  ∀ n ∈ value.nodes, n.Sound store Origin

def Value.Sound (store : Store) (Origin : Node → Prop) (value : Value) : Prop :=
  value.HoldsSound store Origin ∧ ∀ n, value = .node n → ¬ n.IsHandle store.handle

variable {store : Store} {Origin : Node → Prop}

namespace Node

theorem Sound.fresh {n : Node} (h : n.Sound store Origin) : n.fresh.Sound store Origin where
  meets hmark := (h.meets (n.isSynthetic_fresh ▸ hmark)).fresh
  stems hmark := by
    obtain ⟨origin, horigin, hstems⟩ := h.stems (n.isSynthetic_fresh ▸ hmark)
    exact ⟨origin, horigin, hstems.fresh⟩
  calls hcalls := by
    obtain ⟨origin, call, horigin, hcall, hfresh⟩ := h.calls hcalls.of_fresh
    exact ⟨origin, call, horigin, hcall, n.fresh_fresh.trans hfresh⟩

private theorem Sound.of_marked {n : Node} (hmark : n.isSynthetic = true)
    (hkind : n.kind ≠ .expression .methodCall) : n.Sound store Origin where
  meets h := by rw [hmark] at h; cases h
  stems h := by rw [hmark] at h; cases h
  calls h := absurd h.1 hkind

private theorem Sound.of_runtimeCall {origin call : Node} (horigin : Origin origin)
    (hcall : RuntimeCall store origin call) (hmark : call.isSynthetic = true) :
    call.Sound store Origin where
  meets h := by rw [hmark] at h; cases h
  stems h := by rw [hmark] at h; cases h
  calls _ := ⟨origin, call, horigin, hcall, rfl⟩

end Node

namespace Value

private theorem holdsSound_eq_each :
    HoldsSound store Origin = Each fun n => n.Sound store Origin := rfl

@[simp] theorem holdsSound_node {n : Node} : (Value.node n).HoldsSound store Origin ↔
    n.Sound store Origin ∧ ∀ entry ∈ n.fields, entry.2.HoldsSound store Origin :=
  each_node

@[simp] theorem holdsSound_list {items : List Value} : (Value.list items).HoldsSound store Origin ↔
    ∀ item ∈ items, item.HoldsSound store Origin :=
  each_list

private theorem holdsSound_of_nodes_eq_nil {value : Value} (h : value.nodes = []) :
    value.HoldsSound store Origin :=
  each_of_nodes_eq_nil h

theorem HoldsSound.fresh {value : Value} (h : value.HoldsSound store Origin) :
    value.fresh.HoldsSound store Origin :=
  Each.fresh (fun _ hn => hn.fresh) h

theorem HoldsSound.items {value : Value} {items : List Value}
    (h : value.HoldsSound store Origin) (hitems : value.itemsOrNone = .ok items) :
    ∀ item ∈ items, item.HoldsSound store Origin :=
  Each.items h hitems

end Value

namespace Node

def FieldsSound (store : Store) (Origin : Node → Prop) (n : Node) : Prop :=
  ∀ entry ∈ n.fields, entry.2.HoldsSound store Origin

theorem FieldsSound.items {n : Node} {name : String} {items : List Value}
    (h : n.FieldsSound store Origin) (hitems : n.fieldItems name = .ok items) :
    ∀ item ∈ items, item.HoldsSound store Origin :=
  (field_of_fields h (Value.holdsSound_of_nodes_eq_nil rfl) name).items hitems

theorem FieldsSound.field {n m : Node} {name : String} (h : n.FieldsSound store Origin)
    (hfield : n.field name = .node m) : (Value.node m).HoldsSound store Origin :=
  hfield ▸ field_of_fields h (Value.holdsSound_of_nodes_eq_nil rfl) name

end Node

@[simp] theorem Node.isSynthetic_of_marked {n : Node} {attributes : Record Json}
    (h : n.attributes = Node.marked attributes) : n.isSynthetic = true := by
  rw [Node.isSynthetic, Node.attr, h, Node.marked, Record.get?_set_self]
  rfl

private theorem Value.Settled.holdsSound_of_holds {value : Value}
    (h : value.Settled (Value.HoldsSound store Origin)) : value.HoldsSound store Origin := by
  rw [holdsSound_eq_each] at h
  exact h.each

@[simp] theorem Generated.closed_holdsSound : Generated.Closed (Value.HoldsSound store Origin) where
  free h := Value.holdsSound_of_nodes_eq_nil h
  node _ _ _ hmethod _ h :=
    Value.holdsSound_node.mpr ⟨.of_marked (Node.isSynthetic_of_marked rfl) hmethod,
      fun entry hentry => (h entry hentry).holdsSound_of_holds⟩

private theorem RuntimeArgument.holdsSound {n : Node} {item : Value} (h : RuntimeArgument n item)
    (hfields : n.FieldsSound store Origin) : item.HoldsSound store Origin :=
  Generated.closed_holdsSound.argument h (fun _ _ hitems => hfields.items hitems)
    fun _ _ hcallee _ => (hfields.field hcallee).fresh

private theorem RuntimeCall.holdsSound {origin call : Node} (horigin : Origin origin)
    (hfields : origin.FieldsSound store Origin) (h : RuntimeCall store origin call) :
    (Value.node call).HoldsSound store Origin := by
  obtain ⟨method, args, rfl, hargs⟩ := h.arguments
  refine Value.holdsSound_node.mpr ⟨.of_runtimeCall horigin h (Node.isSynthetic_of_marked rfl), ?_⟩
  have hsettled := Generated.closed_holdsSound.runtimeCall_settled store.handle method origin
    fun item hitem => (hargs item hitem).holdsSound hfields
  exact fun entry hentry => (hsettled entry hentry).holdsSound_of_holds

theorem Node.not_isHandle_of_meets {n : Node} (h : n.Meets store) :
    ¬ n.IsHandle store.handle := by
  rintro ⟨hkind, hname⟩
  rw [Node.Meets, hkind] at h
  obtain ⟨name, hfield, hfree, _⟩ := h
  rw [hname] at hfield
  cases hfield
  exact hfree rfl

private theorem Value.Settled.holdsSound {value : Value}
    (h : value.Settled (Value.Sound store Origin)) :
    value.HoldsSound store Origin := by
  cases value with
  | list items => exact Value.holdsSound_list.mpr fun item hitem => (h item hitem).1
  | pair name value => exact Value.holdsSound_of_nodes_eq_nil h
  | node n => exact h.1
  | scalar value => exact h.1
  | obj fields => exact h.1

theorem Value.Settled.items {value : Value} {items : List Value}
    (h : value.Settled (Value.Sound store Origin)) (hitems : value.itemsOrNone = .ok items) :
    ∀ item ∈ items, item.Sound store Origin := by
  intro item hitem
  refine ⟨h.holdsSound.items hitems item hitem, ?_⟩
  rintro m rfl
  exact (h.of_item hitems hitem).2 m rfl

theorem Value.sound_of_nodes_eq_nil {value : Value} (h : value.nodes = []) :
    value.Sound store Origin := by
  refine ⟨Value.holdsSound_of_nodes_eq_nil h, ?_⟩
  rintro n rfl
  exact absurd h n.nodes_ne_nil

namespace Node

variable {n : Node}

private theorem Settled.fieldsSound (h : n.Settled (Value.Sound store Origin)) :
    n.FieldsSound store Origin :=
  fun entry hentry => (h entry hentry).holdsSound

theorem Settled.field (h : n.Settled (Value.Sound store Origin)) (name : String) :
    (n.field name).Settled (Value.Sound store Origin) :=
  field_of_fields h (Value.sound_of_nodes_eq_nil rfl) name

theorem Settled.object (h : n.Settled (Value.Sound store Origin)) {object : Node}
    (hobject : n.field "var" = .node object) : ¬ object.IsHandle store.handle := by
  have hsettled := h.field "var"
  rw [hobject] at hsettled
  exact hsettled.2 object rfl

end Node

private theorem Value.sound_of_meets {origin n : Node} (horigin : Origin origin)
    (hsettled : origin.Settled (Value.Sound store Origin)) (hstems : n.StemsFrom origin)
    (hobject : n.field "var" = origin.field "var") (hfields : n.FieldsSound store Origin)
    (hmeets : n.Meets store) : (Value.node n).Sound store Origin := by
  have hsound : n.Sound store Origin := by
    refine ⟨fun _ => hmeets, fun _ => ⟨origin, horigin, hstems⟩, ?_⟩
    rintro ⟨_, object, hfield, hhandle⟩
    rw [hobject] at hfield
    exact absurd hhandle (hsettled.object hfield)
  refine ⟨Value.holdsSound_node.mpr ⟨hsound, hfields⟩, ?_⟩
  rintro m hm
  cases hm
  exact Node.not_isHandle_of_meets hmeets

private theorem Value.sound_of_copy {origin : Node} {name : String} {value : Value}
    (horigin : Origin origin) (hsettled : origin.Settled (Value.Sound store Origin))
    (hname : name = "class" ∨ name = "uses") (hvalue : value.HoldsSound store Origin)
    (hmeets : (({ origin with generated := false } : Node).setField name value).Meets store) :
    (Value.node (({ origin with generated := false } : Node).setField name value)).Sound
      store Origin := by
  have hother : ∀ other, other ≠ name →
      (({ origin with generated := false } : Node).setField name value).field other =
        origin.field other := fun other hne => Node.field_setField_ne _ value hne
  refine Value.sound_of_meets horigin hsettled ?_ ?_ ?_ hmeets
  · refine ⟨rfl, rfl, fun other hclass huses => ?_⟩
    rw [hother other]
    rcases hname with rfl | rfl
    · exact hclass
    · exact huses
  · apply hother
    rcases hname with rfl | rfl <;> decide
  · exact Node.fields_setField hsettled.fieldsSound hvalue

private theorem Value.sound_of_kind {n : Node} (h : (Value.node n).HoldsSound store Origin)
    (hkind : n.kind ≠ .expression .variableRef) : (Value.node n).Sound store Origin := by
  refine ⟨h, ?_⟩
  rintro m hm hhandle
  cases hm
  exact hkind hhandle.1

private theorem Generated.guarded_holdsSound {n computed : Node} (horigin : Origin n)
    (hfields : n.FieldsSound store Origin) (hrule : n.kind.rule = .funcCall)
    (hcallee : n.field "name" = .node computed) (hname : computed.kind.isName = false) :
    (Value.node (guarded store.handle n computed)).HoldsSound store Origin := by
  refine Value.holdsSound_node.mpr
    ⟨.of_marked (Node.isSynthetic_of_marked rfl) fun h => (by cases h), ?_⟩
  refine List.forall_mem_cons.mpr ⟨?_, List.forall_mem_cons.mpr ⟨?_, ?_⟩⟩
  · exact (RuntimeCall.callee hrule hcallee hname).holdsSound horigin hfields
  · refine Value.holdsSound_node.mpr ⟨.of_marked (Node.isSynthetic_of_marked rfl) ?_, hfields⟩
    intro hkind
    change n.kind = _ at hkind
    rw [hkind] at hrule
    cases hrule
  · exact List.forall_mem_singleton.mpr closed_holdsSound.nullConst

theorem Outcome.places {n : Node} {verdict : Verdict} (h : Outcome store n verdict)
    (horigin : Origin n) (hsettled : n.Settled (Value.Sound store Origin)) :
    verdict.Places (Value.Sound store Origin) n := by
  have hfields := hsettled.fieldsSound
  cases h with
  | kept hmeets =>
      exact Value.sound_of_meets horigin hsettled ⟨rfl, rfl, fun _ _ _ => rfl⟩ rfl hfields hmeets
  | called hcall =>
      refine Value.sound_of_kind (hcall.holdsSound horigin hfields) fun hkind => ?_
      cases hcall <;> cases hkind
  | guarded hrule hcallee hname =>
      refine Value.sound_of_kind
        (Generated.guarded_holdsSound horigin hfields hrule hcallee hname) fun hkind => ?_
      cases hkind
  | @imported uses hrule hallow huses =>
      have hmeets : (n.withHandle store.handle uses).Meets store := by
        change n.kind.rule.Meets store _
        rw [hrule]
        exact hallow
      have hhandle : (Value.node (Generated.handleUse store.handle)).HoldsSound store Origin :=
        Generated.closed_holdsSound.handleUse store.handle
      refine Value.sound_of_copy horigin hsettled (.inr rfl) (Value.holdsSound_list.mpr ?_) hmeets
      exact List.forall_mem_append.mpr
        ⟨hfields.items huses, List.forall_mem_singleton.mpr hhandle⟩
  | @substituted written name substitute hrule hwritten hname hsubstitute hmeets =>
      have hkind : written.kind.isName = true := Value.isName_of_name? hwritten
      exact Value.sound_of_copy horigin hsettled (.inl rfl)
        (Generated.closed_holdsSound.renamed substitute hkind) hmeets
  | flattened hrule hitems => exact (hsettled.field "stmts").items hitems
  | dropped hrule => exact trivial

end ScriptSandbox
