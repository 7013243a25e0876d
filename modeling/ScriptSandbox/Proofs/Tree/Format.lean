import ScriptSandbox.Proofs.Runs
import ScriptSandbox.Tree.Load

/-!
# The format of tree files

A tree file is a list of nodes, or one node alone.  Loading looks at every object that
is shaped like a node, and at whatever stands where a node is asked for.
`Json.candidates` lists them in the order in which they are looked at: what is inside
an object before the object.  A file is loaded if none of them is at fault, and else
the faults of the first one are reported.
-/

namespace ScriptSandbox

/-! ## Every kind has a spelling -/

@[simp] theorem NameForm.mem_all (form : NameForm) : form ∈ NameForm.all := by
  cases form <;> decide

@[simp] theorem Statement.mem_all (which : Statement) : which ∈ Statement.all := by
  cases which <;> decide

@[simp] theorem Arithmetic.mem_all (op : Arithmetic) : op ∈ Arithmetic.all := by
  cases op <;> decide

@[simp] theorem Comparison.mem_all (op : Comparison) : op ∈ Comparison.all := by
  cases op <;> decide

@[simp] theorem Unary.mem_all (op : Unary) : op ∈ Unary.all := by
  cases op <;> decide

@[simp] theorem Cast.mem_all (target : Cast) : target ∈ Cast.all := by
  cases target <;> decide

@[simp] theorem MagicConst.mem_all (which : MagicConst) : which ∈ MagicConst.all := by
  cases which <;> decide

@[simp] theorem Expression.mem_all (which : Expression) : which ∈ Expression.all := by
  cases which <;>
    simp [Expression.all, Arithmetic.mem_all, Comparison.mem_all, Unary.mem_all, Cast.mem_all]

@[simp] theorem Literal.mem_all (which : Literal) : which ∈ Literal.all := by
  cases which <;> simp [Literal.all, MagicConst.mem_all]

@[simp] theorem Kind.mem_all (kind : Kind) : kind ∈ Kind.all := by
  cases kind <;>
    simp [Kind.all, NameForm.mem_all, Statement.mem_all, Expression.mem_all, Literal.mem_all]

@[simp] theorem Kind.ofSpelling?_eq_none_iff {text : String} :
    Kind.ofSpelling? text = none ↔ ∀ kind : Kind, kind.spelling ≠ text := by
  simp [Kind.ofSpelling?, Kind.mem_all]

/-! ## Nodes in a file -/

/-- The kind is that of the entry `kind`, or else of `nodeType`; attributes are an object. -/
structure IsNodeObject (fields : Record Json) : Prop where
  kind : ∃ kind : Kind, Record.get? fields (kindEntry fields) = some (.str kind.spelling)
  attributes : ∀ value, Record.get? fields "attributes" = some value →
    ∃ entries, value = .obj entries

namespace Json

def IsNode (data : Json) : Prop :=
  ∃ fields, data = .obj fields ∧ IsNodeObject fields

/-- The objects shaped like nodes that are reached through fields and lists. -/
inductive Holds : Json → Json → Prop where
  | self {fields : Record Json} (hshaped : isNodeShaped fields = true) :
      Holds (.obj fields) (.obj fields)
  | field {fields : Record Json} {entry : String × Json} {inner : Json}
      (hshaped : isNodeShaped fields = true) (hentry : entry ∈ fields)
      (hname : isFieldName (kindEntry fields) entry.1 = true) (hinner : Holds entry.2 inner) :
      Holds (.obj fields) inner
  | item {items : List Json} {item inner : Json} (hitem : item ∈ items)
      (hinner : Holds item inner) : Holds (.arr items) inner

/-- What a file has at its top, an object being the only thing there. -/
def topLevel? : Json → Option (List Json)
  | .scalar _ => none
  | .arr items => some items
  | .obj fields => some [.obj fields]

/-- Objects shaped like nodes, in which all objects of that shape are nodes. -/
def IsTree (data : Json) : Prop :=
  ∃ items, data.topLevel? = some items ∧
    ∀ item ∈ items, (∃ fields, item = .obj fields ∧ isNodeShaped fields = true) ∧
      ∀ inner, item.Holds inner → inner.IsNode

end Json

/-! ## Faults -/

def kindFaults (fields : Record Json) : List NodeFault :=
  match Record.get? fields (kindEntry fields) with
  | none => [.missingKind]
  | some (.str text) => if Kind.ofSpelling? text = none then [.unknownKind] else []
  | some _ => [.unknownKind]

def attributesFaults (fields : Record Json) : List NodeFault :=
  match Record.get? fields "attributes" with
  | none => []
  | some (.obj _) => []
  | some _ => [.attributesNotAnObject]

/-- What is wrong with a value as a node, apart from what is inside it. -/
def Json.nodeFaults : Json → List NodeFault
  | .obj fields => kindFaults fields ++ attributesFaults fields
  | _ => [.notAnObject]

@[simp] theorem kindFaults_eq_nil_iff {fields : Record Json} :
    kindFaults fields = [] ↔
      ∃ kind : Kind, Record.get? fields (kindEntry fields) = some (.str kind.spelling) := by
  unfold kindFaults
  split
  next hget => simp [hget]
  next text hget =>
    simp only [hget, Kind.ofSpelling?_eq_none_iff, ite_eq_right_iff, reduceCtorEq, imp_false,
      Classical.not_forall, Classical.not_not, Option.some.injEq, Json.scalar.injEq,
      Scalar.str.injEq]
    exact exists_congr fun kind => eq_comm
  next value hvalue hget =>
    simp only [reduceCtorEq, false_iff, not_exists]
    intro kind hkind
    exact hvalue _ (Option.some.inj (hget.symm.trans hkind))

@[simp] theorem attributesFaults_eq_nil_iff {fields : Record Json} :
    attributesFaults fields = [] ↔
      ∀ value, Record.get? fields "attributes" = some value → ∃ entries, value = .obj entries := by
  unfold attributesFaults
  split
  next hget => simp [hget]
  next hget => simp [hget]
  next value hvalue hget =>
    simp only [reduceCtorEq, false_iff]
    intro h
    obtain ⟨entries, rfl⟩ := h value hget
    exact hvalue entries rfl

@[simp] theorem Json.nodeFaults_eq_nil_iff {data : Json} : data.nodeFaults = [] ↔ data.IsNode := by
  cases data with
  | obj fields =>
      rw [nodeFaults, List.append_eq_nil_iff, kindFaults_eq_nil_iff, attributesFaults_eq_nil_iff]
      constructor
      · rintro ⟨hkind, hattributes⟩
        exact ⟨fields, rfl, hkind, hattributes⟩
      · rintro ⟨_, heq, hkind, hattributes⟩
        cases heq
        exact ⟨hkind, hattributes⟩
  | scalar value => simp [nodeFaults, IsNode]
  | arr items => simp [nodeFaults, IsNode]

@[simp] theorem IsNodeObject.isNodeShaped {fields : Record Json} (h : IsNodeObject fields) :
    isNodeShaped fields = true := by
  obtain ⟨kind, hkind⟩ := h.kind
  rw [ScriptSandbox.isNodeShaped, Bool.or_eq_true]
  by_cases hhas : Record.has fields "kind" = true
  · exact .inl hhas
  · rw [kindEntry, if_neg hhas] at hkind
    exact .inr (by rw [Record.has, hkind, Option.isSome_some])

/-! ## The order in which a file is looked at -/

namespace Json

mutual

def nodeObjects : Json → List Json
  | .scalar _ => []
  | .arr items => nodeObjectsIn items
  | .obj fields =>
      if isNodeShaped fields then nodeObjectsInFields (kindEntry fields) fields ++ [.obj fields]
      else []
  termination_by structural data => data

def nodeObjectsIn : List Json → List Json
  | [] => []
  | item :: rest => nodeObjects item ++ nodeObjectsIn rest
  termination_by structural items => items

def nodeObjectsInFields (kindEntry : String) : List (String × Json) → List Json
  | [] => []
  | (name, item) :: rest =>
      if isFieldName kindEntry name then nodeObjects item ++ nodeObjectsInFields kindEntry rest
      else nodeObjectsInFields kindEntry rest
  termination_by structural fields => fields

end

def asked : Json → List Json
  | .obj fields => nodeObjectsInFields (kindEntry fields) fields ++ [.obj fields]
  | data => [data]

def candidates (data : Json) : List Json :=
  (data.topLevel?.getD []).flatMap asked

@[simp] theorem mem_nodeObjectsIn {inner : Json} {items : List Json} :
    inner ∈ nodeObjectsIn items ↔ ∃ item ∈ items, inner ∈ item.nodeObjects := by
  induction items with
  | nil => simp [nodeObjectsIn]
  | cons item rest ih => simp [nodeObjectsIn, ih]

@[simp] theorem mem_nodeObjectsInFields {inner : Json} {kindEntry : String}
    {fields : List (String × Json)} :
    inner ∈ nodeObjectsInFields kindEntry fields ↔
      ∃ entry ∈ fields, isFieldName kindEntry entry.1 = true ∧ inner ∈ entry.2.nodeObjects := by
  induction fields with
  | nil => simp [nodeObjectsInFields]
  | cons entry rest ih =>
      obtain ⟨name, item⟩ := entry
      by_cases hname : isFieldName kindEntry name = true <;>
        simp [nodeObjectsInFields, hname, ih]

private theorem Holds.mem_nodeObjects {data inner : Json} (h : data.Holds inner) :
    inner ∈ data.nodeObjects := by
  induction h with
  | self hshaped =>
      rw [nodeObjects, if_pos hshaped]
      exact List.mem_append_right _ (List.mem_singleton_self _)
  | field hshaped hentry hname _ ih =>
      rw [nodeObjects, if_pos hshaped]
      exact List.mem_append_left _ (mem_nodeObjectsInFields.mpr ⟨_, hentry, hname, ih⟩)
  | item hitem _ ih =>
      rw [nodeObjects]
      exact mem_nodeObjectsIn.mpr ⟨_, hitem, ih⟩

mutual

private theorem holds_of_mem_nodeObjects :
    ∀ {data inner : Json}, inner ∈ data.nodeObjects → data.Holds inner
  | .scalar _, _, h => by cases h
  | .arr _, _, h => by
      obtain ⟨item, hitem, hinner⟩ := holds_of_mem_nodeObjectsIn h
      exact .item hitem hinner
  | .obj fields, inner, h => by
      rw [nodeObjects] at h
      split at h
      case isTrue hshaped =>
        rcases List.mem_append.mp h with h | h
        · obtain ⟨entry, hentry, hname, hinner⟩ := holds_of_mem_nodeObjectsInFields h
          exact .field hshaped hentry hname hinner
        · rw [List.mem_singleton] at h
          subst h
          exact .self hshaped
      case isFalse => cases h

private theorem holds_of_mem_nodeObjectsIn :
    ∀ {items : List Json} {inner : Json}, inner ∈ nodeObjectsIn items →
      ∃ item ∈ items, item.Holds inner
  | [], _, h => by cases h
  | item :: rest, inner, h => by
      rw [nodeObjectsIn, List.mem_append] at h
      rcases h with h | h
      · exact ⟨item, List.mem_cons_self, holds_of_mem_nodeObjects h⟩
      · obtain ⟨other, hother, hinner⟩ := holds_of_mem_nodeObjectsIn h
        exact ⟨other, List.mem_cons_of_mem item hother, hinner⟩

private theorem holds_of_mem_nodeObjectsInFields :
    ∀ {kindEntry : String} {fields : List (String × Json)} {inner : Json},
      inner ∈ nodeObjectsInFields kindEntry fields →
      ∃ entry ∈ fields, isFieldName kindEntry entry.1 = true ∧ entry.2.Holds inner
  | _, [], _, h => by cases h
  | kindEntry, (name, item) :: rest, inner, h => by
      rw [nodeObjectsInFields] at h
      split at h
      case isTrue hname =>
        rcases List.mem_append.mp h with h | h
        · exact ⟨(name, item), List.mem_cons_self, hname, holds_of_mem_nodeObjects h⟩
        · obtain ⟨entry, hentry, hfield, hinner⟩ := holds_of_mem_nodeObjectsInFields h
          exact ⟨entry, List.mem_cons_of_mem _ hentry, hfield, hinner⟩
      case isFalse =>
        obtain ⟨entry, hentry, hfield, hinner⟩ := holds_of_mem_nodeObjectsInFields h
        exact ⟨entry, List.mem_cons_of_mem _ hentry, hfield, hinner⟩

end

@[simp] theorem mem_nodeObjects {data inner : Json} : inner ∈ data.nodeObjects ↔ data.Holds inner :=
  ⟨holds_of_mem_nodeObjects, Holds.mem_nodeObjects⟩

private theorem forall_mem_asked_iff {item : Json} :
    (∀ value ∈ item.asked, value.IsNode) ↔
      (∃ fields, item = .obj fields ∧ isNodeShaped fields = true) ∧
        ∀ inner, item.Holds inner → inner.IsNode := by
  have hself : ∀ {value : Json}, (∀ fields, value ≠ .obj fields) → ¬ value.IsNode := by
    rintro value hvalue ⟨fields, rfl, _⟩
    exact hvalue fields rfl
  cases item with
  | scalar value => simp [asked, hself]
  | arr items => simp [asked, hself]
  | obj fields =>
      simp only [← mem_nodeObjects]
      constructor
      · intro h
        have hobject : (Json.obj fields).IsNode :=
          h (.obj fields) (List.mem_append_right _ (List.mem_singleton_self _))
        obtain ⟨_, heq, hnode⟩ := hobject
        cases heq
        refine ⟨⟨fields, rfl, hnode.isNodeShaped⟩, ?_⟩
        rw [nodeObjects, if_pos hnode.isNodeShaped]
        exact h
      · rintro ⟨⟨_, heq, hshaped⟩, h⟩
        cases heq
        rw [nodeObjects, if_pos hshaped] at h
        exact h

private theorem isTree_iff {data : Json} :
    data.IsTree ↔ (∀ value, data ≠ .scalar value) ∧ ∀ value ∈ data.candidates, value.IsNode := by
  unfold IsTree candidates
  simp only [← forall_mem_asked_iff]
  cases data with
  | arr items => simp only [topLevel?, Option.some.injEq, exists_eq_left', ne_eq, reduceCtorEq,
      not_false_eq_true, implies_true, true_and, Option.getD_some, List.forall_mem_flatMap]
  | _ => simp [topLevel?]

end Json

/-! ## What is reported -/

/-- The faults are those of the first value at fault. -/
def FirstFaults (values : List Json) (faults : List NodeFault) : Prop :=
  ∃ before offender after, values = before ++ offender :: after ∧
    (∀ value ∈ before, value.nodeFaults = []) ∧ offender.nodeFaults = faults ∧ faults ≠ []

private theorem FirstFaults.append_right {values : List Json} {faults : List NodeFault}
    (h : FirstFaults values faults) (others : List Json) :
    FirstFaults (values ++ others) faults := by
  obtain ⟨before, offender, after, rfl, hbefore, hfaults⟩ := h
  exact ⟨before, offender, after ++ others, by simp, hbefore, hfaults⟩

private theorem FirstFaults.append_left {values others : List Json} {faults : List NodeFault}
    (hvalues : ∀ value ∈ values, value.nodeFaults = []) (h : FirstFaults others faults) :
    FirstFaults (values ++ others) faults := by
  obtain ⟨before, offender, after, rfl, hbefore, hfaults⟩ := h
  refine ⟨values ++ before, offender, after, by simp, ?_, hfaults⟩
  exact List.forall_mem_append.mpr ⟨hvalues, hbefore⟩

theorem FirstFaults.find? {values : List Json} {faults : List NodeFault}
    (h : FirstFaults values faults) :
    (values.find? fun value => value.nodeFaults ≠ []).map Json.nodeFaults = some faults := by
  obtain ⟨before, offender, after, rfl, hbefore, rfl, hne⟩ := h
  rw [List.find?_append, List.find?_cons_of_pos (by simpa using hne)]
  rw [List.find?_eq_none.mpr (by simpa using hbefore)]
  rfl

theorem FirstFaults.unique {values : List Json} {faults others : List NodeFault}
    (h : FirstFaults values faults) (h' : FirstFaults values others) : faults = others :=
  Option.some.inj (h.find?.symm.trans h'.find?)

def Reports {α : Type} (values : List Json) : Except (List NodeFault) α → Prop
  | .ok _ => ∀ value ∈ values, value.nodeFaults = []
  | .error faults => FirstFaults values faults

namespace Reports

variable {α β : Type} {values others : List Json}

theorem bind {result : Except (List NodeFault) α} {next : α → Except (List NodeFault) β}
    (h : Reports values result) (hnext : ∀ value, Reports others (next value)) :
    Reports (values ++ others) (result >>= next) := by
  cases result with
  | error faults => exact FirstFaults.append_right h others
  | ok value =>
      have hothers := hnext value
      change Reports (values ++ others) (next value)
      cases hresult : next value with
      | error faults =>
          rw [hresult] at hothers
          exact hothers.append_left h
      | ok result =>
          rw [hresult] at hothers
          exact List.forall_mem_append.mpr ⟨h, hothers⟩

private theorem bind_ok {result : Except (List NodeFault) α} {make : α → β}
    (h : Reports values result) :
    Reports values (result >>= fun value => .ok (make value)) := by
  cases result with
  | error faults => exact h
  | ok value => exact h

private theorem eq_error_iff {result : Except (List NodeFault) α} (h : Reports values result)
    {faults : List NodeFault} : result = .error faults ↔ FirstFaults values faults := by
  cases result with
  | error reported =>
      constructor
      · intro heq
        cases heq
        exact h
      · intro hfaults
        rw [FirstFaults.unique h hfaults]
  | ok value =>
      constructor
      · intro heq
        cases heq
      · rintro ⟨before, offender, after, rfl, _, hfaults, hne⟩
        have hnone : offender.nodeFaults = [] := h offender (by simp)
        exact absurd (hfaults.symm.trans hnone) hne

private theorem exists_ok_iff {result : Except (List NodeFault) α} (h : Reports values result) :
    (∃ value, result = .ok value) ↔ ∀ value ∈ values, value.nodeFaults = [] := by
  cases result with
  | ok value => exact ⟨fun _ => h, fun _ => ⟨value, rfl⟩⟩
  | error faults =>
      constructor
      · rintro ⟨_, heq⟩
        cases heq
      · intro hall
        obtain ⟨before, offender, after, rfl, _, hfaults, hne⟩ := h
        exact absurd (hfaults.symm.trans (hall offender (by simp))) hne

end Reports

/-! ## Loading -/

def faultsOf {α : Type} : Except NodeFault α → List NodeFault
  | .ok _ => []
  | .error fault => [fault]

private theorem kindFaults_eq (fields : Record Json) : kindFaults fields = faultsOf
    (loadKind fields) := by
  unfold kindFaults loadKind
  generalize Record.get? fields (kindEntry fields) = entry
  rcases entry with _ | (_ | _ | _ | text) | _ | _
  case some.scalar.str => cases hkind : Kind.ofSpelling? text <;> simp [hkind, faultsOf]
  all_goals rfl

private theorem attributesFaults_eq (fields : Record Json) :
    attributesFaults fields = faultsOf (loadAttributes fields) := by
  unfold attributesFaults loadAttributes
  generalize Record.get? fields "attributes" = entry
  rcases entry with _ | _ | _ | _ <;> rfl

private theorem assemble_reports (fields : Record Json) (loaded : Record Value) :
    Reports [.obj fields] (assemble fields loaded) := by
  have hfaults : (Json.obj fields).nodeFaults =
      faultsOf (loadKind fields) ++ faultsOf (loadAttributes fields) := by
    rw [Json.nodeFaults, kindFaults_eq, attributesFaults_eq]
  have hfirst : ∀ faults, (Json.obj fields).nodeFaults = faults → faults ≠ [] →
      FirstFaults [.obj fields] faults :=
    fun faults heq hne => ⟨[], .obj fields, [], rfl, by simp, heq, hne⟩
  unfold assemble
  cases hkind : loadKind fields with
  | ok kind =>
      cases hattributes : loadAttributes fields with
      | ok attributes =>
          rw [hkind, hattributes] at hfaults
          exact List.forall_mem_singleton.mpr hfaults
      | error fault =>
          rw [hkind, hattributes] at hfaults
          exact hfirst [fault] hfaults (List.cons_ne_nil _ _)
  | error fault =>
      cases hattributes : loadAttributes fields with
      | ok attributes =>
          rw [hkind, hattributes] at hfaults
          exact hfirst [fault] hfaults (List.cons_ne_nil _ _)
      | error other =>
          rw [hkind, hattributes] at hfaults
          exact hfirst [fault, other] hfaults (List.cons_ne_nil _ _)

mutual

private theorem loadValue_reports : ∀ data : Json, Reports data.nodeObjects (loadValue data)
  | .scalar _ => by
      rw [loadValue, Json.nodeObjects]
      exact fun _ h => by cases h
  | .arr items => by
      rw [loadValue, Json.nodeObjects]
      exact (loadItems_reports items).bind_ok
  | .obj fields => by
      rw [loadValue, Json.nodeObjects]
      split
      · refine (loadFields_reports (kindEntry fields) fields).bind fun loaded => ?_
        exact (assemble_reports fields loaded).bind_ok
      · exact fun _ h => by cases h

private theorem loadItems_reports : ∀ items : List Json, Reports (Json.nodeObjectsIn items)
    (loadItems items)
  | [] => fun _ h => by cases h
  | item :: rest => by
      rw [loadItems, Json.nodeObjectsIn]
      exact (loadValue_reports item).bind fun _ => (loadItems_reports rest).bind_ok

private theorem loadFields_reports (kindEntry : String) : ∀ fields : List (String × Json),
    Reports (Json.nodeObjectsInFields kindEntry fields) (loadFields kindEntry fields)
  | [] => fun _ h => by cases h
  | (name, item) :: rest => by
      rw [loadFields, Json.nodeObjectsInFields]
      split
      · exact (loadValue_reports item).bind fun _ => (loadFields_reports kindEntry rest).bind_ok
      · exact loadFields_reports kindEntry rest

end

private theorem loadNode_reports (data : Json) : Reports data.asked (loadNode data) := by
  have hother : ∀ value : Json, value.nodeFaults = [.notAnObject] →
      FirstFaults [value] [.notAnObject] :=
    fun value hfaults => ⟨[], value, [], rfl, by simp, hfaults, by simp⟩
  cases data with
  | scalar value => exact hother (.scalar value) rfl
  | arr items => exact hother (.arr items) rfl
  | obj fields =>
      rw [loadNode, Json.asked]
      exact (loadFields_reports (kindEntry fields) fields).bind (assemble_reports fields)

private theorem mapM_loadNode_reports (items : List Json) :
    Reports (items.flatMap Json.asked) (items.mapM loadNode) := by
  induction items with
  | nil => exact fun _ h => by cases h
  | cons item rest ih =>
      rw [List.mapM_cons, List.flatMap_cons]
      exact (loadNode_reports item).bind fun _ => ih.bind_ok

private theorem loadNodes_of_topLevel? {data : Json} {items : List Json}
    (h : data.topLevel? = some items) :
    loadNodes data = (items.mapM loadNode).mapError .invalidNode := by
  cases data with
  | scalar value => cases h
  | arr items =>
      cases h
      rfl
  | obj fields =>
      cases h
      rfl

/-- A file is loaded exactly if it is a tree.  A scalar is no list; of anything else the
faults reported are those of the first value at fault. -/
theorem loadTree_format (strip : Bool) (data : Json) :
    ((∃ nodes, loadTree strip data = .ok nodes) ↔ data.IsTree) ∧
      (∀ value, loadTree strip data = .error (.notAList value) ↔ data = .scalar value) ∧
      ∀ faults, loadTree strip data = .error (.invalidNode faults) ↔
        FirstFaults data.candidates faults := by
  cases htop : data.topLevel? with
  | none =>
      obtain ⟨value, rfl⟩ : ∃ value, data = .scalar value := by
        cases data with
        | scalar value => exact ⟨value, rfl⟩
        | arr items => cases htop
        | obj fields => cases htop
      have hload : loadTree strip (.scalar value) = .error (.notAList value) := rfl
      refine ⟨?_, ?_, ?_⟩
      · simp [hload, Json.isTree_iff]
      · simp [hload]
      · simp [hload, Json.candidates, Json.topLevel?, FirstFaults]
  | some items =>
      have hscalar : ∀ value, data ≠ .scalar value := by
        rintro value rfl
        cases htop
      have hcandidates : data.candidates = items.flatMap Json.asked := by
        rw [Json.candidates, htop, Option.getD_some]
      have hreports := mapM_loadNode_reports items
      rw [← hcandidates] at hreports
      have htree : data.IsTree ↔ ∃ nodes, items.mapM loadNode = .ok nodes := by
        simp only [Json.isTree_iff, ← Json.nodeFaults_eq_nil_iff, hreports.exists_ok_iff, ne_eq,
          hscalar, not_false_eq_true, implies_true, true_and]
      rw [htree]
      simp only [← hreports.eq_error_iff, loadTree, loadNodes_of_topLevel? htop]
      cases items.mapM loadNode with
      | ok nodes =>
          have hnodes : (Except.ok nodes : Except (List NodeFault) (List Node)).mapError
              TreeFault.invalidNode = .ok nodes := rfl
          simp [hnodes, bind, Except.bind, hscalar]
      | error faults =>
          have hfaults : (Except.error faults : Except (List NodeFault) (List Node)).mapError
              TreeFault.invalidNode = .error (.invalidNode faults) := rfl
          simp [hfaults, bind, Except.bind, hscalar]

end ScriptSandbox
