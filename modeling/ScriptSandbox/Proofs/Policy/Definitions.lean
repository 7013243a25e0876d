import Mathlib.Data.List.DropRight
import ScriptSandbox.Proofs.Gate.Growth
import ScriptSandbox.Proofs.Policy.Paired

/-!
# What a store has defined

A script that is judged adds to a store the functions, namespaces and aliases that it
defines.  What a single change adds does not depend on the store, so two stores, one of
which holds more than the other, differ by as much after they are judged against.
-/

namespace ScriptSandbox

open Store (Change)

/-- A function, a namespace or an alias, under its name in normal spelling. -/
inductive Definition where
  | function (key : String)
  | namespaceName (key : String)
  | aliasName (key : String)
  deriving DecidableEq, Repr

/-- The definition is in the tables of the store. -/
def Store.Holds (store : Store) : Definition → Prop
  | .function key => key ∈ store.declared
  | .namespaceName key => ∃ name ∈ store.namespaces, Category.namespaces.normalize name = key
  | .aliasName key => key ∈ Record.names store.aliases

def Store.Change.definition? : Change → Option Definition
  | .declare name => some (.function (Category.functions.normalize name))
  | .defineNamespace name => some (.namespaceName (Category.namespaces.normalize name))
  | .defineAlias name _ => some (.aliasName (Category.aliases.normalize name))
  | _ => none

@[simp] theorem Category.normalize_dropLeading (category : Category) (name : String) :
    category.normalize (Text.dropLeading '\\' name) = category.normalize name := by
  have hdrop : Text.dropLeading '\\' (Text.dropLeading '\\' name) = Text.dropLeading '\\' name := by
    simp only [Text.dropLeading, String.toList_ofList]
    rw [List.dropWhile_idempotent]
  rw [normalize, hdrop, normalize]

namespace Store

variable (store : Store) (definition : Definition)

@[simp] theorem holds_record (entry : AuditEntry) :
    (store.record entry).Holds definition ↔ store.Holds definition := by
  unfold record
  split <;> exact Iff.rfl

@[simp] theorem holds_noteCheck (category : Category) (name : String) (extra : List Json) :
    (store.noteCheck category name extra).Holds definition ↔ store.Holds definition := by
  simp only [noteCheck]
  split <;> exact Iff.rfl

private theorem holds_declare (name : String) :
    (store.declare name).Holds definition ↔
      store.Holds definition ∨ definition = .function (Category.functions.normalize name) := by
  cases definition with
  | function key => simp [Holds, declare, mem_insertNew]
  | namespaceName key => simp [Holds, declare]
  | aliasName key => simp [Holds, declare]

private theorem holds_of_isDefinedNamespace {name : String}
    (h : store.isDefinedNamespace name = true) :
    store.Holds (.namespaceName (Category.namespaces.normalize name)) := by
  obtain ⟨other, hother, hsame⟩ := List.any_eq_true.mp h
  exact ⟨other, hother, of_decide_eq_true hsame⟩

@[simp] theorem holds_defineNamespace (name : String) :
    (store.defineNamespace name).Holds definition ↔
      store.Holds definition ∨
        definition = .namespaceName (Category.namespaces.normalize name) := by
  unfold defineNamespace
  split
  case isTrue hold =>
    refine ⟨.inl, ?_⟩
    rintro (hdefined | rfl)
    · exact hdefined
    · exact store.holds_of_isDefinedNamespace hold
  case isFalse =>
    rw [holds_record]
    cases definition with
    | function key => simp [Holds]
    | namespaceName key =>
        simp only [Holds, List.mem_append, List.mem_singleton, or_and_right, exists_or,
          exists_eq_left, Category.normalize_dropLeading, Definition.namespaceName.injEq]
        exact or_congr_right eq_comm
    | aliasName key => simp [Holds]

@[simp] theorem holds_defineAlias (name : String) (shortName : Option String) :
    (store.defineAlias name shortName).Holds definition ↔
      store.Holds definition ∨ definition = .aliasName (Category.aliases.normalize name) := by
  simp only [defineAlias]
  split
  case isTrue hold =>
    refine ⟨.inl, ?_⟩
    rintro (hdefined | rfl)
    · exact hdefined
    · by_contra hnew
      exact Bool.false_ne_true ((Record.has_eq_false_iff.mpr hnew).symm.trans hold)
  case isFalse hnew =>
    rw [Bool.not_eq_true, Record.has_eq_false_iff] at hnew
    rw [holds_record]
    cases definition with
    | function key => simp [Holds]
    | namespaceName key => simp [Holds]
    | aliasName key => simp [Holds, Record.names_set, hnew]

private theorem holds_apply {change : Change} (h : Change.OrReport Change.Validates change) :
    (change.apply store).Holds definition ↔
      store.Holds definition ∨ change.definition? = some definition := by
  cases change with
  | declare name =>
      simp only [Change.apply, holds_declare, Change.definition?, Option.some.injEq, eq_comm]
  | defineNamespace name =>
      simp [Change.apply, Change.definition?, eq_comm]
  | defineAlias name shortName =>
      simp [Change.apply, Change.definition?, eq_comm]
  | noteCheck category name extra =>
      simp [Change.apply, holds_noteCheck, Change.definition?]
  | report violation => simp [Change.apply, holds_record, Change.definition?]
  | _ => exact h.elim

/-- The other store permits the same, and holds besides what the base holds. -/
structure Beside (base store other : Store) : Prop where
  policy : store.SamePolicy other
  holds : ∀ definition, other.Holds definition ↔ base.Holds definition ∨ store.Holds definition

theorem Beside.apply {base store other : Store} (h : base.Beside store other) (change : Change)
    (hchange : change.Validates) : base.Beside (change.apply store) (change.apply other) where
  policy := (samePolicy_apply store (.of hchange)).symm.trans
    (h.policy.trans (samePolicy_apply other (.of hchange)))
  holds definition := by
    rw [holds_apply _ _ (.of hchange), holds_apply _ _ (.of hchange), h.holds, or_assoc]

theorem pairing_beside (base : Store) : Judge.Pairing base.Beside where
  samePolicy h := h.policy
  record {s t} entry other h :=
    { policy := pairing_samePolicy.record entry other h.policy
      holds := fun definition => by simp [h.holds] }
  noteCheck category name extra h := h.apply (.noteCheck category name extra) trivial
  declare name h := h.apply (.declare name) trivial
  defineNamespace name h := h.apply (.defineNamespace name) trivial
  defineAlias name shortName h := h.apply (.defineAlias name shortName) trivial

end Store

theorem Judge.Pairing.flip {I : Store → Store → Prop} (h : Judge.Pairing I) :
    Judge.Pairing fun s t => I t s where
  samePolicy hst := (h.samePolicy hst).symm
  record entry other hst := h.record other entry hst
  noteCheck category name extra hst := h.noteCheck category name extra hst
  declare name hst := h.declare name hst
  defineNamespace name hst := h.defineNamespace name hst
  defineAlias name shortName hst := h.defineAlias name shortName hst

end ScriptSandbox
