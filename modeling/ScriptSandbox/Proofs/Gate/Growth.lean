import ScriptSandbox.Proofs.Gate.Passes
import ScriptSandbox.Proofs.Json.Names
import ScriptSandbox.Proofs.Policy.AllowLists

/-!
# Growth of a store

Passes only add to a store: to its allow-lists, its declared functions and its tables of
namespaces and aliases.  Operations may add to deny-lists as well, but nothing takes a
name off one, so a name that is denied once is denied for good.
-/

namespace ScriptSandbox

open Store (Change Evolves)

namespace Store

/-- The later store permits by the same rules, and holds what the earlier one holds. -/
structure Grows (store after : Store) : Prop where
  options : after.options = store.options
  denied : after.denied = store.denied
  predicates : after.predicates = store.predicates
  overrides : after.overrides = store.overrides
  classes : after.classes = store.classes
  magicConsts : after.magicConsts = store.magicConsts
  allowed : store.allowed <+: after.allowed
  declared : store.declared <+: after.declared
  namespaces : store.namespaces <+: after.namespaces
  aliases : store.aliases <+: after.aliases

namespace Grows

variable {store mid after : Store}

@[simp] protected theorem refl (store : Store) : store.Grows store where
  options := rfl
  denied := rfl
  predicates := rfl
  overrides := rfl
  classes := rfl
  magicConsts := rfl
  allowed := List.prefix_refl _
  declared := List.prefix_refl _
  namespaces := List.prefix_refl _
  aliases := List.prefix_refl _

protected theorem trans (h : store.Grows mid) (h' : mid.Grows after) : store.Grows after where
  options := h'.options.trans h.options
  denied := h'.denied.trans h.denied
  predicates := h'.predicates.trans h.predicates
  overrides := h'.overrides.trans h.overrides
  classes := h'.classes.trans h.classes
  magicConsts := h'.magicConsts.trans h.magicConsts
  allowed := h.allowed.trans h'.allowed
  declared := h.declared.trans h'.declared
  namespaces := h.namespaces.trans h'.namespaces
  aliases := h.aliases.trans h'.aliases

theorem alias_kept (h : store.Grows after) {key : String} {shortName : Option String}
    (hkey : Record.get? store.aliases key = some shortName) :
    Record.get? after.aliases key = some shortName := by
  obtain ⟨more, hmore⟩ := h.aliases
  rw [← hmore, Record.get?_append, hkey]
  rfl

section

variable (h : store.Grows after)

include h

theorem handle_eq : after.handle = store.handle := by
  rw [Store.handle, h.options, Store.handle]

theorem flag_eq (flag : Flag) : after.flag flag = store.flag flag := by
  rw [Store.flag, h.options, Store.flag]

theorem allows_eq (feature : Feature) : after.allows feature = store.allows feature :=
  h.flag_eq (.allow feature)

theorem hasBlacklist_eq (category : Category) :
    after.hasBlacklist category = store.hasBlacklist category := by
  simp only [Store.hasBlacklist, Store.deniedIn, h.denied]

theorem isOverridden_eq (name : String) : after.isOverridden name = store.isOverridden name := by
  rw [Store.isOverridden, h.overrides, Store.isOverridden]

end

end Grows

variable (store : Store)

@[simp] theorem grows_record (entry : AuditEntry) : store.Grows (store.record entry) := by
  unfold record
  split <;> exact { Grows.refl store with }

@[simp] theorem grows_whitelist (category : Category) (name : String) :
    store.Grows (store.whitelist category name) := by
  simp only [whitelist]
  split
  · exact .refl store
  · have hlist : store.Grows
        { store with allowed := store.allowed ++ [(category, category.normalize name)] } :=
      { Grows.refl store with allowed := List.prefix_append _ _ }
    exact hlist.trans (grows_record _ _)

@[simp] theorem insertNew_prefix {α : Type} [DecidableEq α] (items : List α) (item : α) :
    items <+: insertNew items item := by
  unfold insertNew
  split
  · exact List.prefix_refl _
  · exact List.prefix_append _ _

@[simp] theorem mem_insertNew {α : Type} [DecidableEq α] {item : α} (items : List α) (new : α) :
    item ∈ insertNew items new ↔ item ∈ items ∨ item = new := by
  unfold insertNew
  split
  case isTrue hold =>
    refine ⟨.inl, ?_⟩
    rintro (hitem | rfl)
    · exact hitem
    · exact hold
  case isFalse => rw [List.mem_append, List.mem_singleton]

@[simp] theorem grows_declare (name : String) : store.Grows (store.declare name) :=
  { Grows.refl store with declared := insertNew_prefix _ _ }

@[simp]
theorem grows_defineNamespace (name : String) : store.Grows (store.defineNamespace name) := by
  unfold defineNamespace
  split
  · exact .refl store
  · have hlist : store.Grows
        { store with namespaces := store.namespaces ++ [Text.dropLeading '\\' name] } :=
      { Grows.refl store with namespaces := List.prefix_append _ _ }
    exact hlist.trans (grows_record _ _)

@[simp] theorem grows_defineAlias (name : String) (shortName : Option String) :
    store.Grows (store.defineAlias name shortName) := by
  simp only [defineAlias]
  split
  · exact .refl store
  · next hnew =>
    rw [Bool.not_eq_true, Record.has_eq_false_iff] at hnew
    have htable : store.Grows
        { store with
          aliases := Record.set store.aliases (Category.aliases.normalize name) shortName } := by
      refine { Grows.refl store with aliases := ?_ }
      rw [Record.set_of_not_mem shortName hnew]
      exact List.prefix_append _ _
    exact htable.trans (grows_record _ _)

@[simp] theorem grows_noteCheck (category : Category) (name : String) (extra : List Json) :
    store.Grows (store.noteCheck category name extra) := by
  simp only [noteCheck]
  split <;> exact { Grows.refl store with }

theorem grows_apply {change : Change} (h : Change.OrReport Change.Passes change) :
    store.Grows (change.apply store) := by
  cases change with
  | whitelist category name => exact grows_whitelist store category name
  | declare name => exact grows_declare store name
  | defineNamespace name => exact grows_defineNamespace store name
  | defineAlias name shortName => exact grows_defineAlias store name shortName
  | noteCheck category name extra => exact grows_noteCheck store category name extra
  | report violation => exact grows_record store _
  | _ => exact (h.elim id id).elim

theorem Evolves.grows {store after : Store}
    (h : Evolves (Change.OrReport Change.Passes) store after) : store.Grows after :=
  h.keeps (fun _ mid hchange hmid => hmid.trans (grows_apply mid hchange)) (.refl store)

theorem samePolicy_apply {change : Change} (h : Change.OrReport Change.Validates change) :
    store.SamePolicy (change.apply store) := by
  cases change with
  | declare name => exact samePolicy_declare store name
  | defineNamespace name => exact samePolicy_defineNamespace store name
  | defineAlias name shortName => exact samePolicy_defineAlias store name shortName
  | noteCheck category name extra => exact samePolicy_noteCheck store category name extra
  | report violation => exact samePolicy_record store _
  | _ => exact h.elim

theorem Evolves.samePolicy {store after : Store}
    (h : Evolves (Change.OrReport Change.Validates) store after) : store.SamePolicy after :=
  h.keeps (fun _ mid hchange hmid => hmid.trans (samePolicy_apply mid hchange)) (.refl store)

theorem declared_apply {change : Change} (h : Change.OrReport Change.Refers change) :
    (change.apply store).declared = store.declared := by
  cases change with
  | whitelist category name => exact declared_whitelist store category name
  | noteCheck category name extra => exact declared_noteCheck store category name extra
  | report violation => exact declared_record store _
  | defineNamespace name =>
      simp only [Change.apply, defineNamespace]
      split
      · rfl
      · exact declared_record _ _
  | defineAlias name shortName =>
      simp only [Change.apply, defineAlias]
      split
      · rfl
      · exact declared_record _ _
  | _ => exact (h.elim id id).elim

private theorem denied_apply (change : Change) : store.denied <+: (change.apply store).denied := by
  have hpass : Change.OrReport Change.Passes change →
      store.denied <+: (change.apply store).denied :=
    fun h => (grows_apply store h).denied ▸ List.prefix_refl _
  cases change with
  | blacklist category name =>
      simp only [Change.apply, blacklist]
      split
      · exact List.prefix_refl _
      · exact insertNew_prefix _ _
  | setPredicate category predicate => exact List.prefix_refl _
  | override name => exact List.prefix_refl _
  | defineClass name substitute => exact List.prefix_refl _
  | defineMagicConst name => exact List.prefix_refl _
  | passed nodes => exact (grows_record store _).denied ▸ List.prefix_refl _
  | failed kind => exact (grows_record store _).denied ▸ List.prefix_refl _
  | report violation => exact hpass trivial
  | whitelist category name => exact hpass (.inr trivial)
  | declare name => exact hpass (.inl trivial)
  | defineNamespace name => exact hpass (.inl trivial)
  | defineAlias name shortName => exact hpass (.inl trivial)
  | noteCheck category name extra => exact hpass (.inl trivial)

variable {store}

theorem Evolves.isBlacklisted {C : Change → Prop} {after : Store} (h : Evolves C store after)
    {category : Category} {name : String} (hdenied : store.isBlacklisted category name = true) :
    after.isBlacklisted category name = true := by
  refine h.keeps (P := fun mid => mid.isBlacklisted category name = true) ?_ hdenied
  intro change mid _ hmid
  simp only [Store.isBlacklisted, decide_eq_true_eq] at hmid ⊢
  exact (denied_apply mid change).subset hmid

@[simp] theorem check_of_isBlacklisted {category : Category} {name : String}
    (h : store.isBlacklisted category name = true) (extra : List Json) :
    store.check category name extra = false := by
  rw [isBlacklisted, decide_eq_true_eq] at h
  have hlist : store.hasBlacklist category = true := hasBlacklist_iff.mpr ⟨_, h⟩
  simp [check, listsAccept, hlist, h]

end Store

namespace Gate

/--
Passes, aborted or not, change no rule of a store and only add to what it holds; a
script that is judged adds nothing to an allow-list.  And whatever is done with a store,
passes included, a name on a deny-list stays rejected, also while a pass is under way.
-/
theorem passes_only_grow (store : Store) (passes : List Pass) :
    store.Grows (afterPasses passes store) ∧
      (∀ key shortName, Record.get? store.aliases key = some shortName →
        Record.get? (afterPasses passes store).aliases key = some shortName) ∧
      (∀ script, ((Pass.validation script).after store).allowed = store.allowed) ∧
      ∀ category name, store.isBlacklisted category name = true → ∀ steps extra,
        (afterSteps steps store).check category name extra = false ∧
          ∀ pass : Pass, ∀ offer ∈ pass.offers (afterSteps steps store),
            offer.state.check category name extra = false := by
  have hgrows : store.Grows (afterPasses passes store) := (afterPasses_evolves passes store).grows
  refine ⟨hgrows, fun key shortName => hgrows.alias_kept, fun script => ?_, ?_⟩
  · exact ((Pass.validation script).evolves store).samePolicy.allowed
  · intro category name hdenied steps extra
    have hsteps : (afterSteps steps store).isBlacklisted category name = true :=
      (afterSteps_reaches steps store).isBlacklisted hdenied
    refine ⟨Store.check_of_isBlacklisted hsteps extra, fun pass offer hoffer => ?_⟩
    have hoffered : offer.state.isBlacklisted category name = true :=
      (pass.offer_evolves _ hoffer).isBlacklisted hsteps
    exact Store.check_of_isBlacklisted hoffered extra

end Gate

end ScriptSandbox
