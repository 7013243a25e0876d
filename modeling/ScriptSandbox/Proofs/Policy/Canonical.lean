import ScriptSandbox.Proofs.Json.Names
import ScriptSandbox.Proofs.Policy.Definitions
import ScriptSandbox.Proofs.Text.Case

/-!
# Names are kept in their normal spelling

A normal spelling is its own normal spelling.  So the lists and tables of a store, which are
only ever given normal spellings, hold them as they are looked up, and a store that is asked
about a name answers the same for its normal spelling.
-/

namespace ScriptSandbox

open Store (Change)

namespace Category

@[simp] theorem Folding.apply_apply (folding : Folding) (name : String) :
    folding.apply (folding.apply name) = folding.apply name := by
  cases folding with
  | lower => exact Text.lower_lower name
  | upper => exact Text.upper_upper name
  | exact => rfl

@[simp] theorem Folding.not_leads_apply (folding : Folding) {name : String}
    (h : Text.leads '\\' name = false) : Text.leads '\\' (folding.apply name) = false := by
  cases folding with
  | lower => exact Text.not_leads_lower h
  | upper => exact Text.not_leads_upper h
  | exact => exact h

@[simp] theorem normalize_normalize (category : Category) (name : String) :
    category.normalize (category.normalize name) = category.normalize name := by
  have hleads := category.folding.not_leads_apply (Text.not_leads_dropLeading '\\' name)
  rw [normalize, normalize, Text.dropLeading_of_not_leads hleads, Folding.apply_apply]

def AllNormal (category : Category) (names : List String) : Prop :=
  ∀ name ∈ names, category.normalize name = name

variable {category : Category} {names : List String}

theorem AllNormal.nil : category.AllNormal [] := fun _ h => absurd h List.not_mem_nil

theorem AllNormal.insertNew (h : category.AllNormal names) (name : String) :
    category.AllNormal (insertNew names (category.normalize name)) := by
  intro other hother
  obtain hother | rfl := (Store.mem_insertNew _ _).mp hother
  · exact h other hother
  · exact category.normalize_normalize name

theorem AllNormal.set {α : Type} {record : Record α} (h : category.AllNormal (Record.names record))
    (name : String) (value : α) :
    category.AllNormal (Record.names (Record.set record (category.normalize name) value)) := by
  rw [Record.names_set]
  split
  · exact h
  · exact List.forall_mem_append.mpr
      ⟨h, List.forall_mem_singleton.mpr (category.normalize_normalize name)⟩

end Category

namespace Store

def AllListed (entries : List (Category × String)) : Prop :=
  ∀ entry ∈ entries, entry.2 ≠ "" ∧ entry.1.normalize entry.2 = entry.2

theorem AllListed.append {entries : List (Category × String)} (h : AllListed entries)
    {category : Category} {name : String} (hne : category.normalize name ≠ "") :
    AllListed (entries ++ [(category, category.normalize name)]) := by
  refine List.forall_mem_append.mpr ⟨h, List.forall_mem_singleton.mpr ⟨hne, ?_⟩⟩
  exact category.normalize_normalize name

/--
The lists and tables hold names in normal spelling.  Namespaces are kept in the spelling in
which they were first given, without leading backslashes.
-/
structure Canonical (store : Store) : Prop where
  allowed : AllListed store.allowed
  denied : AllListed store.denied
  overrides : Category.functions.AllNormal store.overrides
  declared : Category.functions.AllNormal store.declared
  classes : Category.classes.AllNormal (Record.names store.classes)
  aliases : Category.aliases.AllNormal (Record.names store.aliases)
  magicConsts : Category.magicConstants.AllNormal store.magicConsts
  bare : ∀ name ∈ store.namespaces, Text.leads '\\' name = false
  distinct : (store.namespaces.map Category.namespaces.normalize).Nodup

@[simp] theorem canonical_empty (options : Options) (audited : Bool) :
    (Store.empty options audited).Canonical where
  allowed := fun _ h => absurd h List.not_mem_nil
  denied := fun _ h => absurd h List.not_mem_nil
  overrides := .nil
  declared := .nil
  classes := .nil
  aliases := .nil
  magicConsts := .nil
  bare := fun _ h => absurd h List.not_mem_nil
  distinct := List.nodup_nil

namespace Canonical

variable {store : Store} (h : store.Canonical)

include h

theorem record (entry : AuditEntry) : (store.record entry).Canonical := by
  unfold Store.record
  split
  · exact { h with }
  · exact h

theorem whitelist (category : Category) (name : String) :
    (store.whitelist category name).Canonical := by
  simp only [Store.whitelist]
  split
  case isTrue => exact h
  case isFalse hnew =>
    have hstore : { store with
        allowed := store.allowed ++ [(category, category.normalize name)] }.Canonical :=
      { h with allowed := h.allowed.append (not_or.mp hnew).1 }
    exact hstore.record _

theorem blacklist (category : Category) (name : String) :
    (store.blacklist category name).Canonical := by
  simp only [Store.blacklist]
  split
  case isTrue => exact h
  case isFalse hne =>
    refine { h with denied := ?_ }
    simp only [insertNew]
    split
    · exact h.denied
    · exact h.denied.append hne

theorem defineNamespace (name : String) : (store.defineNamespace name).Canonical := by
  unfold Store.defineNamespace
  split
  case isTrue => exact h
  case isFalse hnew =>
    have hfresh : Category.namespaces.normalize name ∉
        store.namespaces.map Category.namespaces.normalize := by
      intro hmem
      obtain ⟨other, hother, hsame⟩ := List.mem_map.mp hmem
      exact hnew (List.any_eq_true.mpr ⟨other, hother, decide_eq_true hsame⟩)
    have hstore : { store with
        namespaces := store.namespaces ++ [Text.dropLeading '\\' name] }.Canonical := by
      refine { h with bare := ?_, distinct := ?_ }
      · exact List.forall_mem_append.mpr
          ⟨h.bare, List.forall_mem_singleton.mpr (Text.not_leads_dropLeading '\\' name)⟩
      · rw [List.map_append, List.map_singleton, Category.normalize_dropLeading]
        refine List.nodup_append.mpr ⟨h.distinct, by simp, ?_⟩
        rintro other hother _ hlast rfl
        exact hfresh (List.mem_singleton.mp hlast ▸ hother)
    exact hstore.record _

theorem defineAlias (name : String) (shortName : Option String) :
    (store.defineAlias name shortName).Canonical := by
  simp only [Store.defineAlias]
  split
  case isTrue => exact h
  case isFalse =>
    have hstore : { store with
        aliases := store.aliases.set (Category.aliases.normalize name) shortName }.Canonical :=
      { h with aliases := h.aliases.set name shortName }
    exact hstore.record _

theorem apply (change : Change) : (change.apply store).Canonical := by
  cases change with
  | whitelist category name => exact h.whitelist category name
  | blacklist category name => exact h.blacklist category name
  | setPredicate category predicate => exact { h with }
  | override name => exact { h with overrides := h.overrides.insertNew name }
  | declare name => exact { h with declared := h.declared.insertNew name }
  | defineClass name substitute => exact { h with classes := h.classes.set name _ }
  | defineNamespace name => exact h.defineNamespace name
  | defineAlias name shortName => exact h.defineAlias name shortName
  | defineMagicConst name => exact { h with magicConsts := h.magicConsts.insertNew name }
  | noteCheck category name extra =>
      simp only [Change.apply, noteCheck]
      split
      · exact { h with }
      · exact h
  | report violation => exact h.record _
  | passed nodes => exact h.record _
  | failed kind => exact h.record _

theorem evolves {C : Change → Prop} {after : Store} (hevolves : Evolves C store after) :
    after.Canonical :=
  hevolves.keeps (fun change _ _ hmid => hmid.apply change) h

end Canonical

-- Whether a text is empty, which `Judge.nonEmptyName` looks at first, is no question to the store.
/-- All that a store can be asked about a name has the same answer for its normal spelling. -/
structure AnswersAlike (store : Store) : Prop where
  isWhitelisted : ∀ category name,
    store.isWhitelisted category (category.normalize name) = store.isWhitelisted category name
  isBlacklisted : ∀ category name,
    store.isBlacklisted category (category.normalize name) = store.isBlacklisted category name
  check : ∀ category name extra,
    store.check category (category.normalize name) extra = store.check category name extra
  noteCheck : ∀ category name extra,
    store.noteCheck category (category.normalize name) extra = store.noteCheck category name extra
  isOverridden : ∀ name,
    store.isOverridden (Category.functions.normalize name) = store.isOverridden name
  isDeclared : ∀ name,
    store.isDeclared (Category.functions.normalize name) = store.isDeclared name
  isDefinedClass : ∀ name,
    store.isDefinedClass (Category.classes.normalize name) = store.isDefinedClass name
  substitute? : ∀ name,
    store.substitute? (Category.classes.normalize name) = store.substitute? name
  isDefinedNamespace : ∀ name,
    store.isDefinedNamespace (Category.namespaces.normalize name) = store.isDefinedNamespace name
  isDefinedAlias : ∀ name,
    store.isDefinedAlias (Category.aliases.normalize name) = store.isDefinedAlias name
  aliasOf? : ∀ name,
    store.aliasOf? (Category.aliases.normalize name) = store.aliasOf? name
  isDefinedMagicConst : ∀ name,
    store.isDefinedMagicConst (Category.magicConstants.normalize name) =
      store.isDefinedMagicConst name

theorem answersAlike (store : Store) : store.AnswersAlike := by
  constructor <;> intros
  all_goals simp only [isWhitelisted, isBlacklisted, check, noteCheck, isOverridden, isDeclared,
    isDefinedClass, substitute?, isDefinedNamespace, isDefinedAlias, aliasOf?,
    isDefinedMagicConst, Category.normalize_normalize]

end Store

end ScriptSandbox
