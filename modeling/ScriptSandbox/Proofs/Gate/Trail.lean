import ScriptSandbox.Config.Basic
import ScriptSandbox.Proofs.Gate.Passes
import ScriptSandbox.Proofs.Json.Names

/-!
# The audit trail

The log of a store tells what its lists and tables hold: there is one entry for each name
that is allowed, for each alias and for each namespace, in the order in which they were
added.  Every change adds its entry together with what it adds to the store, so this
holds after any sequence of operations and passes, aborted ones included.
-/

namespace ScriptSandbox

open Store (Change Evolves)

private theorem Category.name_injective {category other : Category}
    (h : category.name = other.name) :
    category = other := by
  have hname := congrArg Category.ofName? h
  rw [ofName?_name, ofName?_name] at hname
  exact Option.some.inj hname

namespace Store

/-- The entries of one operation. -/
def logged (store : Store) (operation : String) : List AuditEntry :=
  store.log.filter fun entry => entry.operation = operation

/-- The allow-lists and the tables of aliases and namespaces can be read off the log. -/
structure Replays (store : Store) : Prop where
  audited : store.audited = true
  whitelist : store.logged "WHITELIST" =
    store.allowed.map fun entry => .whitelist entry.1.name entry.2
  allowed : store.allowed.Nodup
  aliases : store.logged "ALIAS" = store.aliases.map fun entry => .aliasName entry.1 entry.2
  aliasNames : (Record.names store.aliases).Nodup
  namespaces : ∃ names : List String, store.logged "NAMESPACE" = names.map .namespaceDecl ∧
    names.map (Text.dropLeading '\\') = store.namespaces

@[simp] theorem replays_empty (options : Options) : (Store.empty options true).Replays where
  audited := rfl
  whitelist := rfl
  allowed := List.nodup_nil
  aliases := rfl
  aliasNames := List.nodup_nil
  namespaces := ⟨[], rfl, rfl⟩

@[simp] theorem logged_record {store : Store} (haudited : store.audited = true) (entry : AuditEntry)
    (operation : String) :
    (store.record entry).logged operation =
      store.logged operation ++ if entry.operation = operation then [entry] else [] := by
  simp [logged, record, haudited, List.filter_append, List.filter_singleton]

namespace Replays

variable {store : Store} (h : store.Replays)

include h

theorem record {entry : AuditEntry}
    (hentry : entry.operation ≠ "WHITELIST" ∧ entry.operation ≠ "ALIAS" ∧
      entry.operation ≠ "NAMESPACE") : (store.record entry).Replays := by
  obtain ⟨hwhitelist, halias, hnamespace⟩ := hentry
  have hsame : ∀ operation, entry.operation ≠ operation →
      (store.record entry).logged operation = store.logged operation := by
    intro operation hne
    rw [logged_record h.audited, if_neg hne, List.append_nil]
  have hstore : store.record entry = { store with log := store.log ++ [entry] } := by
    rw [Store.record, if_pos h.audited]
  constructor
  · rw [hstore]
    exact h.audited
  · rw [hsame _ hwhitelist, hstore]
    exact h.whitelist
  · rw [hstore]
    exact h.allowed
  · rw [hsame _ halias, hstore]
    exact h.aliases
  · rw [hstore]
    exact h.aliasNames
  · rw [hsame _ hnamespace, hstore]
    exact h.namespaces

theorem whitelisted (category : Category) (name : String) :
    (store.whitelist category name).Replays := by
  simp only [Store.whitelist]
  split
  · exact h
  · next hnew =>
    rw [not_or] at hnew
    rw [Store.record, if_pos h.audited]
    refine { h with whitelist := ?_, allowed := ?_, aliases := ?_, namespaces := ?_ }
    · have hlogged := h.whitelist
      simp only [logged] at hlogged ⊢
      simp [hlogged, AuditEntry.whitelist]
    · exact List.nodup_append.mpr ⟨h.allowed, by simp, by
        intro entry hentry other hother heq
        rw [List.mem_singleton.mp hother] at heq
        exact hnew.2 (heq ▸ hentry)⟩
    · simpa [logged, AuditEntry.whitelist] using h.aliases
    · simpa [logged, AuditEntry.whitelist] using h.namespaces

private theorem aliasDefined (name : String) (shortName : Option String) :
    (store.defineAlias name shortName).Replays := by
  simp only [defineAlias]
  split
  · exact h
  · next hnew =>
    rw [Bool.not_eq_true, Record.has_eq_false_iff] at hnew
    rw [Store.record, if_pos h.audited]
    refine { h with whitelist := ?_, aliases := ?_, aliasNames := ?_, namespaces := ?_ }
    · simpa [logged, AuditEntry.aliasName] using h.whitelist
    · have hlogged := h.aliases
      simp only [logged] at hlogged ⊢
      simp [hlogged, Record.set_of_not_mem shortName hnew, AuditEntry.aliasName]
    · exact Record.nodup_names_set _ shortName h.aliasNames
    · simpa [logged, AuditEntry.aliasName] using h.namespaces

private theorem namespaceDefined (name : String) : (store.defineNamespace name).Replays := by
  unfold defineNamespace
  split
  · exact h
  · rw [Store.record, if_pos h.audited]
    refine { h with whitelist := ?_, aliases := ?_, namespaces := ?_ }
    · simpa [logged, AuditEntry.namespaceDecl] using h.whitelist
    · simpa [logged, AuditEntry.namespaceDecl] using h.aliases
    · obtain ⟨names, hlogged, hnames⟩ := h.namespaces
      refine ⟨names ++ [name], ?_, ?_⟩
      · simp only [logged] at hlogged ⊢
        simp [hlogged, AuditEntry.namespaceDecl]
      · simp [hnames]

theorem apply (change : Change) : (change.apply store).Replays := by
  cases change with
  | whitelist category name => exact h.whitelisted category name
  | defineNamespace name => exact h.namespaceDefined name
  | defineAlias name shortName => exact h.aliasDefined name shortName
  | blacklist category name =>
      simp only [Change.apply, blacklist]
      split
      · exact h
      · exact { h with }
  | noteCheck category name extra =>
      simp only [Change.apply, noteCheck]
      split
      · exact { h with }
      · exact h
  | report violation => exact h.record (by simp [AuditEntry.violation])
  | passed nodes => exact h.record (by simp [AuditEntry.passed])
  | failed kind => exact h.record (by simp [AuditEntry.failed])
  | _ => exact { h with }

theorem evolves {C : Change → Prop} {after : Store} (hevolves : Evolves C store after) :
    after.Replays :=
  hevolves.keeps (fun change _ _ hmid => hmid.apply change) h

private theorem nodup_whitelist : (store.logged "WHITELIST").Nodup := by
  rw [h.whitelist]
  refine List.Pairwise.map _ (fun entry other hne heq => hne ?_) h.allowed
  simp only [AuditEntry.whitelist, AuditEntry.mk.injEq, List.cons.injEq, Prod.mk.injEq, true_and,
    and_true, Json.scalar.injEq, Scalar.str.injEq] at heq
  exact Prod.ext (Category.name_injective heq.1) heq.2

end Replays

private theorem defineAll_reaches (definitions : Definitions) (store : Store) :
    store.Reaches (store.defineAll definitions) := by
  have hfunctions : ∀ store : Store,
      store.Reaches (definitions.functions.foldl (·.override ·) store) :=
    Evolves.changes .override (fun _ => trivial) definitions.functions
  have hconsts : ∀ store : Store,
      store.Reaches (definitions.magicConsts.foldl (·.defineMagicConst ·) store) :=
    Evolves.changes .defineMagicConst (fun _ => trivial) definitions.magicConsts
  have hclasses : ∀ store : Store, store.Reaches
      (definitions.classes.foldl (fun store entry => store.defineClass entry.1 entry.2) store) :=
    Evolves.changes (fun entry : String × String => .defineClass entry.1 entry.2)
      (fun _ => trivial) definitions.classes
  have hnamespaces : ∀ store : Store,
      store.Reaches (definitions.namespaces.foldl (·.defineNamespace ·) store) :=
    Evolves.changes .defineNamespace (fun _ => trivial) definitions.namespaces
  have haliases : ∀ store : Store, store.Reaches
      (definitions.aliases.foldl (fun store entry => store.defineAlias entry.1 entry.2) store) :=
    Evolves.changes (fun entry : String × Option String => .defineAlias entry.1 entry.2)
      (fun _ => trivial) definitions.aliases
  have htables := ((hfunctions store).trans (hconsts _)).trans (hclasses _)
  exact (htables.trans (hnamespaces _)).trans (haliases _)

theorem ofConfig_reaches (config : Config) (audited : Bool) :
    (Store.empty config.options audited).Reaches (Store.ofConfig config audited) := by
  have hallowed : ∀ (store : Store) (entry : Category × List String),
      store.Reaches (store.whitelistAll entry.1 entry.2) := fun store entry =>
    Evolves.changes (Change.whitelist entry.1) (fun _ => trivial) entry.2 store
  have hdenied : ∀ (store : Store) (entry : Category × List String),
      store.Reaches (store.blacklistAll entry.1 entry.2) := fun store entry =>
    Evolves.changes (Change.blacklist entry.1) (fun _ => trivial) entry.2 store
  have hlists := (Evolves.foldl hallowed config.whitelist
    (Store.empty config.options audited)).trans (Evolves.foldl hdenied config.blacklist _)
  exact hlists.trans (defineAll_reaches config.definitions _)

end Store

namespace Gate

/-- How a store is made that keeps a log. -/
inductive Start where
  | fresh (options : Options)
  | configured (config : Config)

def Start.store : Start → Store
  | .fresh options => Store.empty options true
  | .configured config => Store.ofConfig config true

private theorem Start.replays (start : Start) : start.store.Replays := by
  cases start with
  | fresh options => exact Store.replays_empty options
  | configured config =>
      exact (Store.replays_empty config.options).evolves (Store.ofConfig_reaches config true)

/--
Whatever is done with a store that keeps a log, the log lists the allowed names, the aliases
and the namespaces, each exactly once.  This holds while a pass is under way, too.
-/
theorem log_replays (start : Start) (steps : List Step) :
    (afterSteps steps start.store).Replays ∧
      ((afterSteps steps start.store).logged "WHITELIST").Nodup ∧
      ∀ pass : Pass, ∀ offer ∈ pass.offers (afterSteps steps start.store),
        offer.state.Replays := by
  have hsteps : (afterSteps steps start.store).Replays :=
    start.replays.evolves (afterSteps_reaches steps start.store)
  refine ⟨hsteps, hsteps.nodup_whitelist, fun pass offer hoffer => ?_⟩
  exact hsteps.evolves (pass.offer_evolves _ hoffer)

end Gate

end ScriptSandbox
