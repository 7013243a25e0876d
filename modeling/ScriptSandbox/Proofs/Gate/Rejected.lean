import ScriptSandbox.Proofs.Gate.Validation
import ScriptSandbox.Proofs.Harvest.Defining

/-!
# What a rejected script leaves behind

A script is harvested before it is judged, and the harvest stays when the script is
rejected.  So a rejected script grants the names that it defines itself, where the store
lets them be harvested and has a list on which they count, and it grants nothing else.
-/

namespace ScriptSandbox

open Store (Change Evolves)
open OwnHarvest (Adds Harvested)

namespace OwnHarvest

variable {store after : Store} {nodes : List Node} {category : Category} {key : String}

private theorem Adds.listsAccept_iff (h : Adds store nodes after)
    (hrejected : store.listsAccept category key = false) :
    after.listsAccept category key = true ↔
      store.hasWhitelist category = true ∧ Harvested store nodes category key := by
  cases hdenied : store.hasBlacklist category with
  | true =>
      -- Nothing is harvested into a category with a deny-list.
      have hnone : ¬ Harvested store nodes category key := by
        rintro ⟨_, n, _, name, hdefines, _⟩
        exact Bool.false_ne_true ((hasBlacklist_of_defines hdefines).symm.trans hdenied)
      have hsame : after.listsAccept category key = store.listsAccept category key := by
        rw [Bool.eq_iff_iff, Store.listsAccept_of_hasBlacklist _ ((h.grows.hasBlacklist_eq _).trans hdenied),
          Store.listsAccept_of_hasBlacklist _ hdenied, h.grows.denied, h.grows.allows_eq, h.allowed,
          or_iff_left hnone]
      rw [hsame, hrejected]
      simp [hnone]
  | false =>
      have hbefore := (Bool.eq_false_iff.mp hrejected)
      rw [Ne, Store.listsAccept_of_not_hasBlacklist _ hdenied] at hbefore
      rw [Store.listsAccept_of_not_hasBlacklist _ ((h.grows.hasBlacklist_eq _).trans hdenied), h.grows.allows_eq,
        h.allowed]
      cases hlist : store.hasWhitelist category with
      | true =>
          -- The list rejected the name, so the name was not on it.
          have hnew : (category, key) ∉ store.allowed := fun hmem =>
            hbefore ⟨.inr hmem, .inr (.inr hmem)⟩
          have hafter : after.hasWhitelist category = true := by
            obtain ⟨other, hother⟩ := Store.hasWhitelist_iff.mp hlist
            exact Store.hasWhitelist_iff.mpr ⟨other, h.grows.allowed.subset hother⟩
          constructor
          · rintro ⟨hlisted, _⟩
            have hmem := (hlisted.resolve_left (by simp [hafter])).resolve_left hnew
            exact ⟨rfl, hmem⟩
          · rintro ⟨_, hmem⟩
            exact ⟨.inr (.inr hmem), .inr (.inr (.inr hmem))⟩
      | false =>
          -- The name is a variable then that has to be on the list, and no list is begun.
          have hunlisted := not_and.mp hbefore (.inl hlist)
          rw [not_or, not_or, not_not] at hunlisted
          obtain ⟨rfl, hallow, hnew⟩ := hunlisted
          constructor
          · rintro ⟨_, hvariable | hvariable | hmem | ⟨_, n, _, name, hdefines, _⟩⟩
            · exact absurd rfl hvariable
            · exact absurd hvariable hallow
            · exact absurd hmem hnew
            · exact absurd (hasWhitelist_of_defines hdefines) (by simp [hlist])
          · rintro ⟨hnone, _⟩
            cases hnone

end OwnHarvest

namespace Gate

variable {store mid after : Store} {script : Tree} {violation : Violation}

private theorem harvested_of_rejected
    (hrun : (check script []).exec store = (.ok (.failed violation), after)) :
    ∃ mid, (harvestOwn script).exec store = (.ok (), mid) ∧ mid.SamePolicy after := by
  obtain ⟨last, hprepare, rfl⟩ := check_failed_iff.mp hrun
  have hnot := harvestOwn_ne_violation script store violation
  change (harvestOwn script >>= fun _ => validate script >>= _).exec store = _ at hprepare
  rw [Run.exec_bind] at hprepare
  cases hharvest : (harvestOwn script).exec store with
  | mk result mid =>
      rw [hharvest] at hprepare hnot
      cases result with
      | error failure =>
          cases hprepare
          exact absurd rfl hnot
      | ok value =>
          have hpass : mid.SamePolicy ((validate script).exec mid).2 := by
            have hvalidated := ((Pass.validation script).evolves mid).samePolicy
            rwa [Pass.after, Pass.exec_run] at hvalidated
          simp only [Run.exec_bind] at hprepare
          cases hvalidate : (validate script).exec mid with
          | mk result judged =>
              rw [hvalidate] at hprepare hpass
              cases result with
              | ok guarded => cases hprepare
              | error failure =>
                  cases hprepare
                  exact ⟨mid, rfl, hpass.trans (Store.samePolicy_record _ _)⟩

/--
If a script is rejected that came without trusted code, then of the names that were rejected
before, exactly those are permitted afterwards that it defines itself, that the store lets be
harvested in a category with an allow-list, and that the predicate of the category accepts.
-/
theorem rejected_script_grants_definitions
    (hrun : (check script []).exec store = (.ok (.failed violation), after))
    {category : Category} {name : String} {extra : List Json}
    (hrejected : store.check category name extra = false) :
    after.check category name extra = true ↔
      store.hasWhitelist category = true ∧
        Harvested store (visitedIn script) category (category.normalize name) ∧
          store.predicateAccepts category (category.normalize name) extra = true := by
  obtain ⟨mid, hharvest, hpolicy⟩ := harvested_of_rejected hrun
  have hadds := adds_of_harvestOwn hharvest
  have hpredicate : mid.predicateAccepts category (category.normalize name) extra =
      store.predicateAccepts category (category.normalize name) extra := by
    simp only [Store.predicateAccepts, hadds.grows.predicates]
  rw [hpolicy.check_eq, Store.check_eq, hpredicate]
  rw [Store.check_eq] at hrejected
  cases haccepts : store.predicateAccepts category (category.normalize name) extra with
  | false => simp
  | true =>
      rw [haccepts, Bool.and_true] at hrejected
      rw [Bool.and_true, hadds.listsAccept_iff hrejected]
      simp

end Gate

namespace Sample

/-- A script that defines a function and then asks for the handle. -/
def smuggling : Json :=
  .arr [entry "Stmt_Function" [("name", .str "exec"), ("params", .arr []), ("stmts", .arr [])],
    variableEntry "__sandbox"]

/-- Scripts may define functions, and one function is allowed. -/
def listingStore : Store :=
  (Store.empty (Options.default.setFlag (.allow .functions) true) false).whitelist .functions
    "strlen"

end Sample

namespace Gate

theorem rejected_script_grants_definitions_of_smuggling : ∃ violation after,
    (check ((Sample.nodesOf Sample.smuggling).map .node) []).exec Sample.listingStore =
        (.ok (.failed violation), after) ∧
      Sample.listingStore.check .functions "Exec" [] = false ∧
      after.check .functions "Exec" [] = true ∧
      Sample.listingStore.hasWhitelist .functions = true ∧
      Harvested Sample.listingStore (visitedIn ((Sample.nodesOf Sample.smuggling).map .node))
        .functions "exec" := by
  have hends : ∃ violation after,
      (check ((Sample.nodesOf Sample.smuggling).map .node) []).exec Sample.listingStore =
          (.ok (.failed violation), after) ∧
        after.check .functions "Exec" [] = true := ⟨_, _, rfl, by decide +kernel⟩
  obtain ⟨violation, after, hrun, hpermitted⟩ := hends
  have hrejected : Sample.listingStore.check .functions "Exec" [] = false := by decide
  obtain ⟨hlist, hharvested, _⟩ :=
    (rejected_script_grants_definitions hrun hrejected).mp hpermitted
  exact ⟨violation, after, hrun, hrejected, hpermitted, hlist, hharvested⟩

/-- The function is permitted although the script that defines it is rejected. -/
theorem rejected_script_grants_exec : ∃ violation after,
    (check ((Sample.nodesOf Sample.smuggling).map .node) []).exec Sample.listingStore =
        (.ok (.failed violation), after) ∧
      Sample.listingStore.check .functions "exec" [] = false ∧
      after.check .functions "exec" [] = true :=
  ⟨_, _, rfl, by decide, by decide +kernel⟩

end Gate

end ScriptSandbox
