import ScriptSandbox.Proofs.Enforce.Relaxed
import ScriptSandbox.Proofs.Gate.Validation

/-!
# Loosening a policy

A flag is only ever read to admit something, and so is a predicate.  What is made of a
script depends on neither, so a script that passes is guarded in the same way wherever more
features are allowed and the predicates accept more.

Both stores judge the script as it was before either did.  Which nodes count as generated is
a matter of the store at hand, so what one store has guarded is not judged again by the other.
-/

namespace ScriptSandbox

namespace Enforce

private theorem leave_follows (n : Node) :
    Run.Follows (Store.Relaxed fun _ => False) (visitor.leave n) (visitor.leave n) :=
  node_follows Judge.relaxed_lenient not_false (fun _ _ _ => trivial) fun _ _ _ _ => trivial

end Enforce

namespace Gate

variable {script guarded : Tree} {store other after : Store}

/--
A script that passes against a store passes against every other one with the same lists and
definitions that allows what the first one allows and whose predicates accept what those of
the first one accept.  The guarded script is the same, and the stores stay so related.
-/
theorem loosening_keeps_scripts (h : store.Relaxed (fun _ => False) other)
    (hrun : (validate script).exec store = (.ok guarded, after)) :
    ∃ last, (validate script).exec other = (.ok guarded, last) ∧
      after.Relaxed (fun _ => False) last :=
  Walk.tree_follows Enforce.leave_follows script store other h guarded after hrun

end Gate

namespace Sample

def strictStore : Store :=
  store.setPredicate .functions (some fun key _ => decide (key ∈ ["strlen", "f"]))

def looseStore : Store :=
  { store with options := store.options.setFlag (.allow .closures) true }.setPredicate .functions
    (some fun key _ => decide (key.length < 10))

private theorem strictStore_relaxed : strictStore.Relaxed (fun _ => False) looseStore where
  handle := rfl
  allows feature hallow := by
    revert hallow
    cases feature <;> decide
  overwrite interception := by cases interception <;> rfl
  denied _ := .rfl
  predicates category wider hwider := by
    by_cases hfunctions : category = .functions
    · subst hfunctions
      cases hwider
      refine ⟨_, rfl, fun key _ hkey => ?_⟩
      have hnames : ∀ key ∈ ["strlen", "f"], key.length < 10 := by decide
      exact decide_eq_true (hnames key (of_decide_eq_true hkey))
    · have hnone : looseStore.predicates category = none := if_neg hfunctions
      cases hnone.symm.trans hwider
  overrides _ := .rfl
  classes _ := rfl
  magicConsts _ := .rfl
  declared _ := .rfl
  allowed _ _ _ := .rfl

end Sample

namespace Gate

theorem loosening_keeps_scripts_of_script : ∃ after last,
    (validate ((Sample.nodesOf Sample.script).map .node)).exec Sample.strictStore =
        (.ok (Sample.guardedOf Sample.strictStore Sample.script), after) ∧
      (validate ((Sample.nodesOf Sample.script).map .node)).exec Sample.looseStore =
        (.ok (Sample.guardedOf Sample.strictStore Sample.script), last) := by
  have hpasses : ((validate ((Sample.nodesOf Sample.script).map .node)).exec
      Sample.strictStore).1.isOk = true := by decide
  obtain ⟨after, hrun⟩ := Sample.exec_validate hpasses
  obtain ⟨last, hlast, _⟩ := loosening_keeps_scripts Sample.strictStore_relaxed hrun
  exact ⟨after, last, hrun, hlast⟩

end Gate

end ScriptSandbox
