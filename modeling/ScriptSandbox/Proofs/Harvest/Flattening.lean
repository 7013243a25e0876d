import ScriptSandbox.Harvest.Trusted
import ScriptSandbox.Proofs.Walk.Flattening

/-!
# Harvesting trusted code flattens it

Trusted code is harvested in a walk that changes nothing but its lists: imports are removed
from them, and namespaces give way to their statements.  So the form in which a node is
offered is known beforehand, and so is what the walk returns.
-/

namespace ScriptSandbox

namespace TrustedHarvest

private theorem keeping_flattens {n : Node} {harvest : Judge Unit} (h : ¬ n.kind.GivesWay) :
    Run.Yields (fun _ => True) (harvest >>= fun _ => pure Verdict.keep)
      (Flattens (fun n result => result = n) n) :=
  (Run.Yields.any harvest).bind fun _ _ => Run.Yields.pure ⟨h, rfl⟩

private theorem namespaceDecl_flattens {n : Node} (h : n.kind = .statement .namespaceDecl) :
    Run.Yields (fun _ => True) (namespaceDecl n) (Flattens (fun n result => result = n) n) := by
  have hstmts : Run.Yields (fun _ => True)
      (do pure (.splice (← Judge.read (n.fieldItems "stmts"))) : Judge Verdict)
      (Flattens (fun n result => result = n) n) :=
    (Run.Yields.ofExcept Refusal.malformed (n.fieldItems "stmts")).bind fun items hitems =>
      Run.Yields.pure ⟨h, hitems⟩
  unfold namespaceDecl
  cases (n.field "name").name? with
  | none => exact hstmts
  | some written =>
      refine (Run.Yields.any _).bind fun text _ => ?_
      refine (Run.Yields.any _).bind fun _ _ => ?_
      exact (Run.Yields.any _).bind fun _ _ => hstmts

theorem node_flattens (n : Node) :
    Run.Yields (fun _ => True) (node n) (Flattens (fun n result => result = n) n) := by
  unfold node
  split
  case h_11 hkind => exact namespaceDecl_flattens hkind
  case h_12 hkind =>
    refine (Run.Yields.any _).bind fun items _ => ?_
    exact (Run.Yields.any _).bind fun _ _ => Run.Yields.pure hkind
  case h_13 =>
    refine Run.Yields.pure ⟨?_, rfl⟩
    rintro (hkind | hkind) <;> contradiction
  all_goals
    rename_i hkind
    exact keeping_flattens (by rw [hkind]; decide)

theorem visitor_answers (Source : Node → Prop) :
    Walk.Answers visitor (fun _ => True) (Flattens fun n result => result = n) Source :=
  fun _ n _ _ _ => node_flattens n

theorem inside_flattened (n : Node) :
    Run.Yields (fun _ => True) (Walk.inside [visitor] n) (· = n.flattened) :=
  (Walk.inside_walks (visitor_answers fun _ => True) n fun _ _ => trivial).mono
    fun _ hinside => hinside.eq_flattened

theorem tree_flattened (nodes : Tree) :
    Run.Yields (fun _ => True) (Walk.tree [visitor] nodes) (· = flattenedItems nodes) :=
  (Walk.tree_walks (visitor_answers _) rfl fun _ => rfl).mono fun _ hitems => hitems.eq_flattened

end TrustedHarvest

end ScriptSandbox
