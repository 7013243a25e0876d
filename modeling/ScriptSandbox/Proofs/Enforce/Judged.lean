import ScriptSandbox.Proofs.Enforce.Sound
import ScriptSandbox.Proofs.Tree.Loaded
import ScriptSandbox.Proofs.Walk.Offers
import ScriptSandbox.Proofs.Walk.Results

/-!
# Verdicts of a validation

`Enforce.Judged` relates a node to the verdicts that judging has given it.  A validation
that returns has given a verdict to what it left of every node of the tree, and its result
is the tree in which these verdicts were carried out.
-/

namespace ScriptSandbox

open Judge

namespace Loaded

variable {nodes : List Node} {source : Node}

theorem new_of_visited (h : Loaded nodes) (hsource : source ∈ nodes.flatMap Node.visited) :
    ∀ m ∈ source.visited, m.generated = false := by
  obtain ⟨parent, hparent, hvisited⟩ := List.mem_flatMap.mp hsource
  have hraw := Node.isRaw_of_mem (h.isRaw parent hparent) source
    (parent.visited_sublist.mem hvisited)
  exact fun m hm => Node.not_generated_of_isRaw hraw m (source.visited_sublist.mem hm)

theorem new (h : Loaded nodes) : ∀ n ∈ nodes.flatMap Node.visited, n.generated = false :=
  fun n hn => h.new_of_visited hn n (Node.mem_visited.mpr (.inl rfl))

end Loaded

namespace Enforce

variable {store : Store} {n : Node} {verdict : Verdict}

/-- Judging gave the node the verdict, in some state that judging can leave of the store. -/
structure Judged (store : Store) (n : Node) (verdict : Verdict) : Prop where
  new : n.generated = false
  exec : ∃ mid after, Reaches store mid ∧ (visitor.leave n).exec mid = (.ok verdict, after)

private theorem Judged.of_yields {Q : Verdict → Prop} (h : Judged store n verdict)
    (hyields : Run.Yields (Reaches store) (visitor.leave n) Q) : Q verdict := by
  obtain ⟨mid, after, hmid, hexec⟩ := h.exec
  exact (hyields.ok hmid hexec).2

private theorem node_judged (hnew : n.generated = false) :
    Run.Yields (Reaches store) (visitor.leave n) (Judged store n) := by
  intro mid hmid
  exact ⟨(node_yields hnew mid hmid).1, fun verdict hverdict =>
    ⟨hnew, mid, _, hmid, Prod.ext hverdict rfl⟩⟩

private theorem answers_judged {Source : Node → Prop} (hnew : ∀ n, Source n → n.generated = false) :
    Walk.Answers visitor (Reaches store) (Judged store) Source :=
  fun source _ hsource _ hgenerated => node_judged (hgenerated.trans (hnew source hsource))

theorem Judged.outcome (h : Judged store n verdict) : Outcome store n verdict :=
  h.of_yields (node_yields h.new)

theorem validate_judged {nodes : List Node} {guarded : Tree} {after : Store}
    (hnew : ∀ n ∈ nodes.flatMap Node.visited, n.generated = false)
    (hrun : (Gate.validate (nodes.map .node)).exec store = (.ok guarded, after)) :
    ItemsWalked (Judged store) (nodes.map .node) guarded := by
  have hwalk : Run.Yields (Reaches store) (Gate.validate (nodes.map .node))
      (ItemsWalked (Judged store) (nodes.map .node)) := by
    refine Walk.tree_walks (answers_judged ?_) rfl fun _ => rfl
    rw [visitedIn_map_node]
    exact hnew
  exact (hwalk.ok .start hrun).2

theorem walked_of_leaves {source : Node}
    (hnew : ∀ m ∈ visitedInFields source.fields, m.generated = false)
    (h : Walk.Leaves visitor (Reaches store) source n) : source.Walked (Judged store) n := by
  obtain ⟨before, after, hbefore, hexec⟩ := h
  exact ((Walk.inside_walks (answers_judged hnew) source fun _ hm => hm).ok hbefore hexec).2

theorem reaches_of_judges {offers : List (Offer Store)} {after : Store}
    (h : visitor.Judges store offers after)
    (hnew : ∀ offer ∈ offers, offer.node.generated = false) : Reaches store after := by
  induction h with
  | nil => exact .start
  | @snoc offers n mid after verdict _ hleave ih =>
      obtain ⟨hoffers, hn⟩ := List.forall_mem_append.mp hnew
      have hgenerated : n.generated = false := hn ⟨n, mid⟩ List.mem_cons_self
      exact ((node_yields hgenerated).ok (ih hoffers) hleave).1

end Enforce

end ScriptSandbox
