import ScriptSandbox.Proofs.Gate.Readable
import ScriptSandbox.Proofs.Harvest.Shaped

/-!
# Checks of well-shaped trees

Whatever the store permits, a node that has the shape of its kind can be read by every pass,
and a walk keeps shapes.  So a check of trees in which all nodes that a walk comes to are
shaped ends in an outcome, or at a verdict that its place cannot take.
-/

namespace ScriptSandbox

variable {store : Store} {n : Node}

namespace Gate

theorem Pass.leave_spares (pass : Pass) (n : Node) :
    Run.Yields (fun _ => True) (pass.visitor.leave n) (Spares n) := by
  cases pass with
  | trusted tree => exact TrustedHarvest.node_spares n
  | own tree => exact OwnHarvest.leave_spares n
  | validation tree => exact (Enforce.node_discloses n).mono fun _ hverdict => hverdict.1

private theorem Pass.offer_walked (pass : Pass) (store : Store) {offer : Offer Store}
    (h : offer ∈ pass.offers store) : ∃ n ∈ visitedIn pass.tree, n.Walked Spares offer.node := by
  have hbefore : pass.visitor.before pass.tree = pass.tree := by cases pass <;> rfl
  have hanswers : Walk.Answers pass.visitor (fun _ => True) Spares fun _ => True :=
    fun _ n _ _ _ => pass.leave_spares n
  have hform : ∀ n, Run.Yields (fun _ => True) (Walk.inside [pass.visitor] n) (n.Walked Spares) :=
    fun n => Walk.inside_walks hanswers n fun _ _ => trivial
  have hoffered := Walk.offers_offered pass.tree store hform
  rw [hbefore] at hoffered
  exact hoffered.source h

theorem Pass.readable_of_shaped (pass : Pass) (h : n.Shaped) : pass.Readable store n := by
  cases pass with
  | trusted tree => exact TrustedHarvest.readable_of_shaped h
  | own tree => exact OwnHarvest.readable_of_shaped h
  | validation tree => exact fun _ => h.readable

variable {script trusted guarded : Tree} {mid : Store} {pass : Pass}

private theorem Begins.tree_eq (h : Begins script trusted store pass mid) :
    pass.tree = script ∨ pass.tree = trusted := by
  cases h with
  | trusted _ => exact .inr rfl
  | own _ => exact .inl rfl
  | validation _ => exact .inl rfl

theorem readable_of_shaped (hscript : ∀ n ∈ visitedIn script, n.Shaped)
    (htrusted : ∀ n ∈ visitedIn trusted, n.Shaped) : Readable script trusted store := by
  intro pass mid hbegins offer hoffer
  have hshaped : ∀ n ∈ visitedIn pass.tree, n.Shaped := by
    obtain htree | htree := hbegins.tree_eq <;> rw [htree] <;> assumption
  obtain ⟨n, hn, hwalked⟩ := pass.offer_walked mid hoffer
  exact pass.readable_of_shaped (hwalked.shaped fun v hv => hshaped v (visitedIn_trans hv hn))

theorem dumpable_of_shaped {nodes : List Node}
    (hshaped : ∀ n ∈ visitedIn (nodes.map .node), n.Shaped)
    (hhides : ∀ n ∈ nodes, n.hidesNode = false)
    (h : (check (nodes.map .node) trusted).exec store = (.ok (.passed guarded), mid)) :
    ∃ dumped, dumpableNodes guarded = .ok dumped := by
  obtain ⟨before, last, _, hvalidate, _⟩ := check_passed_iff.mp h
  have hanswers : Walk.Answers Enforce.visitor (fun _ => True) Discloses
      (· ∈ visitedIn (nodes.map .node)) := fun _ n _ _ _ => Enforce.node_discloses n
  have hwalked := (Walk.tree_walks hanswers rfl fun _ => rfl) before trivial
  exact (hwalked.2 guarded (by rw [← validate, hvalidate])).dumpable hshaped hhides

end Gate

end ScriptSandbox
