import ScriptSandbox.Proofs.FollowedRuns
import ScriptSandbox.Proofs.Walk.Offers

/-!
# Walks that return on a condition

Two walks of one tree start in related states, and the first one returns.  If the visitor
returns the same in the second walk exactly where a node meets some condition, then the
second walk returns, and returns the same tree, exactly if every node that is offered in the
first one meets the condition.
-/

namespace ScriptSandbox

variable {σ ε α β : Type}

def Visitor.ReturnsIf (visitor : Visitor σ ε) (I : σ → σ → Prop) (Admits : Node → Prop) : Prop :=
  ∀ n s t, I s t → ∀ verdict after, (visitor.leave n).exec s = (.ok verdict, after) →
    (Admits n → ∃ after', (visitor.leave n).exec t = (.ok verdict, after') ∧ I after after') ∧
      ((visitor.leave n).Passes t → Admits n)

namespace Walk

variable {visitor : Visitor σ ε} {I : σ → σ → Prop} {Admits : Node → Prop}

def ReturnsIf (I : σ → σ → Prop) (Admits : Node → Prop)
    (noting : Run (σ × List (Offer σ)) (WalkFailure ε) α) (run : Run σ (WalkFailure ε) α) : Prop :=
  ∀ s noted value after reached, noting.exec (s, noted) = (.ok value, (after, reached)) →
    ∃ offers, reached = noted ++ offers ∧ ∀ t, I s t →
      ((∀ offer ∈ offers, Admits offer.node) →
          ∃ after', run.exec t = (.ok value, after') ∧ I after after') ∧
        (run.Passes t → ∀ offer ∈ offers, Admits offer.node)

namespace ReturnsIf

protected theorem pure (value : α) :
    ReturnsIf I Admits (pure value) (pure value : Run σ (WalkFailure ε) α) := by
  intro s noted result after reached hrun
  cases hrun
  exact ⟨[], by simp, fun t hst => ⟨fun _ => ⟨t, rfl, hst⟩, by simp⟩⟩

theorem misplaced (cause : Misplaced) (run : Run σ (WalkFailure ε) α) :
    ReturnsIf I Admits (throw (.misplaced cause)) run := by
  intro s noted result after reached hrun
  cases hrun

protected theorem bind {noting : Run (σ × List (Offer σ)) (WalkFailure ε) α}
    {run : Run σ (WalkFailure ε) α} {next : α → Run (σ × List (Offer σ)) (WalkFailure ε) β}
    {next' : α → Run σ (WalkFailure ε) β} (hrun : ReturnsIf I Admits noting run)
    (hnext : ∀ value, ReturnsIf I Admits (next value) (next' value)) :
    ReturnsIf I Admits (noting >>= next) (run >>= next') := by
  intro s noted result after reached hexec
  rw [Run.exec_bind] at hexec
  cases hfirst : noting.exec (s, noted) with
  | mk outcome both =>
      obtain ⟨mid, noted'⟩ := both
      rw [hfirst] at hexec
      cases outcome with
      | error cause => cases hexec
      | ok value =>
          obtain ⟨offers, rfl, hoffers⟩ := hrun s noted value mid noted' hfirst
          obtain ⟨more, rfl, hmore⟩ :=
            hnext value mid (noted ++ offers) result after reached hexec
          refine ⟨offers ++ more, List.append_assoc _ _ _, fun t hst => ⟨fun hall => ?_, ?_⟩⟩
          · obtain ⟨hadmitted, hadmitted'⟩ := List.forall_mem_append.mp hall
            obtain ⟨mid', hother, hmid⟩ := (hoffers t hst).1 hadmitted
            rw [Run.exec_bind, hother]
            exact (hmore mid' hmid).1 hadmitted'
          · intro hpasses
            obtain ⟨other, mid', hother, hrest⟩ := Run.passes_bind.mp hpasses
            have hadmitted := (hoffers t hst).2 (by rw [Run.Passes, hother]; rfl)
            -- What the first part returns on the other side is known once its nodes are admitted.
            obtain ⟨_, hsame, hmid⟩ := (hoffers t hst).1 hadmitted
            rw [hother] at hsame
            cases hsame
            exact List.forall_mem_append.mpr ⟨hadmitted, (hmore mid' hmid).2 hrest⟩

end ReturnsIf

private theorem verdict_returnsIf (h : visitor.ReturnsIf I Admits) (n : Node) :
    ReturnsIf I Admits (verdict visitor.noting n) (verdict visitor n) := by
  intro s noted value after reached hexec
  have hnoting : (verdict visitor.noting n).exec (s, noted) =
      (((verdict visitor n).exec s).1, (((verdict visitor n).exec s).2, noted ++ [⟨n, s⟩])) := rfl
  rw [hnoting, verdict, Run.exec_adapt] at hexec
  cases hleave : (visitor.leave n).exec s with
  | mk outcome after =>
      rw [hleave] at hexec
      cases outcome with
      | error cause => cases hexec
      | ok verdict =>
          cases hexec
          refine ⟨[⟨n, s⟩], rfl, fun t hst => ?_⟩
          obtain ⟨hreturn, hadmit⟩ := h n s t hst _ _ hleave
          rw [List.forall_mem_singleton]
          refine ⟨fun hn => ?_, fun hpasses => hadmit ?_⟩
          · obtain ⟨after', hother, hafter⟩ := hreturn hn
            refine ⟨after', ?_, hafter⟩
            simp [Walk.verdict, hother]
          · rw [Run.Passes, Walk.verdict, Run.exec_adapt] at hpasses
            rw [Run.Passes]
            cases hother : ((visitor.leave n).exec t).1 with
            | ok other => rfl
            | error cause =>
                rw [hother] at hpasses
                cases hpasses

private theorem offerHeld_returnsIf (h : visitor.ReturnsIf I Admits) (parent : Kind)
    (field : String)
    (n : Node) :
    ReturnsIf I Admits (offerHeld parent field [visitor.noting] n)
      (offerHeld parent field [visitor] n) := by
  rw [offerHeld, offerHeld]
  refine (verdict_returnsIf h n).bind fun verdict => ?_
  cases verdict with
  | keep => exact .pure n
  | replace other => exact .pure other
  | remove => exact .misplaced _ _
  | splice items => exact .misplaced _ _
  | other value => exact .misplaced _ _

private theorem offerListed_returnsIf (h : visitor.ReturnsIf I Admits) (n : Node) :
    ReturnsIf I Admits (offerListed [visitor.noting] n) (offerListed [visitor] n) := by
  rw [offerListed, offerListed]
  refine (verdict_returnsIf h n).bind fun verdict => ?_
  cases verdict with
  | other value => exact .misplaced _ _
  | _ => exact .pure _

-- The recursion is that of the walk.
mutual

private theorem inside_returnsIf (h : visitor.ReturnsIf I Admits) : ∀ n : Node,
    ReturnsIf I Admits (inside [visitor.noting] n) (inside [visitor] n)
  | ⟨kind, _, fields, _⟩ => by
      rw [inside, inside]
      exact (walkFields_returnsIf h kind fields).bind fun _ => .pure _

private theorem walkFields_returnsIf (h : visitor.ReturnsIf I Admits) (parent : Kind) :
    ∀ fields : List (String × Value),
      ReturnsIf I Admits (walkFields [visitor.noting] parent fields)
        (walkFields [visitor] parent fields)
  | [] => .pure []
  | (name, value) :: rest => by
      rw [walkFields, walkFields]
      refine (walkField_returnsIf h parent name value).bind fun _ => ?_
      exact (walkFields_returnsIf h parent rest).bind fun _ => .pure _

private theorem walkField_returnsIf (h : visitor.ReturnsIf I Admits) (parent : Kind)
    (name : String) :
    ∀ value : Value,
      ReturnsIf I Admits (walkField [visitor.noting] parent name value)
        (walkField [visitor] parent name value)
  | .list items => by
      rw [walkField, walkField]
      exact (walkItems_returnsIf h items).bind fun _ => .pure _
  | .node n => by
      rw [walkField, walkField]
      refine (inside_returnsIf h n).bind fun walked => ?_
      exact (offerHeld_returnsIf h parent name walked).bind fun _ => .pure _
  | .scalar _ => .pure _
  | .obj _ => .pure _
  | .pair _ _ => .pure _

private theorem walkItems_returnsIf (h : visitor.ReturnsIf I Admits) : ∀ items : List Value,
    ReturnsIf I Admits (walkItems [visitor.noting] items) (walkItems [visitor] items)
  | [] => .pure []
  | .node n :: rest => by
      rw [walkItems, walkItems]
      refine (inside_returnsIf h n).bind fun walked => ?_
      refine (offerListed_returnsIf h walked).bind fun _ => ?_
      exact (walkItems_returnsIf h rest).bind fun _ => .pure _
  | .list _ :: rest | .scalar _ :: rest | .obj _ :: rest | .pair _ _ :: rest => by
      simp only [walkItems]
      exact (walkItems_returnsIf h rest).bind fun _ => .pure _

end

theorem tree_returnsIf (h : visitor.ReturnsIf I Admits) {nodes walked : Tree} {s t after : σ}
    (hst : I s t) (hrun : (tree [visitor] nodes).exec s = (.ok walked, after)) :
    ((∀ offer ∈ visitor.offers nodes s, Admits offer.node) →
        ∃ after', (tree [visitor] nodes).exec t = (.ok walked, after') ∧ I after after') ∧
      ((tree [visitor] nodes).Passes t → ∀ offer ∈ visitor.offers nodes s, Admits offer.node) := by
  have htree : ReturnsIf I Admits (tree [visitor.noting] nodes) (tree [visitor] nodes) := by
    rw [tree, tree]
    exact (walkItems_returnsIf h _).bind fun _ => .pure _
  have hnoting := exec_tree_noting visitor nodes s
  rw [hrun] at hnoting
  obtain ⟨offers, hoffers, hends⟩ := htree s [] walked after _ hnoting
  rw [List.nil_append] at hoffers
  rw [hoffers]
  exact hends t hst

theorem tree_follows (h : ∀ n, Run.Follows I (visitor.leave n) (visitor.leave n)) (nodes : Tree) :
    Run.Follows I (tree [visitor] nodes) (tree [visitor] nodes) := by
  have hreturns : visitor.ReturnsIf I fun _ => True :=
    fun n s t hst verdict after hrun => ⟨fun _ => h n s t hst verdict after hrun, fun _ => trivial⟩
  intro s t hst walked after hrun
  exact (tree_returnsIf hreturns hst hrun).1 fun _ _ => trivial

end Walk

end ScriptSandbox
