import ScriptSandbox.Proofs.Tree.Loaded
import ScriptSandbox.Proofs.Walk.Placement

/-!
# Trees that a walk leaves as they are

A node is steady when walking it again, from any state of an invariant, gives the node
itself.  A list whose nodes are steady is walked without being changed, whatever else it
holds.
-/

namespace ScriptSandbox

variable {σ ε : Type}

structure Node.Steady (visitor : Visitor σ ε) (I : σ → Prop) (n : Node) : Prop where
  inside : Run.Returns I (Walk.inside [visitor] n) n
  leave : Run.Returns I (visitor.leave n) .keep

def Value.Steady (visitor : Visitor σ ε) (I : σ → Prop) : Value → Prop
  | .node n => n.Steady visitor I
  | _ => True

theorem Value.steady_of_node?_eq_none {visitor : Visitor σ ε} {I : σ → Prop} {value : Value}
    (h : value.node? = none) : value.Steady visitor I := by
  cases value with
  | node n => cases h
  | _ => trivial

namespace Walk

variable {visitor : Visitor σ ε} {I : σ → Prop} {n : Node}

private theorem verdict_returns (h : n.Steady visitor I) :
    Run.Returns I (verdict visitor n) .keep :=
  h.leave.adapt _

private theorem walkItems_returns {items : List Value} (h : ∀ item ∈ items, item.Steady visitor I) :
    Run.Returns I (walkItems [visitor] items) items := by
  induction items with
  | nil => exact Run.Returns.pure []
  | cons item rest ih =>
      rw [List.forall_mem_cons] at h
      obtain ⟨hitem, hrest⟩ := h
      cases item with
      | node n =>
          have hn : n.Steady visitor I := hitem
          have hlisted : Run.Returns I (offerListed [visitor] n) [.node n] :=
            (verdict_returns hn).bind (Run.Returns.pure _)
          rw [walkItems]
          apply hn.inside.bind
          apply hlisted.bind
          exact (ih hrest).bind (Run.Returns.pure _)
      | _ =>
          simp only [walkItems]
          exact (ih hrest).bind (Run.Returns.pure _)

private theorem walkField_returns (parent : Kind) (name : String) {value : Value}
    (h : value.Settled (Value.Steady visitor I)) :
    Run.Returns I (walkField [visitor] parent name value) value := by
  cases value with
  | list items =>
      rw [walkField]
      exact (walkItems_returns h).bind (Run.Returns.pure _)
  | node n =>
      have hn : n.Steady visitor I := h
      have hheld : Run.Returns I (offerHeld parent name [visitor] n) n :=
        (verdict_returns hn).bind (Run.Returns.pure n)
      rw [walkField]
      apply hn.inside.bind
      exact hheld.bind (Run.Returns.pure _)
  | _ => exact Run.Returns.pure _

private theorem walkFields_returns (parent : Kind) {fields : List (String × Value)}
    (h : ∀ entry ∈ fields, entry.2.Settled (Value.Steady visitor I)) :
    Run.Returns I (walkFields [visitor] parent fields) fields := by
  induction fields with
  | nil => exact Run.Returns.pure []
  | cons entry rest ih =>
      rw [List.forall_mem_cons] at h
      obtain ⟨name, value⟩ := entry
      rw [walkFields]
      apply (walkField_returns parent name h.1).bind
      exact (ih h.2).bind (Run.Returns.pure _)

private theorem inside_returns (h : n.Settled (Value.Steady visitor I)) :
    Run.Returns I (inside [visitor] n) n := by
  obtain ⟨kind, attributes, fields, generated⟩ := n
  rw [inside]
  exact (walkFields_returns kind h).bind (Run.Returns.pure _)

theorem steady_of_settled (h : n.Settled (Value.Steady visitor I))
    (hleave : Run.Returns I (visitor.leave n) .keep) : n.Steady visitor I :=
  ⟨inside_returns h, hleave⟩

theorem tree_returns {nodes : Tree} (h : ∀ item ∈ nodes, item.Steady visitor I)
    (hbefore : visitor.before nodes = nodes) (hafter : visitor.after nodes = nodes) :
    Run.Returns I (tree [visitor] nodes) nodes := by
  have hpure : Run.Returns I (pure (visitor.after nodes) : Run σ (WalkFailure ε) Tree) nodes := by
    rw [hafter]
    exact Run.Returns.pure nodes
  rw [tree]
  simp only [List.foldl_cons, List.foldl_nil, hbefore]
  exact (walkItems_returns h).bind hpure

theorem passesOver_of_raw {G : Value → Prop} (h : ∀ value : Value, value.node? = none → G value) :
    PassesOver G (fun value => value.isRaw = true) (fun items => itemsRaw items = true) where
  list h := h
  node {n} h := by
    cases n with
    | mk kind attributes fields generated =>
        simp only [Value.isRaw, Node.isRaw, Bool.and_eq_true] at h
        exact fieldsRaw_iff.mp h.2
  pair h := by cases h
  offered h := by
    rw [itemsRaw, Bool.and_eq_true] at h
    exact h.1
  passed _ hitem := h _ hitem
  tail h := by
    rw [itemsRaw, Bool.and_eq_true] at h
    exact h.2

end Walk

end ScriptSandbox
