import ScriptSandbox.Proofs.Walk.Coverage
import ScriptSandbox.Proofs.Walk.Placement

/-!
# What a walk that returns has accepted

A walk returns only if the visitor has returned for every node that it was offered.  So
whatever the visitor asks of a node, or of the node it was before the walk went inside,
holds of all visited nodes of a tree whose walk returns.
-/

namespace ScriptSandbox

variable {σ ε : Type}

namespace Walk

def Demands (visitor : Visitor σ ε) (I : σ → Prop) (P : Node → Prop) : Prop :=
  ∀ source n, SameOutline source n → Run.Yields I (visitor.leave n) (fun _ => P source)

variable {visitor : Visitor σ ε} {I : σ → Prop} {P : Node → Prop}

private theorem offerHeld_demands (h : Demands visitor I P) {source n : Node}
    (houtline : SameOutline source n) (parent : Kind) (field : String) :
    Run.Yields I (offerHeld parent field [visitor] n) (fun _ => P source) := by
  rw [offerHeld]
  refine ((h source n houtline).adapt _).bind fun verdict hsource => ?_
  cases verdict with
  | keep => exact Run.Yields.pure hsource
  | replace other => exact Run.Yields.pure hsource
  | _ => exact Run.Yields.throw _

private theorem offerListed_demands (h : Demands visitor I P) {source n : Node}
    (houtline : SameOutline source n) :
    Run.Yields I (offerListed [visitor] n) (fun _ => P source) := by
  rw [offerListed]
  refine ((h source n houtline).adapt _).bind fun verdict hsource => ?_
  cases verdict with
  | other value => exact Run.Yields.throw _
  | _ => exact Run.Yields.pure hsource

mutual

private theorem inside_demands (h : Demands visitor I P) :
    ∀ n : Node, Run.Yields I (inside [visitor] n)
      (fun other => (∀ m ∈ visitedInFields n.fields, P m) ∧ SameOutline n other)
  | ⟨kind, attributes, fields, generated⟩ => by
      refine Run.Yields.and_of_any ?_ (inside_sameOutline [visitor] _)
      rw [inside]
      exact (walkFields_demands h kind fields).bind fun _ hfields => Run.Yields.pure hfields

private theorem walkFields_demands (h : Demands visitor I P) (parent : Kind) :
    ∀ fields : List (String × Value),
      Run.Yields I (walkFields [visitor] parent fields) (fun _ => ∀ m ∈ visitedInFields fields, P m)
  | [] => Run.Yields.pure (by simp [visitedInFields])
  | (name, value) :: rest => by
      rw [walkFields]
      refine (walkField_demands h parent name value).bind fun _ hvalue => ?_
      refine (walkFields_demands h parent rest).bind fun _ hrest => Run.Yields.pure ?_
      rw [visitedInFields]
      exact List.forall_mem_append.mpr ⟨hvalue, hrest⟩

private theorem walkField_demands (h : Demands visitor I P) (parent : Kind) (name : String) :
    ∀ value : Value,
      Run.Yields I (walkField [visitor] parent name value) (fun _ => ∀ m ∈ value.visited, P m)
  | .list items => by
      rw [walkField]
      exact (walkItems_demands h items).bind fun _ hitems => Run.Yields.pure hitems
  | .node n => by
      rw [walkField]
      refine (inside_demands h n).bind fun other ⟨hinside, houtline⟩ => ?_
      refine (offerHeld_demands h houtline parent name).bind fun _ hself => Run.Yields.pure ?_
      cases n
      rw [Value.visited, Node.visited]
      exact List.forall_mem_append.mpr ⟨hinside, List.forall_mem_singleton.mpr hself⟩
  | .scalar _ => Run.Yields.pure (by simp [Value.visited])
  | .obj _ => Run.Yields.pure (by simp [Value.visited])
  | .pair _ _ => Run.Yields.pure (by simp [Value.visited])

private theorem walkItems_demands (h : Demands visitor I P) :
    ∀ items : List Value,
      Run.Yields I (walkItems [visitor] items) (fun _ => ∀ m ∈ visitedIn items, P m)
  | [] => Run.Yields.pure (by simp [visitedIn])
  | .node n :: rest => by
      rw [walkItems]
      refine (inside_demands h n).bind fun other ⟨hinside, houtline⟩ => ?_
      refine (offerListed_demands h houtline).bind fun _ hself => ?_
      refine (walkItems_demands h rest).bind fun _ hrest => Run.Yields.pure ?_
      cases n
      rw [visitedIn, Node.visited]
      refine List.forall_mem_append.mpr ⟨?_, hrest⟩
      exact List.forall_mem_append.mpr ⟨hinside, List.forall_mem_singleton.mpr hself⟩
  | .list _ :: rest | .scalar _ :: rest | .obj _ :: rest | .pair _ _ :: rest => by
      simp only [walkItems]
      exact (walkItems_demands h rest).bind fun _ hrest => Run.Yields.pure hrest

end

theorem tree_demands (h : Demands visitor I P) {nodes : Tree}
    (hbefore : visitor.before nodes = nodes) :
    Run.Yields I (tree [visitor] nodes) (fun _ => ∀ n ∈ visitedIn nodes, P n) := by
  rw [tree]
  simp only [List.foldl_cons, List.foldl_nil, hbefore]
  exact (walkItems_demands h nodes).bind fun _ hnodes => Run.Yields.pure hnodes

end Walk

end ScriptSandbox
