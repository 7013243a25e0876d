import ScriptSandbox.Proofs.Tree.Fresh
import ScriptSandbox.Tree.Walk

/-!
# What a walk offers

`Node.visited` lists the nodes that a walk offers, in its order.  A visitor that
keeps every node is offered exactly these, each once, and leaves the tree as it is.
They are all nodes of the tree exactly when the tree is open: the walk passes over
lists inside lists, with the nodes in them.
-/

namespace ScriptSandbox

mutual

/-- The nodes that a walk offers of a node: those inside it, then itself. -/
def Node.visited : Node → List Node
  | ⟨kind, attributes, fields, generated⟩ =>
      visitedInFields fields ++ [⟨kind, attributes, fields, generated⟩]
  termination_by structural node => node

def Value.visited : Value → List Node
  | .node n => n.visited
  | .list items => visitedIn items
  | .pair _ _ => []
  | .scalar _ => []
  | .obj _ => []
  termination_by structural value => value

def visitedIn : List Value → List Node
  | [] => []
  | .node n :: rest => n.visited ++ visitedIn rest
  | _ :: rest => visitedIn rest
  termination_by structural items => items

def visitedInFields : List (String × Value) → List Node
  | [] => []
  | (_, value) :: rest => value.visited ++ visitedInFields rest
  termination_by structural fields => fields

end

@[simp] theorem mem_visitedIn {m : Node} {items : List Value} :
    m ∈ visitedIn items ↔ ∃ n, Value.node n ∈ items ∧ m ∈ n.visited := by
  induction items with
  | nil => simp [visitedIn]
  | cons item rest ih => cases item <;> simp [visitedIn, ih, or_and_right, exists_or]

@[simp] theorem mem_visitedInFields {m : Node} {fields : List (String × Value)} :
    m ∈ visitedInFields fields ↔ ∃ entry ∈ fields, m ∈ entry.2.visited := by
  induction fields with
  | nil => simp [visitedInFields]
  | cons entry rest ih => simp [visitedInFields, ih]

@[simp] theorem Node.mem_visited {m n : Node} :
    m ∈ n.visited ↔ m = n ∨ ∃ entry ∈ n.fields, m ∈ entry.2.visited := by
  cases n
  rw [Node.visited, List.mem_append, mem_visitedInFields, List.mem_singleton]
  exact or_comm

@[simp] theorem Node.forall_mem_visited {P : Node → Prop} {n : Node} :
    (∀ m ∈ n.visited, P m) ↔ P n ∧ ∀ m ∈ visitedInFields n.fields, P m := by
  cases n
  rw [Node.visited, List.forall_mem_append, List.forall_mem_singleton, and_comm]

mutual

private theorem Node.visited_trans {k m : Node} (hm : m ∈ k.visited) :
    ∀ {n : Node}, k ∈ n.visited → m ∈ n.visited
  | ⟨_, _, _, _⟩, hk => by
      rw [Node.visited, List.mem_append, List.mem_singleton] at hk
      rcases hk with hk | rfl
      · exact List.mem_append_left _ (visitedInFields_trans hm hk)
      · exact hm

private theorem Value.visited_trans {k m : Node} (hm : m ∈ k.visited) :
    ∀ {value : Value}, k ∈ value.visited → m ∈ value.visited
  | .node _, hk => Node.visited_trans hm hk
  | .list _, hk => visitedIn_trans hm hk

theorem visitedIn_trans {k m : Node} (hm : m ∈ k.visited) :
    ∀ {items : List Value}, k ∈ visitedIn items → m ∈ visitedIn items
  | .node _ :: _, hk =>
      List.mem_append.mpr ((List.mem_append.mp hk).imp (Node.visited_trans hm) (visitedIn_trans hm))
  | .list _ :: rest, hk | .scalar _ :: rest, hk | .obj _ :: rest, hk | .pair _ _ :: rest, hk => by
      have hrest : m ∈ visitedIn rest := visitedIn_trans hm hk
      exact hrest

private theorem visitedInFields_trans {k m : Node} (hm : m ∈ k.visited) :
    ∀ {fields : List (String × Value)}, k ∈ visitedInFields fields → m ∈ visitedInFields fields
  | (_, _) :: _, hk =>
      List.mem_append.mpr
        ((List.mem_append.mp hk).imp (Value.visited_trans hm) (visitedInFields_trans hm))

end

theorem Node.mem_visited_of_generated {m n : Node} (hn : n.generated = true)
    (hm : m.generated = false) : m ∈ n.visited ↔ m ∈ visitedInFields n.fields := by
  have hne : m ≠ n := by
    rintro rfl
    rw [hm] at hn
    cases hn
  simp [or_iff_right hne]

@[simp] theorem visitedIn_map_node (nodes : List Node) :
    visitedIn (nodes.map .node) = nodes.flatMap Node.visited := by
  induction nodes with
  | nil => rfl
  | cons n rest ih => simp [visitedIn, ih]

/-! ## Copies -/

mutual

@[simp] theorem Node.visited_fresh : ∀ n : Node, n.fresh.visited = n.visited.map Node.fresh
  | ⟨_, _, fields, _⟩ => by
      rw [Node.fresh, Node.visited, Node.visited, visitedInFields_fresh fields, List.map_append]
      rfl

@[simp] theorem Value.visited_fresh :
    ∀ value : Value, value.fresh.visited = value.visited.map Node.fresh
  | .node n => n.visited_fresh
  | .list items => visitedIn_fresh items
  | .pair _ _ => rfl
  | .scalar _ => rfl
  | .obj _ => rfl

@[simp] theorem visitedIn_fresh :
    ∀ items : List Value, visitedIn (freshItems items) = (visitedIn items).map Node.fresh
  | [] => rfl
  | .node n :: rest => by
      rw [freshItems, Value.fresh, visitedIn, visitedIn, n.visited_fresh, visitedIn_fresh rest,
        List.map_append]
  | .list _ :: rest | .scalar _ :: rest | .obj _ :: rest | .pair _ _ :: rest => by
      simp only [freshItems, Value.fresh, visitedIn, visitedIn_fresh rest]

@[simp] theorem visitedInFields_fresh :
    ∀ fields : List (String × Value),
      visitedInFields (freshFields fields) = (visitedInFields fields).map Node.fresh
  | [] => rfl
  | (_, value) :: rest => by
      rw [freshFields, visitedInFields, visitedInFields, value.visited_fresh,
        visitedInFields_fresh rest, List.map_append]

end

/-! ## Offered nodes and all nodes -/

mutual

@[simp] theorem Node.visited_sublist : ∀ n : Node, n.visited.Sublist n.nodes
  | ⟨_, _, fields, _⟩ => by
      rw [Node.visited, Node.nodes]
      exact (visitedInFields_sublist fields).append (List.Sublist.refl _)

@[simp] theorem Value.visited_sublist : ∀ value : Value, value.visited.Sublist value.nodes
  | .node n => n.visited_sublist
  | .list items => visitedIn_sublist items
  | .pair _ _ => List.nil_sublist _
  | .scalar _ => List.nil_sublist _
  | .obj _ => List.nil_sublist _

@[simp] theorem visitedIn_sublist : ∀ items : List Value, (visitedIn items).Sublist (nodesIn items)
  | [] => List.nil_sublist _
  | .node n :: rest => n.visited_sublist.append (visitedIn_sublist rest)
  | .list _ :: rest | .pair _ _ :: rest | .scalar _ :: rest | .obj _ :: rest =>
      (visitedIn_sublist rest).trans (List.sublist_append_right _ _)

@[simp] theorem visitedInFields_sublist :
    ∀ fields : List (String × Value), (visitedInFields fields).Sublist (nodesInFields fields)
  | [] => List.nil_sublist _
  | (_, value) :: rest => value.visited_sublist.append (visitedInFields_sublist rest)

end

private theorem append_eq_append_iff_of_sublist {α : Type} {as as' bs bs' : List α}
    (ha : as.Sublist as') (hb : bs.Sublist bs') :
    as ++ bs = as' ++ bs' ↔ as = as' ∧ bs = bs' := by
  refine ⟨fun h => ?_, fun ⟨hfirst, hsecond⟩ => by rw [hfirst, hsecond]⟩
  have hlength := congrArg List.length h
  rw [List.length_append, List.length_append] at hlength
  have hfirst := ha.length_le
  have hsecond := hb.length_le
  exact ⟨ha.eq_of_length (by omega), hb.eq_of_length (by omega)⟩

private theorem eq_append_iff_of_sublist {α : Type} {as bs cs : List α} (h : bs.Sublist cs) :
    bs = as ++ cs ↔ as = [] ∧ bs = cs := by
  rw [← List.nil_append bs, append_eq_append_iff_of_sublist (List.nil_sublist as) h,
    List.nil_append, eq_comm]

mutual

@[simp] theorem Node.visited_eq_nodes_iff : ∀ n : Node, n.visited = n.nodes ↔ n.isOpen = true
  | ⟨_, _, fields, _⟩ => by
      rw [Node.visited, Node.nodes, Node.isOpen, List.append_left_inj]
      exact visitedInFields_eq_nodes_iff fields

@[simp] theorem Value.visited_eq_nodes_iff :
    ∀ value : Value, value.visited = value.nodes ↔ value.isOpen = true
  | .node n => n.visited_eq_nodes_iff
  | .list items => visitedIn_eq_nodes_iff items
  | .pair _ value => by
      rw [Value.visited, Value.nodes, Value.isOpen, Bool.not_eq_true',
        value.hasNode_eq_false_iff, eq_comm]
  | .scalar _ => by simp [Value.visited, Value.nodes, Value.isOpen]
  | .obj _ => by simp [Value.visited, Value.nodes, Value.isOpen]

@[simp] theorem visitedIn_eq_nodes_iff :
    ∀ items : List Value, visitedIn items = nodesIn items ↔ itemsOpen items = true
  | [] => by simp [visitedIn, nodesIn, itemsOpen]
  | .node n :: rest => by
      rw [visitedIn, nodesIn, itemsOpen, Bool.and_eq_true]
      refine (append_eq_append_iff_of_sublist n.visited_sublist (visitedIn_sublist rest)).trans ?_
      rw [n.visited_eq_nodes_iff, visitedIn_eq_nodes_iff rest]
  | .list _ :: rest | .pair _ _ :: rest | .scalar _ :: rest | .obj _ :: rest => by
      simp only [visitedIn, nodesIn, itemsOpen, Bool.and_eq_true, Bool.not_eq_true',
        Value.hasNode_eq_false_iff, ← visitedIn_eq_nodes_iff rest]
      exact eq_append_iff_of_sublist (visitedIn_sublist rest)

@[simp] theorem visitedInFields_eq_nodes_iff :
    ∀ fields : List (String × Value),
      visitedInFields fields = nodesInFields fields ↔ fieldsOpen fields = true
  | [] => by simp [visitedInFields, nodesInFields, fieldsOpen]
  | (_, value) :: rest => by
      rw [visitedInFields, nodesInFields, fieldsOpen, Bool.and_eq_true]
      refine (append_eq_append_iff_of_sublist value.visited_sublist
        (visitedInFields_sublist rest)).trans ?_
      rw [value.visited_eq_nodes_iff, visitedInFields_eq_nodes_iff rest]

end

@[simp] theorem itemsOpen_map_node_iff {nodes : List Node} :
    itemsOpen (nodes.map .node) = true ↔ ∀ n ∈ nodes, n.isOpen = true := by
  induction nodes with
  | nil => simp [itemsOpen]
  | cons n rest ih => simp [itemsOpen, ih]

/-! ## Visitors that keep every node -/

variable {σ ε : Type}

def Visitor.AlwaysKeeps (visitor : Visitor σ ε) : Prop :=
  ∀ n state, ((visitor.leave n).exec state).1 = .ok .keep

/-- The state in which a visitor is left by being offered a node. -/
def Visitor.offered (visitor : Visitor σ ε) (state : σ) (n : Node) : σ :=
  ((visitor.leave n).exec state).2

namespace Walk

variable {visitor : Visitor σ ε}

@[simp] theorem verdict_of_alwaysKeeps (h : visitor.AlwaysKeeps) (n : Node) (state : σ) :
    (verdict visitor n).exec state = (.ok .keep, visitor.offered state n) := by
  rw [verdict, Run.exec_adapt, h n state]
  rfl

@[simp] theorem offerHeld_of_alwaysKeeps (h : visitor.AlwaysKeeps) (parent : Kind) (field : String)
    (n : Node) (state : σ) :
    (offerHeld parent field [visitor] n).exec state =
      (.ok n, visitor.offered state n) := by
  rw [offerHeld, Run.exec_bind, verdict_of_alwaysKeeps h]
  rfl

@[simp] theorem offerListed_of_alwaysKeeps (h : visitor.AlwaysKeeps) (n : Node) (state : σ) :
    (offerListed [visitor] n).exec state = (.ok [.node n], visitor.offered state n) := by
  rw [offerListed, Run.exec_bind, verdict_of_alwaysKeeps h]
  rfl

mutual

@[simp] theorem inside_of_alwaysKeeps (h : visitor.AlwaysKeeps) : ∀ (n : Node) (state : σ),
    (inside [visitor] n).exec state =
      (.ok n, (visitedInFields n.fields).foldl visitor.offered state)
  | ⟨kind, _, fields, _⟩, state => by
      rw [inside, Run.exec_bind, walkFields_of_alwaysKeeps h kind fields state]
      rfl

@[simp] theorem walkFields_of_alwaysKeeps (h : visitor.AlwaysKeeps) (parent : Kind) :
    ∀ (fields : List (String × Value)) (state : σ),
      (walkFields [visitor] parent fields).exec state =
        (.ok fields, (visitedInFields fields).foldl visitor.offered state)
  | [], _ => rfl
  | (name, value) :: rest, state => by
      rw [walkFields, Run.exec_bind, walkField_of_alwaysKeeps h parent name value state]
      simp only [Run.exec_bind, walkFields_of_alwaysKeeps h parent rest]
      rw [visitedInFields, List.foldl_append]
      rfl

@[simp] theorem walkField_of_alwaysKeeps (h : visitor.AlwaysKeeps) (parent : Kind) (name : String) :
    ∀ (value : Value) (state : σ),
      (walkField [visitor] parent name value).exec state =
        (.ok value, value.visited.foldl visitor.offered state)
  | .list items, state => by
      rw [walkField, Run.exec_bind, walkItems_of_alwaysKeeps h items state]
      rfl
  | .node n, state => by
      rw [walkField, Run.exec_bind, inside_of_alwaysKeeps h n state]
      simp only [Run.exec_bind, offerHeld_of_alwaysKeeps h]
      cases n
      rw [Value.visited, Node.visited, List.foldl_append]
      rfl
  | .scalar _, _ => rfl
  | .obj _, _ => rfl
  | .pair _ _, _ => rfl

@[simp] theorem walkItems_of_alwaysKeeps (h : visitor.AlwaysKeeps) :
    ∀ (items : List Value) (state : σ),
      (walkItems [visitor] items).exec state =
        (.ok items, (visitedIn items).foldl visitor.offered state)
  | [], _ => rfl
  | .node n :: rest, state => by
      rw [walkItems, Run.exec_bind, inside_of_alwaysKeeps h n state]
      simp only [Run.exec_bind, offerListed_of_alwaysKeeps h, walkItems_of_alwaysKeeps h rest]
      cases n
      rw [visitedIn, Node.visited, List.foldl_append, List.foldl_append]
      rfl
  | .list _ :: rest, state | .scalar _ :: rest, state | .obj _ :: rest, state
  | .pair _ _ :: rest, state => by
      simp only [walkItems, Run.exec_bind, walkItems_of_alwaysKeeps h rest]
      rfl

end

theorem tree_of_alwaysKeeps (h : visitor.AlwaysKeeps) (nodes : Tree) (state : σ) :
    (tree [visitor] nodes).exec state =
      (.ok (visitor.after (visitor.before nodes)),
        (visitedIn (visitor.before nodes)).foldl visitor.offered state) := by
  rw [tree, Run.exec_bind]
  simp only [List.foldl_cons, List.foldl_nil, walkItems_of_alwaysKeeps h]
  rfl

end Walk

end ScriptSandbox
