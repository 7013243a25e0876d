import ScriptSandbox.Proofs.Tree.Fresh

/-!
# Positions in a tree

A position is a node in a tree together with what holds it: a field of its parent, a pair or
a list.  The positions of a value give its nodes, each once and in the same order.  Where a
tree has a dump, no node in it is held by a pair.
-/

namespace ScriptSandbox

inductive Holder where
  | field (parent : Node) (name : String)
  | pair (name : String)
  | list

structure Position where
  holder : Holder
  node : Node

mutual

def Node.positions : Node → List Position
  | ⟨kind, attributes, fields, generated⟩ =>
      positionsInFields ⟨kind, attributes, fields, generated⟩ fields
  termination_by structural node => node

def Value.positions (holder : Holder) : Value → List Position
  | .node n => n.positions ++ [⟨holder, n⟩]
  | .list items => positionsIn items
  | .pair name value => value.positions (.pair name)
  | .scalar _ => []
  | .obj _ => []
  termination_by structural value => value

def positionsIn : List Value → List Position
  | [] => []
  | item :: rest => item.positions .list ++ positionsIn rest
  termination_by structural items => items

def positionsInFields (parent : Node) : List (String × Value) → List Position
  | [] => []
  | (name, value) :: rest => value.positions (.field parent name) ++ positionsInFields parent rest
  termination_by structural fields => fields

end

@[simp] theorem mem_positionsIn {position : Position} {items : List Value} :
    position ∈ positionsIn items ↔ ∃ item ∈ items, position ∈ item.positions .list := by
  induction items with
  | nil => simp [positionsIn]
  | cons item rest ih => simp [positionsIn, ih]

@[simp] theorem mem_positionsInFields {position : Position} {parent : Node}
    {fields : List (String × Value)} :
    position ∈ positionsInFields parent fields ↔
      ∃ entry ∈ fields, position ∈ entry.2.positions (.field parent entry.1) := by
  induction fields with
  | nil => simp [positionsInFields]
  | cons entry rest ih => simp [positionsInFields, ih]

@[simp] theorem Node.mem_positions {position : Position} {parent : Node} :
    position ∈ parent.positions ↔
      ∃ entry ∈ parent.fields, position ∈ entry.2.positions (.field parent entry.1) := by
  cases parent
  rw [Node.positions]
  exact mem_positionsInFields

@[simp] theorem Value.mem_positions_node {position : Position} {holder : Holder} {n : Node} :
    position ∈ (Value.node n).positions holder ↔
      position ∈ n.positions ∨ position = ⟨holder, n⟩ := by
  rw [Value.positions, List.mem_append, List.mem_singleton]

theorem Value.mem_positions_of_holder {value : Value} {holder : Holder} (other : Holder)
    {position : Position} (h : position ∈ value.positions holder) :
    position ∈ value.positions other ∨ ∃ n, value = .node n ∧ position = ⟨holder, n⟩ := by
  cases value with
  | node n =>
      rcases Value.mem_positions_node.mp h with h | h
      · exact .inl (Value.mem_positions_node.mpr (.inl h))
      · exact .inr ⟨n, rfl, h⟩
  | _ => exact .inl h

mutual

@[simp] theorem Node.map_node_positions : ∀ n : Node, n.positions.map Position.node ++ [n] = n.nodes
  | ⟨_, _, fields, _⟩ => by
      rw [Node.positions, Node.nodes, map_node_positionsInFields _ fields]

@[simp] theorem Value.map_node_positions :
    ∀ (holder : Holder) (value : Value), (value.positions holder).map Position.node = value.nodes
  | _, .node n => by
      rw [Value.positions, Value.nodes, List.map_append, List.map_singleton, n.map_node_positions]
  | _, .list items => map_node_positionsIn items
  | _, .pair name value => Value.map_node_positions (.pair name) value
  | _, .scalar _ => rfl
  | _, .obj _ => rfl

@[simp] theorem map_node_positionsIn :
    ∀ items : List Value, (positionsIn items).map Position.node = nodesIn items
  | [] => rfl
  | item :: rest => by
      rw [positionsIn, nodesIn, List.map_append, Value.map_node_positions .list item,
        map_node_positionsIn rest]

@[simp] theorem map_node_positionsInFields (parent : Node) :
    ∀ fields : List (String × Value),
      (positionsInFields parent fields).map Position.node = nodesInFields fields
  | [] => rfl
  | (name, value) :: rest => by
      rw [positionsInFields, nodesInFields, List.map_append,
        Value.map_node_positions (.field parent name) value, map_node_positionsInFields parent rest]

end

@[simp] theorem Value.positions_eq_nil {value : Value} (h : value.nodes = []) (holder : Holder) :
    value.positions holder = [] := by
  rw [← Value.map_node_positions holder, List.map_eq_nil_iff] at h
  exact h

def Holder.fresh : Holder → Holder
  | .field parent name => .field parent.fresh name
  | .pair name => .pair name
  | .list => .list

def Position.fresh (position : Position) : Position :=
  ⟨position.holder.fresh, position.node.fresh⟩

mutual

@[simp]
theorem Node.positions_fresh : ∀ n : Node, n.fresh.positions = n.positions.map Position.fresh
  | ⟨kind, attributes, fields, generated⟩ => by
      have hfields := positionsInFields_fresh ⟨kind, attributes, fields, generated⟩ fields
      rw [Node.fresh] at hfields ⊢
      rw [Node.positions, Node.positions, hfields]

@[simp] theorem Value.positions_fresh :
    ∀ (holder : Holder) (value : Value),
      value.fresh.positions holder.fresh = (value.positions holder).map Position.fresh
  | _, .node n => by
      rw [Value.fresh, Value.positions, Value.positions, n.positions_fresh, List.map_append]
      rfl
  | _, .list items => positionsIn_fresh items
  | _, .pair name value => Value.positions_fresh (.pair name) value
  | _, .scalar _ => rfl
  | _, .obj _ => rfl

@[simp] theorem positionsIn_fresh :
    ∀ items : List Value, positionsIn (freshItems items) = (positionsIn items).map Position.fresh
  | [] => rfl
  | item :: rest => by
      have hitem := Value.positions_fresh .list item
      rw [freshItems, positionsIn, positionsIn, List.map_append, positionsIn_fresh rest, ← hitem]
      rfl

@[simp] theorem positionsInFields_fresh (parent : Node) :
    ∀ fields : List (String × Value),
      positionsInFields parent.fresh (freshFields fields) =
        (positionsInFields parent fields).map Position.fresh
  | [] => rfl
  | (name, value) :: rest => by
      have hvalue := Value.positions_fresh (.field parent name) value
      rw [freshFields, positionsInFields, positionsInFields, List.map_append,
        positionsInFields_fresh parent rest, ← hvalue]
      rfl

end

def Holder.isPair : Holder → Bool
  | .pair _ => true
  | _ => false

mutual

private theorem Node.not_pair_of_not_hides :
    ∀ {n : Node}, n.hidesNode = false → ∀ position ∈ n.positions, position.holder.isPair = false
  | ⟨_, _, fields, _⟩, h => by
      rw [Node.hidesNode] at h
      rw [Node.positions]
      exact fields_not_pair_of_not_hide h _

private theorem Value.not_pair_of_not_hides :
    ∀ {value : Value} {holder : Holder}, value.hidesNode = false → holder.isPair = false →
      ∀ position ∈ value.positions holder, position.holder.isPair = false
  | .node n, holder, h, hholder, position, hposition => by
      rcases Value.mem_positions_node.mp hposition with hposition | rfl
      · exact Node.not_pair_of_not_hides h position hposition
      · exact hholder
  | .list _, _, h, _, position, hposition => items_not_pair_of_not_hide h position hposition
  | .pair name value, _, h, _, position, hposition => by
      rw [Value.hidesNode, Value.hasNode_eq_false_iff] at h
      rw [Value.positions, Value.positions_eq_nil h] at hposition
      cases hposition
  | .scalar _, _, _, _, _, hposition => by cases hposition
  | .obj _, _, _, _, _, hposition => by cases hposition

private theorem items_not_pair_of_not_hide :
    ∀ {items : List Value}, itemsHideNode items = false →
      ∀ position ∈ positionsIn items, position.holder.isPair = false
  | [], _, _, hposition => by cases hposition
  | item :: rest, h, position, hposition => by
      rw [itemsHideNode, Bool.or_eq_false_iff] at h
      rw [positionsIn, List.mem_append] at hposition
      rcases hposition with hposition | hposition
      · exact Value.not_pair_of_not_hides h.1 rfl position hposition
      · exact items_not_pair_of_not_hide h.2 position hposition

private theorem fields_not_pair_of_not_hide :
    ∀ {fields : List (String × Value)}, fieldsHideNode fields = false →
      ∀ parent : Node, ∀ position ∈ positionsInFields parent fields, position.holder.isPair = false
  | [], _, _, _, hposition => by cases hposition
  | (name, value) :: rest, h, parent, position, hposition => by
      rw [fieldsHideNode, Bool.or_eq_false_iff] at h
      rw [positionsInFields, List.mem_append] at hposition
      rcases hposition with hposition | hposition
      · have hfield : (Holder.field parent name).isPair = false := rfl
        exact Value.not_pair_of_not_hides h.1 hfield position hposition
      · exact fields_not_pair_of_not_hide h.2 parent position hposition

end

end ScriptSandbox
