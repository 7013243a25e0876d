import ScriptSandbox.Proofs.Tree.Dumped
import ScriptSandbox.Proofs.Tree.Fresh
import ScriptSandbox.Proofs.Tree.Shaped
import ScriptSandbox.Proofs.Walk.Placement

/-!
# Nodes hidden in pairs

A tree has a dump if all its statements are nodes and no pair in it holds a node.  Pairs come
about where a node is taken for a list, so the items of a field that holds a list, or
nothing, hide no node if the field does not.
-/

namespace ScriptSandbox

@[simp] theorem itemsHideNode_eq_false_iff {items : List Value} :
    itemsHideNode items = false ↔ ∀ item ∈ items, item.hidesNode = false := by
  induction items with
  | nil => simp [itemsHideNode]
  | cons item rest ih => rw [itemsHideNode, Bool.or_eq_false_iff, ih, List.forall_mem_cons]

@[simp] theorem fieldsHideNode_eq_false_iff {fields : Record Value} :
    fieldsHideNode fields = false ↔ ∀ entry ∈ fields, entry.2.hidesNode = false := by
  induction fields with
  | nil => simp [fieldsHideNode]
  | cons entry rest ih => rw [fieldsHideNode, Bool.or_eq_false_iff, ih, List.forall_mem_cons]

@[simp] theorem Node.hidesNode_eq_false_iff {n : Node} :
    n.hidesNode = false ↔ ∀ entry ∈ n.fields, entry.2.hidesNode = false := by
  cases n
  exact fieldsHideNode_eq_false_iff

theorem Node.field_hidesNode {n : Node} (h : n.hidesNode = false) (name : String) :
    (n.field name).hidesNode = false :=
  field_of_fields (Q := fun value => value.hidesNode = false) (hidesNode_eq_false_iff.mp h) rfl name

theorem Value.Lists.items_hideNode {P : Value → Prop} {value : Value} {items : List Value}
    (h : value.Lists P) (hhides : value.hidesNode = false)
    (hitems : value.itemsOrNone = .ok items) : ∀ item ∈ items, item.hidesNode = false := by
  cases value with
  | list others =>
      have heq : items = others := by cases others <;> (cases hitems; rfl)
      exact heq ▸ itemsHideNode_eq_false_iff.mp hhides
  | _ =>
      have hfalse : Value.truthy _ = false := h
      rw [itemsOrNone, hfalse] at hitems
      cases hitems
      simp

mutual

@[simp] theorem Node.hidesNode_of_isRaw : ∀ {n : Node}, n.isRaw = true → n.hidesNode = false
  | ⟨_, _, _, _⟩, h => by
      rw [Node.isRaw, Bool.and_eq_true] at h
      exact fieldsHideNode_of_raw h.2

@[simp]
theorem Value.hidesNode_of_isRaw : ∀ {value : Value}, value.isRaw = true → value.hidesNode = false
  | .node _, h => Node.hidesNode_of_isRaw h
  | .list _, h => itemsHideNode_of_raw h
  | .scalar _, _ => rfl
  | .obj _, _ => rfl

@[simp] theorem itemsHideNode_of_raw :
    ∀ {items : List Value}, itemsRaw items = true → itemsHideNode items = false
  | [], _ => rfl
  | _ :: _, h => by
      rw [itemsRaw, Bool.and_eq_true] at h
      rw [itemsHideNode, Value.hidesNode_of_isRaw h.1, itemsHideNode_of_raw h.2, Bool.or_self]

@[simp] theorem fieldsHideNode_of_raw :
    ∀ {fields : Record Value}, fieldsRaw fields = true → fieldsHideNode fields = false
  | [], _ => rfl
  | (_, _) :: _, h => by
      rw [fieldsRaw, Bool.and_eq_true] at h
      rw [fieldsHideNode, Value.hidesNode_of_isRaw h.1, fieldsHideNode_of_raw h.2, Bool.or_self]

end

mutual

@[simp] theorem Value.hidesNode_of_nodes_eq_nil :
    ∀ {value : Value}, value.nodes = [] → value.hidesNode = false
  | .node n, h => absurd h n.nodes_ne_nil
  | .list _, h => itemsHideNode_of_nodesIn_eq_nil h
  | .pair _ value, h => value.hasNode_eq_false_iff.mpr h
  | .scalar _, _ => rfl
  | .obj _, _ => rfl

private theorem itemsHideNode_of_nodesIn_eq_nil :
    ∀ {items : List Value}, nodesIn items = [] → itemsHideNode items = false
  | [], _ => rfl
  | _ :: _, h => by
      rw [nodesIn, List.append_eq_nil_iff] at h
      rw [itemsHideNode, Value.hidesNode_of_nodes_eq_nil h.1, itemsHideNode_of_nodesIn_eq_nil h.2,
        Bool.or_self]

end

theorem Value.Settled.hidesNode {value : Value}
    (h : value.Settled fun placed => placed.hidesNode = false) : value.hidesNode = false := by
  cases value with
  | list items => exact itemsHideNode_eq_false_iff.mpr h
  | pair name value => exact value.hasNode_eq_false_iff.mpr h
  | _ => exact h

mutual

@[simp] theorem Node.hidesNode_fresh : ∀ {n : Node}, n.hidesNode = false → n.fresh.hidesNode = false
  | ⟨_, _, _, _⟩, h => by
      rw [Node.fresh, Node.hidesNode]
      exact fieldsHideNode_fresh h

@[simp] theorem Value.hidesNode_fresh :
    ∀ {value : Value}, value.hidesNode = false → value.fresh.hidesNode = false
  | .node _, h => Node.hidesNode_fresh h
  | .list _, h => itemsHideNode_fresh h
  | .pair _ value, h => by
      rw [Value.hidesNode, Value.hasNode_eq_false_iff] at h
      simp [Value.fresh, Value.hidesNode, h]
  | .scalar _, _ => rfl
  | .obj _, _ => rfl

@[simp] theorem itemsHideNode_fresh :
    ∀ {items : List Value}, itemsHideNode items = false → itemsHideNode (freshItems items) = false
  | [], _ => rfl
  | _ :: _, h => by
      rw [itemsHideNode, Bool.or_eq_false_iff] at h
      rw [freshItems, itemsHideNode, Value.hidesNode_fresh h.1, itemsHideNode_fresh h.2,
        Bool.or_self]

@[simp] theorem fieldsHideNode_fresh :
    ∀ {fields : Record Value}, fieldsHideNode fields = false →
      fieldsHideNode (freshFields fields) = false
  | [], _ => rfl
  | (_, _) :: _, h => by
      rw [fieldsHideNode, Bool.or_eq_false_iff] at h
      rw [freshFields, fieldsHideNode, Value.hidesNode_fresh h.1, fieldsHideNode_fresh h.2,
        Bool.or_self]

end

theorem dumpableNodes_of_nodes {tree : Tree} (hnodes : ∀ item ∈ tree, item.IsNode fun _ => True)
    (hhides : itemsHideNode tree = false) : ∃ nodes, dumpableNodes tree = .ok nodes := by
  have hmap : ∃ nodes : List Node, tree = nodes.map .node := by
    clear hhides
    induction tree with
    | nil => exact ⟨[], rfl⟩
    | cons item rest ih =>
        obtain ⟨hitem, hrest⟩ := List.forall_mem_cons.mp hnodes
        obtain ⟨n, rfl, _⟩ := Value.isNode_iff.mp hitem
        obtain ⟨nodes, rfl⟩ := ih hrest
        exact ⟨n :: nodes, rfl⟩
  obtain ⟨nodes, rfl⟩ := hmap
  have hall := List.forall_mem_map.mp (itemsHideNode_eq_false_iff.mp hhides)
  exact ⟨nodes, dumpableNodes_map_node hall⟩

end ScriptSandbox
