import ScriptSandbox.Proofs.Tree.Nodes
import ScriptSandbox.Tree.Load

/-!
# Loaded trees

A value is raw when nothing in it counts as generated and it holds no pair.  Files
give raw nodes only, with or without their marks.  In a raw node without lists
inside lists, no node is out of reach of a walk.
-/

namespace ScriptSandbox

mutual

def Node.isRaw : Node → Bool
  | ⟨_, _, fields, generated⟩ => !generated && fieldsRaw fields
  termination_by structural node => node

def Value.isRaw : Value → Bool
  | .node n => n.isRaw
  | .list items => itemsRaw items
  | .pair _ _ => false
  | .scalar _ => true
  | .obj _ => true
  termination_by structural value => value

def itemsRaw : List Value → Bool
  | [] => true
  | item :: rest => item.isRaw && itemsRaw rest
  termination_by structural items => items

def fieldsRaw : List (String × Value) → Bool
  | [] => true
  | (_, value) :: rest => value.isRaw && fieldsRaw rest
  termination_by structural fields => fields

end

@[simp] theorem fieldsRaw_iff {fields : List (String × Value)} :
    fieldsRaw fields = true ↔ ∀ entry ∈ fields, entry.2.isRaw = true := by
  induction fields with
  | nil => simp [fieldsRaw]
  | cons entry rest ih => simp only [fieldsRaw, Bool.and_eq_true, ih, List.forall_mem_cons]

@[simp] theorem itemsRaw_map_node {nodes : List Node} (h : ∀ n ∈ nodes, n.isRaw = true) :
    itemsRaw (nodes.map .node) = true := by
  induction nodes with
  | nil => rfl
  | cons n rest ih =>
      rw [List.forall_mem_cons] at h
      rw [List.map_cons, itemsRaw, Value.isRaw, h.1, ih h.2, Bool.and_self]

mutual

@[simp] theorem Node.fresh_of_isRaw : ∀ {n : Node}, n.isRaw = true → n.fresh = n
  | ⟨_, _, fields, generated⟩, h => by
      rw [Node.isRaw, Bool.and_eq_true, Bool.not_eq_true'] at h
      rw [Node.fresh, freshFields_of_raw h.2, h.1]

@[simp] theorem Value.fresh_of_isRaw : ∀ {value : Value}, value.isRaw = true → value.fresh = value
  | .node _, h => by rw [Value.fresh, Node.fresh_of_isRaw h]
  | .list _, h => by rw [Value.fresh, freshItems_of_raw h]
  | .scalar _, _ => rfl
  | .obj _, _ => rfl
  | .pair _ _, h => by cases h

@[simp]
theorem freshItems_of_raw : ∀ {items : List Value}, itemsRaw items = true → freshItems items = items
  | [], _ => rfl
  | item :: rest, h => by
      rw [itemsRaw, Bool.and_eq_true] at h
      rw [freshItems, Value.fresh_of_isRaw h.1, freshItems_of_raw h.2]

@[simp] theorem freshFields_of_raw :
    ∀ {fields : List (String × Value)}, fieldsRaw fields = true → freshFields fields = fields
  | [], _ => rfl
  | (_, value) :: rest, h => by
      rw [fieldsRaw, Bool.and_eq_true] at h
      rw [freshFields, Value.fresh_of_isRaw h.1, freshFields_of_raw h.2]

end

private theorem assemble_isRaw {fields : Record Json} {loaded : Record Value} {n : Node}
    (hloaded : fieldsRaw loaded = true) (h : assemble fields loaded = .ok n) :
    n.isRaw = true := by
  unfold assemble at h
  split at h
  · cases h
    simp [Node.isRaw, hloaded]
  · cases h
  · cases h
  · cases h

mutual

private theorem loadValue_isRaw :
    ∀ {data : Json} {value : Value}, loadValue data = .ok value → value.isRaw = true
  | .scalar _, value, h => by
      cases h
      rfl
  | .arr items, value, h => by
      rw [loadValue] at h
      obtain ⟨loaded, hloaded, h⟩ := bind_eq_ok.mp h
      cases h
      rw [Value.isRaw]
      exact loadItems_isRaw hloaded
  | .obj fields, value, h => by
      rw [loadValue] at h
      split at h
      · obtain ⟨loaded, hloaded, h⟩ := bind_eq_ok.mp h
        obtain ⟨n, hn, h⟩ := bind_eq_ok.mp h
        cases h
        rw [Value.isRaw]
        exact assemble_isRaw (loadFields_isRaw hloaded) hn
      · cases h
        rfl

private theorem loadItems_isRaw :
    ∀ {items : List Json} {loaded : List Value},
      loadItems items = .ok loaded → itemsRaw loaded = true
  | [], loaded, h => by
      cases h
      rfl
  | item :: rest, loaded, h => by
      rw [loadItems] at h
      obtain ⟨value, hvalue, h⟩ := bind_eq_ok.mp h
      obtain ⟨others, hothers, h⟩ := bind_eq_ok.mp h
      cases h
      rw [itemsRaw, loadValue_isRaw hvalue, loadItems_isRaw hothers]
      rfl

private theorem loadFields_isRaw :
    ∀ {kindEntry : String} {fields : List (String × Json)} {loaded : List (String × Value)},
      loadFields kindEntry fields = .ok loaded → fieldsRaw loaded = true
  | _, [], loaded, h => by
      cases h
      rfl
  | kindEntry, (name, item) :: rest, loaded, h => by
      rw [loadFields] at h
      split at h
      · obtain ⟨value, hvalue, h⟩ := bind_eq_ok.mp h
        obtain ⟨others, hothers, h⟩ := bind_eq_ok.mp h
        cases h
        rw [fieldsRaw, loadValue_isRaw hvalue, loadFields_isRaw hothers]
        rfl
      · exact loadFields_isRaw h

end

private theorem loadNode_isRaw {data : Json} {n : Node} (h : loadNode data = .ok n) :
    n.isRaw = true := by
  cases data with
  | scalar value => cases h
  | arr items => cases h
  | obj fields =>
      rw [loadNode] at h
      obtain ⟨loaded, hloaded, h⟩ := bind_eq_ok.mp h
      exact assemble_isRaw (loadFields_isRaw hloaded) h

mutual

@[simp] theorem Node.isRaw_stripMarks : ∀ n : Node, n.stripMarks.isRaw = n.isRaw
  | ⟨_, _, fields, _⟩ => by
      rw [Node.stripMarks, Node.isRaw, Node.isRaw, fieldsRaw_stripFields fields]

@[simp] theorem Value.isRaw_stripMarks : ∀ value : Value, value.stripMarks.isRaw = value.isRaw
  | .node n => by
      rw [Value.stripMarks, Value.isRaw, Value.isRaw, n.isRaw_stripMarks]
  | .list items => by
      rw [Value.stripMarks, Value.isRaw, Value.isRaw, itemsRaw_stripItems items]
  | .scalar _ => rfl
  | .obj _ => rfl
  | .pair _ _ => rfl

@[simp]
theorem itemsRaw_stripItems : ∀ items : List Value, itemsRaw (stripItems items) = itemsRaw items
  | [] => rfl
  | .node n :: rest => by
      rw [stripItems, itemsRaw, itemsRaw, Value.isRaw, Value.isRaw, n.isRaw_stripMarks,
        itemsRaw_stripItems rest]
  | .list _ :: rest | .scalar _ :: rest | .obj _ :: rest | .pair _ _ :: rest => by
      simp only [stripItems, itemsRaw, itemsRaw_stripItems rest]

@[simp] theorem fieldsRaw_stripFields :
    ∀ fields : List (String × Value), fieldsRaw (stripFields fields) = fieldsRaw fields
  | [] => rfl
  | (_, value) :: rest => by
      rw [stripFields, fieldsRaw, fieldsRaw, value.isRaw_stripMarks, fieldsRaw_stripFields rest]

end

theorem loadTree_isRaw {strip : Bool} {data : Json} {nodes : List Node}
    (h : loadTree strip data = .ok nodes) : ∀ n ∈ nodes, n.isRaw = true := by
  have hnodes : ∀ loaded, loadNodes data = .ok loaded → ∀ n ∈ loaded, n.isRaw = true := by
    intro loaded hloaded n hn
    cases data with
    | scalar value => cases hloaded
    | arr items =>
        obtain ⟨item, -, hitem⟩ := mem_of_mapM_eq_ok (mapError_eq_ok.mp hloaded) hn
        exact loadNode_isRaw hitem
    | obj fields =>
        obtain ⟨item, -, hitem⟩ := mem_of_mapM_eq_ok (mapError_eq_ok.mp hloaded) hn
        exact loadNode_isRaw hitem
  obtain ⟨loaded, hloaded, h⟩ := bind_eq_ok.mp h
  cases h
  intro n hn
  cases strip with
  | false => exact hnodes loaded hloaded n hn
  | true =>
      obtain ⟨source, hsource, rfl⟩ := List.mem_map.mp hn
      rw [Node.isRaw_stripMarks]
      exact hnodes loaded hloaded source hsource

/-- The nodes come from a file, with or without their marks. -/
def Loaded (nodes : List Node) : Prop :=
  ∃ strip data, loadTree strip data = .ok nodes

theorem Loaded.isRaw {nodes : List Node} (h : Loaded nodes) : ∀ n ∈ nodes, n.isRaw = true := by
  obtain ⟨strip, data, hdata⟩ := h
  exact loadTree_isRaw hdata

mutual

theorem Node.isRaw_of_mem :
    ∀ {parent : Node}, parent.isRaw = true → ∀ n ∈ parent.nodes, n.isRaw = true
  | ⟨kind, attributes, fields, generated⟩, h, n, hn => by
      have hfields := h
      rw [Node.isRaw, Bool.and_eq_true] at hfields
      rw [Node.nodes, List.mem_append, List.mem_singleton] at hn
      rcases hn with hn | rfl
      · exact fieldsRaw_of_mem hfields.2 n hn
      · exact h

theorem Value.isRaw_of_mem :
    ∀ {value : Value}, value.isRaw = true → ∀ n ∈ value.nodes, n.isRaw = true
  | .node _, h, n, hn => Node.isRaw_of_mem h n hn
  | .list _, h, n, hn => itemsRaw_of_mem h n hn
  | .scalar _, _, _, hn => by cases hn
  | .obj _, _, _, hn => by cases hn
  | .pair _ _, h, _, _ => by cases h

private theorem itemsRaw_of_mem :
    ∀ {items : List Value}, itemsRaw items = true → ∀ n ∈ nodesIn items, n.isRaw = true
  | [], _, _, hn => by cases hn
  | item :: rest, h, n, hn => by
      rw [itemsRaw, Bool.and_eq_true] at h
      rw [nodesIn, List.mem_append] at hn
      rcases hn with hn | hn
      · exact Value.isRaw_of_mem h.1 n hn
      · exact itemsRaw_of_mem h.2 n hn

private theorem fieldsRaw_of_mem :
    ∀ {fields : List (String × Value)}, fieldsRaw fields = true →
      ∀ n ∈ nodesInFields fields, n.isRaw = true
  | [], _, _, hn => by cases hn
  | (_, value) :: rest, h, n, hn => by
      rw [fieldsRaw, Bool.and_eq_true] at h
      rw [nodesInFields, List.mem_append] at hn
      rcases hn with hn | hn
      · exact Value.isRaw_of_mem h.1 n hn
      · exact fieldsRaw_of_mem h.2 n hn

end

@[simp] theorem Node.generated_of_isRaw {n : Node} (h : n.isRaw = true) : n.generated = false := by
  cases n
  rw [Node.isRaw, Bool.and_eq_true, Bool.not_eq_true'] at h
  exact h.1

theorem Node.not_generated_of_isRaw {parent : Node} (h : parent.isRaw = true) :
    ∀ n ∈ parent.nodes, n.generated = false :=
  fun n hn => Node.generated_of_isRaw (Node.isRaw_of_mem h n hn)

mutual

theorem Node.isOpen_of_isRaw :
    ∀ {n : Node}, n.isRaw = true → n.nestsLists = false → n.isOpen = true
  | ⟨_, _, fields, _⟩, hraw, hflat => by
      rw [Node.isRaw, Bool.and_eq_true] at hraw
      exact fieldsOpen_of_raw hraw.2 hflat

theorem Value.isOpen_of_isRaw :
    ∀ {value : Value}, value.isRaw = true → value.nestsLists = false → value.isOpen = true
  | .node _, hraw, hflat => Node.isOpen_of_isRaw hraw hflat
  | .list _, hraw, hflat => itemsOpen_of_raw hraw hflat
  | .scalar _, _, _ => rfl
  | .obj _, _, _ => rfl
  | .pair _ _, hraw, _ => by cases hraw

private theorem itemsOpen_of_raw :
    ∀ {items : List Value}, itemsRaw items = true → itemsNestLists items = false →
      itemsOpen items = true
  | [], _, _ => rfl
  | .node n :: rest, hraw, hflat => by
      rw [itemsRaw, Bool.and_eq_true] at hraw
      rw [itemsNestLists, Bool.or_eq_false_iff] at hflat
      · rw [itemsOpen, Node.isOpen_of_isRaw hraw.1 hflat.1, itemsOpen_of_raw hraw.2 hflat.2]
        rfl
      · simp
  | .list _ :: _, _, hflat => by cases hflat
  | .scalar _ :: rest, hraw, hflat => by
      have hrest : itemsOpen rest = true := itemsOpen_of_raw hraw hflat
      exact hrest
  | .obj _ :: rest, hraw, hflat => by
      have hrest : itemsOpen rest = true := itemsOpen_of_raw hraw hflat
      exact hrest
  | .pair _ _ :: _, hraw, _ => by cases hraw

private theorem fieldsOpen_of_raw :
    ∀ {fields : List (String × Value)}, fieldsRaw fields = true →
      fieldsNestLists fields = false → fieldsOpen fields = true
  | [], _, _ => rfl
  | (_, value) :: rest, hraw, hflat => by
      rw [fieldsRaw, Bool.and_eq_true] at hraw
      rw [fieldsNestLists, Bool.or_eq_false_iff] at hflat
      rw [fieldsOpen, Value.isOpen_of_isRaw hraw.1 hflat.1, fieldsOpen_of_raw hraw.2 hflat.2]
      rfl

end

end ScriptSandbox
