import ScriptSandbox.Tree.Access
import ScriptSandbox.Tree.Dump
import ScriptSandbox.Proofs.Runs

/-!
# The nodes of a tree

`Node.nodes` lists a node and all nodes inside it, at any depth, children before
their parent: in fields, in lists of any nesting, and in pairs.  A value is open
when neither a list inside a list nor a pair has a node in it.  Mutual functions on
nodes and values come with one membership lemma for each container, and later
modules use those and not the functions.
-/

namespace ScriptSandbox

mutual

/-- The nodes inside a node, and the node itself last. -/
def Node.nodes : Node → List Node
  | ⟨kind, attributes, fields, generated⟩ =>
      nodesInFields fields ++ [⟨kind, attributes, fields, generated⟩]
  termination_by structural node => node

def Value.nodes : Value → List Node
  | .node n => n.nodes
  | .list items => nodesIn items
  | .pair _ value => value.nodes
  | .scalar _ => []
  | .obj _ => []
  termination_by structural value => value

def nodesIn : List Value → List Node
  | [] => []
  | item :: rest => item.nodes ++ nodesIn rest
  termination_by structural items => items

def nodesInFields : List (String × Value) → List Node
  | [] => []
  | (_, value) :: rest => value.nodes ++ nodesInFields rest
  termination_by structural fields => fields

end

@[simp] theorem mem_nodesIn {n : Node} {items : List Value} :
    n ∈ nodesIn items ↔ ∃ item ∈ items, n ∈ item.nodes := by
  induction items with
  | nil => simp [nodesIn]
  | cons item rest ih => simp [nodesIn, ih]

@[simp] theorem mem_nodesInFields {n : Node} {fields : List (String × Value)} :
    n ∈ nodesInFields fields ↔ ∃ entry ∈ fields, n ∈ entry.2.nodes := by
  induction fields with
  | nil => simp [nodesInFields]
  | cons entry rest ih => simp [nodesInFields, ih]

@[simp] theorem Node.mem_nodes {n parent : Node} :
    n ∈ parent.nodes ↔ n = parent ∨ ∃ entry ∈ parent.fields, n ∈ entry.2.nodes := by
  cases parent with
  | mk kind attributes fields generated =>
      rw [Node.nodes, List.mem_append, mem_nodesInFields, List.mem_singleton]
      exact or_comm

@[simp] theorem Node.self_mem_nodes (n : Node) : n ∈ n.nodes :=
  Node.mem_nodes.mpr (.inl rfl)

@[simp] theorem Node.forall_mem_nodes {P : Node → Prop} {parent : Node} :
    (∀ n ∈ parent.nodes, P n) ↔ P parent ∧ ∀ entry ∈ parent.fields, ∀ n ∈ entry.2.nodes, P n := by
  simp only [Node.mem_nodes]
  constructor
  · exact fun h => ⟨h parent (.inl rfl), fun entry hentry n hn => h n (.inr ⟨entry, hentry, hn⟩)⟩
  · rintro ⟨hself, hfields⟩ n (rfl | ⟨entry, hentry, hn⟩)
    · exact hself
    · exact hfields entry hentry n hn

private theorem Value.mem_nodes_of_items {value item : Value} {items : List Value} {n : Node}
    (hitems : value.items = .ok items) (hitem : item ∈ items) (hn : n ∈ item.nodes) :
    n ∈ value.nodes := by
  cases value with
  | scalar value =>
      cases value with
      | str text =>
          cases hitems
          obtain ⟨c, _, rfl⟩ := List.mem_map.mp hitem
          cases hn
      | _ => cases hitems
  | obj fields =>
      cases hitems
      obtain ⟨entry, _, rfl⟩ := List.mem_map.mp hitem
      cases hn
  | list others =>
      cases hitems
      exact mem_nodesIn.mpr ⟨item, hitem, hn⟩
  | node parent =>
      cases hitems
      rcases List.mem_cons.mp hitem with rfl | hitem
      · cases hn
      rcases List.mem_cons.mp hitem with rfl | hitem
      · cases hn
      obtain ⟨entry, hentry, rfl⟩ := List.mem_map.mp hitem
      exact Node.mem_nodes.mpr (.inr ⟨entry, hentry, hn⟩)
  | pair name second =>
      cases hitems
      rcases List.mem_cons.mp hitem with rfl | hitem
      · cases hn
      rw [List.mem_singleton] at hitem
      exact hitem ▸ hn

theorem Value.mem_nodes_of_itemsOrNone {value item : Value} {items : List Value} {n : Node}
    (hitems : value.itemsOrNone = .ok items) (hitem : item ∈ items) (hn : n ∈ item.nodes) :
    n ∈ value.nodes := by
  unfold Value.itemsOrNone at hitems
  split at hitems
  · exact Value.mem_nodes_of_items hitems hitem hn
  · cases hitems
    cases hitem

@[simp] theorem nodesIn_map_node (nodes : List Node) :
    nodesIn (nodes.map .node) = nodes.flatMap Node.nodes := by
  induction nodes with
  | nil => rfl
  | cons n rest ih => simp [nodesIn, Value.nodes, ih]

theorem Node.nodes_ne_nil (n : Node) : n.nodes ≠ [] :=
  List.ne_nil_of_mem n.self_mem_nodes

mutual

@[simp]
theorem Value.hasNode_eq_false_iff : ∀ value : Value, value.hasNode = false ↔ value.nodes = []
  | .node n => by simp [Value.hasNode, Value.nodes, n.nodes_ne_nil]
  | .list items => by
      rw [Value.hasNode, Value.nodes]
      exact anyHasNode_eq_false_iff items
  | .pair _ value => by
      rw [Value.hasNode, Value.nodes]
      exact Value.hasNode_eq_false_iff value
  | .scalar _ => by simp [Value.hasNode, Value.nodes]
  | .obj _ => by simp [Value.hasNode, Value.nodes]

@[simp] theorem anyHasNode_eq_false_iff :
    ∀ items : List Value, anyHasNode items = false ↔ nodesIn items = []
  | [] => by simp [anyHasNode, nodesIn]
  | item :: rest => by
      rw [anyHasNode, nodesIn, Bool.or_eq_false_iff, List.append_eq_nil_iff,
        Value.hasNode_eq_false_iff item, anyHasNode_eq_false_iff rest]

end

@[simp] theorem nodesIn_eq_nil_of_texts {items : List Value} {texts : List String}
    (h : items.mapM Value.textOf = .ok texts) : nodesIn items = [] := by
  induction items generalizing texts with
  | nil => rfl
  | cons item rest ih =>
      rw [List.mapM_cons] at h
      obtain ⟨first, hfirst, h⟩ := bind_eq_ok.mp h
      obtain ⟨others, hothers, _⟩ := bind_eq_ok.mp h
      cases item with
      | scalar value => exact ih hothers
      | _ => cases hfirst

@[simp] theorem Value.nodes_eq_nil_of_texts {value : Value} {texts : List String}
    (h : value.texts = .ok texts) : value.nodes = [] := by
  cases value with
  | list items =>
      cases items with
      | nil => rfl
      | cons item rest => exact @nodesIn_eq_nil_of_texts (item :: rest) texts h
  | node n =>
      -- The first entry of a node is a pair, so it is no text.
      cases h
  | pair name second =>
      have hitems := @nodesIn_eq_nil_of_texts [.str name, second] texts h
      exact (List.append_nil second.nodes).symm.trans hitems
  | _ => rfl

namespace Node

@[simp] theorem field_setField_self (n : Node) (name : String) (value : Value) :
    (n.setField name value).field name = value := by
  simp [field, setField]

theorem field_of_fields {Q : Value → Prop} {n : Node} (h : ∀ entry ∈ n.fields, Q entry.2)
    (hnull : Q .null) (name : String) : Q (n.field name) := by
  have hget : ∀ fields : Record Value, (∀ entry ∈ fields, Q entry.2) →
      Q ((Record.get? fields name).getD .null) := by
    intro fields hfields
    induction fields with
    | nil => exact hnull
    | cons entry rest ih =>
        unfold Record.get?
        split
        · exact hfields entry List.mem_cons_self
        · exact ih fun other hother => hfields other (List.mem_cons_of_mem entry hother)
  exact hget n.fields h

theorem exists_of_field {n : Node} {name : String} {value : Value} (h : n.field name = value)
    (hvalue : value ≠ .null) : ∃ entry ∈ n.fields, entry.2 = value := by
  rw [field] at h
  cases hget : Record.get? n.fields name with
  | none =>
      rw [hget] at h
      exact absurd h.symm hvalue
  | some other =>
      rw [hget] at h
      subst h
      exact Record.exists_of_get?_eq_some hget

theorem fields_setField {Q : Value → Prop} {n : Node} {name : String} {value : Value}
    (h : ∀ entry ∈ n.fields, Q entry.2) (hvalue : Q value) :
    ∀ entry ∈ (n.setField name value).fields, Q entry.2 := by
  have hset : ∀ fields : Record Value, (∀ entry ∈ fields, Q entry.2) →
      ∀ entry ∈ Record.set fields name value, Q entry.2 := by
    intro fields hfields
    induction fields with
    | nil => exact List.forall_mem_singleton.mpr hvalue
    | cons entry rest ih =>
        obtain ⟨hfirst, hrest⟩ := List.forall_mem_cons.mp hfields
        unfold Record.set
        split
        · exact List.forall_mem_cons.mpr ⟨hvalue, hrest⟩
        · exact List.forall_mem_cons.mpr ⟨hfirst, ih hrest⟩
  exact hset n.fields h

@[simp] theorem field_setField_ne (n : Node) {name other : String} (value : Value)
    (h : other ≠ name) : (n.setField name value).field other = n.field other := by
  rw [field, setField, Record.get?_set_ne _ _ h, field]

end Node

namespace Value

def Each (P : Node → Prop) (value : Value) : Prop :=
  ∀ n ∈ value.nodes, P n

variable {P : Node → Prop}

theorem each_of_nodes_eq_nil {value : Value} (h : value.nodes = []) : value.Each P := by
  rw [Each, h]
  exact fun _ hn => absurd hn List.not_mem_nil

@[simp] theorem each_node {n : Node} :
    (Value.node n).Each P ↔ P n ∧ ∀ entry ∈ n.fields, entry.2.Each P :=
  Node.forall_mem_nodes

@[simp] theorem each_list {items : List Value} :
    (Value.list items).Each P ↔ ∀ item ∈ items, item.Each P := by
  simp only [Each, Value.nodes, mem_nodesIn]
  exact ⟨fun h item hitem n hn => h n ⟨item, hitem, hn⟩,
    fun h n ⟨item, hitem, hn⟩ => h item hitem n hn⟩

theorem Each.items {value : Value} {items : List Value} (h : value.Each P)
    (hitems : value.itemsOrNone = .ok items) : ∀ item ∈ items, item.Each P :=
  fun _ hitem n hn => h n (Value.mem_nodes_of_itemsOrNone hitems hitem hn)

end Value

theorem Node.field_each {P : Node → Prop} {n : Node} (h : ∀ entry ∈ n.fields, entry.2.Each P)
    (name : String) : (n.field name).Each P :=
  Node.field_of_fields h (Value.each_of_nodes_eq_nil rfl) name

mutual

/-- Whether no list inside a list, and no pair, has a node in it. -/
def Node.isOpen : Node → Bool
  | ⟨_, _, fields, _⟩ => fieldsOpen fields
  termination_by structural node => node

def Value.isOpen : Value → Bool
  | .node n => n.isOpen
  | .list items => itemsOpen items
  | .pair _ value => !value.hasNode
  | .scalar _ => true
  | .obj _ => true
  termination_by structural value => value

def itemsOpen : List Value → Bool
  | [] => true
  | .node n :: rest => n.isOpen && itemsOpen rest
  | item :: rest => !item.hasNode && itemsOpen rest
  termination_by structural items => items

def fieldsOpen : List (String × Value) → Bool
  | [] => true
  | (_, value) :: rest => value.isOpen && fieldsOpen rest
  termination_by structural fields => fields

end

@[simp] theorem fieldsOpen_iff {fields : List (String × Value)} :
    fieldsOpen fields = true ↔ ∀ entry ∈ fields, entry.2.isOpen = true := by
  induction fields with
  | nil => simp [fieldsOpen]
  | cons entry rest ih => simp only [fieldsOpen, Bool.and_eq_true, ih, List.forall_mem_cons]

mutual

/-- Whether a field, at any depth, holds a list inside a list. -/
def Node.nestsLists : Node → Bool
  | ⟨_, _, fields, _⟩ => fieldsNestLists fields
  termination_by structural node => node

def Value.nestsLists : Value → Bool
  | .node n => n.nestsLists
  | .list items => itemsNestLists items
  | .pair _ value => value.nestsLists
  | .scalar _ => false
  | .obj _ => false
  termination_by structural value => value

def itemsNestLists : List Value → Bool
  | [] => false
  | .list _ :: _ => true
  | item :: rest => item.nestsLists || itemsNestLists rest
  termination_by structural items => items

def fieldsNestLists : List (String × Value) → Bool
  | [] => false
  | (_, value) :: rest => value.nestsLists || fieldsNestLists rest
  termination_by structural fields => fields

end

end ScriptSandbox
