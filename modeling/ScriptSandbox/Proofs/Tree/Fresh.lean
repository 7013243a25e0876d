import ScriptSandbox.Proofs.Tree.Nodes
import ScriptSandbox.Tree.Access

/-!
# Copies in which nothing is generated

A fresh copy differs from its original only in what counts as generated.  Every
reader of a tree reads the same from both, up to copies of the nodes read.
-/

namespace ScriptSandbox

theorem freshItems_eq_map (items : List Value) : freshItems items = items.map Value.fresh := by
  induction items with
  | nil => rfl
  | cons item rest ih => rw [freshItems, ih, List.map_cons]

private theorem freshFields_eq_map (fields : List (String × Value)) :
    freshFields fields = fields.map fun entry => (entry.1, entry.2.fresh) := by
  induction fields with
  | nil => rfl
  | cons entry rest ih => rw [freshFields, ih, List.map_cons]

@[simp] theorem Node.kind_fresh (n : Node) : n.fresh.kind = n.kind := by
  cases n
  rfl

@[simp] theorem Node.attributes_fresh (n : Node) : n.fresh.attributes = n.attributes := by
  cases n
  rfl

@[simp] theorem Node.generated_fresh (n : Node) : n.fresh.generated = false := by
  cases n
  rfl

@[simp] theorem Node.fields_fresh (n : Node) :
    n.fresh.fields = n.fields.map fun entry => (entry.1, entry.2.fresh) := by
  cases n
  exact freshFields_eq_map _

@[simp] theorem Node.isSynthetic_fresh (n : Node) : n.fresh.isSynthetic = n.isSynthetic := by
  simp [Node.isSynthetic, Node.attr]

@[simp] theorem Node.field_fresh (n : Node) (name : String) :
    n.fresh.field name = (n.field name).fresh := by
  have hget : ∀ fields : Record Value,
      (Record.get? (freshFields fields) name).getD .null =
        ((Record.get? fields name).getD .null).fresh := by
    intro fields
    induction fields with
    | nil => rfl
    | cons entry rest ih =>
        by_cases h : entry.1 = name
        · simp [freshFields, Record.get?, h]
        · simp [freshFields, Record.get?, h, ih]
  cases n
  exact hget _

mutual

@[simp] theorem Node.nodes_fresh : ∀ n : Node, n.fresh.nodes = n.nodes.map Node.fresh
  | ⟨_, _, fields, _⟩ => by
      rw [Node.fresh, Node.nodes, Node.nodes, nodesInFields_fresh fields, List.map_append]
      rfl

@[simp] theorem Value.nodes_fresh : ∀ value : Value, value.fresh.nodes = value.nodes.map Node.fresh
  | .node n => n.nodes_fresh
  | .list items => nodesIn_fresh items
  | .pair _ value => value.nodes_fresh
  | .scalar _ => rfl
  | .obj _ => rfl

@[simp] theorem nodesIn_fresh :
    ∀ items : List Value, nodesIn (freshItems items) = (nodesIn items).map Node.fresh
  | [] => rfl
  | item :: rest => by
      rw [freshItems, nodesIn, nodesIn, item.nodes_fresh, nodesIn_fresh rest, List.map_append]

@[simp] theorem nodesInFields_fresh :
    ∀ fields : List (String × Value),
      nodesInFields (freshFields fields) = (nodesInFields fields).map Node.fresh
  | [] => rfl
  | (_, value) :: rest => by
      rw [freshFields, nodesInFields, nodesInFields, value.nodes_fresh,
        nodesInFields_fresh rest, List.map_append]

end

theorem Value.Each.fresh {P : Node → Prop} {value : Value} (hfresh : ∀ n, P n → P n.fresh)
    (h : value.Each P) : value.fresh.Each P := by
  rw [Each, Value.nodes_fresh]
  exact List.forall_mem_map.mpr fun n hn => hfresh n (h n hn)

mutual

@[simp] theorem Node.fresh_fresh : ∀ n : Node, n.fresh.fresh = n.fresh
  | ⟨_, _, fields, _⟩ => by
      rw [Node.fresh, Node.fresh, freshFields_fresh fields]

@[simp] theorem Value.fresh_fresh : ∀ value : Value, value.fresh.fresh = value.fresh
  | .node n => by rw [Value.fresh, Value.fresh, n.fresh_fresh]
  | .list items => by rw [Value.fresh, Value.fresh, freshItems_fresh items]
  | .pair _ value => by rw [Value.fresh, Value.fresh, value.fresh_fresh]
  | .scalar _ => rfl
  | .obj _ => rfl

@[simp] theorem freshItems_fresh :
    ∀ items : List Value, freshItems (freshItems items) = freshItems items
  | [] => rfl
  | item :: rest => by
      rw [freshItems, freshItems, item.fresh_fresh, freshItems_fresh rest]

@[simp] theorem freshFields_fresh :
    ∀ fields : List (String × Value), freshFields (freshFields fields) = freshFields fields
  | [] => rfl
  | (_, value) :: rest => by
      rw [freshFields, freshFields, value.fresh_fresh, freshFields_fresh rest]

end

mutual

@[simp] theorem Node.dump_fresh : ∀ n : Node, n.fresh.dump = n.dump
  | ⟨_, _, fields, _⟩ => by
      rw [Node.fresh, Node.dump, Node.dump, dumpFields_fresh fields]

@[simp] theorem Value.dump_fresh : ∀ value : Value, value.fresh.dump = value.dump
  | .node n => by rw [Value.fresh, Value.dump, Value.dump, n.dump_fresh]
  | .list items => by rw [Value.fresh, Value.dump, Value.dump, dumpItems_fresh items]
  | .pair _ value => by rw [Value.fresh, Value.dump, Value.dump, value.dump_fresh]
  | .scalar _ => rfl
  | .obj _ => rfl

@[simp]
theorem dumpItems_fresh : ∀ items : List Value, dumpItems (freshItems items) = dumpItems items
  | [] => rfl
  | item :: rest => by
      rw [freshItems, dumpItems, dumpItems, item.dump_fresh, dumpItems_fresh rest]

@[simp] theorem dumpFields_fresh :
    ∀ fields : List (String × Value), dumpFields (freshFields fields) = dumpFields fields
  | [] => rfl
  | (_, value) :: rest => by
      rw [freshFields, dumpFields, dumpFields, value.dump_fresh, dumpFields_fresh rest]

end

namespace Value

@[simp] theorem fresh_scalar (value : Scalar) : (Value.scalar value).fresh = .scalar value := rfl

@[simp] theorem fresh_eq_scalar_iff {value : Value} {scalar : Scalar} :
    value.fresh = .scalar scalar ↔ value = .scalar scalar := by
  cases value <;> simp [fresh]

@[simp] theorem fresh_eq_node_iff {value : Value} {n : Node} :
    value.fresh = .node n ↔ ∃ m, value = .node m ∧ m.fresh = n := by
  cases value <;> simp [fresh]

mutual

@[simp] theorem fresh_ofJson : ∀ value : Json, (ofJson value).fresh = ofJson value
  | .scalar _ => rfl
  | .arr items => by rw [ofJson, fresh, freshItems_ofJsonItems items]
  | .obj _ => rfl

@[simp] theorem freshItems_ofJsonItems :
    ∀ items : List Json, freshItems (ofJsonItems items) = ofJsonItems items
  | [] => rfl
  | item :: rest => by
      rw [ofJsonItems, freshItems, fresh_ofJson item, freshItems_ofJsonItems rest]

end

@[simp] theorem truthy_fresh (value : Value) : value.fresh.truthy = value.truthy := by
  cases value with
  | list items => cases items <;> rfl
  | scalar value => rfl
  | obj fields => rfl
  | node n => rfl
  | pair name value => rfl

@[simp] theorem text?_fresh (value : Value) : value.fresh.text? = value.text? := by
  cases value <;> rfl

@[simp] theorem name?_fresh (value : Value) :
    value.fresh.name? = value.name?.map Node.fresh := by
  cases value with
  | node n =>
      simp only [fresh, name?, Node.kind_fresh]
      split <;> rfl
  | scalar value => rfl
  | obj fields => rfl
  | list items => rfl
  | pair name value => rfl

@[simp] theorem member_fresh (value : Value) (name : String) :
    value.fresh.member name = (value.member name).map Value.fresh := by
  cases value with
  | node n =>
      simp only [fresh, member, Node.field_fresh]
      rfl
  | obj fields =>
      simp only [fresh, member]
      cases Record.get? fields name <;> simp [Except.map]
  | scalar value => rfl
  | list items => rfl
  | pair name value => rfl

@[simp] theorem items_fresh (value : Value) : value.fresh.items = value.items.map freshItems := by
  cases value with
  | node n =>
      simp [fresh, items, entries, Except.map, freshItems_eq_map]
  | scalar value =>
      cases value with
      | str text =>
          simp only [fresh, items, Except.map, freshItems_eq_map, List.map_map]
          rfl
      | null => rfl
      | bool value => rfl
      | num value => rfl
  | obj fields =>
      simp only [fresh, items, Except.map, freshItems_eq_map, List.map_map]
      rfl
  | list items => rfl
  | pair name value => rfl

@[simp] theorem itemsOrNone_fresh (value : Value) :
    value.fresh.itemsOrNone = value.itemsOrNone.map freshItems := by
  unfold itemsOrNone
  rw [truthy_fresh, items_fresh]
  split <;> rfl

@[simp] theorem textOf_fresh (value : Value) : value.fresh.textOf = value.textOf := by
  cases value <;> rfl

@[simp] theorem texts_fresh (value : Value) : value.fresh.texts = value.texts := by
  unfold texts
  rw [itemsOrNone_fresh]
  cases value.itemsOrNone with
  | error cause => rfl
  | ok items =>
      change (freshItems items).mapM textOf = items.mapM textOf
      induction items with
      | nil => rfl
      | cons item rest ih =>
          simp [freshItems, ih]

@[simp] theorem nameText_fresh (value : Value) : value.fresh.nameText = value.nameText := by
  unfold nameText
  rw [member_fresh]
  cases value.member "parts" with
  | error cause => rfl
  | ok parts =>
      change (do .ok (String.intercalate "\\" (← parts.fresh.texts)) : Except Malformed String) = _
      rw [texts_fresh]
      rfl

end Value

namespace Node

@[simp] theorem nameText_fresh (n : Node) : n.fresh.nameText = n.nameText :=
  Value.nameText_fresh (.node n)

@[simp] theorem fieldItems_fresh (n : Node) (name : String) :
    n.fresh.fieldItems name = (n.fieldItems name).map freshItems := by
  simp [fieldItems]

@[simp] theorem declaredName?_fresh (n : Node) : n.fresh.declaredName? = n.declaredName? := by
  unfold declaredName?
  rw [field_fresh]
  cases n.field "name" with
  | scalar value => cases value <;> rfl
  | obj fields => rfl
  | list items => rfl
  | node n => rfl
  | pair name value => rfl

end Node

end ScriptSandbox
