import ScriptSandbox.Proofs.Tree.Alike
import ScriptSandbox.Proofs.Tree.Loaded

/-!
# Trees without attributes

A bare tree keeps kinds and fields and no attributes, also where a node was taken for a
list of pairs.  Loaded trees have equal bare trees exactly when they are alike up to
their attributes.
-/

namespace ScriptSandbox

def bareEntry (name : String) : Value → Value
  | .obj fields => .obj (if name = "attributes" then [] else fields)
  | value => value

mutual

def Node.bare : Node → Node
  | ⟨kind, _, fields, generated⟩ => ⟨kind, [], bareFields fields, generated⟩
  termination_by structural node => node

def Value.bare : Value → Value
  | .scalar value => .scalar value
  | .obj fields => .obj fields
  | .list items => .list (bareItems items)
  | .node n => .node n.bare
  | .pair name value => .pair name (bareEntry name value.bare)
  termination_by structural value => value

def bareItems : List Value → List Value
  | [] => []
  | item :: rest => item.bare :: bareItems rest
  termination_by structural items => items

def bareFields : List (String × Value) → List (String × Value)
  | [] => []
  | (name, value) :: rest => (name, value.bare) :: bareFields rest
  termination_by structural fields => fields

end

def Likeness.upToAttributes : Likeness where
  attributes _ _ := True
  callee _ _ := False
  forms := False
  text _ _ := False
  attributes_refl _ := trivial
  attributes_marked _ := trivial

open Likeness

@[simp] theorem bareItems_map_node (nodes : List Node) :
    bareItems (nodes.map .node) = nodes.map fun n => .node n.bare := by
  induction nodes with
  | nil => rfl
  | cons n rest ih => rw [List.map_cons, bareItems, ih, List.map_cons, Value.bare]

private theorem Value.bare_pair_eq {name : String} {value other : Value}
    (h : value.bare = other.bare) :
    (Value.pair name value).bare = (Value.pair name other).bare := by
  rw [Value.bare, Value.bare, h]

private theorem Likeness.Leaf.bare_pair_eq {name : String} {value other : Value}
    (h : upToAttributes.Leaf name value other) :
    (Value.pair name value).bare = (Value.pair name other).bare := by
  cases h with
  | attributes _ => rfl
  | text htext => exact htext.elim

private theorem Likeness.not_respelled {called : Bool} {kind : Kind} {marked : Bool} {name : String}
    {value other : Value} : ¬ upToAttributes.Respelled called kind marked name value other := by
  intro h
  cases h with
  | parts _ _ _ _ hcallee => exact hcallee
  | text _ _ htext => exact htext

mutual

theorem Node.Alike.bare_eq {called : Bool} :
    ∀ {n m : Node}, n.Alike upToAttributes called m → n.bare = m.bare
  | _, _, .mk hkind _ hfields => by
      have hbare := hfields.bare_eq
      obtain rfl | ⟨_, hforms, _⟩ := hkind
      · rw [Node.bare, Node.bare, hbare]
      · exact hforms.elim

theorem Value.Alike.bare_eq :
    ∀ {place : Place} {value other : Value}, value.Alike upToAttributes place other →
      value.bare = other.bare
  | _, _, _, .scalar _ _ => rfl
  | _, _, _, .obj _ _ => rfl
  | _, _, _, .list _ hitems => by rw [Value.bare, Value.bare, hitems.bare_eq]
  | _, _, _, .node hn => by rw [Value.bare, Value.bare, hn.bare_eq]
  | _, _, _, .pair _ hvalue => Value.bare_pair_eq hvalue.bare_eq
  | _, _, _, .entry hvalue => Value.bare_pair_eq hvalue.bare_eq
  | _, _, _, .leaf hvalue => hvalue.bare_pair_eq

theorem ItemsAlike.bare_eq :
    ∀ {items others : List Value}, ItemsAlike upToAttributes items others →
      bareItems items = bareItems others
  | _, _, .nil => rfl
  | _, _, .cons hitem hitems => by rw [bareItems, bareItems, hitem.bare_eq, hitems.bare_eq]

theorem FieldsAlike.bare_eq {called : Bool} {kind : Kind} {marked : Bool} :
    ∀ {fields others : Record Value}, FieldsAlike upToAttributes called kind marked fields others →
      bareFields fields = bareFields others
  | _, _, .nil => rfl
  | _, _, .cons hvalue hfields => by rw [bareFields, bareFields, hvalue.bare_eq, hfields.bare_eq]
  | _, _, .respelled hvalue _ => absurd hvalue not_respelled

end

mutual

private theorem Node.alike_of_bare_eq (called : Bool) :
    ∀ {n m : Node}, n.isRaw = true → m.isRaw = true → n.bare = m.bare →
      n.Alike upToAttributes called m
  | ⟨kind, _, fields, generated⟩, ⟨kind', _, fields', generated'⟩, hraw, hraw', h => by
      simp only [Node.isRaw, Bool.and_eq_true] at hraw hraw'
      simp only [Node.bare, Node.mk.injEq] at h
      obtain ⟨rfl, _, hfields, rfl⟩ := h
      exact .mk (.inl rfl) trivial (fieldsAlike_of_bare_eq hraw.2 hraw'.2 hfields)
  termination_by structural n => n

private theorem Value.alike_of_bare_eq (place : Place) :
    ∀ {value other : Value}, value.isRaw = true → other.isRaw = true → value.bare = other.bare →
      value.Alike upToAttributes place other
  | .scalar _, other, _, hraw', h => by
      cases other with
      | scalar _ =>
          cases h
          exact .scalar place _
      | pair => cases hraw'
      | _ => cases h
  | .obj _, other, _, hraw', h => by
      cases other with
      | obj _ =>
          cases h
          exact .obj place _
      | pair => cases hraw'
      | _ => cases h
  | .list items, other, hraw, hraw', h => by
      cases other with
      | list others =>
          simp only [Value.bare, Value.list.injEq] at h
          exact .list place (itemsAlike_of_bare_eq hraw hraw' h)
      | pair => cases hraw'
      | _ => cases h
  | .node n, other, hraw, hraw', h => by
      cases other with
      | node m =>
          simp only [Value.bare, Value.node.injEq] at h
          exact .node (n.alike_of_bare_eq place.isCallee hraw hraw' h)
      | pair => cases hraw'
      | _ => cases h
  | .pair _ _, _, hraw, _, _ => by cases hraw
  termination_by structural value => value

private theorem itemsAlike_of_bare_eq :
    ∀ {items others : List Value}, itemsRaw items = true → itemsRaw others = true →
      bareItems items = bareItems others → ItemsAlike upToAttributes items others
  | [], [], _, _, _ => .nil
  | [], _ :: _, _, _, h => by cases h
  | _ :: _, [], _, _, h => by cases h
  | item :: rest, other :: others, hraw, hraw', h => by
      simp only [itemsRaw, Bool.and_eq_true] at hraw hraw'
      simp only [bareItems, List.cons.injEq] at h
      exact .cons (item.alike_of_bare_eq .item hraw.1 hraw'.1 h.1)
        (itemsAlike_of_bare_eq hraw.2 hraw'.2 h.2)
  termination_by structural items => items

private theorem fieldsAlike_of_bare_eq {called : Bool} {kind : Kind} {marked : Bool} :
    ∀ {fields others : List (String × Value)}, fieldsRaw fields = true → fieldsRaw others = true →
      bareFields fields = bareFields others →
      FieldsAlike upToAttributes called kind marked fields others
  | [], [], _, _, _ => .nil
  | [], _ :: _, _, _, h => by cases h
  | _ :: _, [], _, _, h => by cases h
  | (name, value) :: rest, (name', other) :: others, hraw, hraw', h => by
      simp only [fieldsRaw, Bool.and_eq_true] at hraw hraw'
      simp only [bareFields, List.cons.injEq, Prod.mk.injEq] at h
      obtain ⟨⟨rfl, hvalue⟩, hrest⟩ := h
      exact .cons (value.alike_of_bare_eq _ hraw.1 hraw'.1 hvalue)
        (fieldsAlike_of_bare_eq hraw.2 hraw'.2 hrest)
  termination_by structural fields => fields

end

theorem Loaded.itemsAlike {nodes others : List Node} (hnodes : Loaded nodes)
    (hothers : Loaded others) (h : nodes.map Node.bare = others.map Node.bare) :
    ItemsAlike upToAttributes (nodes.map .node) (others.map .node) := by
  apply itemsAlike_of_bare_eq
  · exact itemsRaw_map_node hnodes.isRaw
  · exact itemsRaw_map_node hothers.isRaw
  · have hmap : ∀ nodes : List Node,
        nodes.map (fun n => Value.node n.bare) = (nodes.map Node.bare).map .node := by simp
    simp [hmap, h]

end ScriptSandbox
