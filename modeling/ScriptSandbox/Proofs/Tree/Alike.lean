import ScriptSandbox.Proofs.PairedRuns
import ScriptSandbox.Proofs.Tree.Fresh
import ScriptSandbox.Tree.Build

/-!
# Trees that are alike

Two trees are alike when they agree in all but what a `Likeness` leaves open: the
attributes of nodes, the names of called functions, and texts in nodes with the mark of
generated nodes.  Likeness of nodes, of values, of lists of items and of fields are
four relations, one rule for each constructor.
-/

namespace ScriptSandbox

/-- In what two trees that are alike may still differ. -/
structure Likeness where
  /-- The attributes of two nodes. -/
  attributes : Record Json → Record Json → Prop
  /-- The names of two called functions. -/
  callee : String → String → Prop
  /-- Whether the name of a called function may also take another form. -/
  forms : Prop
  /-- Two texts in nodes with the mark. -/
  text : String → String → Prop
  attributes_refl : ∀ a, attributes a a
  attributes_marked : ∀ {a b}, attributes a b → attributes (Node.marked a) (Node.marked b)

def Likeness.strict : Likeness where
  attributes a b := b = a
  callee _ _ := False
  forms := False
  text _ _ := False
  attributes_refl _ := rfl
  attributes_marked h := by rw [h]

/-- Where a value stands: the callee of a call and the items of a list have rules of their own. -/
inductive Place where
  | field
  | callee
  | item
  deriving DecidableEq, Repr

def Place.isCallee : Place → Bool
  | .callee => true
  | _ => false

/-- The place of a field in a node of the kind. -/
def Kind.place (kind : Kind) (field : String) : Place :=
  if kind = .expression .funcCall ∧ field = "name" then .callee else .field

def isMarked (attributes : Record Json) : Bool :=
  ((Record.get? attributes syntheticMark).getD .null).truthy

namespace Likeness

def SameKind (L : Likeness) (called : Bool) (kind other : Kind) : Prop :=
  other = kind ∨ called = true ∧ L.forms ∧ kind.isName = true ∧ other.isName = true

inductive Respelled (L : Likeness) (called : Bool) (kind : Kind) (marked : Bool) :
    String → Value → Value → Prop where
  | parts {value other : Value} {texts texts' : List String} (hcalled : called = true)
      (hkind : kind.isName = true) (hvalue : value.texts = .ok texts)
      (hother : other.texts = .ok texts')
      (h : L.callee (String.intercalate "\\" texts) (String.intercalate "\\" texts')) :
      Respelled L called kind marked "parts" value other
  | text {a b : String} (hkind : kind = .literal .string) (hmarked : marked = true)
      (h : L.text a b) : Respelled L called kind marked "value" (.str a) (.str b)

inductive Leaf (L : Likeness) : String → Value → Value → Prop where
  | attributes {a b : Record Json} (h : L.attributes a b) : Leaf L "attributes" (.obj a) (.obj b)
  | text {a b : String} (h : L.text a b) : Leaf L "value" (.str a) (.str b)

end Likeness

mutual

inductive Node.Alike (L : Likeness) : Bool → Node → Node → Prop where
  | mk {called : Bool} {kind kind' : Kind} {attributes attributes' : Record Json}
      {fields fields' : Record Value} {generated : Bool}
      (hkind : L.SameKind called kind kind') (hattributes : L.attributes attributes attributes')
      (hfields : FieldsAlike L called kind (isMarked attributes) fields fields') :
      Node.Alike L called ⟨kind, attributes, fields, generated⟩
        ⟨kind', attributes', fields', generated⟩

inductive Value.Alike (L : Likeness) : Place → Value → Value → Prop where
  | scalar (place : Place) (value : Scalar) : Value.Alike L place (.scalar value) (.scalar value)
  | obj (place : Place) (fields : Record Json) : Value.Alike L place (.obj fields) (.obj fields)
  | list (place : Place) {items others : List Value} (h : ItemsAlike L items others) :
      Value.Alike L place (.list items) (.list others)
  | node {place : Place} {n m : Node} (h : Node.Alike L place.isCallee n m) :
      Value.Alike L place (.node n) (.node m)
  | pair {place : Place} {name : String} {value other : Value} (hplace : place ≠ .item)
      (h : Value.Alike L .item value other) :
      Value.Alike L place (.pair name value) (.pair name other)
  | entry {name : String} {value other : Value} (h : Value.Alike L .callee value other) :
      Value.Alike L .item (.pair name value) (.pair name other)
  | leaf {name : String} {value other : Value} (h : L.Leaf name value other) :
      Value.Alike L .item (.pair name value) (.pair name other)

inductive ItemsAlike (L : Likeness) : List Value → List Value → Prop where
  | nil : ItemsAlike L [] []
  | cons {item other : Value} {items others : List Value}
      (hitem : Value.Alike L .item item other) (hitems : ItemsAlike L items others) :
      ItemsAlike L (item :: items) (other :: others)

inductive FieldsAlike (L : Likeness) : Bool → Kind → Bool → Record Value → Record Value → Prop where
  | nil {called : Bool} {kind : Kind} {marked : Bool} : FieldsAlike L called kind marked [] []
  | cons {called : Bool} {kind : Kind} {marked : Bool} {name : String} {value other : Value}
      {fields others : Record Value} (hvalue : Value.Alike L (kind.place name) value other)
      (hfields : FieldsAlike L called kind marked fields others) :
      FieldsAlike L called kind marked ((name, value) :: fields) ((name, other) :: others)
  | respelled {called : Bool} {kind : Kind} {marked : Bool} {name : String} {value other : Value}
      {fields others : Record Value} (hvalue : L.Respelled called kind marked name value other)
      (hfields : FieldsAlike L called kind marked fields others) :
      FieldsAlike L called kind marked ((name, value) :: fields) ((name, other) :: others)

end

variable {L : Likeness} {called : Bool} {place : Place}

theorem itemsAlike_iff_forall₂ {items others : List Value} :
    ItemsAlike L items others ↔ List.Forall₂ (Value.Alike L .item) items others := by
  constructor
  · intro h
    induction items generalizing others with
    | nil =>
        cases h
        exact .nil
    | cons item rest ih =>
        cases h with
        | cons hitem hitems => exact .cons hitem (ih hitems)
  · intro h
    induction h with
    | nil => exact .nil
    | cons hitem _ ih => exact .cons hitem ih

theorem ItemsAlike.append {items others more more' : List Value}
    (h : ItemsAlike L items others) (hmore : ItemsAlike L more more') :
    ItemsAlike L (items ++ more) (others ++ more') := by
  rw [itemsAlike_iff_forall₂] at h hmore ⊢
  induction h with
  | nil => exact hmore
  | cons hitem _ ih => exact .cons hitem ih

mutual

@[simp] theorem Node.Alike.refl (L : Likeness) (called : Bool) : ∀ n : Node, n.Alike L called n
  | ⟨kind, attributes, fields, _⟩ =>
      .mk (.inl rfl) (L.attributes_refl attributes) (FieldsAlike.refl L called kind _ fields)

@[simp]
theorem Value.Alike.refl (L : Likeness) (place : Place) : ∀ value : Value, value.Alike L place value
  | .scalar value => .scalar place value
  | .obj fields => .obj place fields
  | .list items => .list place (ItemsAlike.refl L items)
  | .node n => .node (Node.Alike.refl L place.isCallee n)
  | .pair name value => by
      by_cases hplace : place = .item
      · subst hplace
        exact .entry (Value.Alike.refl L .callee value)
      · exact .pair hplace (Value.Alike.refl L .item value)

@[simp] theorem ItemsAlike.refl (L : Likeness) : ∀ items : List Value, ItemsAlike L items items
  | [] => .nil
  | item :: rest => .cons (Value.Alike.refl L .item item) (ItemsAlike.refl L rest)

@[simp] theorem FieldsAlike.refl (L : Likeness) (called : Bool) (kind : Kind) (marked : Bool) :
    ∀ fields : List (String × Value), FieldsAlike L called kind marked fields fields
  | [] => .nil
  | (name, value) :: rest =>
      .cons (Value.Alike.refl L (kind.place name) value) (FieldsAlike.refl L called kind marked rest)

end

private theorem Likeness.not_respelled_strict {kind : Kind} {marked : Bool} {name : String}
    {value other : Value} : ¬ Likeness.strict.Respelled called kind marked name value other := by
  intro h
  cases h with
  | parts _ _ _ _ hcallee => exact hcallee.elim
  | text _ _ htext => exact htext.elim

theorem Likeness.Leaf.eq_of_strict {name : String} {value other : Value}
    (h : Likeness.strict.Leaf name value other) : other = value := by
  cases h with
  | attributes hattributes => rw [hattributes]
  | text htext => exact htext.elim

mutual

theorem Node.Alike.eq_of_strict {called : Bool} :
    ∀ {n m : Node}, n.Alike .strict called m → m = n
  | _, _, .mk hkind hattributes hfields => by
      rw [hkind.resolve_right fun h => h.2.1, hattributes, hfields.eq_of_strict]

theorem Value.Alike.eq_of_strict :
    ∀ {place : Place} {value other : Value}, value.Alike .strict place other → other = value
  | _, _, _, .scalar _ _ | _, _, _, .obj _ _ => rfl
  | _, _, _, .list _ hitems => by rw [hitems.eq_of_strict]
  | _, _, _, .node hn => by rw [hn.eq_of_strict]
  | _, _, _, .pair _ hvalue | _, _, _, .entry hvalue => by rw [hvalue.eq_of_strict]
  | _, _, _, .leaf hvalue => by rw [hvalue.eq_of_strict]

theorem ItemsAlike.eq_of_strict :
    ∀ {items others : List Value}, ItemsAlike .strict items others → others = items
  | _, _, .nil => rfl
  | _, _, .cons hitem hitems => by rw [hitem.eq_of_strict, hitems.eq_of_strict]

theorem FieldsAlike.eq_of_strict {called : Bool} {kind : Kind} {marked : Bool} :
    ∀ {fields others : Record Value}, FieldsAlike .strict called kind marked fields others →
      others = fields
  | _, _, .nil => rfl
  | _, _, .cons hvalue hfields => by rw [hvalue.eq_of_strict, hfields.eq_of_strict]
  | _, _, .respelled hvalue _ => (Likeness.not_respelled_strict hvalue).elim

end

structure Likeness.Within (L L' : Likeness) : Prop where
  attributes : ∀ {a b}, L.attributes a b → L'.attributes a b
  callee : ∀ {a b}, L.callee a b → L'.callee a b
  forms : L.forms → L'.forms
  text : ∀ {a b}, L.text a b → L'.text a b

namespace Likeness

variable {L' : Likeness} {called' : Bool} {kind : Kind}

@[simp] theorem Within.refl (L : Likeness) : L.Within L := ⟨id, id, id, id⟩

theorem SameKind.mono (h : L.Within L') (hcalled : called = true → called' = true) {other : Kind}
    (hkind : L.SameKind called kind other) : L'.SameKind called' kind other := by
  obtain hkind | ⟨hcallee, hforms, hnames⟩ := hkind
  · exact .inl hkind
  · exact .inr ⟨hcalled hcallee, h.forms hforms, hnames⟩

theorem Respelled.mono (h : L.Within L') (hcalled : called = true → called' = true)
    {marked : Bool} {name : String} {value other : Value}
    (hvalue : L.Respelled called kind marked name value other) :
    L'.Respelled called' kind marked name value other := by
  cases hvalue with
  | parts hcallee hkind hvalue hother hparts =>
      exact .parts (hcalled hcallee) hkind hvalue hother (h.callee hparts)
  | text hkind hmarked htext => exact .text hkind hmarked (h.text htext)

theorem Leaf.mono (h : L.Within L') {name : String} {value other : Value}
    (hvalue : L.Leaf name value other) : L'.Leaf name value other := by
  cases hvalue with
  | attributes hattributes => exact .attributes (h.attributes hattributes)
  | text htext => exact .text (h.text htext)

end Likeness

mutual

theorem Node.Alike.mono {L' : Likeness} (h : L.Within L') {called called' : Bool}
    (hcalled : called = true → called' = true) :
    ∀ {n m : Node}, n.Alike L called m → n.Alike L' called' m
  | _, _, .mk hkind hattributes hfields =>
      .mk (hkind.mono h hcalled) (h.attributes hattributes) (hfields.mono h hcalled)

theorem Value.Alike.mono {L' : Likeness} (h : L.Within L') :
    ∀ {place : Place} {value other : Value}, value.Alike L place other → value.Alike L' place other
  | _, _, _, .scalar place value => .scalar place value
  | _, _, _, .obj place fields => .obj place fields
  | _, _, _, .list place hitems => .list place (hitems.mono h)
  | _, _, _, .node hn => .node (hn.mono h id)
  | _, _, _, .pair hplace hvalue => .pair hplace (hvalue.mono h)
  | _, _, _, .entry hvalue => .entry (hvalue.mono h)
  | _, _, _, .leaf hvalue => .leaf (hvalue.mono h)

theorem ItemsAlike.mono {L' : Likeness} (h : L.Within L') :
    ∀ {items others : List Value}, ItemsAlike L items others → ItemsAlike L' items others
  | _, _, .nil => .nil
  | _, _, .cons hitem hitems => .cons (hitem.mono h) (hitems.mono h)

theorem FieldsAlike.mono {L' : Likeness} (h : L.Within L') {called called' : Bool}
    (hcalled : called = true → called' = true) {kind : Kind} {marked : Bool} :
    ∀ {fields others : Record Value}, FieldsAlike L called kind marked fields others →
      FieldsAlike L' called' kind marked fields others
  | _, _, .nil => .nil
  | _, _, .cons hvalue hfields => .cons (hvalue.mono h) (hfields.mono h hcalled)
  | _, _, .respelled hvalue hfields => .respelled (hvalue.mono h hcalled) (hfields.mono h hcalled)

end

theorem Likeness.Respelled.fresh {kind : Kind} {marked : Bool} {name : String}
    {value other : Value} (h : L.Respelled called kind marked name value other) :
    L.Respelled called kind marked name value.fresh other.fresh := by
  cases h with
  | parts hcalled hkind hvalue hother hparts =>
      rw [← Value.texts_fresh] at hvalue hother
      exact .parts hcalled hkind hvalue hother hparts
  | text hkind hmarked htext => exact .text hkind hmarked htext

theorem Likeness.Leaf.fresh {name : String} {value other : Value}
    (h : L.Leaf name value other) : L.Leaf name value.fresh other.fresh := by
  cases h with
  | attributes hattributes => exact .attributes hattributes
  | text htext => exact .text htext

mutual

theorem Node.Alike.fresh {called : Bool} :
    ∀ {n m : Node}, n.Alike L called m → n.fresh.Alike L called m.fresh
  | _, _, .mk hkind hattributes hfields => .mk hkind hattributes hfields.fresh

theorem Value.Alike.fresh :
    ∀ {place : Place} {value other : Value}, value.Alike L place other →
      value.fresh.Alike L place other.fresh
  | _, _, _, .scalar place value => .scalar place value
  | _, _, _, .obj place fields => .obj place fields
  | _, _, _, .list place hitems => .list place hitems.fresh
  | _, _, _, .node hn => .node hn.fresh
  | _, _, _, .pair hplace hvalue => .pair hplace hvalue.fresh
  | _, _, _, .entry hvalue => .entry hvalue.fresh
  | _, _, _, .leaf hvalue => .leaf hvalue.fresh

theorem ItemsAlike.fresh :
    ∀ {items others : List Value}, ItemsAlike L items others →
      ItemsAlike L (freshItems items) (freshItems others)
  | _, _, .nil => .nil
  | _, _, .cons hitem hitems => .cons hitem.fresh hitems.fresh

theorem FieldsAlike.fresh {called : Bool} {kind : Kind} {marked : Bool} :
    ∀ {fields others : Record Value}, FieldsAlike L called kind marked fields others →
      FieldsAlike L called kind marked (freshFields fields) (freshFields others)
  | _, _, .nil => .nil
  | _, _, .cons hvalue hfields => .cons hvalue.fresh hfields.fresh
  | _, _, .respelled hvalue hfields => .respelled hvalue.fresh hfields.fresh

end

theorem Value.Alike.toCallee {value other : Value} (h : value.Alike L .field other) :
    value.Alike L .callee other := by
  cases h with
  | scalar _ value => exact .scalar .callee value
  | obj _ fields => exact .obj .callee fields
  | list _ hitems => exact .list .callee hitems
  | node hn => exact .node (hn.mono (.refl L) (fun h => by cases h))
  | pair _ hvalue => exact .pair (by decide) hvalue

theorem FieldsAlike.set {kind : Kind} {marked : Bool} {name : String} {value other : Value}
    (hvalue : value.Alike L (kind.place name) other) {fields others : Record Value}
    (h : FieldsAlike L called kind marked fields others) :
    FieldsAlike L called kind marked (Record.set fields name value)
      (Record.set others name other) := by
  induction fields generalizing others with
  | nil =>
      cases h
      exact .cons hvalue .nil
  | cons entry rest ih =>
      cases h with
      | @cons _ _ _ key _ _ _ _ hentry hrest =>
          by_cases hkey : key = name
          · subst hkey
            simp only [Record.set, if_true]
            exact .cons hvalue hrest
          · simp only [Record.set, if_neg hkey]
            exact .cons hentry (ih hrest)
      | @respelled _ _ _ key _ _ _ _ hentry hrest =>
          by_cases hkey : key = name
          · subst hkey
            simp only [Record.set, if_true]
            exact .cons hvalue hrest
          · simp only [Record.set, if_neg hkey]
            exact .respelled hentry (ih hrest)

theorem FieldsAlike.remark {kind : Kind} (hkind : kind ≠ .literal .string) {marked : Bool}
    (marked' : Bool) {fields others : Record Value}
    (h : FieldsAlike L called kind marked fields others) :
    FieldsAlike L called kind marked' fields others := by
  induction fields generalizing others with
  | nil =>
      cases h
      exact .nil
  | cons entry rest ih =>
      cases h with
      | cons hvalue hrest => exact .cons hvalue (ih hrest)
      | respelled hvalue hrest =>
          cases hvalue with
          | parts hcalled hname hvalue hother hparts =>
              exact .respelled (.parts hcalled hname hvalue hother hparts) (ih hrest)
          | text hstring => exact absurd hstring hkind

end ScriptSandbox
