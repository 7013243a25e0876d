import ScriptSandbox.Harvest.Names
import ScriptSandbox.Proofs.Tree.Alike
import ScriptSandbox.Proofs.Tree.Names

/-!
# Reading trees that are alike

Every reader reads the same from two trees that are alike, up to likeness of the nodes
and values read.  What may differ, the name of a called function and the value of a
marked text, is read by few readers, and only at their places.
-/

namespace ScriptSandbox

variable {L : Likeness} {called : Bool} {place : Place} {n m : Node} {value other : Value}

theorem Likeness.SameKind.isName_eq {kind kind' : Kind} (h : L.SameKind called kind kind') :
    kind'.isName = kind.isName := by
  obtain h | ⟨_, _, hname, hname'⟩ := h
  · rw [h]
  · rw [hname, hname']

theorem Node.Alike.isName_eq (h : n.Alike L called m) : m.kind.isName = n.kind.isName := by
  cases h with
  | mk hkind _ _ => exact hkind.isName_eq

theorem Node.Alike.sameKind (h : n.Alike L called m) : L.SameKind called n.kind m.kind := by
  cases h with
  | mk hkind _ _ => exact hkind

theorem Node.Alike.kind_eq (h : n.Alike L false m) : m.kind = n.kind := by
  obtain hkind | ⟨hcalled, _⟩ := h.sameKind
  · exact hkind
  · cases hcalled

theorem Node.Alike.kind_eq_of_isName (h : n.Alike L called m) (hname : n.kind.isName = false) :
    m.kind = n.kind := by
  obtain hkind | ⟨_, _, hname', _⟩ := h.sameKind
  · exact hkind
  · rw [hname] at hname'
    cases hname'

theorem Node.Alike.attributes (h : n.Alike L called m) : L.attributes n.attributes m.attributes := by
  cases h with
  | mk _ hattributes _ => exact hattributes

theorem Node.Alike.generated_eq (h : n.Alike L called m) : m.generated = n.generated := by
  cases h with
  | mk _ _ _ => rfl

theorem FieldsAlike.toField {kind : Kind} (hname : kind.isName = false) {marked : Bool}
    {fields others : Record Value} (h : FieldsAlike L called kind marked fields others) :
    FieldsAlike L false kind marked fields others := by
  induction fields generalizing others with
  | nil =>
      cases h
      exact .nil
  | cons entry rest ih =>
      cases h with
      | cons hvalue hrest => exact .cons hvalue (ih hrest)
      | respelled hvalue hrest =>
          cases hvalue with
          | parts _ hname' =>
              rw [hname] at hname'
              cases hname'
          | text hstring hmarked htext =>
              exact .respelled (.text hstring hmarked htext) (ih hrest)

theorem Node.Alike.toField (h : n.Alike L called m) (hname : n.kind.isName = false) :
    n.Alike L false m := by
  have hkind : m.kind = n.kind := h.kind_eq_of_isName hname
  cases h with
  | mk _ hattributes hfields => exact .mk (.inl hkind) hattributes (hfields.toField hname)

/-! ## Fields -/

def Likeness.FieldAlike (L : Likeness) (called : Bool) (kind : Kind) (marked : Bool) (name : String)
    (value other : Value) : Prop :=
  value.Alike L (kind.place name) other ∨ L.Respelled called kind marked name value other

private theorem Likeness.Respelled.text_of_uncalled {kind : Kind} {marked : Bool} {name : String}
    (h : L.Respelled false kind marked name value other) :
    name = "value" ∧ ∃ a b, value = .str a ∧ L.text a b := by
  cases h with
  | parts hcalled => cases hcalled
  | text _ _ htext => exact ⟨rfl, _, _, rfl, htext⟩

theorem Likeness.Respelled.kind_of_value {kind : Kind} {marked : Bool}
    (h : L.Respelled called kind marked "value" value other) : kind = .literal .string := by
  generalize hname : "value" = name at h
  cases h with
  | parts => exact absurd hname (by decide)
  | text hkind => exact hkind

private theorem Likeness.Respelled.texts_of_parts {kind : Kind} {marked : Bool}
    (h : L.Respelled called kind marked "parts" value other) :
    ∃ texts texts', value.texts = .ok texts ∧ other.texts = .ok texts' ∧
      L.callee (String.intercalate "\\" texts) (String.intercalate "\\" texts') := by
  generalize hname : "parts" = name at h
  cases h with
  | parts _ _ hvalue hother hcallee => exact ⟨_, _, hvalue, hother, hcallee⟩
  | text => exact absurd hname (by decide)

theorem FieldsAlike.get? {kind : Kind} {marked : Bool} {fields others : Record Value}
    (h : FieldsAlike L called kind marked fields others) (name : String) :
    Option.Rel (L.FieldAlike called kind marked name) (Record.get? fields name)
      (Record.get? others name) := by
  induction fields generalizing others with
  | nil =>
      cases h
      exact .none
  | cons entry rest ih =>
      cases h with
      | @cons _ _ _ key _ _ _ _ hvalue hrest =>
          by_cases hkey : key = name
          · subst hkey
            simp only [Record.get?, if_true]
            exact .some (.inl hvalue)
          · simpa [Record.get?, hkey] using ih hrest
      | @respelled _ _ _ key _ _ _ _ hvalue hrest =>
          by_cases hkey : key = name
          · subst hkey
            simp only [Record.get?, if_true]
            exact .some (.inr hvalue)
          · simpa [Record.get?, hkey] using ih hrest

@[simp] theorem Kind.place_of_name_ne (kind : Kind) {name : String} (h : name ≠ "name") :
    kind.place name = .field := by
  simp [Kind.place, h]

@[simp]
theorem Kind.place_of_kind_ne {kind : Kind} (name : String) (h : kind ≠ .expression .funcCall) :
    kind.place name = .field := by
  simp [Kind.place, h]

namespace Node.Alike

theorem fieldAlike (h : n.Alike L called m) (name : String) :
    L.FieldAlike called n.kind (isMarked n.attributes) name (n.field name) (m.field name) := by
  cases h with
  | @mk _ kind _ _ _ fields fields' _ _ _ hfields =>
      have hget := hfields.get? name
      change L.FieldAlike _ _ _ _ ((Record.get? fields name).getD .null)
        ((Record.get? fields' name).getD .null)
      generalize Record.get? fields name = value?, Record.get? fields' name = other? at hget
      cases hget with
      | some hvalue => exact hvalue
      | none => exact .inl (.scalar _ _)

theorem setField (h : n.Alike L called m) (name : String) (hname : name ≠ "name")
    (hvalue : value.Alike L .field other) :
    (n.setField name value).Alike L called (m.setField name other) := by
  cases h with
  | @mk _ kind _ _ _ _ _ _ hkind hattributes hfields =>
      rw [← kind.place_of_name_ne hname] at hvalue
      exact .mk hkind hattributes (hfields.set hvalue)

theorem withGenerated (h : n.Alike L called m) (generated : Bool) :
    ({ n with generated } : Node).Alike L called { m with generated } := by
  cases h with
  | mk hkind hattributes hfields => exact .mk hkind hattributes hfields

theorem placed (h : n.Alike L false m) (name : String) (hvalue : name ≠ "value") :
    (n.field name).Alike L (n.kind.place name) (m.field name) := by
  obtain hfield | hfield := h.fieldAlike name
  · exact hfield
  · exact absurd hfield.text_of_uncalled.1 hvalue

theorem field (h : n.Alike L false m) (name : String) (hname : name ≠ "name")
    (hvalue : name ≠ "value") : (n.field name).Alike L .field (m.field name) := by
  have hfield := h.placed name hvalue
  rwa [n.kind.place_of_name_ne hname] at hfield

theorem nameField (h : n.Alike L false m) (hkind : n.kind ≠ .expression .funcCall) :
    (n.field "name").Alike L .field (m.field "name") := by
  have hfield := h.placed "name" (by decide)
  rwa [Kind.place_of_kind_ne "name" hkind] at hfield

theorem calleeField (h : n.Alike L false m) (hkind : n.kind = .expression .funcCall) :
    (n.field "name").Alike L .callee (m.field "name") := by
  have hfield := h.placed "name" (by decide)
  rwa [Kind.place, if_pos ⟨hkind, rfl⟩] at hfield

theorem valueField (h : n.Alike L false m) (hkind : n.kind ≠ .literal .string) :
    (n.field "value").Alike L .field (m.field "value") := by
  obtain hfield | hfield := h.fieldAlike "value"
  · rwa [n.kind.place_of_name_ne (by decide)] at hfield
  · exact absurd hfield.kind_of_value hkind

end Node.Alike

/-! ## Values -/

namespace Value.Alike

theorem truthy_eq (h : value.Alike L place other) : other.truthy = value.truthy := by
  cases h with
  | list _ hitems => cases hitems <;> rfl
  | _ => rfl

theorem text?_eq (h : value.Alike L place other) : other.text? = value.text? := by
  cases h <;> rfl

theorem name? (h : value.Alike L place other) :
    Option.Rel (Node.Alike L place.isCallee) value.name? other.name? := by
  cases h with
  | @node _ n m hn =>
      change Option.Rel _ (if n.kind.isName = true then some n else none)
        (if m.kind.isName = true then some m else none)
      rw [hn.isName_eq]
      split
      · exact .some hn
      · exact .none
  | _ => exact .none

theorem member (h : value.Alike L place other) (hplace : place.isCallee = false) (name : String)
    (hname : name ≠ "name") (hvalue : name ≠ "value") :
    EndsAlike (· = ·) (Value.Alike L .field) (value.member name) (other.member name) := by
  cases h with
  | node hn =>
      rw [hplace] at hn
      exact .ok (hn.field name hname hvalue)
  | obj _ fields => exact .ok (Value.Alike.refl L .field _)
  | _ => exact .error rfl

end Value.Alike

theorem FieldsAlike.pairs {kind : Kind} {marked : Bool} {fields others : Record Value}
    (h : FieldsAlike L false kind marked fields others) :
    ItemsAlike L (fields.map fun entry => .pair entry.1 entry.2)
      (others.map fun entry => .pair entry.1 entry.2) := by
  induction fields generalizing others with
  | nil =>
      cases h
      exact .nil
  | cons entry rest ih =>
      cases h with
      | @cons _ _ _ name _ _ _ _ hvalue hrest =>
          refine .cons (.entry ?_) (ih hrest)
          by_cases hcall : kind = .expression .funcCall ∧ name = "name"
          · rwa [Kind.place, if_pos hcall] at hvalue
          · rw [Kind.place, if_neg hcall] at hvalue
            exact hvalue.toCallee
      | respelled hvalue hrest =>
          cases hvalue with
          | parts hcalled => cases hcalled
          | text _ _ htext => exact .cons (.leaf (.text htext)) (ih hrest)

namespace Value.Alike

theorem items (h : value.Alike L .field other) :
    EndsAlike (· = ·) (ItemsAlike L) value.items other.items := by
  cases h with
  | scalar _ value =>
      cases value with
      | str text => exact .ok (ItemsAlike.refl L _)
      | _ => exact .error rfl
  | obj _ fields => exact .ok (ItemsAlike.refl L _)
  | list _ hitems => exact .ok hitems
  | node hn =>
      have hkind := hn.kind_eq
      cases hn with
      | mk _ hattributes hfields =>
          subst hkind
          exact .ok (.cons (.refl L .item _) (.cons (.leaf (.attributes hattributes)) hfields.pairs))
  | pair _ hvalue => exact .ok (.cons (.scalar _ _) (.cons hvalue .nil))

theorem itemsOrNone (h : value.Alike L .field other) :
    EndsAlike (· = ·) (ItemsAlike L) value.itemsOrNone other.itemsOrNone := by
  unfold Value.itemsOrNone
  rw [h.truthy_eq]
  split
  · exact h.items
  · exact .ok .nil

theorem firstItem (h : value.Alike L .field other) :
    EndsAlike (· = ·) (Value.Alike L .item) value.firstItem other.firstItem := by
  cases h with
  | scalar _ value => exact (EndsAlike.of_eq rfl).mono fun a b hab => hab ▸ .refl L .item a
  | obj _ fields => exact .error rfl
  | list _ hitems =>
      cases hitems with
      | nil => exact .error rfl
      | cons hitem _ => exact .ok hitem
  | node _ => exact .error rfl
  | pair _ _ => exact .ok (.scalar _ _)

theorem textOf_eq (h : value.Alike L place other) : other.textOf = value.textOf := by
  cases h <;> rfl

theorem texts_eq (h : value.Alike L .field other) : other.texts = value.texts :=
  h.itemsOrNone.bind_eq fun _ _ hitems =>
    EndsAlike.mapM_eq (itemsAlike_iff_forall₂.mp hitems) fun _ _ hitem => hitem.textOf_eq

theorem nameText_eq (h : value.Alike L place other) (hplace : place.isCallee = false) :
    other.nameText = value.nameText := by
  have hparts := h.member hplace "parts" (by decide) (by decide)
  apply hparts.bind_eq
  intro a b hab
  rw [hab.texts_eq]

end Value.Alike

/-! ## Nodes -/

namespace Node.Alike

theorem nameText_eq (h : n.Alike L false m) : m.nameText = n.nameText := by
  have hvalue : (Value.node n).Alike L .field (.node m) := .node h
  exact hvalue.nameText_eq rfl

theorem fieldItems (h : n.Alike L false m) (name : String) (hname : name ≠ "name")
    (hvalue : name ≠ "value") :
    EndsAlike (· = ·) (ItemsAlike L) (n.fieldItems name) (m.fieldItems name) :=
  (h.field name hname hvalue).itemsOrNone

theorem declaredName?_eq (h : n.Alike L false m) (hkind : n.kind ≠ .expression .funcCall) :
    m.declaredName? = n.declaredName? := by
  have hfield := h.nameField hkind
  unfold Node.declaredName?
  generalize n.field "name" = value, m.field "name" = other at hfield
  cases hfield <;> rfl

theorem calleeText (h : n.Alike L true m) :
    EndsAlike (· = ·) (fun text other => other = text ∨ L.callee text other) n.nameText
      m.nameText := by
  have hparts : L.FieldAlike true n.kind (isMarked n.attributes) "parts" (n.field "parts")
    (m.field "parts") := h.fieldAlike "parts"
  have hname : ∀ node : Node, node.nameText =
      (do .ok (String.intercalate "\\" (← (node.field "parts").texts)) :
        Except Malformed String) := fun _ => rfl
  rw [hname n, hname m]
  obtain hfield | hfield := hparts
  · rw [n.kind.place_of_name_ne (by decide)] at hfield
    rw [hfield.texts_eq]
    exact (EndsAlike.of_eq rfl).mono fun _ _ heq => .inl heq.symm
  · obtain ⟨texts, texts', hvalue, hother, hcallee⟩ := hfield.texts_of_parts
    rw [hvalue, hother]
    exact .ok (.inr hcallee)

end Node.Alike

/-! ## Names that a node introduces -/

theorem variableName?_eq (h : value.Alike L .item other) :
    variableName? other = variableName? value := by
  cases h with
  | @node _ n m hn =>
      have hkind := hn.kind_eq
      change (if m.kind = _ then .ok (m.field "name").text? else .ok none : Except Malformed _) =
        if n.kind = _ then .ok (n.field "name").text? else .ok none
      rw [hkind]
      split
      next hvariable =>
        have hname := hn.nameField (by rw [hvariable]; decide)
        rw [hname.text?_eq]
      next => rfl
  | _ => rfl

theorem Value.Alike.shortName?_eq (h : value.Alike L place other) :
    shortName? other = shortName? value := by
  cases h <;> rfl

theorem globalNames_eq (h : n.Alike L false m) : globalNames m = globalNames n := by
  have hvars := h.fieldItems "vars" (by decide) (by decide)
  apply hvars.bind_eq
  intro items items' hitems
  rw [EndsAlike.mapM_eq (itemsAlike_iff_forall₂.mp hitems) fun _ _ hitem => variableName?_eq hitem]

theorem Node.Alike.textField (htext : ∀ a b, ¬ L.text a b) (h : n.Alike L false m) :
    (n.field "value").Alike L .field (m.field "value") := by
  obtain hfield | hfield := h.fieldAlike "value"
  · rwa [n.kind.place_of_name_ne (by decide)] at hfield
  · obtain ⟨_, a, b, _, hdiffer⟩ := hfield.text_of_uncalled
    exact absurd hdiffer (htext a b)

theorem definedConstant_eq (htext : ∀ a b, ¬ L.text a b) (h : n.Alike L false m) :
    definedConstant (.node m) = definedConstant (.node n) := by
  have hcall : (Value.node n).Alike L .field (.node m) := .node h
  unfold definedConstant
  apply (hcall.member rfl "args" (by decide) (by decide)).bind_eq
  intro args args' hargs
  rw [hargs.truthy_eq]
  split
  · rfl
  apply hargs.firstItem.bind_eq
  intro first first' hfirst
  cases hfirst with
  | @node _ arg arg' harg =>
      have hkind := harg.kind_eq
      simp only [Value.kind, hkind, Value.member, bind, Except.bind]
      by_cases hargKind : arg.kind = .arg
      · have hvalue := harg.valueField (by rw [hargKind]; decide)
        generalize arg.field "value" = value, arg'.field "value" = value' at hvalue
        cases hvalue with
        | @node _ literal literal' hliteral =>
            have hliteralKind := hliteral.kind_eq
            have htextField := hliteral.textField htext
            simp only [hliteralKind]
            generalize literal.field "value" = value, literal'.field "value" = value' at htextField
            cases htextField <;> simp
        | _ => rfl
      · simp only [hargKind, ne_eq, not_false_eq_true, if_true]
  | _ => rfl

end ScriptSandbox
