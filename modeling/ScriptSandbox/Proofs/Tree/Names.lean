import ScriptSandbox.Proofs.Runs
import ScriptSandbox.Tree.Build

/-!
# Names and their parts

A name is written as its parts and read as one text.  Splitting a text and joining
its parts gives the text back, so a name that is built from a text spells it.
-/

namespace ScriptSandbox

namespace Text

private theorem splitAt_ne_nil (separator : Char) (chars : List Char) :
    splitAt separator chars ≠ [] := by
  cases chars with
  | nil => simp [splitAt]
  | cons c rest =>
      rw [splitAt]
      split
      · simp
      · split <;> simp

@[simp] theorem intercalate_splitAt (separator : Char) (chars : List Char) :
    [separator].intercalate (splitAt separator chars) = chars := by
  induction chars with
  | nil => simp [splitAt]
  | cons c rest ih =>
      rw [splitAt]
      split
      case isTrue h =>
        obtain ⟨first, others, hsplit⟩ := List.exists_cons_of_ne_nil (splitAt_ne_nil separator rest)
        rw [hsplit] at ih ⊢
        rw [List.intercalate_cons_cons, ih, h]
        rfl
      case isFalse h =>
        cases hsplit : splitAt separator rest with
        | nil => exact absurd hsplit (splitAt_ne_nil separator rest)
        | cons first others =>
            rw [hsplit] at ih
            rw [← ih]
            cases others with
            | nil => simp
            | cons second others => simp [List.intercalate_cons_cons]

@[simp] theorem intercalate_split (separator : Char) (text : String) :
    (String.singleton separator).intercalate (split separator text) = text := by
  rw [← String.toList_inj, String.toList_intercalate, split, List.map_map]
  simp

end Text

@[simp] theorem Value.texts_list_str (texts : List String) :
    (Value.list (texts.map .str)).texts = .ok texts := by
  have hitems : (Value.list (texts.map .str)).itemsOrNone = .ok (texts.map .str) := by
    cases texts <;> rfl
  rw [Value.texts, hitems]
  change (texts.map Value.str).mapM Value.textOf = .ok texts
  induction texts with
  | nil => rfl
  | cons text rest ih =>
      rw [List.map_cons, List.mapM_cons, ih (by cases rest <;> rfl)]
      rfl

@[simp] theorem Value.text?_eq_some_iff {value : Value} {text : String} :
    value.text? = some text ↔ value = .str text := by
  cases value with
  | scalar scalar => cases scalar <;> simp [Value.text?]
  | _ => simp [Value.text?]

@[simp] theorem Value.name?_eq_some_iff {value : Value} {n : Node} :
    value.name? = some n ↔ value = .node n ∧ n.kind.isName = true := by
  cases value with
  | node m =>
      rw [name?, Option.ite_none_right_eq_some, Option.some.injEq, node.injEq, and_comm]
      exact ⟨fun ⟨hm, hname⟩ => ⟨hm, hm ▸ hname⟩, fun ⟨hm, hname⟩ => ⟨hm, hm ▸ hname⟩⟩
  | _ => simp [name?]

theorem Value.isName_of_name? {value : Value} {n : Node} (h : value.name? = some n) :
    n.kind.isName = true :=
  (name?_eq_some_iff.mp h).2

theorem Node.nameText_of_parts {n : Node} {text : String}
    (h : n.field "parts" = .list (Node.partsOf text)) : n.nameText = .ok text := by
  have hparts : (Value.node n).member "parts" = .ok (.list (Node.partsOf text)) := congrArg _ h
  rw [Node.nameText, Value.nameText, hparts]
  change (do .ok (String.intercalate "\\" (← (Value.list (Node.partsOf text)).texts)) :
    Except Malformed String) = .ok text
  rw [Node.partsOf, Value.texts_list_str]
  exact congrArg Except.ok (Text.intercalate_split '\\' text)

end ScriptSandbox
