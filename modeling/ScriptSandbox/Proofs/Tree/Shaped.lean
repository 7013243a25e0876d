import ScriptSandbox.Enforce.References
import ScriptSandbox.Proofs.Tree.Flattened
import ScriptSandbox.Proofs.Tree.Names

/-!
# Shapes of nodes

`Node.Shaped` says of a node that the fields which are read for its kind hold what a parser
puts there: names with their parts, lists of nodes, and lists of texts.  Such fields can be
read.  A list may be missing, and fields that nothing reads may hold anything.
-/

namespace ScriptSandbox

namespace Value

def IsText (value : Value) : Prop :=
  value.text?.isSome = true

instance (value : Value) : Decidable value.IsText :=
  inferInstanceAs (Decidable (value.text?.isSome = true))

def IsNode (P : Node → Prop) : Value → Prop
  | .node n => P n
  | _ => False

instance (P : Node → Prop) [DecidablePred P] : DecidablePred (IsNode P)
  | .node n => inferInstanceAs (Decidable (P n))
  | .scalar _ | .obj _ | .list _ | .pair _ _ => isFalse id

/-- A list of items with the property, or nothing: a value that counts as false. -/
def Lists (P : Value → Prop) : Value → Prop
  | .list items => ∀ item ∈ items, P item
  | value => value.truthy = false

instance (P : Value → Prop) [DecidablePred P] : DecidablePred (Lists P)
  | .list items => inferInstanceAs (Decidable (∀ item ∈ items, P item))
  | .scalar value => inferInstanceAs (Decidable ((Value.scalar value).truthy = false))
  | .obj fields => inferInstanceAs (Decidable ((Value.obj fields).truthy = false))
  | .node n => inferInstanceAs (Decidable ((Value.node n).truthy = false))
  | .pair name value => inferInstanceAs (Decidable ((Value.pair name value).truthy = false))

end Value

namespace Node

def Stays (n : Node) : Prop :=
  ¬ n.kind.GivesWay

instance : DecidablePred Stays := fun n => inferInstanceAs (Decidable (¬ n.kind.GivesWay))

def SpelledOut (n : Node) : Prop :=
  (n.field "parts").Lists Value.IsText

instance : DecidablePred SpelledOut :=
  fun n => inferInstanceAs (Decidable ((n.field "parts").Lists Value.IsText))

def NameSpelledOut (field : String) (n : Node) : Prop :=
  ∀ written ∈ (n.field field).name?, written.SpelledOut

instance (field : String) : DecidablePred (NameSpelledOut field) := fun n =>
  inferInstanceAs (Decidable (∀ written ∈ (n.field field).name?, written.SpelledOut))

def IsSpelledName (n : Node) : Prop :=
  n.kind.isName = true ∧ n.SpelledOut

instance : DecidablePred IsSpelledName := fun n =>
  inferInstanceAs (Decidable (n.kind.isName = true ∧ n.SpelledOut))

def FitsImport (n : Node) : Prop :=
  n.Stays ∧ (n.kind = .statement .useItem → n.NameSpelledOut "name")

instance : DecidablePred FitsImport := fun n =>
  inferInstanceAs (Decidable (n.Stays ∧ (n.kind = .statement .useItem → n.NameSpelledOut "name")))

def FitsCommand (n : Node) : Prop :=
  n.Stays ∧ (n.kind = .literal .encapsedPart → (n.field "value").IsText)

instance : DecidablePred FitsCommand := fun n =>
  inferInstanceAs (Decidable (n.Stays ∧ (n.kind = .literal .encapsedPart →
    (n.field "value").IsText)))

end Node

def Value.FitsCommand (value : Value) : Prop :=
  value.IsText ∨ value.IsNode Node.FitsCommand

instance : DecidablePred Value.FitsCommand := fun value =>
  inferInstanceAs (Decidable (value.IsText ∨ value.IsNode Node.FitsCommand))

/-- The fields that are read for the rule hold what a parser puts there. -/
def Rule.Shapes (n : Node) : Rule → Prop
  | .closure => (n.field "uses").Lists (Value.IsNode Node.Stays)
  | .classDecl =>
      n.NameSpelledOut "extends" ∧ (n.field "implements").Lists (Value.IsNode Node.IsSpelledName)
  | .interfaceDecl => (n.field "extends").Lists (Value.IsNode Node.IsSpelledName)
  | .traitUse => (n.field "traits").Lists (Value.IsNode Node.IsSpelledName)
  | .globalDecl => (n.field "vars").Lists (Value.IsNode Node.Stays)
  | .namespaceDecl =>
      n.NameSpelledOut "name" ∧ (n.field "stmts").Lists (Value.IsNode fun _ => True)
  | .useDecl => (n.field "uses").Lists (Value.IsNode Node.FitsImport)
  | .funcCall =>
      (n.field "name").IsNode (fun _ => True) ∧ n.NameSpelledOut "name" ∧
        (n.field "args").Lists (Value.IsNode Node.Stays)
  | .constFetch => n.NameSpelledOut "name"
  | .classAccess => n.NameSpelledOut "class"
  | .instantiation => n.NameSpelledOut "class"
  | .shellExec => (n.field "parts").Lists Value.FitsCommand
  | _ => True

def Node.Shaped (n : Node) : Prop :=
  n.kind.rule.Shapes n

instance (n : Node) : DecidablePred (Rule.Shapes n) := fun rule => by
  cases rule <;> unfold Rule.Shapes <;> infer_instance

instance : DecidablePred Node.Shaped := fun n => inferInstanceAs (Decidable (n.kind.rule.Shapes n))

private theorem exists_mapM_eq_ok {ε α β : Type} {step : α → Except ε β} {items : List α}
    (h : ∀ item ∈ items, ∃ result, step item = .ok result) :
    ∃ results, items.mapM step = .ok results := by
  induction items with
  | nil => exact ⟨[], rfl⟩
  | cons first rest ih =>
      obtain ⟨⟨head, hhead⟩, hrest⟩ := List.forall_mem_cons.mp h
      obtain ⟨tail, htail⟩ := ih hrest
      refine ⟨head :: tail, ?_⟩
      rw [List.mapM_cons, hhead, htail]
      rfl

namespace Value

variable {value : Value}

@[simp] theorem isText_iff : value.IsText ↔ ∃ text, value = .str text := by
  simp [IsText, Option.isSome_iff_exists]

@[simp] theorem isNode_iff {P : Node → Prop} : value.IsNode P ↔ ∃ n, value = .node n ∧ P n := by
  cases value <;> simp [IsNode]

theorem Lists.items {P : Value → Prop} (h : value.Lists P) :
    ∃ items, value.itemsOrNone = .ok items ∧ ∀ item ∈ items, P item := by
  cases value with
  | list items => cases items <;> exact ⟨_, rfl, h⟩
  | _ =>
      have hfalse : Value.truthy _ = false := h
      exact ⟨[], by rw [itemsOrNone, hfalse]; rfl, by simp⟩

theorem Lists.of_items {P : Value → Prop} {items : List Value} (h : value.Lists P)
    (hitems : value.itemsOrNone = .ok items) : ∀ item ∈ items, P item := by
  obtain ⟨others, hothers, hall⟩ := h.items
  rw [hitems] at hothers
  cases hothers
  exact hall

theorem Lists.texts (h : value.Lists IsText) : ∃ texts, value.texts = .ok texts := by
  obtain ⟨items, hitems, htexts⟩ := h.items
  rw [Value.texts, hitems]
  refine exists_mapM_eq_ok fun item hitem => ?_
  obtain ⟨text, rfl⟩ := isText_iff.mp (htexts item hitem)
  exact ⟨text, rfl⟩

end Value

namespace Node

variable {n : Node}

theorem SpelledOut.nameText (h : n.SpelledOut) : ∃ text, n.nameText = .ok text := by
  obtain ⟨texts, htexts⟩ := Value.Lists.texts h
  refine ⟨String.intercalate "\\" texts, ?_⟩
  change (n.field "parts").texts >>= _ = _
  rw [htexts]
  rfl

end Node

theorem usesVariable_of_nodes {uses : List Value} {P : Node → Prop}
    (h : ∀ use ∈ uses, use.IsNode P) (name : String) :
    ∃ used, Enforce.usesVariable name uses = .ok used := by
  induction uses with
  | nil => exact ⟨false, rfl⟩
  | cons first rest ih =>
      obtain ⟨hfirst, hrest⟩ := List.forall_mem_cons.mp h
      obtain ⟨n, rfl, _⟩ := Value.isNode_iff.mp hfirst
      change ∃ used, (if (n.field "var").text? = some name then Except.ok true
        else Enforce.usesVariable name rest) = .ok used
      split
      · exact ⟨true, rfl⟩
      · exact ih hrest

theorem variableName?_of_node (n : Node) : ∃ name, variableName? (.node n) = .ok name := by
  change ∃ name, (if n.kind = .expression .variableRef then Except.ok (n.field "name").text?
    else Except.ok none) = .ok name
  split <;> exact ⟨_, rfl⟩

namespace Node

variable {n : Node} {P : Node → Prop}

theorem globalNames_of_shape (h : (n.field "vars").Lists (Value.IsNode P)) :
    ∃ names, globalNames n = .ok names := by
  obtain ⟨items, hitems, hnodes⟩ := h.items
  have hnames : ∃ names, items.mapM variableName? = .ok names := by
    refine exists_mapM_eq_ok fun item hitem => ?_
    obtain ⟨var, rfl, _⟩ := Value.isNode_iff.mp (hnodes item hitem)
    exact variableName?_of_node var
  obtain ⟨names, hnames⟩ := hnames
  refine ⟨names.filterMap id, ?_⟩
  rw [globalNames, Node.fieldItems, hitems]
  change items.mapM variableName? >>= _ = _
  rw [hnames]
  rfl

theorem definedConstant_of_shape (h : (n.field "args").Lists (Value.IsNode P)) :
    ∃ found, definedConstant (.node n) = .ok found := by
  unfold definedConstant
  change ∃ found, (if !(n.field "args").truthy then Except.ok none else _) = .ok found
  cases hargs : n.field "args" with
  | list items =>
      cases items with
      | nil => exact ⟨none, rfl⟩
      | cons first rest =>
          rw [hargs] at h
          obtain ⟨arg, rfl, _⟩ := Value.isNode_iff.mp (h first List.mem_cons_self)
          change ∃ found, (if arg.kind ≠ .arg then Except.ok none else _) = .ok found
          split
          · exact ⟨none, rfl⟩
          · change ∃ found, (match arg.field "value" with | .node n => _ | _ => _) = Except.ok found
            split
            · split <;> exact ⟨_, rfl⟩
            · exact ⟨none, rfl⟩
  | _ =>
      rw [hargs] at h
      have hfalse : Value.truthy _ = false := h
      rw [hfalse]
      exact ⟨none, rfl⟩

end Node

namespace Enforce

private theorem partText_of_node {n : Node} (h : (n.field "value").IsText) :
    ∃ text, partText (.node n) = .ok text := by
  obtain ⟨text, htext⟩ := Value.isText_iff.mp h
  rw [Node.field] at htext
  change ∃ text, (Record.get? n.fields "value").elim (Except.ok "") Value.textOf = .ok text
  cases hvalue : Record.get? n.fields "value" with
  | none => exact ⟨"", rfl⟩
  | some value =>
      rw [hvalue, Option.getD_some] at htext
      subst htext
      exact ⟨text, rfl⟩

private theorem areTexts_of_fits {parts : List Value} (h : ∀ part ∈ parts, part.FitsCommand) :
    ∃ texts, areTexts parts = .ok texts ∧
      (texts = true → ∀ part ∈ parts, ∃ text, partText part = .ok text) := by
  induction parts with
  | nil => exact ⟨true, rfl, by simp⟩
  | cons first rest ih =>
      obtain ⟨hfirst, hrest⟩ := List.forall_mem_cons.mp h
      obtain ⟨texts, htexts, hparts⟩ := ih hrest
      have hgoes : isTextPart first = .ok true → (∃ text, partText first = .ok text) →
          ∃ texts, areTexts (first :: rest) = .ok texts ∧
            (texts = true → ∀ part ∈ first :: rest, ∃ text, partText part = .ok text) := by
        intro hpart htext
        refine ⟨texts, ?_, fun hall => List.forall_mem_cons.mpr ⟨htext, hparts hall⟩⟩
        rw [areTexts, hpart]
        exact htexts
      rcases hfirst with hfirst | hfirst
      · obtain ⟨text, rfl⟩ := Value.isText_iff.mp hfirst
        exact hgoes rfl ⟨text, rfl⟩
      · obtain ⟨n, rfl, hn⟩ := Value.isNode_iff.mp hfirst
        have hpart : isTextPart (.node n) = .ok (decide (n.kind = .literal .encapsedPart)) := rfl
        by_cases hkind : n.kind = .literal .encapsedPart
        · rw [decide_eq_true hkind] at hpart
          exact hgoes hpart (partText_of_node (hn.2 hkind))
        · refine ⟨false, ?_, nofun⟩
          rw [areTexts, hpart, decide_eq_false hkind]
          rfl

theorem command_of_shape {n : Node} (h : (n.field "parts").Lists Value.FitsCommand) :
    ∃ line, command n = .ok line := by
  obtain ⟨parts, hparts, hfits⟩ := h.items
  obtain ⟨texts, htexts, hall⟩ := areTexts_of_fits hfits
  have hcommand : command n = (if texts then
      parts.mapM partText >>= fun words => .ok (Generated.text (String.join words))
      else .ok (Generated.node (.literal .encapsed) [] [("parts", .list parts)])) := by
    rw [command, Node.fieldItems, hparts]
    change areTexts parts >>= _ = _
    rw [htexts]
    rfl
  cases texts with
  | true =>
      obtain ⟨words, hwords⟩ := exists_mapM_eq_ok (hall rfl)
      rw [hcommand, hwords]
      exact ⟨_, rfl⟩
  | false => exact ⟨_, hcommand⟩

end Enforce

end ScriptSandbox
