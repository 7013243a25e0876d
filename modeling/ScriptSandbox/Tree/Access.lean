import ScriptSandbox.Tree.Node
import ScriptSandbox.Text.Lines

/-!
# Reading a tree of any shape

A loaded field can hold any value, and the rules of the sandbox read fields that
they expect to hold nodes, lists or texts.  Reading fails, with a cause, exactly
where the value at hand has no such part.  A text is read as the list of its
characters, an object as the list of its names, a node as the list of its
entries, and a pair as the list of its name and value.
-/

namespace ScriptSandbox

inductive Malformed where
  /-- A member was asked of a value that has none. -/
  | member
  /-- A value was taken for a sequence, or for a sequence of texts, and is none. -/
  | sequence
  /-- The first entry was asked of an object, whose entries have no places. -/
  | place
  deriving DecidableEq, Repr

namespace Value

/-- The entry of a node or an object; null when absent. -/
def member (value : Value) (name : String) : Except Malformed Value :=
  match value with
  | .node n => .ok (n.field name)
  | .obj fields => .ok ((Record.get? fields name).elim .null ofJson)
  | _ => .error .member

def kind (value : Value) : Except Malformed Kind :=
  match value with
  | .node n => .ok n.kind
  | _ => .error .member

/-- The entries of a node as pairs: kind, attributes, and the fields in order. -/
def entries (node : Node) : List Value :=
  .pair "kind" (.str node.kind.spelling) :: .pair "attributes" (.obj node.attributes) ::
    node.fields.map fun entry => .pair entry.1 entry.2

def items (value : Value) : Except Malformed (List Value) :=
  match value with
  | .list items => .ok items
  | .str text => .ok (text.toList.map fun c => .str (String.singleton c))
  | .obj fields => .ok (fields.map fun entry => .str entry.1)
  | .node n => .ok (entries n)
  | .pair name second => .ok [.str name, second]
  | _ => .error .sequence

/-- The items of a value, none when the value counts as false. -/
def itemsOrNone (value : Value) : Except Malformed (List Value) :=
  if value.truthy then value.items else .ok []

/-- The first item of a value that counts as true. -/
def firstItem (value : Value) : Except Malformed Value :=
  match value with
  | .list (item :: _) => .ok item
  | .str text =>
      match text.toList with
      | c :: _ => .ok (.str (String.singleton c))
      | [] => .error .sequence
  | .obj _ => .error .place
  | .pair name _ => .ok (.str name)
  | _ => .error .sequence

def textOf (value : Value) : Except Malformed String :=
  match value with
  | .str text => .ok text
  | _ => .error .sequence

def texts (value : Value) : Except Malformed (List String) := do
  (← value.itemsOrNone).mapM textOf

/-- The name that a value's parts spell, joined by backslashes. -/
def nameText (value : Value) : Except Malformed String := do
  let parts ← (← value.member "parts").texts
  .ok (String.intercalate "\\" parts)

end Value

namespace Node

def nameText (node : Node) : Except Malformed String :=
  (Value.node node).nameText

/-- The items of a field, none when it is absent or counts as false. -/
def fieldItems (node : Node) (name : String) : Except Malformed (List Value) :=
  (node.field name).itemsOrNone

/-- The name that a declaration gives, when it is a non-empty text. -/
def declaredName? (node : Node) : Option String :=
  match node.field "name" with
  | .str name => if name = "" then none else some name
  | _ => none

end Node

end ScriptSandbox
