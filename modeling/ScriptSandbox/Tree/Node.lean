import ScriptSandbox.Json.Basic
import ScriptSandbox.Kind.Rule
import ScriptSandbox.Kind.Spelling

/-!
# Syntax trees

A node has a kind, attributes that say where it came from, and named fields.  A
field holds a scalar, a list, another node, or an object that is no node.  Lists
may lie inside lists.  Where a node was taken for a list, its entries are pairs of
a name and a value.

A node also remembers whether the sandbox itself generated it, for the store that
judges it.  This is no part of a tree file: it cannot be loaded and is not shown.
-/

namespace ScriptSandbox

mutual

structure Node where
  kind : Kind
  attributes : List (String × Json)
  fields : List (String × Value)
  generated : Bool

inductive Value where
  | scalar (value : Scalar)
  | obj (fields : List (String × Json))
  | list (items : List Value)
  | node (node : Node)
  | pair (name : String) (value : Value)

end

/-- The top-level statements of a script. -/
abbrev Tree := List Value

namespace Value

@[match_pattern] abbrev null : Value := .scalar .null

@[match_pattern] abbrev bool (value : Bool) : Value := .scalar (.bool value)

@[match_pattern] abbrev int (value : Int) : Value := .scalar (.num (.int value))

@[match_pattern] abbrev str (value : String) : Value := .scalar (.str value)

instance : Inhabited Value := ⟨.null⟩

mutual

/-- A value without nodes. -/
def ofJson : Json → Value
  | .scalar value => .scalar value
  | .arr items => .list (ofJsonItems items)
  | .obj fields => .obj fields

def ofJsonItems : List Json → List Value
  | [] => []
  | item :: rest => ofJson item :: ofJsonItems rest

end

/-- A node counts as true, also one without fields, and so does a pair. -/
def truthy : Value → Bool
  | .scalar value => value.truthy
  | .obj fields => !fields.isEmpty
  | .list items => !items.isEmpty
  | .node _ => true
  | .pair _ _ => true

def text? : Value → Option String
  | .str value => some value
  | _ => none

def node? : Value → Option Node
  | .node n => some n
  | _ => none

/-- The node of a name that is written in the script. -/
def name? : Value → Option Node
  | .node n => if n.kind.isName then some n else none
  | _ => none

end Value

/-- The attribute that marks generated nodes in the files written out. -/
def syntheticMark : String := "synthetic"

namespace Node

/-- An absent field reads as null. -/
def field (node : Node) (name : String) : Value :=
  (Record.get? node.fields name).getD .null

def setField (node : Node) (name : String) (value : Value) : Node :=
  { node with fields := Record.set node.fields name value }

def attr (node : Node) (name : String) : Json :=
  (Record.get? node.attributes name).getD .null

def line (node : Node) : Json := node.attr "startLine"

def isSynthetic (node : Node) : Bool := (node.attr syntheticMark).truthy

end Node

mutual

/-- A copy in which no node counts as generated. -/
def Node.fresh : Node → Node
  | ⟨kind, attributes, fields, _⟩ => ⟨kind, attributes, freshFields fields, false⟩
  termination_by structural node => node

def Value.fresh : Value → Value
  | .scalar value => .scalar value
  | .obj fields => .obj fields
  | .list items => .list (freshItems items)
  | .node n => .node n.fresh
  | .pair name value => .pair name value.fresh
  termination_by structural value => value

def freshItems : List Value → List Value
  | [] => []
  | item :: rest => item.fresh :: freshItems rest
  termination_by structural items => items

def freshFields : List (String × Value) → List (String × Value)
  | [] => []
  | (name, value) :: rest => (name, value.fresh) :: freshFields rest
  termination_by structural fields => fields

end

end ScriptSandbox
