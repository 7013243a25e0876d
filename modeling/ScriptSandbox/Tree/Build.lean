import ScriptSandbox.Tree.Access

/-!
# Building nodes

Constructors for the nodes that programs build most.  A callee, a constant and a
class may be given by a text, which is split at backslashes into a name.
-/

namespace ScriptSandbox

namespace Node

def make (kind : Kind) (attributes : Record Json) (fields : Record Value) : Node :=
  ⟨kind, attributes, fields, false⟩

def marked (attributes : Record Json) : Record Json :=
  Record.set attributes syntheticMark (.bool true)

def synthetic (kind : Kind) (attributes : Record Json) (fields : Record Value) : Node :=
  make kind (marked attributes) fields

def nameOfParts (attributes : Record Json) (parts : List Value) : Node :=
  make (.name .unqualified) attributes [("parts", .list parts)]

/-- The parts of a name written in one text. -/
def partsOf (text : String) : List Value :=
  (Text.split '\\' text).map .str

def name (value : Value) (attributes : Record Json) : Except Malformed Node :=
  match value with
  | .str text => .ok (nameOfParts attributes (partsOf text))
  | value => do .ok (nameOfParts attributes (← value.items))

def arg (value byRef unpack : Value) : Node :=
  make .arg [] [("value", value), ("byRef", byRef), ("unpack", unpack)]

def string (value : Value) (attributes : Record Json) : Node :=
  make (.literal .string) attributes [("value", value)]

def integer (value : Value) (attributes : Record Json) : Node :=
  make (.literal .integer) attributes [("value", value)]

def encapsed (parts : Value) (attributes : Record Json) : Node :=
  make (.literal .encapsed) attributes [("parts", parts)]

def variableRef (name : Value) (attributes : Record Json) : Node :=
  make (.expression .variableRef) attributes [("name", name)]

/-- A text becomes a name, any other value stays. -/
def nameOrValue (value : Value) : Value :=
  match value with
  | .str text => .node (nameOfParts [] (partsOf text))
  | value => value

def funcCall (callee args : Value) (attributes : Record Json) : Except Malformed Node := do
  .ok (make (.expression .funcCall) attributes
    [("name", nameOrValue callee), ("args", .list (← args.itemsOrNone))])

def methodCall (object method args : Value) (attributes : Record Json) :
    Except Malformed Node := do
  .ok (make (.expression .methodCall) attributes
    [("var", object), ("name", method), ("args", .list (← args.itemsOrNone))])

def constFetch (constant : Value) (attributes : Record Json) : Node :=
  make (.expression .constFetch) attributes [("name", nameOrValue constant)]

def instantiation (target args : Value) (attributes : Record Json) : Except Malformed Node := do
  .ok (make (.expression .new) attributes
    [("class", nameOrValue target), ("args", .list (← args.itemsOrNone))])

def ternary (condition yes no : Value) (attributes : Record Json) : Node :=
  make (.expression .ternary) attributes [("cond", condition), ("if", yes), ("else", no)]

def closureUse (name byRef : Value) (attributes : Record Json) : Node :=
  make (.expression .closureUse) attributes [("var", name), ("byRef", byRef)]

end Node

end ScriptSandbox
