import ScriptSandbox.Tree.Build

/-!
# Calls on the runtime

Where the sandbox decides at run time what a construct does, the construct is
replaced by a method call on the variable that holds the runtime.  Every node
built here carries the mark of generated nodes and is known as generated, so it
is not judged again.
-/

namespace ScriptSandbox

def superglobals : List String :=
  ["GLOBALS", "_SERVER", "_GET", "_POST", "_FILES", "_COOKIE", "_SESSION", "_REQUEST", "_ENV"]

/-- Built-ins that tell about the host's state. -/
def definedFuncs : List String :=
  ["get_defined_functions", "get_defined_vars", "get_defined_constants",
    "get_declared_classes", "get_declared_interfaces", "get_declared_traits",
    "get_included_files"]

/-- Built-ins that read the arguments of their caller. -/
def argumentFuncs : List String :=
  ["func_get_args", "func_get_arg", "func_num_args"]

def callMethod : String := "call_func"

def checkMethod : String := "check_func"

def superglobalMethod : String := "_get_superglobal"

def magicConstMethod : String := "_get_magic_const"

def interceptMethod (function : String) : String := "_" ++ function

namespace Generated

def node (kind : Kind) (attributes : Record Json) (fields : Record Value) : Node :=
  { Node.synthetic kind attributes fields with generated := true }

def handle (name : String) : Node :=
  node (.expression .variableRef) [] [("name", .str name)]

def arg (value : Node) : Value :=
  .node (node .arg [] [("value", .node value), ("byRef", .bool false), ("unpack", .bool false)])

def text (value : String) : Node :=
  node (.literal .string) [] [("value", .str value)]

def integer (value : Int) : Node :=
  node (.literal .integer) [] [("value", .int value)]

def plainName (parts : List Value) : Node :=
  node (.name .unqualified) [] [("parts", .list parts)]

def nativeCall (function : String) : Node :=
  node (.expression .funcCall) []
    [("name", .node (plainName [.str function])), ("args", .list [])]

def nullConst : Node :=
  node (.expression .constFetch) [] [("name", .node (plainName [.str "null"]))]

def runtimeCall (handleName method : String) (args : List Value) (origin : Node) : Node :=
  node (.expression .methodCall) origin.attributes
    [("var", .node (handle handleName)), ("name", .str method), ("args", .list args)]

def handleUse (handleName : String) : Node :=
  node (.expression .closureUse) [] [("var", .str handleName), ("byRef", .bool false)]

def renamed (text : String) (written : Node) : Node :=
  node written.kind written.attributes [("parts", .list (Node.partsOf text))]

/--
A call of a computed callee, made only if the runtime agrees to the callee.  The
callee that is checked is a copy, in which nothing counts as generated.
-/
def guarded (handleName : String) (call callee : Node) : Node :=
  node (.expression .ternary) call.attributes
    [("cond", .node (runtimeCall handleName checkMethod [arg callee.fresh] call)),
      ("if", .node { call with attributes := Node.marked call.attributes, generated := true }),
      ("else", .node nullConst)]

end Generated

end ScriptSandbox
