import ScriptSandbox.Enforce.Declarations

/-!
# Rules for references

Calls, variables, constants, classes and backticks.  What the runtime provides or
intercepts becomes a call on it; a name that is only known at run time is
rejected, except for a callee, which the runtime checks.
-/

namespace ScriptSandbox

namespace Enforce

def replaceByRuntime (method : String) (args : List Value) (origin : Node) : Judge Verdict := do
  pure (.replace (Generated.runtimeCall (← get).handle method args origin))

/-- The callee of a guarded call has to be a node. -/
def dynamicCall (node : Node) : Judge Verdict :=
  match node.field "name" with
  | .node callee => do pure (.replace (Generated.guarded (← get).handle node callee))
  | _ => throw (.malformed .member)

/-- The argument whose place a call of `func_get_arg` asks for, the first by default. -/
def placeArgument (function : String) (args : List Value) : List Value :=
  if function = "func_get_arg" then
    match args with
    | first :: _ => [first]
    | [] => [Generated.arg (Generated.integer 0)]
  else []

def namedCall (node name : Node) : Judge Verdict := do
  let text ← Judge.read name.nameText
  Judge.name .function text (some node)
  let function := Text.lower text
  let args ← Judge.read (node.fieldItems "args")
  let store ← get
  if store.isOverridden text then
    replaceByRuntime callMethod (Generated.arg (Generated.text text) :: args) node
  else if store.flag (.overwrite .definedFuncs) && definedFuncs.contains function then
    replaceByRuntime (interceptMethod function) [Generated.arg (Generated.nativeCall function)] node
  else if store.flag (.overwrite .funcGetArgs) && argumentFuncs.contains function then
    replaceByRuntime (interceptMethod function)
      (Generated.arg (Generated.nativeCall "func_get_args") :: placeArgument function args) node
  else pure .keep

def funcCall (node : Node) : Judge Verdict :=
  match (node.field "name").name? with
  | some name => namedCall node name
  | none => dynamicCall node

def superglobal (node : Node) (name : String) : Judge Verdict := do
  Judge.name .superglobal name (some node)
  if ← Judge.flag (.overwrite .superglobals) then
    replaceByRuntime superglobalMethod [Generated.arg (Generated.text name)] node
  else pure .keep

def variableRef (node : Node) : Judge Verdict :=
  match node.field "name" with
  | .str name => do
      if name = (← get).handle then Judge.reject .sandboxAccess (some node) none
      else if superglobals.contains name then superglobal node name
      else
        Judge.name .variableRef name (some node)
        pure .keep
  | _ => Judge.reject .dynamicVariable (some node) none

def constFetch (node : Node) : Judge Unit :=
  match (node.field "name").name? with
  | some name => do
      Judge.name .constant (← Judge.read name.nameText) (some node)
  | none => Judge.reject .dynamicConstant (some node) none

def magicConst (node : Node) (name : String) : Judge Verdict := do
  Judge.name .magicConst name (some node)
  if (← get).isDefinedMagicConst name then
    replaceByRuntime magicConstMethod [Generated.arg (Generated.text name)] node
  else pure .keep

/-- The outgoing class name, and the node with the substitute in place if there is one. -/
def resolveClass (node : Node) : Judge (Verdict × String) :=
  match (node.field "class").name? with
  | none => Judge.reject .dynamicClass (some node) none
  | some written => do
      let name ← Judge.read written.nameText
      match (← get).substitute? name with
      | none => pure (.keep, name)
      | some substitute =>
          let copy := { node with generated := false }
          pure (.replace (copy.setField "class" (.node (Generated.renamed substitute written))),
            substitute)

def classAccess (node : Node) : Judge Verdict := do
  let (verdict, name) ← resolveClass node
  Judge.name .classAccess name (some node)
  pure verdict

def instantiation (node : Node) : Judge Verdict := do
  Judge.require .objects .instantiation node
  keyword "new" node
  let (verdict, name) ← resolveClass node
  Judge.name .type name (some node)
  pure verdict

def isTextPart (part : Value) : Except Malformed Bool :=
  match part with
  | .str _ => .ok true
  | part => do return (← part.kind) = .literal .encapsedPart

/-- Whether all parts are texts; parts after the first other one are not looked at. -/
def areTexts : List Value → Except Malformed Bool
  | [] => .ok true
  | part :: rest => do
      if ← isTextPart part then areTexts rest else return false

/-- A part without a value is empty. -/
def partText (part : Value) : Except Malformed String :=
  match part with
  | .str text => .ok text
  | .node n => (Record.get? n.fields "value").elim (.ok "") Value.textOf
  | _ => .error .member

/-- The command between backticks, one text if nothing is computed in it. -/
def command (node : Node) : Except Malformed Node := do
  let parts ← node.fieldItems "parts"
  if ← areTexts parts then
    return Generated.text (String.join (← parts.mapM partText))
  else
    return Generated.node (.literal .encapsed) [] [("parts", .list parts)]

def shellFunction : String := "shell_exec"

/-- Backticks follow the lists of functions, under the name of the function they stand for. -/
def shellOffence? (store : Store) : Option Offence :=
  if store.hasBlacklist .functions then
    if store.isBlacklisted .functions shellFunction then some .deniedShell else none
  else if store.hasWhitelist .functions then
    if store.isWhitelisted .functions shellFunction then none else some .unlistedShell
  else none

def shellExec (node : Node) : Judge Verdict := do
  let store ← get
  if store.isOverridden shellFunction then
    let text := Generated.arg (Generated.text shellFunction)
    replaceByRuntime callMethod [text, Generated.arg (← Judge.read (command node))] node
  else
    match shellOffence? store with
    | some offence => Judge.reject offence (some node) none
    | none =>
        Judge.require .backticks .backticks node
        pure .keep

end Enforce

end ScriptSandbox
