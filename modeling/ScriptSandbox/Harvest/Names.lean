import ScriptSandbox.Policy.Judge

/-!
# Names that a node introduces

The constant of a call `define('NAME', …)` and the variables of a global
declaration.
-/

namespace ScriptSandbox

/-- The constant that a call introduces, if its first argument is a non-empty text. -/
def definedConstant (call : Value) : Except Malformed (Option String) := do
  let args ← call.member "args"
  if !args.truthy then return none
  let first ← args.firstItem
  if (← first.kind) ≠ .arg then return none
  match ← first.member "value" with
  | .node n =>
      match n.kind, n.field "value" with
      | .literal .string, .str name => return if name = "" then none else some name
      | _, _ => return none
  | _ => return none

def isDefineCall (call : Node) : Except Malformed Bool :=
  match call.kind, (call.field "name").name? with
  | .expression .funcCall, some name => do return Text.lower (← name.nameText) = "define"
  | _, _ => .ok false

/-- The name of a variable that is written in the script. -/
def variableName? (value : Value) : Except Malformed (Option String) := do
  if (← value.kind) = .expression .variableRef then
    return (← value.member "name").text?
  else return none

def globalNames (declaration : Node) : Except Malformed (List String) := do
  let names ← (← declaration.fieldItems "vars").mapM variableName?
  return names.filterMap id

/-- The short name of an imported name: none when null, nothing when it is no text. -/
def shortName? : Value → Option (Option String)
  | .null => some none
  | .str name => some (some name)
  | _ => none

end ScriptSandbox
