import ScriptSandbox.Enforce.Runtime
import ScriptSandbox.Harvest.Names
import ScriptSandbox.Tree.Walk

/-!
# Rules for declarations

Functions, closures, classes, interfaces, traits, globals, static variables,
namespaces and imports.  A declaration needs its feature; then its keyword and
its names are judged in the order in which they are written here.
-/

namespace ScriptSandbox

namespace Enforce

def keyword (word : String) (node : Node) : Judge Unit :=
  Judge.name .keyword word (some node)

def declaredName (offence : Offence) (node : Node) : Judge String :=
  match node.declaredName? with
  | some name => pure name
  | none => Judge.reject offence (some node) (some "")

/-- The name that a value spells, which must not be empty. -/
def spelledName (offence : Offence) (node : Node) (value : Value) : Judge String := do
  let text ← Judge.read value.nameText
  if text = "" then Judge.reject offence (some node) (some "")
  pure text

def functionDecl (node : Node) : Judge Unit := do
  Judge.require .functions .functionDecl node
  keyword "function" node
  let name ← declaredName .unnamedFunction node
  let store ← get
  if store.isOverridden name || store.isDeclared name then
    Judge.reject .redefinedFunction (some node) (some name)
  if (node.field "byRef").truthy && !store.allows .references then
    Judge.reject .returnByReference (some node) none
  Judge.update (·.declare name)

/-- Whether one of the uses names the variable; uses after it are not looked at. -/
def usesVariable (name : String) : List Value → Except Malformed Bool
  | [] => .ok false
  | use :: rest => do
      if (← use.member "var").text? = some name then return true
      else usesVariable name rest

/-- A closure imports the runtime; the closure itself is still judged when met again. -/
def closure (node : Node) : Judge Verdict := do
  Judge.require .closures .closure node
  let uses ← Judge.read (node.fieldItems "uses")
  let handle := (← get).handle
  if ← Judge.read (usesVariable handle uses) then pure .keep
  else
    let copy := { node with generated := false }
    pure (.replace
      (copy.setField "uses" (.list (uses ++ [.node (Generated.handleUse handle)]))))

def closureUse (node : Node) : Judge Unit := do
  if (node.field "var").text? = some (← get).handle then
    Judge.reject .sandboxAccess (some node) none

def parentClass (node : Node) : Judge Unit :=
  match (node.field "extends").name? with
  | none => pure ()
  | some parent => do
      keyword "extends" node
      let name ← spelledName .unnamedParent node (.node parent)
      Judge.name .classExtension name (some node)

def implemented (node : Node) (item : Value) : Judge Unit := do
  let name ← spelledName .unnamedImplemented node item
  Judge.name .interface name (some node)

def classDecl (node : Node) : Judge Unit := do
  Judge.require .classes .classDecl node
  keyword "class" node
  let name ← declaredName .unnamedClass node
  Judge.name .classDecl name (some node)
  parentClass node
  if (node.field "implements").truthy then
    keyword "implements" node
    (← Judge.read (node.fieldItems "implements")).forM (implemented node)

def interfaceDecl (node : Node) : Judge Unit := do
  Judge.require .interfaces .interfaceDecl node
  keyword "interface" node
  let name ← declaredName .unnamedInterface node
  Judge.name .interface name (some node)
  (← Judge.read (node.fieldItems "extends")).forM fun parent => do
    Judge.name .interface (← Judge.read parent.nameText) (some node)

def traitDecl (node : Node) : Judge Unit := do
  Judge.require .traits .traitDecl node
  keyword "trait" node
  let name ← declaredName .unnamedTrait node
  Judge.name .traitName name (some node)

def traitUse (node : Node) : Judge Unit := do
  keyword "use" node
  (← Judge.read (node.fieldItems "traits")).forM fun item => do
    let name ← spelledName .unnamedUsedTrait node item
    Judge.name .traitName name (some node)

def globalVar (node : Node) (item : Value) : Judge Unit := do
  match ← Judge.read (variableName? item) with
  | some name => Judge.name .globalVar name (some node)
  | none => Judge.reject .globalOfNonVariable (some node) none

def globalDecl (node : Node) : Judge Unit := do
  Judge.require .globals .globalKeyword node
  keyword "global" node
  (← Judge.read (node.fieldItems "vars")).forM (globalVar node)

/-- The name of a static variable is its own, or else that of its variable. -/
def staticName (node : Node) : Value :=
  match node.field "name", node.field "var" with
  | .null, .node inner => inner.field "name"
  | name, _ => name

def staticVar (node : Node) : Judge Unit := do
  Judge.require .staticVariables .staticVar node
  match staticName node with
  | .str name => Judge.name .variableRef name (some node)
  | _ => Judge.reject .dynamicStaticVar (some node) none

/-- A namespace is defined, and its statements take its place. -/
def namespaceDecl (node : Node) : Judge Verdict := do
  Judge.require .namespaces .namespaceDecl node
  keyword "namespace" node
  match (node.field "name").name? with
  | none => Judge.reject .invalidNamespace (some node) none
  | some name =>
      let text ← Judge.read name.nameText
      Judge.nonEmptyName .namespaceName text (some node)
      Judge.update (·.defineNamespace text)
      pure (.splice (← Judge.read (node.fieldItems "stmts")))

def useItem (node : Node) (item : Value) : Judge Unit := do
  let shortForm ← Judge.read (item.member "alias")
  let kind ← Judge.read item.kind
  let name ← Judge.read (item.member "name")
  match kind, name.name?, shortName? shortForm with
  | .statement .useItem, some name, some shortName =>
      let text ← Judge.read name.nameText
      Judge.nonEmptyName .aliasName text (some node)
      if shortForm.truthy then keyword "as" node
      Judge.update (·.defineAlias text shortName)
  | _, _, _ => Judge.reject .invalidUse (some node) none

def useDecl (node : Node) : Judge Verdict := do
  Judge.require .aliases .useDecl node
  keyword "use" node
  (← Judge.read (node.fieldItems "uses")).forM (useItem node)
  pure .remove

end Enforce

end ScriptSandbox
