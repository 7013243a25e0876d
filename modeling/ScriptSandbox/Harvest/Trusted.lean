import ScriptSandbox.Harvest.Names
import ScriptSandbox.Tree.Walk

/-!
# What trusted code refers to

Everything that trusted code names is whitelisted, in categories without a
deny-list.  Namespaces and imports are defined in the store instead: a namespace
is replaced by its statements and an import is dropped.
-/

namespace ScriptSandbox

namespace TrustedHarvest

def harvest (category : Category) (name : String) (store : Store) : Store :=
  if store.hasBlacklist category then store else store.whitelist category name

def declaration (category : Category) (name : Option String) : Judge Unit :=
  match name with
  | some name => Judge.update (harvest category name)
  | none => pure ()

def reference (category : Category) (value : Value) : Judge Unit :=
  match value.name? with
  | some name => do Judge.update (harvest category (← Judge.read name.nameText))
  | none => pure ()

/-- A call of `define` introduces a constant too, unless the runtime answers it. -/
def call (node : Node) : Judge Unit := do
  reference .functions (node.field "name")
  if ← Judge.read (isDefineCall node) then
    if !(← get).isOverridden "define" then
      match ← Judge.read (definedConstant (.node node)) with
      | some name => Judge.update (harvest .constants name)
      | none => pure ()

def function (node : Node) : Judge Unit :=
  match node.declaredName? with
  | some name => do
      if (← get).isDeclared name then
        Judge.reject .redefinedTrustedFunction (some node) (some name)
      Judge.update (·.declare name)
      Judge.update (harvest .functions name)
  | none => pure ()

/-- Variables are harvested only where each has to be on the allow-list. -/
def variableRef (name : Option String) : Judge Unit := do
  let store ← get
  if name.isSome && store.hasWhitelist .variables && !store.allows .variables then
    declaration .variables name

def globals (node : Node) : Judge Unit := do
  if (← get).hasWhitelist .variables then
    let names ← Judge.read (globalNames node)
    Judge.update fun store => names.foldl (fun store name => harvest .variables name store) store

/-- A namespace with a written name is defined; its statements take its place. -/
def namespaceDecl (node : Node) : Judge Verdict := do
  match (node.field "name").name? with
  | some name =>
      let text ← Judge.read name.nameText
      Judge.nonEmptyName .namespaceName text (some node)
      Judge.update (·.defineNamespace text)
  | none => pure ()
  pure (.splice (← Judge.read (node.fieldItems "stmts")))

/-- Imports that are not well formed are skipped. -/
def useItem (node : Node) (item : Value) : Judge Unit := do
  let shortForm ← Judge.read (item.member "alias")
  if (← Judge.read item.kind) = .statement .useItem then
    match (← Judge.read (item.member "name")).name?, shortName? shortForm with
    | some name, some shortName =>
        let text ← Judge.read name.nameText
        Judge.nonEmptyName .aliasName text (some node)
        Judge.update (·.defineAlias text shortName)
    | _, _ => pure ()

def useDecl (node : Node) : Judge Verdict := do
  (← Judge.read (node.fieldItems "uses")).forM (useItem node)
  pure .remove

def node (node : Node) : Judge Verdict :=
  match node.kind with
  | .expression .funcCall => do call node; pure .keep
  | .statement .functionDecl => do function node; pure .keep
  | .expression .variableRef => do variableRef node.declaredName?; pure .keep
  | .statement .staticVar => do variableRef node.declaredName?; pure .keep
  | .expression .constFetch => do reference .constants (node.field "name"); pure .keep
  | .statement .classDecl => do declaration .classes node.declaredName?; pure .keep
  | .statement .interfaceDecl => do declaration .interfaces node.declaredName?; pure .keep
  | .statement .traitDecl => do declaration .traits node.declaredName?; pure .keep
  | .expression .new => do reference .types (node.field "class"); pure .keep
  | .statement .globalDecl => do globals node; pure .keep
  | .statement .namespaceDecl => namespaceDecl node
  | .statement .useDecl => useDecl node
  | _ => pure .keep

def visitor : Visitor Store Refusal where
  label := "TrustedWhitelistVisitor"
  leave := node

end TrustedHarvest

end ScriptSandbox
