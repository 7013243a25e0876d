import ScriptSandbox.Harvest.Names
import ScriptSandbox.Tree.Walk

/-!
# What a script defines itself

Before a script is judged, the names it defines are whitelisted, each kind of
definition if its feature is allowed, its harvest is on, and its category has no
deny-list.  No node is changed.
-/

namespace ScriptSandbox

namespace OwnHarvest

def enabled (store : Store) (feature : Feature) (definable : Definable) (category : Category) :
    Bool :=
  store.allows feature && store.flag (.autoWhitelist definable) && !store.hasBlacklist category

/-- Whitelists a declared name if its harvest is enabled. -/
def declaration (feature : Feature) (definable : Definable) (category : Category)
    (name : Option String) (store : Store) : Store :=
  match name with
  | some name =>
      if enabled store feature definable category then store.whitelist category name else store
  | none => store

/-- A class is a type as well. -/
def classDecl (name : Option String) (store : Store) : Store :=
  match name with
  | some name =>
      if enabled store .classes .classes .classes then
        let store := store.whitelist .classes name
        if store.hasBlacklist .types then store else store.whitelist .types name
      else store
  | none => store

/-- Declared globals count as variables where variables are restricted to a list. -/
def restrictsGlobals (store : Store) : Bool :=
  store.allows .globals && store.flag (.autoWhitelist .globals) &&
    store.hasWhitelist .variables && !store.hasBlacklist .variables

def constant (call : Node) : Judge Unit := do
  if ← Judge.read (isDefineCall call) then
    let store ← get
    if enabled store .constants .constants .constants && !store.isOverridden "define" then
      match ← Judge.read (definedConstant (.node call)) with
      | some name => Judge.update (·.whitelist .constants name)
      | none => pure ()

def globals (declaration : Node) : Judge Unit := do
  if restrictsGlobals (← get) then
    let names ← Judge.read (globalNames declaration)
    Judge.update fun store => names.foldl (·.whitelist .variables ·) store

def node (node : Node) : Judge Unit :=
  match node.kind with
  | .statement .classDecl => Judge.update (classDecl node.declaredName?)
  | .statement .interfaceDecl =>
      Judge.update (declaration .interfaces .interfaces .interfaces node.declaredName?)
  | .statement .traitDecl =>
      Judge.update (declaration .traits .traits .traits node.declaredName?)
  | .statement .functionDecl =>
      Judge.update (declaration .functions .functions .functions node.declaredName?)
  | .expression .funcCall => constant node
  | .statement .globalDecl => globals node
  | _ => pure ()

def visitor : Visitor Store Refusal where
  label := "OwnHarvest"
  leave n := do
    node n
    pure .keep

end OwnHarvest

end ScriptSandbox
