import ScriptSandbox.Tree.Equal
import ScriptSandbox.Tree.Load
import ScriptSandbox.Tree.Walk

/-!
# Scripted visitors

A visitor can be described by data: which nodes it acts on, what it does with
them, what it puts around the tree, and whether it notes the nodes it is offered.
-/

namespace ScriptSandbox

inductive Action where
  | nothing
  | remove
  | replace (node : Node)
  | splice (nodes : List Node)
  /-- The value of a field takes the place of its node. -/
  | field (name : String)
  | value (value : Json)
  | stop

structure ScriptedVisitor where
  record : Option String
  kind : Option String
  name : Option Value
  action : Action
  before : List Node
  after : List Node

/-- A node that a visitor was offered, with its name if that is a text. -/
structure Sighting where
  record : String
  kind : Kind
  name : Option String
  deriving DecidableEq, Repr

inductive Stopped where
  | stopped
  deriving DecidableEq, Repr

/-- What a value means as a verdict: nodes replace, lists splice, and null keeps. -/
def Verdict.ofValue : Value → Verdict
  | .null => .keep
  | .node n => .replace n
  | .list items => .splice items
  | value => .other value.dump

namespace ScriptedVisitor

def actsOn (visitor : ScriptedVisitor) (node : Node) : Bool :=
  visitor.kind = some node.kind.spelling &&
    match visitor.name with
    | none => true
    | some name => Value.eq (node.field "name") name

def act (action : Action) (node : Node) : Run (List Sighting) Stopped Verdict :=
  match action with
  | .nothing => pure .keep
  | .remove => pure .remove
  | .replace other => pure (.replace other)
  | .splice nodes => pure (.splice (nodes.map .node))
  | .field name => pure (Verdict.ofValue (node.field name))
  | .value value => pure (Verdict.ofValue (Value.ofJson value))
  | .stop => throw .stopped

def leave (visitor : ScriptedVisitor) (node : Node) : Run (List Sighting) Stopped Verdict := do
  match visitor.record with
  | some record =>
      modify (· ++ [⟨record, node.kind, (node.field "name").text?⟩])
  | none => pure ()
  if visitor.actsOn node then act visitor.action node else pure .keep

def visitor (scripted : ScriptedVisitor) : Visitor (List Sighting) Stopped where
  label := "Script"
  leave := scripted.leave
  before nodes := scripted.before.map .node ++ nodes
  after nodes := nodes ++ scripted.after.map .node

end ScriptedVisitor

end ScriptSandbox
