import ScriptSandbox.Run
import ScriptSandbox.Tree.Dump
import ScriptSandbox.Json.Printer

/-!
# Walking a tree

A walk goes through a tree from left to right, children before their parent, and
offers every node to its visitors in turn.  A visitor keeps the node, puts
another one in its place, or, where the node is an item of a list, removes it or
puts several values there.  What a visitor puts in is not walked again.  Lists
inside lists, objects that are no nodes, and pairs are passed over.
-/

namespace ScriptSandbox

inductive Verdict where
  | keep
  | replace (node : Node)
  | remove
  | splice (items : List Value)
  | other (value : Json)

/-- A visitor may change the list of top-level statements before and after the walk. -/
structure Visitor (σ ε : Type) where
  label : String
  leave : Node → Run σ ε Verdict
  before : Tree → Tree := id
  after : Tree → Tree := id

/-- A verdict that the place of the node cannot take. -/
inductive Misplaced where
  | notInList (label : String) (parent : Kind) (field : String)
  | unsupported (label : String) (value : Json)

def Misplaced.message : Misplaced → String
  | .notInList label parent field =>
      label ++ ".leave_node() may only remove or splice nodes held in a list, not " ++
        parent.spelling ++ "." ++ field
  | .unsupported label value =>
      label ++ ".leave_node() returned unsupported " ++ value.shown

inductive WalkFailure (ε : Type) where
  | misplaced (cause : Misplaced)
  | raised (cause : ε)

namespace Walk

variable {σ ε : Type}

def verdict (visitor : Visitor σ ε) (node : Node) : Run σ (WalkFailure ε) Verdict :=
  (visitor.leave node).adapt .raised

/-- A node that is a field by itself can only be kept or replaced. -/
def offerHeld (parent : Kind) (field : String) :
    List (Visitor σ ε) → Node → Run σ (WalkFailure ε) Node
  | [], node => pure node
  | visitor :: rest, node => do
      match ← verdict visitor node with
      | .keep => offerHeld parent field rest node
      | .replace other => offerHeld parent field rest other
      | _ => throw (.misplaced (.notInList visitor.label parent field))

/-- A removed or spliced item is not offered to the visitors that follow. -/
def offerListed : List (Visitor σ ε) → Node → Run σ (WalkFailure ε) (List Value)
  | [], node => pure [.node node]
  | visitor :: rest, node => do
      match ← verdict visitor node with
      | .keep => offerListed rest node
      | .replace other => offerListed rest other
      | .remove => pure []
      | .splice items => pure items
      | .other value => throw (.misplaced (.unsupported visitor.label value))

mutual

/-- Walks what is inside a node; the node itself is offered by its place. -/
def inside (visitors : List (Visitor σ ε)) : Node → Run σ (WalkFailure ε) Node
  | ⟨kind, attributes, fields, generated⟩ => do
      let fields ← walkFields visitors kind fields
      pure ⟨kind, attributes, fields, generated⟩
  termination_by structural node => node

def walkFields (visitors : List (Visitor σ ε)) (parent : Kind) :
    List (String × Value) → Run σ (WalkFailure ε) (List (String × Value))
  | [] => pure []
  | (name, value) :: rest => do
      let value ← walkField visitors parent name value
      let rest ← walkFields visitors parent rest
      pure ((name, value) :: rest)
  termination_by structural fields => fields

def walkField (visitors : List (Visitor σ ε)) (parent : Kind) (name : String) :
    Value → Run σ (WalkFailure ε) Value
  | .list items => do
      let items ← walkItems visitors items
      pure (.list items)
  | .node n => do
      let n ← inside visitors n
      let n ← offerHeld parent name visitors n
      pure (.node n)
  | .scalar value => pure (.scalar value)
  | .obj fields => pure (.obj fields)
  | .pair name value => pure (.pair name value)
  termination_by structural value => value

def walkItems (visitors : List (Visitor σ ε)) :
    List Value → Run σ (WalkFailure ε) (List Value)
  | [] => pure []
  | .node n :: rest => do
      let n ← inside visitors n
      let items ← offerListed visitors n
      let rest ← walkItems visitors rest
      pure (items ++ rest)
  | item :: rest => do
      let rest ← walkItems visitors rest
      pure (item :: rest)
  termination_by structural items => items

end

def tree (visitors : List (Visitor σ ε)) (nodes : Tree) : Run σ (WalkFailure ε) Tree := do
  let nodes ← walkItems visitors (visitors.foldl (fun nodes visitor => visitor.before nodes) nodes)
  pure (visitors.foldl (fun nodes visitor => visitor.after nodes) nodes)

end Walk

end ScriptSandbox
