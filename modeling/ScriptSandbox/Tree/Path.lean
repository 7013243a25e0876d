import ScriptSandbox.Tree.Node

/-!
# Places in a tree

A place is the way from the top of a tree to a node: positions in lists and names
of fields.  Nodes are listed before the nodes inside them; those inside objects and
pairs have no place.
-/

namespace ScriptSandbox

inductive Step where
  | index (position : Nat)
  | field (name : String)
  deriving DecidableEq, Repr

def Step.text : Step → String
  | .index position => "[" ++ position.repr ++ "]"
  | .field name => "." ++ name

def placeText (place : List Step) : String :=
  String.join (place.map Step.text)

mutual

/-- The places, seen from the node, of the nodes that the sandbox generated. -/
def Node.generatedPlaces : Node → List (List Step)
  | ⟨_, _, fields, generated⟩ =>
      (if generated then [[]] else []) ++ generatedInFields fields
  termination_by structural node => node

def Value.generatedPlaces : Value → List (List Step)
  | .node n => n.generatedPlaces
  | .list items => generatedInItems 0 items
  | _ => []
  termination_by structural value => value

def generatedInItems (position : Nat) : List Value → List (List Step)
  | [] => []
  | item :: rest =>
      item.generatedPlaces.map (.index position :: ·) ++ generatedInItems (position + 1) rest
  termination_by structural items => items

def generatedInFields : List (String × Value) → List (List Step)
  | [] => []
  | (name, value) :: rest =>
      value.generatedPlaces.map (.field name :: ·) ++ generatedInFields rest
  termination_by structural fields => fields

end

end ScriptSandbox
