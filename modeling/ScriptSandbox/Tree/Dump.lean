import ScriptSandbox.Tree.Node

/-!
# Dumping trees

A node becomes an object with its kind as `nodeType` first, its fields in order,
and its attributes last.  A pair becomes a list of two, but a node inside a pair
has no dump, and neither has a tree with a statement that is no node.
-/

namespace ScriptSandbox

mutual

def Node.dump : Node → Json
  | ⟨kind, attributes, fields, _⟩ =>
      .obj (Record.ofEntries
        (("nodeType", .str kind.spelling) :: dumpFields fields ++
          [("attributes", .obj attributes)]))
  termination_by structural node => node

def Value.dump : Value → Json
  | .scalar value => .scalar value
  | .obj fields => .obj fields
  | .list items => .arr (dumpItems items)
  | .node n => n.dump
  | .pair name value => .arr [.str name, value.dump]
  termination_by structural value => value

def dumpItems : List Value → List Json
  | [] => []
  | item :: rest => item.dump :: dumpItems rest
  termination_by structural items => items

def dumpFields : List (String × Value) → List (String × Json)
  | [] => []
  | (name, value) :: rest => (name, value.dump) :: dumpFields rest
  termination_by structural fields => fields

end

mutual

def Value.hasNode : Value → Bool
  | .node _ => true
  | .list items => anyHasNode items
  | .pair _ value => value.hasNode
  | .scalar _ => false
  | .obj _ => false
  termination_by structural value => value

def anyHasNode : List Value → Bool
  | [] => false
  | item :: rest => item.hasNode || anyHasNode rest
  termination_by structural items => items

end

mutual

/-- Whether a pair somewhere in a node has a node in it. -/
def Node.hidesNode : Node → Bool
  | ⟨_, _, fields, _⟩ => fieldsHideNode fields
  termination_by structural node => node

def Value.hidesNode : Value → Bool
  | .node n => n.hidesNode
  | .list items => itemsHideNode items
  | .pair _ value => value.hasNode
  | .scalar _ => false
  | .obj _ => false
  termination_by structural value => value

def itemsHideNode : List Value → Bool
  | [] => false
  | item :: rest => item.hidesNode || itemsHideNode rest
  termination_by structural items => items

def fieldsHideNode : List (String × Value) → Bool
  | [] => false
  | (_, value) :: rest => value.hidesNode || fieldsHideNode rest
  termination_by structural fields => fields

end

inductive DumpFault where
  | strayStatement
  | hiddenNode
  deriving DecidableEq, Repr

def DumpFault.message : DumpFault → String
  | .strayStatement => "the guarded script holds a statement that is no node"
  | .hiddenNode => "the guarded script holds a node inside a pair"

/-- The nodes of a tree that has a dump; stray statements are looked for first. -/
def dumpableNodes (tree : Tree) : Except DumpFault (List Node) :=
  match tree.mapM Value.node? with
  | none => .error .strayStatement
  | some nodes => if nodes.any Node.hidesNode then .error .hiddenNode else .ok nodes

def dumpTree (tree : Tree) : Except DumpFault Json :=
  (dumpableNodes tree).map fun nodes => .arr (nodes.map Node.dump)

end ScriptSandbox
