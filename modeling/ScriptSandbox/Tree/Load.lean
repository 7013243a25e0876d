import ScriptSandbox.Tree.Node

/-!
# Loading trees

An object is a node when it has an entry `kind` or `nodeType`; all its other
entries except `attributes` are fields.  Nodes are looked for in fields and in
lists of any depth, but not inside attributes or inside objects that are no
nodes.  Loading stops at the first node at fault, children before their parent.
-/

namespace ScriptSandbox

inductive NodeFault where
  | notAnObject
  | missingKind
  | unknownKind
  | attributesNotAnObject
  deriving DecidableEq, Repr

inductive TreeFault where
  /-- Neither a node nor a list of nodes, but a scalar. -/
  | notAList (value : Scalar)
  | invalidNode (faults : List NodeFault)
  deriving DecidableEq, Repr

def Scalar.typeName : Scalar → String
  | .null => "NoneType"
  | .bool _ => "bool"
  | .num (.int _) => "int"
  | .num (.decimal _) => "float"
  | .str _ => "str"

def TreeFault.message : TreeFault → String
  | .notAList value => "Expected a list of nodes, got " ++ value.typeName
  | .invalidNode _ => "Invalid syntax tree"

def isNodeShaped (fields : Record Json) : Bool :=
  Record.has fields "kind" || Record.has fields "nodeType"

/-- The entry that holds the kind; `nodeType` is an ordinary field beside `kind`. -/
def kindEntry (fields : Record Json) : String :=
  if Record.has fields "kind" then "kind" else "nodeType"

def isFieldName (kindEntry name : String) : Bool :=
  name ≠ kindEntry && name ≠ "attributes"

def loadKind (fields : Record Json) : Except NodeFault Kind :=
  match Record.get? fields (kindEntry fields) with
  | none => .error .missingKind
  | some (.str text) =>
      match Kind.ofSpelling? text with
      | some kind => .ok kind
      | none => .error .unknownKind
  | some _ => .error .unknownKind

def loadAttributes (fields : Record Json) : Except NodeFault (Record Json) :=
  match Record.get? fields "attributes" with
  | none => .ok []
  | some (.obj attributes) => .ok attributes
  | some _ => .error .attributesNotAnObject

/-- A node of loaded fields; a wrong kind is named before wrong attributes. -/
def assemble (fields : Record Json) (loaded : Record Value) : Except (List NodeFault) Node :=
  match loadKind fields, loadAttributes fields with
  | .ok kind, .ok attributes => .ok ⟨kind, attributes, loaded, false⟩
  | .ok _, .error fault => .error [fault]
  | .error fault, .ok _ => .error [fault]
  | .error first, .error second => .error [first, second]

mutual

def loadValue : Json → Except (List NodeFault) Value
  | .scalar value => .ok (.scalar value)
  | .arr items => do .ok (.list (← loadItems items))
  | .obj fields =>
      if isNodeShaped fields then do
        let loaded ← loadFields (kindEntry fields) fields
        .ok (.node (← assemble fields loaded))
      else .ok (.obj fields)
  termination_by structural value => value

def loadItems : List Json → Except (List NodeFault) (List Value)
  | [] => .ok []
  | item :: rest => do
      let value ← loadValue item
      .ok (value :: (← loadItems rest))
  termination_by structural items => items

def loadFields (kindEntry : String) :
    List (String × Json) → Except (List NodeFault) (List (String × Value))
  | [] => .ok []
  | (name, item) :: rest =>
      if isFieldName kindEntry name then do
        let value ← loadValue item
        .ok ((name, value) :: (← loadFields kindEntry rest))
      else loadFields kindEntry rest
  termination_by structural fields => fields

end

/-- A node is asked for, so an object without a kind is at fault. -/
def loadNode : Json → Except (List NodeFault) Node
  | .obj fields => do assemble fields (← loadFields (kindEntry fields) fields)
  | _ => .error [.notAnObject]

mutual

/-- Drops the mark of generated nodes from a node and the nodes in its fields and their lists. -/
def Node.stripMarks : Node → Node
  | ⟨kind, attributes, fields, generated⟩ =>
      ⟨kind, Record.erase attributes syntheticMark, stripFields fields, generated⟩
  termination_by structural node => node

def Value.stripMarks : Value → Value
  | .node n => .node n.stripMarks
  | .list items => .list (stripItems items)
  | .scalar value => .scalar value
  | .obj fields => .obj fields
  | .pair name value => .pair name value
  termination_by structural value => value

/-- Lists inside lists are left alone. -/
def stripItems : List Value → List Value
  | [] => []
  | .node n :: rest => .node n.stripMarks :: stripItems rest
  | item :: rest => item :: stripItems rest
  termination_by structural items => items

def stripFields : List (String × Value) → List (String × Value)
  | [] => []
  | (name, value) :: rest => (name, value.stripMarks) :: stripFields rest
  termination_by structural fields => fields

end

/-- The nodes of a tree file: a list of nodes, or one node alone. -/
def loadNodes : Json → Except TreeFault (List Node)
  | .arr items => (items.mapM loadNode).mapError .invalidNode
  | .obj fields => ([Json.obj fields].mapM loadNode).mapError .invalidNode
  | .scalar value => .error (.notAList value)

/-- Only the sandbox itself may mark nodes as generated, so marks in a file are dropped. -/
def loadTree (strip : Bool) (data : Json) : Except TreeFault (List Node) := do
  let nodes ← loadNodes data
  .ok (if strip then nodes.map Node.stripMarks else nodes)

end ScriptSandbox
