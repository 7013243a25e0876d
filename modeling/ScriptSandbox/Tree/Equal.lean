import ScriptSandbox.Tree.Node

/-!
# Equality of trees

Nodes are equal when their kinds, attributes and fields are; the order of fields
and of attributes, and who built a node, do not matter.
-/

namespace ScriptSandbox

mutual

def Node.eq : Node → Node → Bool
  | ⟨kind, attributes, fields, _⟩, other =>
      kind = other.kind && Json.eq (.obj attributes) (.obj other.attributes) &&
        fields.length = other.fields.length && eqFields fields other.fields
  termination_by structural node => node

def Value.eq : Value → Value → Bool
  | .scalar a, .scalar b => a.eq b
  | .obj a, .obj b => Json.eq (.obj a) (.obj b)
  | .list a, .list b => eqItems a b
  | .node a, .node b => Node.eq a b
  | .pair name a, .pair other b => name = other && Value.eq a b
  | _, _ => false
  termination_by structural value => value

def eqItems : List Value → List Value → Bool
  | [], [] => true
  | a :: as, b :: bs => Value.eq a b && eqItems as bs
  | _, _ => false
  termination_by structural items => items

/-- Whether every field has an equal one of the same name. -/
def eqFields : List (String × Value) → List (String × Value) → Bool
  | [], _ => true
  | (name, a) :: as, bs =>
      (match Record.get? bs name with
        | some b => Value.eq a b
        | none => false) && eqFields as bs
  termination_by structural fields => fields

end

end ScriptSandbox
