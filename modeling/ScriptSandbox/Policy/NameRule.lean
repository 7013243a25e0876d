import ScriptSandbox.Policy.Store

/-!
# Ready-made predicates

Simple rules on names that can be written in a file and used as predicates.
-/

namespace ScriptSandbox

inductive NameRule where
  | deny (names : List String)
  | allow (names : List String)
  | maxLength (size : Int)
  | noExtra
  | constant (answer : Bool)
  deriving DecidableEq, Repr

namespace NameRule

/-- `noExtra` refuses a name whose first further argument counts as true. -/
def predicate : NameRule → Predicate
  | .deny names => fun name _ => name ∉ names
  | .allow names => fun name _ => name ∈ names
  | .maxLength size => fun name _ => (name.length : Int) ≤ size
  | .noExtra => fun _ extra =>
      match extra with
      | [] => true
      | first :: _ => !first.truthy
  | .constant answer => fun _ _ => answer

def names (value : Json) : List String :=
  match value with
  | .arr items => items.filterMap fun item =>
      match item with
      | .str name => some name
      | _ => none
  | _ => []

/-- The first of the known entries decides which rule is meant. -/
def ofJson? (rule : Record Json) : Option NameRule :=
  match Record.get? rule "deny", Record.get? rule "allow", Record.get? rule "max_len" with
  | some value, _, _ => some (.deny (names value))
  | none, some value, _ => some (.allow (names value))
  | none, none, some (.int size) => some (.maxLength size)
  | none, none, _ =>
      if Record.has rule "no_extra" then some .noExtra
      else (Record.get? rule "value").map fun value => .constant value.truthy

end NameRule

end ScriptSandbox
