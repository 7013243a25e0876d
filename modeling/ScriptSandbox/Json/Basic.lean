import ScriptSandbox.Number.Basic
import ScriptSandbox.Record

/-!
# JSON values

Objects keep their entries in the order of the text.  Two equalities are used:
one that takes truth values for the numbers 0 and 1, and a strict one that keeps
them apart.  Neither looks at the order of an object's entries.
-/

namespace ScriptSandbox

inductive Scalar where
  | null
  | bool (value : Bool)
  | num (value : Number)
  | str (value : String)
  deriving DecidableEq, Repr

inductive Json where
  | scalar (value : Scalar)
  | arr (items : List Json)
  | obj (fields : List (String × Json))
  deriving Repr, Inhabited

namespace Json

@[match_pattern] abbrev null : Json := .scalar .null

@[match_pattern] abbrev bool (value : Bool) : Json := .scalar (.bool value)

@[match_pattern] abbrev num (value : Number) : Json := .scalar (.num value)

@[match_pattern] abbrev int (value : Int) : Json := .scalar (.num (.int value))

@[match_pattern] abbrev str (value : String) : Json := .scalar (.str value)

end Json

/-- Null, false, zero and the empty text count as false. -/
def Scalar.truthy : Scalar → Bool
  | .null => false
  | .bool value => value
  | .num value => !value.isZero
  | .str value => value ≠ ""

/-- Empty arrays and objects count as false too. -/
def Json.truthy : Json → Bool
  | .scalar value => value.truthy
  | .arr items => !items.isEmpty
  | .obj fields => !fields.isEmpty

namespace Scalar

/-- Numbers, and truth values as the numbers 0 and 1. -/
def number? : Scalar → Option Number
  | .bool value => some (.int (if value then 1 else 0))
  | .num value => some value
  | _ => none

def eq (a b : Scalar) : Bool :=
  match a.number?, b.number? with
  | some x, some y => x.eq y
  | none, none => a = b
  | _, _ => false

/-- Keeps truth values apart from numbers. -/
def eqStrict : Scalar → Scalar → Bool
  | .num x, .num y => x.eq y
  | a, b => a = b

end Scalar

namespace Json

mutual

def eqBy (same : Scalar → Scalar → Bool) : Json → Json → Bool
  | .scalar a, .scalar b => same a b
  | .arr as, .arr bs => eqItemsBy same as bs
  | .obj as, .obj bs => as.length = bs.length && eqFieldsBy same as bs
  | _, _ => false
  termination_by structural a => a

def eqItemsBy (same : Scalar → Scalar → Bool) : List Json → List Json → Bool
  | [], [] => true
  | a :: as, b :: bs => eqBy same a b && eqItemsBy same as bs
  | _, _ => false
  termination_by structural as => as

def eqFieldsBy (same : Scalar → Scalar → Bool) :
    List (String × Json) → List (String × Json) → Bool
  | [], _ => true
  | (name, a) :: as, bs =>
      (match Record.get? bs name with
        | some b => eqBy same a b
        | none => false) && eqFieldsBy same as bs
  termination_by structural as => as

end

def eq : Json → Json → Bool := eqBy Scalar.eq

def eqStrict : Json → Json → Bool := eqBy Scalar.eqStrict

end Json

end ScriptSandbox
