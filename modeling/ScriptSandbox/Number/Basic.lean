import ScriptSandbox.Number.Shortest

/-!
# Numbers

Whole numbers are exact.  A number written with a point or an exponent is a
double, held by its shortest decimal: no trailing zero among the digits, and
zero with exponent zero.
-/

namespace ScriptSandbox

/-- The value `± digits * 10 ^ exponent`. -/
structure Decimal where
  negative : Bool
  digits : Nat
  exponent : Int
  deriving DecidableEq, Repr

inductive Number where
  | int (value : Int)
  | decimal (value : Decimal)
  deriving DecidableEq, Repr

namespace Decimal

/-- Moves trailing zeros of the digits into the exponent. -/
def dropZeros : Nat → Nat → Int → Nat × Int
  | 0, digits, exponent => (digits, exponent)
  | steps + 1, digits, exponent =>
      if digits ≠ 0 ∧ digits % 10 = 0 then dropZeros steps (digits / 10) (exponent + 1)
      else (digits, exponent)

def ofBinary (negative : Bool) (value : Binary) : Decimal :=
  let (digits, exponent) := value.shortest
  let (digits, exponent) := dropZeros 20 digits exponent
  ⟨negative, digits, exponent⟩

/-- The nearest double to `digits * 10 ^ exponent`, or nothing beyond the greatest double. -/
def binary? (digits : Nat) (exponent : Int) : Option Binary :=
  let magnitude := (Binary.decimalLength digits : Int) + exponent
  if digits = 0 ∨ magnitude < -330 then some ⟨0, Binary.leastExponent⟩
  else if 310 < magnitude then none
  else Binary.nearest? (digits * Binary.tenTo exponent) (Binary.tenTo (-exponent))

def ofWritten? (negative : Bool) (digits : Nat) (exponent : Int) : Option Decimal :=
  (binary? digits exponent).map (ofBinary negative)

def eqInt (decimal : Decimal) (value : Int) : Bool :=
  match binary? decimal.digits decimal.exponent with
  | none => false
  | some double =>
      double.isWhole value.natAbs &&
        (value = 0 || decimal.negative = decide (value < 0))

/-- The same double; both zeros are equal. -/
def eq (a b : Decimal) : Bool :=
  a = b || (a.digits = 0 && b.digits = 0)

end Decimal

namespace Number

def eq : Number → Number → Bool
  | .int a, .int b => a = b
  | .int a, .decimal b => b.eqInt a
  | .decimal a, .int b => a.eqInt b
  | .decimal a, .decimal b => a.eq b

/-- The exact value, as a numerator with its sign and a denominator. -/
def fraction : Number → Int × Nat
  | .int value => (value, 1)
  | .decimal value =>
      let (num, den) :=
        ((Decimal.binary? value.digits value.exponent).map Binary.fraction).getD (0, 1)
      (if value.negative then -(num : Int) else num, den)

def compare (a b : Number) : Ordering :=
  let (m, p) := a.fraction
  let (n, q) := b.fraction
  Ord.compare (m * q) (n * p)

def isZero : Number → Bool
  | .int value => value = 0
  | .decimal value => value.digits = 0

end Number

end ScriptSandbox
