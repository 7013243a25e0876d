import ScriptSandbox.Number.Binary

/-!
# Shortest digits

The fewest decimal digits that read back as a given double, and of those the
nearest to it.  Each candidate is one of the two neighbours of the value on the
grid of multiples of a power of ten; all comparisons are exact.
-/

namespace ScriptSandbox.Binary

def decimalLength (n : Nat) : Nat := n.repr.length

def fraction (value : Binary) : Nat × Nat :=
  (value.mantissa * twoTo value.exponent, twoTo (-value.exponent))

def leadingPower (value : Binary) : Int :=
  let (num, den) := value.fraction
  let guess : Int := (decimalLength num : Int) - decimalLength den
  if den * tenTo guess ≤ num * tenTo (-guess) then guess else guess - 1

/--
Whether `digits * 10 ^ power` reads back as the value: it lies between the
midpoints to the neighbouring doubles, which themselves count when the mantissa
is even.
-/
def readsBack (value : Binary) (digits : Nat) (power : Int) : Bool :=
  let below :=
    if value.mantissa = twoTo 52 ∧ leastExponent < value.exponent then 1 else 2
  let quarter := value.exponent - 2
  let candidate := digits * tenTo power * twoTo (-quarter)
  let unit := twoTo quarter * tenTo (-power)
  let low := (4 * value.mantissa - below) * unit
  let high := (4 * value.mantissa + 2) * unit
  if value.mantissa % 2 = 0 then low ≤ candidate && candidate ≤ high
  else low < candidate && candidate < high

/-- The multiple of `10 ^ power` that reads back as the value, the nearer if both neighbours do. -/
def onGrid? (value : Binary) (power : Int) : Option Nat :=
  let (num, den) := value.fraction
  let top := num * tenTo (-power)
  let bottom := den * tenTo power
  let floor := top / bottom
  match value.readsBack floor power, value.readsBack (floor + 1) power with
  | true, true => some (Binary.roundHalfEven top bottom)
  | true, false => some floor
  | false, true => some (floor + 1)
  | false, false => none

/-- Tries one digit more at each step. -/
def shortestFrom (value : Binary) : Nat → Int → Nat × Int
  | 0, power => (value.onGrid? power |>.getD 0, power)
  | more + 1, power =>
      match value.onGrid? power with
      | some digits => (digits, power)
      | none => shortestFrom value more (power - 1)

/-- Digits and power of ten of the shortest decimal that reads back; 17 digits always do. -/
def shortest (value : Binary) : Nat × Int :=
  if value.mantissa = 0 then (0, 0) else value.shortestFrom 17 value.leadingPower

end ScriptSandbox.Binary
