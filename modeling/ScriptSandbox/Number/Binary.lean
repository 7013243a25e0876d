/-!
# Double-precision values

A finite double is a whole number of at most 53 bits times a power of two no
smaller than `2 ^ -1074`.  `Binary.nearest?` rounds a fraction to the nearest
double, a half to the even neighbour.
-/

namespace ScriptSandbox

/-- The value `mantissa * 2 ^ exponent`. -/
structure Binary where
  mantissa : Nat
  exponent : Int
  deriving DecidableEq, Repr

namespace Binary

/-- `2 ^ exponent`, and 1 when the exponent is negative. -/
def twoTo (exponent : Int) : Nat := Nat.pow 2 exponent.toNat

/-- `10 ^ exponent`, and 1 when the exponent is negative. -/
def tenTo (exponent : Int) : Nat := Nat.pow 10 exponent.toNat

def leastExponent : Int := -1074

def greatestExponent : Int := 971

/-- Numerator and denominator of `(num / den) / 2 ^ exponent`. -/
def scaled (num den : Nat) (exponent : Int) : Nat × Nat :=
  (num * twoTo (-exponent), den * twoTo exponent)

/-- The whole number nearest to `num / den`; a half goes to the even neighbour. -/
def roundHalfEven (num den : Nat) : Nat :=
  let quotient := num / den
  let twice := 2 * (num % den)
  if twice < den then quotient
  else if den < twice then quotient + 1
  else quotient + quotient % 2

/-- The exponent at which `num / den` has 53 bits before the point, or the least one. -/
def exponentOf (num den : Nat) : Int :=
  let low := max ((num.log2 : Int) - den.log2 - 53) leastExponent
  let (a, b) := scaled num den low
  if a / b < twoTo 53 then low else low + 1

/-- The double nearest to `num / den`, or nothing beyond the greatest double. -/
def nearest? (num den : Nat) : Option Binary :=
  if num = 0 then some ⟨0, leastExponent⟩
  else
    let exponent := exponentOf num den
    let (a, b) := scaled num den exponent
    let mantissa := roundHalfEven a b
    let rounded : Binary :=
      if mantissa = twoTo 53 then ⟨twoTo 52, exponent + 1⟩ else ⟨mantissa, exponent⟩
    if rounded.exponent ≤ greatestExponent then some rounded else none

def isWhole (value : Binary) (n : Nat) : Bool :=
  value.mantissa * twoTo value.exponent = n * twoTo (-value.exponent)

end Binary

end ScriptSandbox
