import ScriptSandbox.Number.Basic

/-!
# Written numbers

A whole number is written by its digits.  A double is written positionally
while its leading digit stands for a power of ten from -4 to 15, with at least
one digit after the point, and otherwise with a signed exponent of two digits or
more.
-/

namespace ScriptSandbox

structure DecimalLayout where
  leastPositional : Int
  greatestPositional : Int
  exponentDigits : Nat
  deriving DecidableEq, Repr

def Decimal.layout : DecimalLayout := ⟨-4, 15, 2⟩

namespace Decimal

def zeros (n : Nat) : List Char := List.replicate n '0'

def positional (digits : List Char) (exponent : Int) : List Char :=
  let whole : Int := digits.length + exponent
  if 0 ≤ exponent then digits ++ zeros exponent.toNat ++ ['.', '0']
  else if 0 < whole then
    digits.take whole.toNat ++ '.' :: digits.drop whole.toNat
  else '0' :: '.' :: zeros (-whole).toNat ++ digits

def scientific (layout : DecimalLayout) (digits : List Char) (power : Int) : List Char :=
  let point := if digits.length ≤ 1 then [] else ['.']
  let size := power.natAbs.repr.toList
  digits.take 1 ++ point ++ digits.drop 1 ++ 'e' ::
    (if power < 0 then '-' else '+') ::
    zeros (layout.exponentDigits - size.length) ++ size

def text (decimal : Decimal) : String :=
  let digits := decimal.digits.repr.toList
  let power : Int := digits.length + decimal.exponent - 1
  let size :=
    if layout.leastPositional ≤ power ∧ power ≤ layout.greatestPositional then
      positional digits decimal.exponent
    else scientific layout digits power
  String.ofList (if decimal.negative then '-' :: size else size)

end Decimal

def Number.text : Number → String
  | .int value => if value < 0 then "-" ++ value.natAbs.repr else value.natAbs.repr
  | .decimal value => value.text

end ScriptSandbox
