import ScriptSandbox.Json.Basic

/-!
# JSON tokens

A text is cut into brackets, separators and scalars.  Blanks are space, tab,
return and line feed.  Control characters must be escaped inside texts, and a
number has no leading zero.

Texts are sequences of Unicode scalar values, and numbers are finite.  An escaped
surrogate without its partner has no counterpart, so the replacement character
stands for it; `NaN`, `Infinity` and a decimal beyond all finite ones are not read.
-/

namespace ScriptSandbox.Json

inductive Token where
  | openArr
  | closeArr
  | openObj
  | closeObj
  | colon
  | comma
  | scalar (value : Scalar)
  deriving DecidableEq, Repr

def hexValue? (c : Char) : Option Nat :=
  if '0' ≤ c ∧ c ≤ '9' then some (c.toNat - 0x30)
  else if 'a' ≤ c ∧ c ≤ 'f' then some (c.toNat - 0x61 + 10)
  else if 'A' ≤ c ∧ c ≤ 'F' then some (c.toNat - 0x41 + 10)
  else none

def hexValues? (digits : List Char) : Option Nat :=
  digits.foldlM (fun code c => (hexValue? c).map (code * 16 + ·)) 0

def escapeCode? : Char → Option Nat
  | '\x22' => some 0x22
  | '\\' => some 0x5C
  | '/' => some 0x2F
  | 'b' => some 0x08
  | 'f' => some 0x0C
  | 'n' => some 0x0A
  | 'r' => some 0x0D
  | 't' => some 0x09
  | _ => none

/-- The code units up to the closing quote, and what follows it. -/
def readUnits? : List Char → Option (List Nat × List Char)
  | [] => none
  | '\x22' :: rest => some ([], rest)
  | '\\' :: 'u' :: a :: b :: c :: d :: rest => do
      let unit ← hexValues? [a, b, c, d]
      let (units, rest) ← readUnits? rest
      some (unit :: units, rest)
  | '\\' :: c :: rest => do
      let unit ← escapeCode? c
      let (units, rest) ← readUnits? rest
      some (unit :: units, rest)
  | c :: rest =>
      if c.toNat < 0x20 then none
      else do
        let (units, rest) ← readUnits? rest
        some (c.toNat :: units, rest)

def isHighSurrogate (unit : Nat) : Bool := 0xD800 ≤ unit && unit ≤ 0xDBFF

def isLowSurrogate (unit : Nat) : Bool := 0xDC00 ≤ unit && unit ≤ 0xDFFF

/-- A surrogate pair is one character; a lone surrogate, which no text can hold, is replaced. -/
def charsOfUnits : List Nat → List Char
  | [] => []
  | high :: low :: rest =>
      if isHighSurrogate high && isLowSurrogate low then
        Char.ofNat (0x10000 + (high - 0xD800) * 0x400 + (low - 0xDC00)) :: charsOfUnits rest
      else if isHighSurrogate high || isLowSurrogate high then
        Char.ofNat 0xFFFD :: charsOfUnits (low :: rest)
      else Char.ofNat high :: charsOfUnits (low :: rest)
  | unit :: rest =>
      (if isHighSurrogate unit || isLowSurrogate unit then Char.ofNat 0xFFFD
        else Char.ofNat unit) :: charsOfUnits rest

def readDigits (text : List Char) : List Char × List Char :=
  text.span Char.isDigit

def digitsValue (digits : List Char) : Nat :=
  digits.foldl (fun value c => value * 10 + (c.toNat - 0x30)) 0

def readWhole? : List Char → Option (List Char × List Char)
  | '0' :: rest => some (['0'], rest)
  | text =>
      match readDigits text with
      | ([], _) => none
      | digits => some digits

/-- A point counts only with a digit after it. -/
def readFraction (text : List Char) : List Char × List Char :=
  match text with
  | '.' :: rest =>
      match readDigits rest with
      | ([], _) => ([], text)
      | digits => digits
  | _ => ([], text)

def readSign : List Char → Bool × List Char
  | '-' :: rest => (true, rest)
  | '+' :: rest => (false, rest)
  | text => (false, text)

/-- An exponent counts only with a digit. -/
def readExponent (text : List Char) : Option Int × List Char :=
  match text with
  | c :: rest =>
      if c = 'e' ∨ c = 'E' then
        let (negative, rest) := readSign rest
        match readDigits rest with
        | ([], _) => (none, text)
        | (digits, rest) =>
            let size : Int := digitsValue digits
            (some (if negative then -size else size), rest)
      else (none, text)
  | [] => (none, text)

def readNumber? (text : List Char) : Option (Number × List Char) := do
  let (negative, text) :=
    match text with
    | '-' :: rest => (true, rest)
    | _ => (false, text)
  let (whole, text) ← readWhole? text
  let (fraction, text) := readFraction text
  let (exponent, text) := readExponent text
  if fraction.isEmpty ∧ exponent.isNone then
    let size : Int := digitsValue whole
    some (.int (if negative then -size else size), text)
  else
    let decimal ← Decimal.ofWritten? negative (digitsValue (whole ++ fraction))
      (exponent.getD 0 - fraction.length)
    some (.decimal decimal, text)

def isBlank (c : Char) : Bool :=
  c = ' ' || c = '\t' || c = '\r' || c = '\n'

def readToken? : List Char → Option (Token × List Char)
  | '[' :: rest => some (.openArr, rest)
  | ']' :: rest => some (.closeArr, rest)
  | '\x7b' :: rest => some (.openObj, rest)
  | '\x7d' :: rest => some (.closeObj, rest)
  | ':' :: rest => some (.colon, rest)
  | ',' :: rest => some (.comma, rest)
  | 'n' :: 'u' :: 'l' :: 'l' :: rest => some (.scalar .null, rest)
  | 't' :: 'r' :: 'u' :: 'e' :: rest => some (.scalar (.bool true), rest)
  | 'f' :: 'a' :: 'l' :: 's' :: 'e' :: rest => some (.scalar (.bool false), rest)
  | '\x22' :: rest => do
      let (units, rest) ← readUnits? rest
      some (.scalar (.str (String.ofList (charsOfUnits units))), rest)
  | text => do
      let (number, rest) ← readNumber? text
      some (.scalar (.num number), rest)

/-- Every token takes at least one character, so the length of the text is enough fuel. -/
def tokensWithin : Nat → List Char → Option (List Token)
  | _, [] => some []
  | 0, _ => none
  | fuel + 1, c :: rest =>
      if isBlank c then tokensWithin fuel rest
      else do
        let (token, rest) ← readToken? (c :: rest)
        let tokens ← tokensWithin fuel rest
        some (token :: tokens)

def tokens? (text : String) : Option (List Token) :=
  tokensWithin text.length text.toList

end ScriptSandbox.Json
