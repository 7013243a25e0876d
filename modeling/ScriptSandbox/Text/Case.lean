import ScriptSandbox.Text.CaseTable

/-!
# Letter case

Small and capital forms of whole texts.  A capital sigma that ends a word has a
small form of its own; the dotted capital I becomes two characters, and so do
some letters that have no single capital form.
-/

namespace ScriptSandbox.Text

def inRanges (ranges : List (Nat × Nat)) (c : Char) : Bool :=
  ranges.any fun range => range.1 ≤ c.toNat && c.toNat ≤ range.2

def isCased (c : Char) : Bool := inRanges casedRanges c

/-- Characters that are skipped when looking for the neighbours of a sigma. -/
def isCaseIgnorable (c : Char) : Bool := inRanges ignorableRanges c

def CaseRun.image? (run : CaseRun) (code : Nat) : Option Nat :=
  if run.first ≤ code ∧ code ≤ run.last ∧ (code - run.first) % run.step = 0 then
    some (run.image + (code - run.first))
  else none

def mapRuns (runs : List CaseRun) (c : Char) : Char :=
  match runs.findSome? (·.image? c.toNat) with
  | some code => Char.ofNat code
  | none => c

def lowerChar (c : Char) : List Char :=
  if c.toNat < 0x80 then [c.toLower]
  else if c.toNat = 0x130 then ['i', Char.ofNat 0x307]
  else [mapRuns lowerRuns c]

def capitalSigma : Char := Char.ofNat 0x3A3

def smallSigma : Char := Char.ofNat 0x3C3

def finalSigma : Char := Char.ofNat 0x3C2

/-- Whether the first character that is not skipped has case. -/
def casedNext (rest : List Char) : Bool :=
  match rest.dropWhile isCaseIgnorable with
  | [] => false
  | c :: _ => isCased c

/-- `cased` tells whether the last character that is not skipped has case. -/
def lowerFrom (cased : Bool) : List Char → List Char
  | [] => []
  | c :: rest =>
      let image :=
        if c = capitalSigma then
          [if cased && !casedNext rest then finalSigma else smallSigma]
        else lowerChar c
      let cased := if isCaseIgnorable c then cased else isCased c
      image ++ lowerFrom cased rest

def lower (text : String) : String :=
  String.ofList (lowerFrom false text.toList)

def upperChar (c : Char) : List Char :=
  if c.toNat < 0x80 then [c.toUpper]
  else
    match upperExpansions.lookup c.toNat with
    | some codes => codes.map Char.ofNat
    | none => [mapRuns upperRuns c]

def upper (text : String) : String :=
  String.ofList (text.toList.flatMap upperChar)

end ScriptSandbox.Text
