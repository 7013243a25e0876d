/-!
# Lines

Line boundaries are the line feed, the return, both in this order as one, the
vertical tab, the form feed, the three information separators, and the three
separators beyond ASCII.
-/

namespace ScriptSandbox.Text

def isLineBoundary (c : Char) : Bool :=
  c.toNat ∈ [0x0A, 0x0B, 0x0C, 0x0D, 0x1C, 0x1D, 0x1E, 0x85, 0x2028, 0x2029]

/-- `line` holds the characters of the current line, last first. -/
def linesFrom (line : List Char) : List Char → List String
  | [] => if line.isEmpty then [] else [String.ofList line.reverse]
  | '\r' :: '\n' :: rest => String.ofList line.reverse :: linesFrom [] rest
  | c :: rest =>
      if isLineBoundary c then String.ofList line.reverse :: linesFrom [] rest
      else linesFrom (c :: line) rest

/-- The lines of a text without their boundaries; no empty line after a last boundary. -/
def lines (text : String) : List String :=
  linesFrom [] text.toList

def splitAt (separator : Char) : List Char → List (List Char)
  | [] => [[]]
  | c :: rest =>
      if c = separator then [] :: splitAt separator rest
      else
        match splitAt separator rest with
        | [] => [[c]]
        | first :: others => (c :: first) :: others

/-- The pieces between separators; always at least one. -/
def split (separator : Char) (text : String) : List String :=
  (splitAt separator text.toList).map String.ofList

def dropLeading (c : Char) (text : String) : String :=
  String.ofList (text.toList.dropWhile (· = c))

def containsAt (part : List Char) : List Char → Bool
  | [] => part.isEmpty
  | c :: rest => part.isPrefixOf (c :: rest) || containsAt part rest

def contains (text part : String) : Bool :=
  containsAt part.toList text.toList

end ScriptSandbox.Text
