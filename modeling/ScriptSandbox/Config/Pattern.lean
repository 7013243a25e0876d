/-!
# Patterns of names

A handle is a letter or underscore followed by letters, digits and underscores.
A flag has one of three families and a word of small letters and underscores.
A text still fits the looser form of a pattern when a single line feed follows
the match.
-/

namespace ScriptSandbox.Pattern

def isSmall (c : Char) : Bool := 'a' ≤ c && c ≤ 'z'

def isLetter (c : Char) : Bool := isSmall c || ('A' ≤ c && c ≤ 'Z')

def isDigit (c : Char) : Bool := '0' ≤ c && c ≤ '9'

def isHandle : List Char → Bool
  | [] => false
  | c :: rest =>
      (isLetter c || c = '_') && rest.all fun c => isLetter c || isDigit c || c = '_'

def withoutLineFeed (text : List Char) : List Char :=
  if text.getLast? = some '\n' then text.dropLast else text

def fitsHandle (text : String) : Bool :=
  isHandle (withoutLineFeed text.toList)

def after? : List Char → List Char → Option (List Char)
  | [], rest => some rest
  | _ :: _, [] => none
  | p :: part, c :: rest => if p = c then after? part rest else none

def flagFamilies : List String := ["allow_", "overwrite_", "auto_whitelist_"]

def isFlag (text : List Char) : Bool :=
  flagFamilies.any fun family =>
    match after? family.toList text with
    | some word => !word.isEmpty && word.all fun c => isSmall c || c = '_'
    | none => false

def fitsFlag (text : String) : Bool :=
  isFlag (withoutLineFeed text.toList)

def handleText : String := "^[A-Za-z_][A-Za-z0-9_]*$"

end ScriptSandbox.Pattern
