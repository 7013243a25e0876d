import ScriptSandbox.Json.Basic
import ScriptSandbox.Number.Text
import ScriptSandbox.Text.Quoted

/-!
# Writing JSON

Texts are written in ASCII: other characters by their code units.  A value is
written on one line, or with two blanks of indentation for each level.
-/

namespace ScriptSandbox

open Text (hexDigits quoted)

def escapedUnit (unit : Nat) : List Char :=
  '\\' :: 'u' :: hexDigits 4 unit

def escapedChar (c : Char) : List Char :=
  let code := c.toNat
  if c = '\x22' then ['\\', '\x22']
  else if c = '\\' then ['\\', '\\']
  else if c = '\n' then ['\\', 'n']
  else if c = '\r' then ['\\', 'r']
  else if c = '\t' then ['\\', 't']
  else if code = 0x08 then ['\\', 'b']
  else if code = 0x0C then ['\\', 'f']
  else if 0x20 ≤ code ∧ code ≤ 0x7E then [c]
  else if code < 0x10000 then escapedUnit code
  else
    escapedUnit (0xD800 + (code - 0x10000) / 0x400) ++
      escapedUnit (0xDC00 + (code - 0x10000) % 0x400)

def escaped (text : String) : String :=
  String.ofList ('\x22' :: text.toList.flatMap escapedChar ++ ['\x22'])

def Scalar.written : Scalar → String
  | .null => "null"
  | .bool true => "true"
  | .bool false => "false"
  | .num value => value.text
  | .str value => escaped value

namespace Json

mutual

def compact : Json → String
  | .scalar value => value.written
  | .arr [] => "[]"
  | .arr (item :: rest) => "[" ++ compact item ++ compactItems rest ++ "]"
  | .obj [] => "\x7b\x7d"
  | .obj ((name, value) :: rest) =>
      "\x7b" ++ escaped name ++ ": " ++ compact value ++ compactFields rest ++ "\x7d"

def compactItems : List Json → String
  | [] => ""
  | item :: rest => ", " ++ compact item ++ compactItems rest

def compactFields : List (String × Json) → String
  | [] => ""
  | (name, value) :: rest =>
      ", " ++ escaped name ++ ": " ++ compact value ++ compactFields rest

end

def newLine (depth : Nat) : String :=
  String.ofList ('\n' :: List.replicate (2 * depth) ' ')

mutual

def indented (depth : Nat) : Json → String
  | .scalar value => value.written
  | .arr [] => "[]"
  | .arr (item :: rest) =>
      "[" ++ newLine (depth + 1) ++ indented (depth + 1) item ++
        indentedItems (depth + 1) rest ++ newLine depth ++ "]"
  | .obj [] => "\x7b\x7d"
  | .obj ((name, value) :: rest) =>
      "\x7b" ++ newLine (depth + 1) ++ escaped name ++ ": " ++ indented (depth + 1) value ++
        indentedFields (depth + 1) rest ++ newLine depth ++ "\x7d"

def indentedItems (depth : Nat) : List Json → String
  | [] => ""
  | item :: rest => "," ++ newLine depth ++ indented depth item ++ indentedItems depth rest

def indentedFields (depth : Nat) : List (String × Json) → String
  | [] => ""
  | (name, value) :: rest =>
      "," ++ newLine depth ++ escaped name ++ ": " ++ indented depth value ++
        indentedFields depth rest

end

end Json

def Scalar.shown : Scalar → String
  | .null => "None"
  | .bool true => "True"
  | .bool false => "False"
  | .num value => value.text
  | .str value => quoted value

namespace Json

mutual

/-- The form of a value inside a message. -/
def shown : Json → String
  | .scalar value => value.shown
  | .arr [] => "[]"
  | .arr (item :: rest) => "[" ++ shown item ++ shownItems rest ++ "]"
  | .obj [] => "\x7b\x7d"
  | .obj ((name, value) :: rest) =>
      "\x7b" ++ quoted name ++ ": " ++ shown value ++ shownFields rest ++ "\x7d"

def shownItems : List Json → String
  | [] => ""
  | item :: rest => ", " ++ shown item ++ shownItems rest

def shownFields : List (String × Json) → String
  | [] => ""
  | (name, value) :: rest =>
      ", " ++ quoted name ++ ": " ++ shown value ++ shownFields rest

end

/-- A text stands for itself, any other value for its form in messages. -/
def text : Json → String
  | .scalar (.str value) => value
  | value => value.shown

end Json

end ScriptSandbox
