import ScriptSandbox.Json.Printer
import ScriptSandbox.Text.Lines

/-!
# Audit log

An entry is an operation with named values, written on one line.  Values that
are null are left out, line feeds become blanks, and a value that is empty or
holds a blank is quoted.  The log is read back by lines, each under the time
stamp of its entry.
-/

namespace ScriptSandbox

structure AuditEntry where
  operation : String
  fields : Record Json
  deriving Repr

namespace AuditEntry

def valueText (value : Json) : String :=
  let text := value.text.map fun c => if c = '\n' then ' ' else c
  if text = "" || text.toList.contains ' ' then "\x22" ++ text ++ "\x22" else text

def fieldText? (field : String × Json) : Option String :=
  match field.2 with
  | .null => none
  | value => some (field.1 ++ "=" ++ valueText value)

def text (entry : AuditEntry) : String :=
  String.intercalate " " (("[" ++ entry.operation ++ "]") :: entry.fields.filterMap fieldText?)

def whitelist (category name : String) : AuditEntry :=
  ⟨"WHITELIST", [("category", .str category), ("name", .str name)]⟩

def namespaceDecl (name : String) : AuditEntry :=
  ⟨"NAMESPACE", [("name", .str name)]⟩

def aliasName (name : String) (shortName : Option String) : AuditEntry :=
  ⟨"ALIAS", [("name", .str name), ("alias", shortName.elim .null .str)]⟩

def violation (kind message : String) (context : Option String) (line : Json) : AuditEntry :=
  ⟨"VIOLATION", [("kind", .str kind), ("message", .str message),
    ("context", context.elim .null .str), ("line", line)]⟩

def passed (nodes : Nat) : AuditEntry :=
  ⟨"VALIDATE", [("result", .str "pass"), ("nodes", .int nodes)]⟩

def failed (kind : String) : AuditEntry :=
  ⟨"VALIDATE", [("result", .str "fail"), ("kind", .str kind)]⟩

end AuditEntry

/-- An entry on its line, under the time stamp of the moment at which it was made. -/
structure StampedEntry where
  stamp : String
  entry : AuditEntry
  deriving Repr

def StampedEntry.line (stamped : StampedEntry) : String :=
  stamped.stamp ++ " " ++ stamped.entry.text

def logText (log : List StampedEntry) : String :=
  String.join (log.map fun stamped => stamped.line ++ "\n")

def logLines (log : List StampedEntry) : List String :=
  Text.lines (logText log)

def stampAll (stamp : String) (log : List AuditEntry) : List StampedEntry :=
  log.map fun entry => ⟨stamp, entry⟩

/-- The lines that name an operation in brackets. -/
def linesOf (operation : Option String) (lines : List String) : List String :=
  match operation with
  | none => lines
  | some operation => lines.filter fun line => Text.contains line ("[" ++ operation ++ "]")

end ScriptSandbox
