import ScriptSandbox.Config.Fault
import ScriptSandbox.Json.Order
import ScriptSandbox.Policy.Category

/-!
# The form of a configuration

A configuration is an object with options, two sets of name lists, and the
definitions of the runtime.  All faults of its form are found, not only the
first one.
-/

namespace ScriptSandbox

namespace Config.Form

def sectionNames : List String := ["options", "whitelist", "blacklist", "definitions"]

def definitionNames : List String :=
  ["functions", "magic_constants", "namespaces", "classes", "aliases"]

def at? (place : Place) (fault : Fault) (found : Bool) : List Finding :=
  if found then [⟨place, fault⟩] else []

def typeFindings (types : List JsonType) (value : Json) : List Finding :=
  at? [] (.wrongType value types) (!types.any (·.holds value))

def fieldsOf : Json → Record Json
  | .obj fields => fields
  | _ => []

def itemsOf : Json → List Json
  | .arr items => items
  | _ => []

/-- The names beside the known ones, in order of code points. -/
def unexpectedNames (known : List String) (fields : Record Json) : List String :=
  ((Record.names fields).filter fun name => name ∉ known).mergeSort fun a b => a ≤ b

def unexpectedFindings (known : List String) (fields : Record Json) : List Finding :=
  let names := unexpectedNames known fields
  at? [] (.unexpected names) (!names.isEmpty)

/-- The findings in one entry of an object, none when it is absent. -/
def entryFindings (findings : Json → List Finding) (name : String) (fields : Record Json) :
    List Finding :=
  match Record.get? fields name with
  | some value => findingsUnder name (findings value)
  | none => []

def allEntryFindings (findings : Json → List Finding) (fields : Record Json) : List Finding :=
  fields.flatMap fun entry => findingsUnder entry.1 (findings entry.2)

def nonEmptyText (value : Json) : List Finding :=
  typeFindings [.string] value ++ at? [] .empty (value.eqStrict (.str ""))

def itemFindings (findings : Json → List Finding) (position : Nat) : List Json → List Finding
  | [] => []
  | item :: rest =>
      (findings item).map (Finding.under (.index position)) ++
        itemFindings findings (position + 1) rest

def nameList (value : Json) : List Finding :=
  typeFindings [.array] value ++ itemFindings nonEmptyText 0 (itemsOf value) ++
    at? [] (.repeated (itemsOf value)) (Json.hasRepetition (itemsOf value))

def isCategory (name : String) : Bool := (Category.ofName? name).isSome

def categoryNames : List String := Category.all.map Category.name

def nameLists (value : Json) : List Finding :=
  typeFindings [.object] value ++
    (Record.names (fieldsOf value)).flatMap (fun name =>
      at? [] (.notOneOf name categoryNames) (!isCategory name)) ++
    allEntryFindings nameList (fieldsOf value)

def isOptionName (name : String) : Bool := name = "name" || Pattern.fitsFlag name

def handleName (value : Json) : List Finding :=
  typeFindings [.string] value ++
    match value with
    | .str text => at? [] (.mismatch text) (!Pattern.fitsHandle text)
    | _ => []

def flags (fields : Record Json) : Record Json :=
  fields.filter fun entry => Pattern.fitsFlag entry.1

def options (value : Json) : List Finding :=
  typeFindings [.object] value ++
    entryFindings handleName "name" (fieldsOf value) ++
    (Record.names (fieldsOf value)).flatMap (fun name =>
      at? [] (.fitsNone name) (!isOptionName name)) ++
    allEntryFindings (typeFindings [.boolean]) (flags (fieldsOf value))

def classes (value : Json) : List Finding :=
  typeFindings [.object] value ++ allEntryFindings nonEmptyText (fieldsOf value)

def aliases (value : Json) : List Finding :=
  typeFindings [.object] value ++
    allEntryFindings (typeFindings [.string, .null]) (fieldsOf value)

def definitions (value : Json) : List Finding :=
  let fields := fieldsOf value
  typeFindings [.object] value ++ unexpectedFindings definitionNames fields ++
    entryFindings nameList "functions" fields ++
    entryFindings nameList "magic_constants" fields ++
    entryFindings nameList "namespaces" fields ++
    entryFindings classes "classes" fields ++
    entryFindings aliases "aliases" fields

def findings (value : Json) : List Finding :=
  let fields := fieldsOf value
  typeFindings [.object] value ++ unexpectedFindings sectionNames fields ++
    entryFindings options "options" fields ++
    entryFindings nameLists "whitelist" fields ++
    entryFindings nameLists "blacklist" fields ++
    entryFindings definitions "definitions" fields

/-- Sorted by place; findings at one place stay in the order in which they were found. -/
def sortedFindings (value : Json) : List Finding :=
  (findings value).mergeSort fun a b => placeLe a.place b.place

end Config.Form

end ScriptSandbox
