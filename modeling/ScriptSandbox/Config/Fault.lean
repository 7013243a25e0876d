import ScriptSandbox.Config.Pattern
import ScriptSandbox.Json.Printer

/-!
# Faults of a configuration

A fault is found at a place in the configuration.  Faults are ordered by their
places, the outer before the inner.
-/

namespace ScriptSandbox

namespace Config

inductive PlaceStep where
  | name (name : String)
  | index (position : Nat)
  deriving DecidableEq, Repr

abbrev Place := List PlaceStep

def PlaceStep.text : PlaceStep → String
  | .name text => text
  | .index position => position.repr

def PlaceStep.lt : PlaceStep → PlaceStep → Bool
  | .name a, .name b => a < b
  | .index a, .index b => a < b
  | .index _, .name _ => true
  | .name _, .index _ => false

def placeLe : Place → Place → Bool
  | [], _ => true
  | _ :: _, [] => false
  | a :: as, b :: bs => a.lt b || (a = b && placeLe as bs)

def placeText (place : Place) : String :=
  if place.isEmpty then "<root>" else "/".intercalate (place.map PlaceStep.text)

inductive JsonType where
  | object
  | array
  | string
  | boolean
  | null
  deriving DecidableEq, Repr

def JsonType.name : JsonType → String
  | .object => "object"
  | .array => "array"
  | .string => "string"
  | .boolean => "boolean"
  | .null => "null"

def JsonType.holds : JsonType → Json → Bool
  | .object, .obj _ => true
  | .array, .arr _ => true
  | .string, .str _ => true
  | .boolean, .bool _ => true
  | .null, .null => true
  | _, _ => false

inductive Fault where
  | wrongType (value : Json) (types : List JsonType)
  | unexpected (names : List String)
  | notOneOf (name : String) (names : List String)
  | fitsNone (name : String)
  | empty
  | repeated (items : List Json)
  | mismatch (text : String)
  deriving Repr

def shownNames (names : List String) : String :=
  ", ".intercalate (names.map Text.quoted)

def Fault.message : Fault → String
  | .wrongType value types =>
      value.shown ++ " is not of type " ++ shownNames (types.map JsonType.name)
  | .unexpected names =>
      "Additional properties are not allowed (" ++ shownNames names ++
        (if names.length = 1 then " was" else " were") ++ " unexpected)"
  | .notOneOf name names =>
      Text.quoted name ++ " is not one of [" ++ shownNames names ++ "]"
  | .fitsNone name => Text.quoted name ++ " is not valid under any of the given schemas"
  | .empty => "'' should be non-empty"
  | .repeated items => (Json.arr items).shown ++ " has non-unique elements"
  | .mismatch text => Text.quoted text ++ " does not match " ++ Text.quoted Pattern.handleText

structure Finding where
  place : Place
  fault : Fault
  deriving Repr

/-- The finding seen from the object that holds the place. -/
def Finding.under (step : PlaceStep) (finding : Finding) : Finding :=
  { finding with place := step :: finding.place }

def findingsUnder (name : String) (findings : List Finding) : List Finding :=
  findings.map (Finding.under (.name name))

/-- What the flags themselves refuse, after the form of the configuration is right. -/
inductive OptionFault where
  | invalidHandle
  | unknownFlag (name : String)
  deriving DecidableEq, Repr

def OptionFault.place : OptionFault → Place
  | .invalidHandle => [.name "options", .name "name"]
  | .unknownFlag name => [.name "options", .name name]

def OptionFault.message : OptionFault → String
  | .invalidHandle => "String should match pattern '" ++ Pattern.handleText ++ "'"
  | .unknownFlag _ => "Extra inputs are not permitted"

inductive Error where
  | form (finding : Finding)
  | option (fault : OptionFault)
  deriving Repr

def Error.message : Error → String
  | .form finding =>
      "Schema validation error at " ++ placeText finding.place ++ ": " ++ finding.fault.message
  | .option fault =>
      "Option error at " ++ "/".intercalate (fault.place.map PlaceStep.text) ++ ": " ++
        fault.message

end Config

end ScriptSandbox
