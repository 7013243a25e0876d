import ScriptSandbox.Config.Form
import ScriptSandbox.Policy.Store

/-!
# Configurations

A configuration is read from a JSON value of the right form.  Its lists keep the
order in which they are written; `Store.ofConfig` builds the store that it
describes.
-/

namespace ScriptSandbox

/-- What the runtime provides its own answer for. -/
structure Definitions where
  functions : List String
  magicConsts : List String
  classes : Record String
  namespaces : List String
  aliases : Record (Option String)

structure Config where
  options : Options
  whitelist : List (Category × List String)
  blacklist : List (Category × List String)
  definitions : Definitions

namespace Config

open Form (fieldsOf itemsOf sortedFindings)

def default : Config :=
  ⟨Options.default, [], [], ⟨[], [], [], [], []⟩⟩

def isKnownOption (name : String) : Bool := name = "name" || (Flag.ofName? name).isSome

/-- The handle is named first, then the unknown flags in order. -/
def optionFaults (value : Json) : List OptionFault :=
  let fields := fieldsOf ((Record.get? (fieldsOf value) "options").getD .null)
  let handle :=
    match Record.get? fields "name" with
    | some (.str text) => if Pattern.isHandle text.toList then [] else [OptionFault.invalidHandle]
    | _ => []
  handle ++ ((Record.names fields).filter fun name => !isKnownOption name).map .unknownFlag

/-- Options are looked at only when the form is right. -/
def errors (value : Json) : List Error :=
  match sortedFindings value with
  | [] => (optionFaults value).map .option
  | found => found.map .form

def textsOf (value : Json) : List String :=
  (itemsOf value).filterMap fun item =>
    match item with
    | .str text => some text
    | _ => none

def section? (value : Json) (name : String) : Record Json :=
  fieldsOf ((Record.get? (fieldsOf value) name).getD .null)

def readOption (options : Options) (entry : String × Json) : Options :=
  match entry with
  | (name, .str text) => if name = "name" then { options with handle := text } else options
  | (name, .bool value) =>
      match Flag.ofName? name with
      | some flag => options.setFlag flag value
      | none => options
  | _ => options

def readLists (fields : Record Json) : List (Category × List String) :=
  fields.filterMap fun entry =>
    (Category.ofName? entry.1).map fun category => (category, textsOf entry.2)

def readClasses (fields : Record Json) : Record String :=
  fields.filterMap fun entry =>
    match entry.2 with
    | .str substitute => some (entry.1, substitute)
    | _ => none

def readAliases (fields : Record Json) : Record (Option String) :=
  fields.map fun entry =>
    match entry.2 with
    | .str shortName => (entry.1, some shortName)
    | _ => (entry.1, none)

def readDefinitions (fields : Record Json) : Definitions :=
  let names (name : String) := ((Record.get? fields name).map textsOf).getD []
  let entries (name : String) := ((Record.get? fields name).map fieldsOf).getD []
  { functions := names "functions"
    magicConsts := names "magic_constants"
    classes := readClasses (entries "classes")
    namespaces := names "namespaces"
    aliases := readAliases (entries "aliases") }

def read (value : Json) : Config :=
  { options := (section? value "options").foldl readOption Options.default
    whitelist := readLists (section? value "whitelist")
    blacklist := readLists (section? value "blacklist")
    definitions := readDefinitions (section? value "definitions") }

def ofJson (value : Json) : Except (List Error) Config :=
  match errors value with
  | [] => .ok (read value)
  | found => .error found

def errorText (found : List Error) : String :=
  "Config validation failed: " ++ "; ".intercalate (found.map Error.message)

end Config

namespace Store

def whitelistAll (category : Category) (names : List String) (store : Store) : Store :=
  names.foldl (·.whitelist category ·) store

def blacklistAll (category : Category) (names : List String) (store : Store) : Store :=
  names.foldl (·.blacklist category ·) store

def defineAll (definitions : Definitions) (store : Store) : Store :=
  let store := definitions.functions.foldl (·.override ·) store
  let store := definitions.magicConsts.foldl (·.defineMagicConst ·) store
  let store := definitions.classes.foldl (fun store entry => store.defineClass entry.1 entry.2) store
  let store := definitions.namespaces.foldl (·.defineNamespace ·) store
  definitions.aliases.foldl (fun store entry => store.defineAlias entry.1 entry.2) store

def ofConfig (config : Config) (audited : Bool) : Store :=
  let store := Store.empty config.options audited
  let store := config.whitelist.foldl (fun store entry => store.whitelistAll entry.1 entry.2) store
  let store := config.blacklist.foldl (fun store entry => store.blacklistAll entry.1 entry.2) store
  store.defineAll config.definitions

end Store

end ScriptSandbox
