import ScriptSandbox.Config.Pattern
import ScriptSandbox.Text.Digit

/-!
# Arguments

The command takes one tree file and four options that each take a path.  An
option may be shortened as long as it is unambiguous, its value may follow an
equals sign, and after a double dash every argument is a value.
-/

namespace ScriptSandbox.CommandLine

inductive OptionName where
  | help
  | config
  | prelude
  | output
  | auditLog
  deriving DecidableEq, Repr

def OptionName.word : OptionName → List Char
  | .help => "--help".toList
  | .config => "--config".toList
  | .prelude => "--prelude".toList
  | .output => "--output".toList
  | .auditLog => "--audit-log".toList

def OptionName.all : List OptionName := [.help, .config, .prelude, .output, .auditLog]

inductive Word where
  | value (text : String)
  | option (name : OptionName) (attached : Option String)
  /-- The short form of the option for help, with what is written behind it. -/
  | shortHelp (tail : List Char)
  | unknown
  | separator
  deriving DecidableEq, Repr

/-- The text before the first equals sign, and the text after it if there is one. -/
def splitEquals (text : List Char) : List Char × Option (List Char) :=
  match text.span (· ≠ '=') with
  | (before, '=' :: rest) => (before, some rest)
  | (before, _) => (before, none)

/--
Digits with a dash before them, perhaps with a point among them, are a value, also
with a line feed at the end.
-/
def isNegativeNumber (text : List Char) : Bool :=
  match Pattern.withoutLineFeed text with
  | '-' :: rest =>
      match rest.span Text.isDigit with
      | (digits, []) => !digits.isEmpty
      | (_, '.' :: fraction) => !fraction.isEmpty && fraction.all Text.isDigit
      | _ => false
  | _ => false

def valueOrUnknown (text : List Char) : Word :=
  if isNegativeNumber text || text.contains ' ' then .value (String.ofList text) else .unknown

/-- An option is meant by each beginning of its word; nothing if several are meant. -/
def longOption? (text : List Char) : Option Word :=
  let (before, attached) := splitEquals text
  let attached := attached.map String.ofList
  match OptionName.all.find? (·.word = before) with
  | some name => some (.option name attached)
  | none =>
      match OptionName.all.filter fun name => before.isPrefixOf name.word with
      | [] => some (valueOrUnknown text)
      | [name] => some (.option name attached)
      | _ => none

def shortOption (text : List Char) : Word :=
  match text with
  | '-' :: 'h' :: rest => .shortHelp rest
  | _ => valueOrUnknown text

def word? (text : String) : Option Word :=
  match text.toList with
  | '-' :: '-' :: rest => longOption? ('-' :: '-' :: rest)
  | '-' :: c :: rest => some (shortOption ('-' :: c :: rest))
  | _ => some (.value text)

/-- Nothing if an option is ambiguous. -/
def words? : List String → Option (List Word)
  | [] => some []
  | text :: rest =>
      if text = "--" then some (.separator :: rest.map .value)
      else do
        let word ← word? text
        some (word :: (← words? rest))

structure Paths where
  script : Option String
  config : Option String
  prelude : Option String
  output : Option String
  auditLog : Option String
  deriving DecidableEq, Repr

inductive Request where
  | run (script : String) (paths : Paths)
  | help
  | unusable
  deriving DecidableEq, Repr

def Paths.set (paths : Paths) (name : OptionName) (value : Option String) : Paths :=
  match name with
  | .help => paths
  | .config => { paths with config := value }
  | .prelude => { paths with prelude := value }
  | .output => { paths with output := value }
  | .auditLog => { paths with auditLog := value }

/-- A double dash behind the equals sign is no path and takes the option back. -/
def attachedPath? (value : String) : Option String :=
  if value = "--" then none else some value

/-- The letter of the short option may be repeated, the first time also behind an equals sign. -/
def isHelpTail : List Char → Bool
  | '=' :: tail => !tail.isEmpty && tail.all (· = 'h')
  | tail => tail.all (· = 'h')

def finish (paths : Paths) (surplus : Bool) : Request :=
  match paths.script, surplus with
  | some script, false => .run script paths
  | _, _ => .unusable

/--
Goes through the words.  `surplus` notes words that nothing takes, which count
only at the end; `fresh` tells whether the word before was taken as the script.
-/
def requestFrom (paths : Paths) (surplus fresh : Bool) : List Word → Request
  | [] => finish paths surplus
  | .value text :: rest =>
      match paths.script with
      | none => requestFrom { paths with script := some text } surplus true rest
      | some _ => requestFrom paths true false rest
  | .separator :: rest =>
      match paths.script, rest with
      | none, .value text :: more =>
          finish { paths with script := some text } (surplus || !more.isEmpty)
      | none, _ => .unusable
      | some _, [] => finish paths (surplus || !fresh)
      | some _, _ :: _ => .unusable
  | .unknown :: rest => requestFrom paths true false rest
  | .shortHelp tail :: _ => if isHelpTail tail then .help else .unusable
  | .option .help none :: _ => .help
  | .option .help (some _) :: _ => .unusable
  | .option name (some value) :: rest => requestFrom (paths.set name (attachedPath? value)) surplus false rest
  | .option name none :: .value text :: rest =>
      requestFrom (paths.set name (some text)) surplus false rest
  | .option _ none :: _ => .unusable

def request (arguments : List String) : Request :=
  match words? arguments with
  | none => .unusable
  | some words => requestFrom ⟨none, none, none, none, none⟩ false false words

def usage : String :=
  "usage: scriptsandbox [-h] [--config CONFIG] [--prelude PRELUDE] [--output OUTPUT] " ++
    "[--audit-log AUDIT_LOG] tree"

end ScriptSandbox.CommandLine
