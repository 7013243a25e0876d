import ScriptSandbox.Config.Basic
import ScriptSandbox.Json.Parser

/-!
# Configuration files

A configuration file is a JSON text whose value is an object without errors.
-/

namespace ScriptSandbox

namespace Config

inductive FileFault where
  | notJson
  | notAnObject
  | errors (found : List Error)

def FileFault.message : FileFault → String
  | .notJson => "Config JSON decode error"
  | .notAnObject => "Config validation failed: top level must be an object"
  | .errors found => errorText found

def ofText (text : String) : Except FileFault Config :=
  match Json.parse? text with
  | none => .error .notJson
  | some (.obj fields) => (ofJson (.obj fields)).mapError .errors
  | some _ => .error .notAnObject

end Config

end ScriptSandbox
