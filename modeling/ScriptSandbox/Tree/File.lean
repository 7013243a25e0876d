import ScriptSandbox.Json.Parser
import ScriptSandbox.Json.Printer
import ScriptSandbox.Tree.Dump
import ScriptSandbox.Tree.Load

/-!
# Tree files

A tree file is a JSON text.  Written files are indented by two blanks.
-/

namespace ScriptSandbox

inductive TreeFileFault where
  | notJson
  | tree (fault : TreeFault)
  deriving DecidableEq, Repr

def TreeFileFault.message : TreeFileFault → String
  | .notJson => "Syntax tree JSON decode error"
  | .tree fault => fault.message

def readTree (strip : Bool) (text : String) : Except TreeFileFault (List Node) :=
  match Json.parse? text with
  | none => .error .notJson
  | some data => (loadTree strip data).mapError .tree

def writtenTree (nodes : List Node) : String :=
  (Json.arr (nodes.map Node.dump)).indented 0

end ScriptSandbox
