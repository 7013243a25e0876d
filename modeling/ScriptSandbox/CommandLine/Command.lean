import ScriptSandbox.CommandLine.Arguments
import ScriptSandbox.CommandLine.Files
import ScriptSandbox.Config.File
import ScriptSandbox.Gate
import ScriptSandbox.Tree.File

/-!
# The command

The command reads a configuration, a script and perhaps a prelude, in this
order, and runs the gate.  The guarded script is printed or saved.
-/

namespace ScriptSandbox.CommandLine

inductive LoadFault where
  | file (fault : FileFault)
  | config (fault : Config.FileFault)
  | tree (fault : TreeFileFault)

def LoadFault.message : LoadFault → String
  | .file fault => fault.message
  | .config fault => fault.message
  | .tree fault => fault.message

structure Inputs where
  config : Config
  script : List Node
  prelude : List Node

variable (read : Path → Except FileFault String)

def loadText (path : String) : Except LoadFault String :=
  (read (Path.ofText path)).mapError .file

def loadConfig : Option String → Except LoadFault Config
  | none => .ok Config.default
  | some path => do (Config.ofText (← loadText read path)).mapError .config

def loadScript (path : String) : Except LoadFault (List Node) := do
  (readTree true (← loadText read path)).mapError .tree

def loadPrelude : Option String → Except LoadFault (List Node)
  | none => .ok []
  | some path => loadScript read path

def load (script : String) (paths : Paths) : Except LoadFault Inputs := do
  let config ← loadConfig read paths.config
  let nodes ← loadScript read script
  let prelude ← loadPrelude read paths.prelude
  .ok ⟨config, nodes, prelude⟩

inductive Outcome where
  | notLoaded (fault : LoadFault)
  | violated (violation : Violation)
  | passed (nodes : List Node)
  | notDumped (fault : DumpFault)
  | failed (failure : WalkFailure Refusal)

/-- What the gate says of a script, and the log of the run. -/
def judge (inputs : Inputs) (audited : Bool) : Outcome × List AuditEntry :=
  let store := Store.ofConfig inputs.config audited
  match Run.exec (Gate.check (inputs.script.map .node) (inputs.prelude.map .node)) store with
  | (.error failure, store) => (.failed failure, store.log)
  | (.ok (.failed violation), store) => (.violated violation, store.log)
  | (.ok (.passed tree), store) =>
      match dumpableNodes tree with
      | .ok nodes => (.passed nodes, store.log)
      | .error fault => (.notDumped fault, store.log)

def run (script : String) (paths : Paths) : Outcome × List AuditEntry :=
  match load read script paths with
  | .error fault => (.notLoaded fault, [])
  | .ok inputs => judge inputs paths.auditLog.isSome

def errorText (fault : LoadFault) : String := "Error: " ++ fault.message

def violationText (violation : Violation) : String := "Violation " ++ violation.text

def savedText (output : Path) : String :=
  "Validation passed, rewritten tree written to " ++ output.text

end ScriptSandbox.CommandLine
