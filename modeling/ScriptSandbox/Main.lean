import ScriptSandbox.CommandLine.Command
import ScriptSandbox.Policy.Stamp

/-!
# Program

Reads the files that the command names, runs it, and writes what it says.
-/

namespace ScriptSandbox.Program

open CommandLine

def faultOf (path : Path) (failure : IO.Error) : FileFault :=
  match failure with
  | .inappropriateType .. => .isADirectory path.text
  | .alreadyExists .. => .exists path.text
  | _ => .missing path.text

def readFile (path : Path) : IO (String × Except FileFault String) := do
  try
    return (path.text, .ok (← IO.FS.readFile path.text))
  catch failure =>
    return (path.text, .error (faultOf path failure))

def readAll (script : String) (paths : Paths) : IO (Path → Except FileFault String) := do
  let wanted := [paths.config, some script, paths.prelude].filterMap id
  let found ← wanted.mapM fun path => readFile (Path.ofText path)
  return fun path => (found.lookup path.text).getD (.error (.missing path.text))

/-- The present moment is the time at which a new file is made. -/
def presentStamp : IO String := do
  let (_, file) ← IO.FS.createTempFile
  let modified := (← file.metadata).modified
  IO.FS.removeFile file
  return stampOfSeconds modified.sec.toNat

def makeDirectory (path : Path) : IO Unit := do
  if !path.parent.parts.isEmpty then IO.FS.createDirAll path.parent.text

def writeLog (path : Option String) (log : List AuditEntry) : IO Unit := do
  match path with
  | none => return
  | some path =>
      if !log.isEmpty then
        let path := Path.ofText path
        makeDirectory path
        let file ← IO.FS.Handle.mk path.text .append
        file.putStr (logText (stampAll (← presentStamp) log))

def failed (message : String) : IO UInt32 := do
  IO.eprintln message
  return 1

def report (paths : Paths) : Outcome → IO UInt32
  | .notLoaded fault => failed (errorText fault)
  | .violated violation => failed (violationText violation)
  | .notDumped fault => failed ("Error: " ++ fault.message)
  | .failed (.misplaced cause) => failed ("Error: " ++ cause.message)
  | .failed (.raised (.violation violation)) => failed (violationText violation)
  | .failed (.raised (.malformed _)) => failed "Error: a node is not of the shape of its kind"
  | .passed nodes => do
      match paths.output with
      | none => IO.println (writtenTree nodes)
      | some output =>
          let path := Path.ofText output
          makeDirectory path
          IO.FS.writeFile path.text (writtenTree nodes)
          IO.println (savedText path)
      return 0

def perform (script : String) (paths : Paths) : IO UInt32 := do
  let (outcome, log) := run (← readAll script paths) script paths
  writeLog paths.auditLog log
  report paths outcome

end ScriptSandbox.Program

def main (arguments : List String) : IO UInt32 :=
  match ScriptSandbox.CommandLine.request arguments with
  | .help => do
      IO.println ScriptSandbox.CommandLine.usage
      return 0
  | .unusable => do
      IO.eprintln ScriptSandbox.CommandLine.usage
      return 2
  | .run script paths => ScriptSandbox.Program.perform script paths
