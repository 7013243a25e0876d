import ScriptSandbox.Enforce.Visitor
import ScriptSandbox.Harvest.Own
import ScriptSandbox.Harvest.Trusted

/-!
# The gate

A script passes the gate in three passes: trusted code is harvested, then the
script's own definitions, and then the script is judged and guarded.  The
result is logged.
-/

namespace ScriptSandbox

abbrev Gate := Run Store (WalkFailure Refusal)

namespace Gate

def harvestTrusted (trusted : Tree) : Gate Unit := do
  let _ ← Walk.tree [TrustedHarvest.visitor] trusted
  pure ()

def harvestOwn (script : Tree) : Gate Unit := do
  let _ ← Walk.tree [OwnHarvest.visitor] script
  pure ()

def validate (script : Tree) : Gate Tree :=
  Walk.tree [Enforce.visitor] script

def log (entry : AuditEntry) : Gate Unit :=
  modify (·.record entry)

/-- All passes in order; the first violation stops them. -/
def prepare (script trusted : Tree) : Gate Tree := do
  if !trusted.isEmpty then harvestTrusted trusted
  harvestOwn script
  let guarded ← validate script
  log (.passed guarded.length)
  pure guarded

inductive Outcome where
  | passed (guarded : Tree)
  | failed (violation : Violation)

/-- A violation is an outcome; other failures remain failures. -/
def check (script trusted : Tree) : Gate Outcome := do
  try
    pure (.passed (← prepare script trusted))
  catch failure =>
    match failure with
    | .raised (.violation violation) =>
        log (.failed violation.kind.name)
        pure (.failed violation)
    | failure => throw failure

end Gate

end ScriptSandbox
