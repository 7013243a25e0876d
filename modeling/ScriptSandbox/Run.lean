/-!
# Runs

A run changes a state and may fail.  The state that a failing run has reached is
kept, since tables and logs show what was done before the failure.
-/

namespace ScriptSandbox

abbrev Run (σ ε : Type) := ExceptT ε (StateM σ)

namespace Run

variable {σ ε ε' α : Type}

def exec (run : Run σ ε α) (state : σ) : Except ε α × σ :=
  run.run state

/-- The same run, its failure seen as another one. -/
def adapt (view : ε → ε') (run : Run σ ε α) : Run σ ε' α :=
  ExceptT.adapt view run

def ofExcept (view : ε' → ε) (result : Except ε' α) : Run σ ε α :=
  match result with
  | .ok value => pure value
  | .error cause => throw (view cause)

end Run

end ScriptSandbox
