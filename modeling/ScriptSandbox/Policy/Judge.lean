import ScriptSandbox.Policy.Offence
import ScriptSandbox.Policy.Store
import ScriptSandbox.Run
import ScriptSandbox.Tree.Access

/-!
# Judging

A pass judges nodes against a store.  It stops at the first violation, which is
logged, or where a node is not of the shape that its kind asks for.
-/

namespace ScriptSandbox

inductive Refusal where
  | violation (violation : Violation)
  | malformed (cause : Malformed)

abbrev Judge := Run Store Refusal

namespace Judge

variable {α : Type}

/-- Goes on with what was read, or stops where it could not be read. -/
def read (result : Except Malformed α) : Judge α :=
  Run.ofExcept .malformed result

def update (change : Store → Store) : Judge Unit :=
  modify change

def flag (flag : Flag) : Judge Bool := do
  pure ((← get).flag flag)

def report (violation : Violation) : Judge α := do
  update (·.record
    (.violation violation.kind.name violation.message violation.context violation.line))
  throw (.violation violation)

def reject (offence : Offence) (node : Option Node) (context : Option String) : Judge α :=
  report (offence.violation node context)

/-- Whether a name is permitted; that its predicate was asked is noted. -/
def ask (category : Category) (name : String) (extra : List Json) : Judge Bool := do
  let store ← get
  update (·.noteCheck category name extra)
  pure (store.check category name extra)

def name (role : Role) (name : String) (node : Option Node) : Judge Unit := do
  if !(← ask role.category name role.extra) then
    reject (.invalidName role) node (some name)

def require (feature : Feature) (offence : Offence) (node : Node) : Judge Unit := do
  if !(← get).allows feature then reject offence (some node) none

/-- Rejects an empty or forbidden name of a namespace or an alias. -/
def nonEmptyName (role : Role) (text : String) (node : Option Node) : Judge Unit :=
  if text = "" then reject (.invalidName role) node (some text) else name role text node

end Judge

end ScriptSandbox
