import ScriptSandbox.Enforce.References
import ScriptSandbox.Kind.Rule

/-!
# Judging a node

Every node that the sandbox has not generated is judged by the rule of its kind.
-/

namespace ScriptSandbox

namespace Enforce

/-- A type without a name is judged by the flag of casts alone. -/
def primitive (type : Option String) (node : Node) : Judge Unit :=
  match type with
  | some type => Judge.name .primitive type (some node)
  | none => pure ()

def keeping (judge : Judge Unit) : Judge Verdict := do
  judge
  pure .keep

def byRule (node : Node) : Rule → Judge Verdict
  | .exempt => pure .keep
  | .keyword word => keeping (keyword word node)
  | .operator sign => keeping (Judge.name .operator sign (some node))
  | .primitive type => keeping (primitive (some type) node)
  | .magicConst name => magicConst node name
  | .escaping => keeping (Judge.require .escaping .escaping node)
  | .casting type => keeping do
      Judge.require .casting .casting node
      primitive type node
  | .functionDecl => keeping (functionDecl node)
  | .closure => closure node
  | .closureUse => keeping (closureUse node)
  | .classDecl => keeping (classDecl node)
  | .interfaceDecl => keeping (interfaceDecl node)
  | .traitDecl => keeping (traitDecl node)
  | .traitUse => keeping (traitUse node)
  | .generator => keeping do
      Judge.require .generators .generator node
      keyword "yield" node
  | .globalDecl => keeping (globalDecl node)
  | .staticVar => keeping (staticVar node)
  | .constDecl => Judge.reject .constKeyword (some node) none
  | .errorSuppress => keeping (Judge.require .errorSuppressing .errorSuppress node)
  | .assignRef => keeping do
      Judge.require .references .assignByReference node
      Judge.name .operator referenceSign (some node)
  | .halting => keeping do
      Judge.require .halting .halting node
      keyword "halt" node
  | .namespaceDecl => namespaceDecl node
  | .useDecl => useDecl node
  | .funcCall => funcCall node
  | .variableRef => variableRef node
  | .constFetch => keeping (constFetch node)
  | .classAccess => classAccess node
  | .instantiation => instantiation node
  | .shellExec => shellExec node

def node (node : Node) : Judge Verdict :=
  if node.generated then pure .keep else byRule node node.kind.rule

def visitor : Visitor Store Refusal where
  label := "ValidatorVisitor"
  leave := node

end Enforce

end ScriptSandbox
