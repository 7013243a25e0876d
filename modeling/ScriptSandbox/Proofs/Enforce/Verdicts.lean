import ScriptSandbox.Proofs.Enforce.References

/-!
# What becomes of each kind

The rule of each kind ends in one of the outcomes, or rejects the node; whichever it
is, the store changes only in what does not bear on policy.
-/

namespace ScriptSandbox

open Judge

namespace Enforce

variable {store : Store}

private theorem primitive_yields (type : Option String) (n : Node) :
    Run.Yields (Reaches store) (primitive type n)
      (fun _ => ∀ name ∈ type, store.Accepts .primitive name) := by
  cases type with
  | none => exact Run.Yields.pure (by simp)
  | some type =>
      refine (name_yields .primitive type (some n)).mono fun _ haccepts name hname => ?_
      cases hname
      exact haccepts

private theorem keeping_yields {n : Node} {rule : Rule} {judge : Judge Unit}
    (hrule : n.kind.rule = rule)
    (h : Run.Yields (Reaches store) judge (fun _ => rule.Meets store n)) :
    Run.Yields (Reaches store) (keeping judge) (Outcome store n) := by
  refine h.bind fun _ hmeets => Run.Yields.pure (.kept ?_)
  rw [Node.Meets, hrule]
  exact hmeets

private theorem byRule_yields {n : Node} {rule : Rule} (hrule : n.kind.rule = rule) :
    Run.Yields (Reaches store) (byRule n rule) (Outcome store n) := by
  cases rule with
  | exempt =>
      refine Run.Yields.pure (.kept ?_)
      rw [Node.Meets, hrule]
      trivial
  | keyword word => exact keeping_yields hrule (keyword_yields word n)
  | operator sign => exact keeping_yields hrule (name_yields .operator sign (some n))
  | primitive type => exact keeping_yields hrule (name_yields .primitive type (some n))
  | magicConst name => exact magicConst_yields hrule
  | escaping => exact keeping_yields hrule (require_yields .escaping _ n)
  | casting type =>
      refine keeping_yields hrule ((require_yields .casting _ n).bind fun _ hallow => ?_)
      exact (primitive_yields type n).mono fun _ haccepts => ⟨hallow, haccepts⟩
  | functionDecl => exact keeping_yields hrule (functionDecl_yields n)
  | closure => exact closure_yields hrule
  | closureUse => exact keeping_yields hrule (closureUse_yields n)
  | classDecl => exact keeping_yields hrule (classDecl_yields n)
  | interfaceDecl => exact keeping_yields hrule (interfaceDecl_yields n)
  | traitDecl => exact keeping_yields hrule (traitDecl_yields n)
  | traitUse => exact keeping_yields hrule (traitUse_yields n)
  | generator =>
      refine keeping_yields hrule ((require_yields .generators _ n).bind fun _ hallow => ?_)
      exact (keyword_yields "yield" n).mono fun _ hkeyword => ⟨hallow, hkeyword⟩
  | globalDecl => exact keeping_yields hrule (globalDecl_yields n)
  | staticVar => exact keeping_yields hrule (staticVar_yields n)
  | constDecl => exact reject_yields _ _ _
  | errorSuppress => exact keeping_yields hrule (require_yields .errorSuppressing _ n)
  | assignRef =>
      refine keeping_yields hrule ((require_yields .references _ n).bind fun _ hallow => ?_)
      exact (name_yields .operator referenceSign (some n)).mono fun _ hsign => ⟨hallow, hsign⟩
  | halting =>
      refine keeping_yields hrule ((require_yields .halting _ n).bind fun _ hallow => ?_)
      exact (keyword_yields "halt" n).mono fun _ hkeyword => ⟨hallow, hkeyword⟩
  | namespaceDecl => exact namespaceDecl_yields hrule
  | useDecl => exact useDecl_yields hrule
  | funcCall => exact funcCall_yields hrule
  | variableRef => exact variableRef_yields hrule
  | constFetch => exact keeping_yields hrule (constFetch_yields n)
  | classAccess => exact classAccess_yields hrule
  | instantiation => exact instantiation_yields hrule
  | shellExec => exact shellExec_yields hrule

theorem node_of_rule {n : Node} {rule : Rule} (hnew : n.generated = false)
    (hrule : n.kind.rule = rule) : node n = byRule n rule := by
  rw [node, hnew, if_neg Bool.false_ne_true, hrule]

theorem node_yields {n : Node} (h : n.generated = false) :
    Run.Yields (Reaches store) (node n) (Outcome store n) := by
  rw [node_of_rule h rfl]
  exact byRule_yields rfl

end Enforce

end ScriptSandbox
