import ScriptSandbox.Proofs.Enforce.PairedReferences

/-!
# Judging side by side

Two nodes that are alike, judged against stores that permit the same, get verdicts that
are alike, or are rejected for violations that are alike.
-/

namespace ScriptSandbox

open Judge

namespace Enforce

variable {I : Store → Store → Prop} {L : Likeness} {n m : Node}

private theorem primitive_paired (h : Pairing I) (hn : n.Alike L false m) (type : Option String) :
    Judge.Paired I L (primitive type n) (primitive type m) fun _ _ => True := by
  cases type with
  | none => exact Run.Paired.pure trivial
  | some type => exact name_paired h .primitive type hn

private theorem keeping_paired {judge judge' : Judge Unit}
    (hjudge : Judge.Paired I L judge judge' fun _ _ => True) :
    Judge.Paired I L (keeping judge) (keeping judge') (Verdict.Alike L false) := by
  apply Run.Paired.bind hjudge
  intro _ _ _
  exact Run.Paired.pure .keep

private theorem required_paired (h : Pairing I) (hn : n.Alike L false m) (feature : Feature)
    (offence : Offence) {judge judge' : Judge Unit}
    (hjudge : Judge.Paired I L judge judge' fun _ _ => True) :
    Judge.Paired I L
      (keeping do
        Judge.require feature offence n
        judge)
      (keeping do
        Judge.require feature offence m
        judge') (Verdict.Alike L false) := by
  apply keeping_paired
  apply (require_paired h feature offence hn).bind
  intro _ _ _
  exact hjudge

private theorem byRule_paired (h : Pairing I) (hL : L.Faithful)
    (htexts : ∀ a b, L.callee a b → L.text a b)
    (hn : n.Alike L false m) {rule : Rule} (hrule : n.kind.rule = rule)
    (hdeclared : rule = .functionDecl → ∀ s t, I s t → t.declared = s.declared) :
    Judge.Paired I L (byRule n rule) (byRule m rule) (Verdict.Alike L false) := by
  have hkind : rule ≠ .funcCall → n.kind ≠ .expression .funcCall := by
    intro hne
    rw [← hrule] at hne
    exact Kind.ne_funcCall hne
  cases rule with
  | exempt => exact Run.Paired.pure .keep
  | keyword word => exact keeping_paired (keyword_paired h hn word)
  | operator sign => exact keeping_paired (name_paired h .operator sign hn)
  | primitive type => exact keeping_paired (name_paired h .primitive type hn)
  | magicConst name => exact magicConst_paired h hn name
  | escaping => exact keeping_paired (require_paired h _ _ hn)
  | casting type => exact required_paired h hn _ _ (primitive_paired h hn type)
  | functionDecl =>
      exact keeping_paired (functionDecl_paired h hn (hkind (by simp)) (hdeclared rfl))
  | closure => exact closure_paired h hn
  | closureUse => exact keeping_paired (closureUse_paired h hn)
  | classDecl => exact keeping_paired (classDecl_paired h hn (hkind (by simp)))
  | interfaceDecl => exact keeping_paired (interfaceDecl_paired h hn (hkind (by simp)))
  | traitDecl => exact keeping_paired (traitDecl_paired h hn (hkind (by simp)))
  | traitUse => exact keeping_paired (traitUse_paired h hn)
  | generator => exact required_paired h hn _ _ (keyword_paired h hn "yield")
  | globalDecl => exact keeping_paired (globalDecl_paired h hn)
  | staticVar => exact keeping_paired (staticVar_paired h hn (hkind (by simp)))
  | constDecl => exact reject_paired h _ hn none
  | errorSuppress => exact keeping_paired (require_paired h _ _ hn)
  | assignRef => exact required_paired h hn _ _ (name_paired h .operator referenceSign hn)
  | halting => exact required_paired h hn _ _ (keyword_paired h hn "halt")
  | namespaceDecl => exact namespaceDecl_paired h hn (hkind (by simp))
  | useDecl => exact useDecl_paired h hn
  | funcCall => exact funcCall_paired h hn hL htexts (Kind.eq_funcCall hrule)
  | variableRef => exact variableRef_paired h hn (hkind (by simp))
  | constFetch => exact keeping_paired (constFetch_paired h hn (hkind (by simp)))
  | classAccess => exact classAccess_paired h hn
  | instantiation => exact instantiation_paired h hn
  | shellExec => exact shellExec_paired h hn

theorem node_paired (h : Pairing I) (hL : L.Faithful) (htexts : ∀ a b, L.callee a b → L.text a b)
    (hn : n.Alike L false m)
    (hdeclared : n.kind.rule = .functionDecl → ∀ s t, I s t → t.declared = s.declared) :
    Judge.Paired I L (node n) (node m) (Verdict.Alike L false) := by
  unfold node
  rw [hn.generated_eq, hn.kind_eq]
  apply Run.Paired.ite Iff.rfl
  · intro _
    exact Run.Paired.pure .keep
  · intro _
    exact byRule_paired h hL htexts hn rfl hdeclared

@[simp] theorem node_of_isName {n : Node} (hname : n.kind.isName = true) : node n = pure .keep := by
  have hrule : n.kind.rule = .exempt := by
    cases hkind : n.kind with
    | name spelling => rfl
    | _ => rw [hkind] at hname; cases hname
  rw [node, hrule, byRule, ite_self]

theorem visitor_pairs (h : Pairing I) (hL : L.Faithful) (htexts : ∀ a b, L.callee a b → L.text a b)
    (hdeclared : ∀ s t, I s t → t.declared = s.declared) :
    visitor.Pairs I (Refusal.Alike L) L := by
  intro called n m hn
  change Judge.Paired I L (node n) (node m) (Verdict.Alike L called)
  cases hname : n.kind.isName with
  | true =>
      have hname' := hn.isName_eq
      rw [hname] at hname'
      rw [node_of_isName hname, node_of_isName hname']
      exact Run.Paired.pure .keep
  | false =>
      have hfield := hn.toField hname
      exact (node_paired h hL htexts hfield fun _ => hdeclared).mono fun _ _ hverdict =>
        hverdict.atPlace

end Enforce

end ScriptSandbox
