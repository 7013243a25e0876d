import ScriptSandbox.Proofs.Enforce.PairedVerdicts
import ScriptSandbox.Proofs.Enforce.Verdicts
import ScriptSandbox.Proofs.Walk.Steady

/-!
# Judging again

What judging leaves in a script is kept when it is judged again, against any store that
judging can lead to: nodes that were kept, since nothing that they are judged by has
changed; generated nodes, since they are not judged; closures, since they now import the
runtime; and nodes with another class, if that class has no substitute of its own.
-/

namespace ScriptSandbox

open Judge

namespace Judge

variable {store : Store} {α : Type}

theorem read_returns {result : Except Malformed α} {value : α} (h : result = .ok value) :
    Run.Returns (Reaches store) (read result) value := by
  rw [h]
  exact Run.Returns.pure value

theorem name_returns {role : Role} {name : String} (node : Option Node)
    (h : store.Accepts role name) :
    Run.Returns (Reaches store) (Judge.name role name node) () := by
  intro mid hmid
  have hmidAccepts : mid.check role.category name role.extra = true := by
    rw [hmid.samePolicy.check_eq]
    exact h
  exact ⟨_, hmid.noteCheck _ _ _, exec_name node hmidAccepts⟩

theorem require_returns {feature : Feature} (offence : Offence) (node : Node)
    (h : store.allows feature = true) :
    Run.Returns (Reaches store) (require feature offence node) () := by
  intro mid hmid
  have hallow : mid.allows feature = true := by
    rw [hmid.samePolicy.allows_eq]
    exact h
  exact ⟨mid, hmid, exec_require offence node hallow⟩

end Judge

theorem strict_faithful : Likeness.strict.Faithful where
  normalize_eq h := h.elim
  lower_eq h := h.elim

namespace Enforce

variable {store : Store} {n : Node}

theorem node_keeps_again (hnew : n.generated = false) (hrule : n.kind.rule ≠ .functionDecl) :
    Run.Yields (Reaches store) (node n)
      (fun verdict => verdict = .keep → Run.Returns (Reaches store) (node n) .keep) := by
  intro mid hmid
  refine ⟨(node_yields hnew mid hmid).1, ?_⟩
  rintro verdict hverdict rfl
  intro other hother
  have hpaired := node_paired (L := .strict) Store.pairing_samePolicy strict_faithful
    (fun _ _ h => h) (.refl _ _ n) fun hdecl => absurd hdecl hrule
  have hsame := hmid.samePolicy.symm.trans hother.samePolicy
  have hends := (hpaired mid other hsame).2
  have hafter := (node_yields hnew other hother).1
  rw [hverdict] at hends
  cases hexec : (node n).exec other with
  | mk result after =>
      rw [hexec] at hends hafter
      cases hends with
      | ok hverdicts =>
          cases hverdicts
          exact ⟨after, hafter, rfl⟩

inductive Imports (store : Store) (n : Node) : Verdict → Prop where
  | kept {uses : List Value} (huses : n.fieldItems "uses" = .ok uses)
      (hused : usesVariable store.handle uses = .ok true) : Imports store n .keep
  | imported {uses : List Value} (hallow : store.allows .closures = true)
      (huses : n.fieldItems "uses" = .ok uses)
      (hunused : usesVariable store.handle uses = .ok false) :
      Imports store n (.replace (n.withHandle store.handle uses))

theorem closure_imports (n : Node) : Run.Yields (Reaches store) (closure n) (Imports store n) := by
  refine (require_yields _ _ n).bind fun _ hallow => ?_
  refine (read_yields (n.fieldItems "uses")).bind fun uses huses => ?_
  refine get_yields.bind fun mid hmid => ?_
  rw [hmid.handle_eq]
  refine (read_yields (usesVariable store.handle uses)).bind fun used hused => ?_
  refine Run.Yields.ite (fun hyes => ?_) fun hno => ?_
  · rw [hyes] at hused
    exact Run.Yields.pure (.kept huses hused)
  · rw [Bool.not_eq_true] at hno
    rw [hno] at hused
    exact Run.Yields.pure (.imported hallow huses hused)

@[simp] theorem usesVariable_append (name : String) {uses : List Value}
    (h : usesVariable name uses = .ok false) :
    usesVariable name (uses ++ [.node (Generated.handleUse name)]) = .ok true := by
  induction uses with
  | nil =>
      change (if some name = some name then .ok true else _ : Except Malformed Bool) = _
      rw [if_pos rfl]
  | cons use rest ih =>
      rw [usesVariable] at h
      obtain ⟨var, hvar, h⟩ := bind_eq_ok.mp h
      by_cases hname : var.text? = some name
      · rw [if_pos hname] at h
        cases h
      · rw [if_neg hname] at h
        rw [List.cons_append, usesVariable, hvar]
        change (if var.text? = some name then .ok true else _ : Except Malformed Bool) = _
        rw [if_neg hname]
        exact ih h

theorem closure_returns {uses : List Value} (hallow : store.allows .closures = true)
    (hunused : usesVariable store.handle uses = .ok false) :
    Run.Returns (Reaches store) (closure (n.withHandle store.handle uses)) .keep := by
  have huses : (n.withHandle store.handle uses).fieldItems "uses" =
      .ok (uses ++ [.node (Generated.handleUse store.handle)]) := by
    rw [Node.fieldItems, Node.withHandle, Node.field_setField_self, Value.itemsOrNone]
    cases uses <;> rfl
  apply (require_returns _ _ hallow).bind
  apply (read_returns huses).bind
  apply Run.Returns.get_bind
  intro mid hmid
  rw [hmid.samePolicy.handle_eq]
  exact (read_returns (usesVariable_append store.handle hunused)).bind (Run.Returns.pure Verdict.keep)

def ClassStays (store : Store) (role : Role) (n : Node) : Prop :=
  ∃ written name, (n.field "class").name? = some written ∧ written.nameText = .ok name ∧
    store.substitute? name = none ∧ store.Accepts role name

private theorem resolveClass_returns {written : Node} {name : String}
    (hwritten : (n.field "class").name? = some written) (hname : written.nameText = .ok name)
    (hnone : store.substitute? name = none) :
    Run.Returns (Reaches store) (resolveClass n) (.keep, name) := by
  unfold resolveClass
  rw [hwritten]
  apply (read_returns hname).bind
  apply Run.Returns.get_bind
  intro mid hmid
  rw [hmid.samePolicy.substitute?_eq, hnone]
  exact Run.Returns.pure _

theorem classAccess_returns (h : ClassStays store .classAccess n) :
    Run.Returns (Reaches store) (classAccess n) .keep := by
  obtain ⟨written, name, hwritten, hname, hnone, haccepts⟩ := h
  apply (resolveClass_returns hwritten hname hnone).bind
  exact (name_returns _ haccepts).bind (Run.Returns.pure Verdict.keep)

theorem instantiation_returns (hallow : store.allows .objects = true)
    (hkeyword : store.Accepts .keyword "new") (h : ClassStays store .type n) :
    Run.Returns (Reaches store) (instantiation n) .keep := by
  obtain ⟨written, name, hwritten, hname, hnone, haccepts⟩ := h
  apply (require_returns _ _ hallow).bind
  apply (name_returns _ hkeyword).bind
  apply (resolveClass_returns hwritten hname hnone).bind
  exact (name_returns _ haccepts).bind (Run.Returns.pure Verdict.keep)

theorem classStays_withClass {written : Node} {role : Role} {substitute : String}
    (hnone : store.substitute? substitute = none)
    (h : (n.withClass substitute written).ClassAccepted store role) :
    ClassStays store role (n.withClass substitute written) := by
  obtain ⟨given, hgiven, name, hname, haccepts⟩ := h
  have hfield : (n.withClass substitute written).field "class" =
      .node (Generated.renamed substitute written) := Node.field_setField_self _ _ _
  have hrenamed : given = Generated.renamed substitute written := by
    rw [hfield, Value.name?] at hgiven
    split at hgiven
    · exact (Option.some.inj hgiven).symm
    · cases hgiven
  have hsubstitute : name = substitute := by
    have hspelled : given.nameText = .ok substitute := by
      rw [hrenamed]
      exact Node.nameText_of_parts rfl
    have hboth := hname.symm.trans hspelled
    exact Except.ok.inj hboth
  subst hsubstitute
  exact ⟨given, name, hgiven, hname, hnone, haccepts⟩

end Enforce

end ScriptSandbox
