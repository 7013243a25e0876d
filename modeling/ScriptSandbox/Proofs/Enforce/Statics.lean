import ScriptSandbox.Proofs.Enforce.Judged
import ScriptSandbox.Proofs.Gate.Handle

/-!
# Names of static variables

A static variable without a name of its own is judged by the name that it reads from its
variable, after the variable has been judged.  A superglobal that is intercepted has by then
given way to a call on the runtime, and the name read is that of the method.
-/

namespace ScriptSandbox

open Judge

/-- A static variable that is given by a variable with a plain name. -/
structure Node.DeclaresStatic (n : Node) (name : String) : Prop where
  kind : n.kind = .statement .staticVar
  unnamed : n.field "name" = .null
  named : ∃ inner, n.field "var" = .node inner ∧ inner.kind = .expression .variableRef ∧
    inner.field "name" = .str name

namespace Store

/-- A reference to the variable becomes a call on the runtime. -/
def InterceptsVariable (store : Store) (name : String) : Prop :=
  name ∈ superglobals ∧ store.flag (.overwrite .superglobals) = true

instance (store : Store) (name : String) : Decidable (store.InterceptsVariable name) :=
  inferInstanceAs (Decidable (_ ∧ _))

/-- The name that is read where a reference to the variable was. -/
def seenName (store : Store) (name : String) : String :=
  if store.InterceptsVariable name then superglobalMethod else name

theorem seenName_eq_iff {store : Store} {name : String} :
    store.seenName name = name ↔ ¬ store.InterceptsVariable name := by
  rw [seenName]
  split
  case isTrue hintercepts =>
    have hne : superglobalMethod ≠ name := by
      rintro rfl
      exact absurd hintercepts.1 (by decide)
    exact ⟨fun h => absurd h hne, fun h => absurd hintercepts h⟩
  case isFalse hseen => exact ⟨fun _ => hseen, fun _ => rfl⟩

/-- The variable may be referred to, as far as the runtime and superglobals go. -/
structure AdmitsVariable (store : Store) (name : String) : Prop where
  free : name ≠ store.handle
  superglobal : name ∈ superglobals → store.Accepts .superglobal name

end Store

variable {store : Store} {n source placed : Node} {name : String} {verdict : Verdict}

theorem Outcome.seenName (h : Outcome store n verdict) (hkind : n.kind = .expression .variableRef)
    (hname : n.field "name" = .str name) (hplaced : verdict.held? n = some placed) :
    placed.field "name" = .str (store.seenName name) ∧
      (name ∈ superglobals → store.Accepts .superglobal name) := by
  have hrule : n.kind.rule = .variableRef := by
    rw [hkind]
    rfl
  cases h with
  | kept hmeets =>
      cases hplaced
      rw [Node.Meets, hrule] at hmeets
      obtain ⟨other, hother, _, haccepts⟩ := hmeets
      cases hname.symm.trans hother
      by_cases hsuper : name ∈ superglobals
      · rw [if_pos hsuper] at haccepts
        have hseen : ¬ store.InterceptsVariable name :=
          fun h => Bool.false_ne_true (haccepts.2.symm.trans h.2)
        exact ⟨by rw [Store.seenName_eq_iff.mpr hseen, hname], fun _ => haccepts.1⟩
      · have hseen : ¬ store.InterceptsVariable name := fun h => hsuper h.1
        exact ⟨by rw [Store.seenName_eq_iff.mpr hseen, hname], fun h => absurd h hsuper⟩
  | called hcall =>
      cases hplaced
      cases hcall with
      | superglobal _ hother hsuper haccepts hflag =>
          cases hname.symm.trans hother
          have hseen : store.InterceptsVariable name := ⟨hsuper, hflag⟩
          refine ⟨?_, fun _ => haccepts⟩
          rw [Store.seenName, if_pos hseen]
          rfl
      | _ => simp_all
  | guarded hother => simp [hrule] at hother
  | imported hother => simp [hrule] at hother
  | substituted hother => simp [hrule] at hother
  | flattened hother => simp [hrule] at hother
  | dropped hother => simp [hrule] at hother

namespace Enforce

theorem Judged.seenName (h : Judged store n verdict) (hkind : n.kind = .expression .variableRef)
    (hname : n.field "name" = .str name) (hplaced : verdict.held? n = some placed) :
    placed.field "name" = .str (store.seenName name) ∧ store.AdmitsVariable name := by
  obtain ⟨hseen, hsuper⟩ := h.outcome.seenName hkind hname hplaced
  refine ⟨hseen, ?_, hsuper⟩
  rintro rfl
  obtain ⟨mid, after, hmid, hexec⟩ := h.exec
  rw [← hmid.samePolicy.handle_eq] at hname
  have hleave : visitor.leave n = variableRef n := by
    change node n = _
    rw [node, h.new, if_neg Bool.false_ne_true, hkind]
    rfl
  rw [hleave] at hexec
  exact variableRef_refuses hname verdict (congrArg Prod.fst hexec)

private theorem staticName_of_walked (h : source.DeclaresStatic name)
    (hwalked : source.Walked (Judged store) n) :
    staticName n = .str (store.seenName name) ∧ store.AdmitsVariable name := by
  obtain ⟨written, hvar, hkind, hname⟩ := h.named
  have hfield := hwalked.field "var"
  rw [hvar] at hfield
  generalize hleft : n.field "var" = left at hfield
  cases hfield with
  | @node _ inner placed verdict hinside hverdict hplaced =>
      have houtline := hinside.sameOutline
      obtain ⟨hseen, hadmits⟩ := hverdict.seenName (houtline.kind.trans hkind)
        ((houtline.scalar _ _).mpr hname) hplaced
      have hunnamed : n.field "name" = .null :=
        (hwalked.sameOutline.scalar _ _).mpr h.unnamed
      refine ⟨?_, hadmits⟩
      rw [staticName, hunnamed, hleft]
      exact hseen

theorem exec_staticVar (hnew : n.generated = false) (hkind : n.kind = .statement .staticVar)
    (hallow : store.allows .staticVariables = true) (hname : staticName n = .str name)
    (haccepts : store.Accepts .variableRef name) :
    (visitor.leave n).exec store = (.ok .keep, store.noteCheck .variables name []) := by
  have hpass : (staticVar n).exec store = (.ok (), store.noteCheck .variables name []) := by
    rw [staticVar, Run.exec_bind, Judge.exec_require _ n hallow, hname]
    exact Judge.exec_name (some n) haccepts
  change (node n).exec store = _
  rw [node, hnew, if_neg Bool.false_ne_true, hkind]
  change (keeping (staticVar n)).exec store = _
  rw [keeping, Run.exec_bind, hpass]
  rfl

theorem static_of_decided (h : source.DeclaresStatic name)
    (hdecided : source.Decided (Judged store)) :
    store.allows .staticVariables = true ∧ store.Accepts .variableRef (store.seenName name) ∧
      store.AdmitsVariable name := by
  obtain ⟨n, verdict, hwalked, hjudged⟩ := hdecided
  have hrule : n.kind.rule = .staticVar := by
    rw [hwalked.sameOutline.kind, h.kind]
    rfl
  obtain ⟨hname, hadmits⟩ := staticName_of_walked h hwalked
  cases hjudged.outcome with
  | kept hmeets =>
      rw [Node.Meets, hrule] at hmeets
      obtain ⟨hallow, other, hother, haccepts⟩ := hmeets
      cases hname.symm.trans hother
      exact ⟨hallow, haccepts, hadmits⟩
  | called hcall => cases hcall <;> simp_all
  | guarded hother => simp [hrule] at hother
  | imported hother => simp [hrule] at hother
  | substituted hother => simp [hrule] at hother
  | flattened hother => simp [hrule] at hother
  | dropped hother => simp [hrule] at hother

theorem exec_static_of_leaves (h : source.DeclaresStatic name)
    (hnew : ∀ m ∈ source.visited, m.generated = false)
    (hallow : store.allows .staticVariables = true)
    (haccepts : store.Accepts .variableRef (store.seenName name))
    (hleaves : Walk.Leaves visitor (Reaches store) source n) {mid : Store}
    (hmid : Reaches store mid) :
    (visitor.leave n).exec mid = (.ok .keep, mid.noteCheck .variables (store.seenName name) []) := by
  obtain ⟨hself, hinner⟩ := Node.forall_mem_visited.mp hnew
  have hwalked := walked_of_leaves hinner hleaves
  have houtline := hwalked.sameOutline
  have hpolicy := hmid.samePolicy
  refine exec_staticVar (houtline.generated.trans hself) (houtline.kind.trans h.kind)
    ((hpolicy.allows_eq _).trans hallow) (staticName_of_walked h hwalked).1 ?_
  exact (hpolicy.check_eq _ _ _).trans haccepts

end Enforce

end ScriptSandbox
