import ScriptSandbox.Harvest.Trusted
import ScriptSandbox.Proofs.Enforce.Policy
import ScriptSandbox.Proofs.Policy.Frame

/-!
# What becomes of a function declaration

Both when trusted code is harvested and when a script is judged, a function is declared
under a name that is new, or nothing is declared.  `Declares` lists the ways in which
this may end.
-/

namespace ScriptSandbox

/-- The name, in its normal spelling, of the function that the node declares. -/
def Node.functionName? (n : Node) : Option String :=
  if n.kind = .statement .functionDecl then n.declaredName?.map Category.functions.normalize
  else none

@[simp] theorem Node.functionName?_of_kind_ne {n : Node} (h : n.kind ≠ .statement .functionDecl) :
    n.functionName? = none :=
  if_neg h

inductive Declares {α : Type} (admitted : Prop) (taken : String → Prop) (n : Node)
    (store : Store) : Except Refusal α × Store → Prop where
  | declared {name : String} {value : α} {after : Store} (hname : n.declaredName? = some name)
      (hadmitted : admitted) (hnew : ¬ taken name)
      (hafter : after.declared = store.declared ++ [Category.functions.normalize name]) :
      Declares admitted taken n store (.ok value, after)
  | unnamed {value : α} {after : Store} (hname : n.declaredName? = none)
      (hafter : after.declared = store.declared) :
      Declares admitted taken n store (.ok value, after)
  | duplicate {name : String} {violation : Violation} {after : Store}
      (hname : n.declaredName? = some name) (htaken : taken name)
      (hkind : violation.kind = .duplicateFunc) (hafter : after.declared = store.declared) :
      Declares admitted taken n store (.error (.violation violation), after)
  | refused {violation : Violation} {after : Store} (hnot : ¬ admitted)
      (hkind : violation.kind ≠ .duplicateFunc) (hafter : after.declared = store.declared) :
      Declares admitted taken n store (.error (.violation violation), after)

namespace Declares

variable {α β : Type} {admitted : Prop} {taken : String → Prop} {n : Node} {store : Store}
  {result : Except Refusal α × Store}

protected theorem map (h : Declares admitted taken n store result) (make : α → β) :
    Declares admitted taken n store (result.1.map make, result.2) := by
  cases h with
  | declared hname hadmitted hnew hafter => exact .declared hname hadmitted hnew hafter
  | unnamed hname hafter => exact .unnamed hname hafter
  | duplicate hname htaken hkind hafter => exact .duplicate hname htaken hkind hafter
  | refused hnot hkind hafter => exact .refused hnot hkind hafter

theorem declared_eq (h : Declares admitted taken n store result) :
    result.2.declared = store.declared ++
      (if result.1.isOk then n.declaredName?.map Category.functions.normalize
        else none).toList := by
  cases h with
  | declared hname _ _ hafter => simpa [Except.isOk, Except.toBool, hname] using hafter
  | unnamed hname hafter => simpa [hname] using hafter
  | duplicate _ _ _ hafter => simpa [Except.isOk, Except.toBool] using hafter
  | refused _ _ hafter => simpa [Except.isOk, Except.toBool] using hafter

theorem not_taken (h : Declares admitted taken n store result) (hok : result.1.isOk = true)
    {name : String} (hname : n.declaredName? = some name) : ¬ taken name := by
  cases h with
  | declared hdeclared _ hnew _ =>
      cases hname.symm.trans hdeclared
      exact hnew
  | unnamed hnone _ => cases hname.symm.trans hnone
  | duplicate _ _ _ _ => cases hok
  | refused _ _ _ => cases hok

theorem duplicate_iff (h : Declares admitted taken n store result) (hadmitted : admitted)
    {name : String} (hname : n.declaredName? = some name) :
    (∃ violation, result.1 = .error (.violation violation) ∧ violation.kind = .duplicateFunc) ↔
      taken name := by
  cases h with
  | declared hdeclared _ hnew _ =>
      cases hname.symm.trans hdeclared
      simp [hnew]
  | unnamed hnone _ => cases hname.symm.trans hnone
  | duplicate hdeclared htaken hkind _ =>
      cases hname.symm.trans hdeclared
      exact ⟨fun _ => htaken, fun _ => ⟨_, rfl, hkind⟩⟩
  | refused hnot _ _ => exact absurd hadmitted hnot

end Declares

namespace Judge

variable {store mid : Store}

private theorem rejects_declares {admitted : Prop} {taken : String → Prop} {n : Node}
    (offence : Offence)
    (node : Option Node) (context : Option String) (hnot : ¬ admitted)
    (hkind : offence.kind ≠ .duplicateFunc) (hmid : mid.declared = store.declared) :
    Declares admitted taken n store ((reject offence node context : Judge Unit).exec mid) :=
  .refused hnot hkind ((Store.declared_record mid _).trans hmid)

private theorem rejects_duplicate {admitted : Prop} {taken : String → Prop} {n : Node}
    {name : String}
    (offence : Offence) (node : Option Node) (context : Option String)
    (hname : n.declaredName? = some name) (htaken : taken name)
    (hkind : offence.kind = .duplicateFunc) (hmid : mid.declared = store.declared) :
    Declares admitted taken n store ((reject offence node context : Judge Unit).exec mid) :=
  .duplicate hname htaken hkind ((Store.declared_record mid _).trans hmid)

private theorem exec_require_of_not {feature : Feature} (offence : Offence) (node : Node)
    (h : store.allows feature = false) :
    (require feature offence node).exec store =
      (reject offence (some node) none : Judge Unit).exec store := by
  change (if !store.allows feature then _ else _ : Judge Unit).exec store = _
  rw [h]
  rfl

private theorem exec_name_of_not {role : Role} {name : String} (node : Option Node)
    (h : store.check role.category name role.extra = false) :
    (Judge.name role name node).exec store =
      (reject (.invalidName role) node (some name) : Judge Unit).exec
        (store.noteCheck role.category name role.extra) := by
  change (if !store.check role.category name role.extra then _ else _ : Judge Unit).exec
    (store.noteCheck role.category name role.extra) = _
  rw [h]
  rfl

end Judge

namespace TrustedHarvest

theorem function_declares (n : Node) (store : Store) :
    Declares (n.declaredName?.isSome = true) (fun name => store.isDeclared name = true) n store
      ((function n).exec store) := by
  unfold function
  cases hname : n.declaredName? with
  | none => exact .unnamed hname rfl
  | some name =>
      change Declares _ _ n store
        ((if store.isDeclared name then _ else _ : Judge Unit).exec store)
      cases hdeclared : store.isDeclared name with
      | true =>
          exact Judge.rejects_duplicate .redefinedTrustedFunction (some n) (some name) hname
            hdeclared rfl rfl
      | false =>
          refine .declared hname (by simp) (by simp [hdeclared]) ?_
          have hharvest : (harvest .functions name (store.declare name)).declared =
              (store.declare name).declared := by
            unfold harvest
            split
            · rfl
            · exact Store.declared_whitelist _ _ _
          exact hharvest.trans (store.declared_declare hdeclared)

end TrustedHarvest

namespace Enforce

structure AdmitsFunction (store : Store) (n : Node) : Prop where
  allowed : store.allows .functions = true
  keyword : store.Accepts .keyword "function"
  named : n.declaredName?.isSome = true
  reference : (n.field "byRef").truthy = true → store.allows .references = true

def declareNamed (n : Node) (name : String) : Judge Unit := do
  let store ← get
  if store.isOverridden name || store.isDeclared name then
    Judge.reject .redefinedFunction (some n) (some name)
  if (n.field "byRef").truthy && !store.allows .references then
    Judge.reject .returnByReference (some n) none
  Judge.update (·.declare name)

private theorem declareNamed_declares {n : Node} {store noted : Store} {name : String}
    (hallow : store.allows .functions = true) (hkeyword : store.Accepts .keyword "function")
    (hname : n.declaredName? = some name) (hdeclared : noted.declared = store.declared)
    (hpolicy : store.SamePolicy noted) :
    Declares (AdmitsFunction store n)
      (fun name => store.isDeclared name = true ∨ store.isOverridden name = true) n store
      ((declareNamed n name).exec noted) := by
  have hsame : noted.isDeclared name = store.isDeclared name := by
    rw [Store.isDeclared, hdeclared, Store.isDeclared]
  change Declares _ _ n store
    ((if noted.isOverridden name || noted.isDeclared name then _ else _ : Judge Unit).exec noted)
  by_cases htaken : (noted.isOverridden name || noted.isDeclared name) = true
  · rw [if_pos htaken]
    rw [hpolicy.isOverridden_eq, hsame, Bool.or_eq_true] at htaken
    exact Judge.rejects_duplicate .redefinedFunction (some n) (some name) hname htaken.symm rfl
      hdeclared
  · rw [if_neg htaken]
    by_cases hreference : ((n.field "byRef").truthy && !noted.allows .references) = true
    · rw [if_pos hreference]
      rw [hpolicy.allows_eq, Bool.and_eq_true, Bool.not_eq_true'] at hreference
      refine Judge.rejects_declares .returnByReference (some n) none (fun h => ?_) (by decide)
        hdeclared
      exact Bool.false_ne_true (hreference.2.symm.trans (h.reference hreference.1))
    · rw [if_neg hreference]
      rw [hpolicy.allows_eq] at hreference
      rw [hpolicy.isOverridden_eq, hsame, Bool.or_eq_true, not_or] at htaken
      have hadmitted : AdmitsFunction store n :=
        ⟨hallow, hkeyword, by simp [hname], fun hbyRef => by simpa [hbyRef] using hreference⟩
      have hfresh : noted.isDeclared name = false :=
        hsame.trans (Bool.eq_false_iff.mpr htaken.2)
      have hafter : (noted.declare name).declared =
          store.declared ++ [Category.functions.normalize name] := by
        rw [Store.declared_declare noted hfresh, hdeclared]
      exact .declared hname hadmitted (fun h => h.elim htaken.2 htaken.1) hafter

theorem functionDecl_declares (n : Node) (store : Store) :
    Declares (AdmitsFunction store n)
      (fun name => store.isDeclared name = true ∨ store.isOverridden name = true) n store
      ((functionDecl n).exec store) := by
  have hdeclared := store.declared_noteCheck .keywords "function" []
  cases hallow : store.allows .functions with
  | false =>
      rw [functionDecl, Run.exec_bind, Judge.exec_require_of_not _ _ hallow]
      refine Judge.rejects_declares .functionDecl (some n) none (fun h => ?_) (by decide) rfl
      exact Bool.false_ne_true (hallow.symm.trans h.allowed)
  | true =>
      rw [functionDecl, Run.exec_bind, Judge.exec_require _ _ hallow]
      cases hcheck : store.check .keywords "function" [] with
      | false =>
          have hjudged : (keyword "function" n).exec store = _ :=
            Judge.exec_name_of_not (some n) hcheck
          simp only [Run.exec_bind, hjudged]
          refine Judge.rejects_declares (.invalidName .keyword) (some n) (some "function")
            (fun h => ?_) (by decide) hdeclared
          exact Bool.false_ne_true (hcheck.symm.trans h.keyword)
      | true =>
          have hjudged : (keyword "function" n).exec store = _ := Judge.exec_name (some n) hcheck
          simp only [Run.exec_bind, hjudged]
          unfold declaredName
          cases hname : n.declaredName? with
          | none =>
              refine Judge.rejects_declares .unnamedFunction (some n) (some "") (fun h => ?_)
                (by decide) hdeclared
              exact absurd h.named (by simp [hname])
          | some name =>
              exact declareNamed_declares hallow hcheck hname hdeclared
                (store.samePolicy_noteCheck .keywords "function" [])

end Enforce

end ScriptSandbox
