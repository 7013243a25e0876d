import Mathlib.Data.List.Forall2
import ScriptSandbox.Proofs.Runs

/-!
# Two runs side by side

`Run.Paired I E run other Q` compares two runs, started in states that the relation `I`
allows.  Where they stop, also when they fail, `I` holds again; and either both return,
results that `Q` relates, or both fail, for causes that `E` relates.  There is one rule
for each way in which runs are put together, as there is for `Run.Yields`.
-/

namespace ScriptSandbox

/-- Both results are values, or both are failures. -/
inductive EndsAlike {ε α β : Type} (E : ε → ε → Prop) (Q : α → β → Prop) :
    Except ε α → Except ε β → Prop where
  | ok {value : α} {other : β} (h : Q value other) : EndsAlike E Q (.ok value) (.ok other)
  | error {cause other : ε} (h : E cause other) : EndsAlike E Q (.error cause) (.error other)

namespace EndsAlike

variable {ε α β γ δ : Type} {E : ε → ε → Prop} {Q : α → β → Prop} {R : γ → δ → Prop}

theorem mono {Q' : α → β → Prop} {result : Except ε α} {other : Except ε β}
    (h : EndsAlike E Q result other) (himp : ∀ a b, Q a b → Q' a b) :
    EndsAlike E Q' result other := by
  cases h with
  | ok hvalue => exact .ok (himp _ _ hvalue)
  | error hcause => exact .error hcause

theorem bind {result : Except ε α} {other : Except ε β} {next : α → Except ε γ}
    {next' : β → Except ε δ} (h : EndsAlike E Q result other)
    (hnext : ∀ a b, Q a b → EndsAlike E R (next a) (next' b)) :
    EndsAlike E R (result >>= next) (other >>= next') := by
  cases h with
  | ok hvalue => exact hnext _ _ hvalue
  | error hcause => exact .error hcause

theorem bind_eq {result : Except ε α} {other : Except ε β} {next : α → Except ε γ}
    {next' : β → Except ε γ} (h : EndsAlike (· = ·) Q result other)
    (hnext : ∀ a b, Q a b → next' b = next a) : other >>= next' = result >>= next := by
  cases h with
  | ok hvalue => exact hnext _ _ hvalue
  | error hcause => rw [hcause]; rfl

theorem mapError {ε' : Type} {E' : ε' → ε' → Prop} {view : ε → ε'} {result : Except ε α}
    {other : Except ε β} (h : EndsAlike E Q result other)
    (hview : ∀ c d, E c d → E' (view c) (view d)) :
    EndsAlike E' Q (result.mapError view) (other.mapError view) := by
  cases h with
  | ok hvalue => exact .ok hvalue
  | error hcause => exact .error (hview _ _ hcause)

theorem of_eq {result other : Except ε α} (h : other = result) :
    EndsAlike (· = ·) (· = ·) result other := by
  subst h
  cases other with
  | ok value => exact .ok rfl
  | error cause => exact .error rfl

theorem mapM_eq {step : α → Except ε γ} {step' : β → Except ε γ} {items : List α}
    {others : List β} (hitems : List.Forall₂ Q items others)
    (hstep : ∀ a b, Q a b → step' b = step a) : others.mapM step' = items.mapM step := by
  induction hitems with
  | nil => rfl
  | cons hfirst _ ih => rw [List.mapM_cons, List.mapM_cons, ih, hstep _ _ hfirst]

end EndsAlike

namespace Run

variable {σ ε ε' α β γ δ : Type}

/-- From related states both runs end alike, in related states. -/
def Paired (I : σ → σ → Prop) (E : ε → ε → Prop) (run : Run σ ε α) (other : Run σ ε β)
    (Q : α → β → Prop) : Prop :=
  ∀ s t, I s t →
    I (run.exec s).2 (other.exec t).2 ∧ EndsAlike E Q (run.exec s).1 (other.exec t).1

namespace Paired

variable {I : σ → σ → Prop} {E : ε → ε → Prop} {E' : ε' → ε' → Prop} {Q : α → β → Prop}
  {R : γ → δ → Prop}

theorem mono {Q' : α → β → Prop} {run : Run σ ε α} {other : Run σ ε β}
    (h : Paired I E run other Q) (himp : ∀ a b, Q a b → Q' a b) : Paired I E run other Q' := by
  intro s t hst
  obtain ⟨hkeep, hends⟩ := h s t hst
  exact ⟨hkeep, hends.mono himp⟩

protected theorem pure {value : α} {other : β} (h : Q value other) :
    Paired I E (pure value) (pure other) Q :=
  fun _ _ hst => ⟨hst, .ok h⟩

protected theorem throw {cause other : ε} (h : E cause other) :
    Paired I E (throw cause : Run σ ε α) (throw other : Run σ ε β) Q :=
  fun _ _ hst => ⟨hst, .error h⟩

protected theorem bind {run : Run σ ε α} {other : Run σ ε β} {next : α → Run σ ε γ}
    {next' : β → Run σ ε δ} (hrun : Paired I E run other Q)
    (hnext : ∀ a b, Q a b → Paired I E (next a) (next' b) R) :
    Paired I E (run >>= next) (other >>= next') R := by
  intro s t hst
  obtain ⟨hkeep, hends⟩ := hrun s t hst
  rw [exec_bind, exec_bind]
  cases hs : run.exec s with
  | mk result mid =>
      cases ht : other.exec t with
      | mk result' mid' =>
          rw [hs, ht] at hkeep hends
          cases hends with
          | ok hvalue => exact hnext _ _ hvalue mid mid' hkeep
          | error hcause => exact ⟨hkeep, .error hcause⟩

protected theorem ite {c d : Prop} [Decidable c] [Decidable d] {run other : Run σ ε α}
    {run' other' : Run σ ε β} (hcond : c ↔ d) (hthen : c → Paired I E run run' Q)
    (helse : ¬ c → Paired I E other other' Q) :
    Paired I E (if c then run else other) (if d then run' else other') Q := by
  by_cases h : c
  · rw [if_pos h, if_pos (hcond.mp h)]
    exact hthen h
  · rw [if_neg h, if_neg (mt hcond.mpr h)]
    exact helse h

protected theorem get : Paired I E (get : Run σ ε σ) (get : Run σ ε σ) I :=
  fun _ _ hst => ⟨hst, .ok hst⟩

protected theorem modify {change change' : σ → σ}
    (h : ∀ s t, I s t → I (change s) (change' t)) :
    Paired I E (modify change : Run σ ε PUnit) (modify change' : Run σ ε PUnit) fun _ _ => True :=
  fun s t hst => ⟨h s t hst, .ok trivial⟩

theorem adapt {run : Run σ ε α} {other : Run σ ε β} (h : Paired I E run other Q)
    {view : ε → ε'} (hview : ∀ c d, E c d → E' (view c) (view d)) :
    Paired I E' (run.adapt view) (other.adapt view) Q := by
  intro s t hst
  obtain ⟨hkeep, hends⟩ := h s t hst
  rw [exec_adapt, exec_adapt]
  exact ⟨hkeep, hends.mapError hview⟩

theorem ofExcept {view : ε' → ε} {result : Except ε' α} {other : Except ε' β}
    (h : EndsAlike E' Q result other) (hview : ∀ c d, E' c d → E (view c) (view d)) :
    Paired I E (ofExcept view result) (ofExcept view other) Q := by
  cases h with
  | ok hvalue => exact Paired.pure hvalue
  | error hcause => exact Paired.throw (hview _ _ hcause)

protected theorem tryCatch {F : ε → ε → Prop} {run : Run σ ε α} {other : Run σ ε β}
    {handler : ε → Run σ ε α} {handler' : ε → Run σ ε β} (hrun : Paired I E run other Q)
    (hhandler : ∀ c d, E c d → Paired I F (handler c) (handler' d) Q) :
    Paired I F (tryCatch run handler) (tryCatch other handler') Q := by
  intro s t hst
  obtain ⟨hkeep, hends⟩ := hrun s t hst
  rw [exec_tryCatch, exec_tryCatch]
  cases hs : run.exec s with
  | mk result mid =>
      cases ht : other.exec t with
      | mk result' mid' =>
          rw [hs, ht] at hkeep hends
          cases hends with
          | ok hvalue => exact ⟨hkeep, .ok hvalue⟩
          | error hcause => exact hhandler _ _ hcause mid mid' hkeep

theorem forM {ι κ : Type} {P : ι → κ → Prop} {step : ι → Run σ ε PUnit}
    {step' : κ → Run σ ε PUnit} {items : List ι} {others : List κ}
    (hitems : List.Forall₂ P items others)
    (hstep : ∀ a b, P a b → Paired I E (step a) (step' b) fun _ _ => True) :
    Paired I E (items.forM step) (others.forM step') fun _ _ => True := by
  induction hitems with
  | nil => exact Paired.pure trivial
  | @cons first first' rest rest' hfirst _ ih =>
      change Paired I E (step first >>= fun _ => rest.forM step)
        (step' first' >>= fun _ => rest'.forM step') _
      apply (hstep first first' hfirst).bind
      intro _ _ _
      exact ih

end Paired

end Run

end ScriptSandbox
