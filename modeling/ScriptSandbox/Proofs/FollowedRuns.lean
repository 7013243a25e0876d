import ScriptSandbox.Proofs.Runs

/-!
# Runs that return whenever another one does

`Run.Follows I run other` says of two runs, started in states that the relation `I`
allows, that the second one returns whatever the first one returns, in states that `I`
allows again.  It asks nothing where the first run fails.  There is one rule for each way
in which runs are put together, as there is for `Run.Yields` and `Run.Paired`.
-/

namespace ScriptSandbox

namespace Run

variable {σ ε ε' α β : Type}

/-- What the first run returns, the second one returns too. -/
def Follows (I : σ → σ → Prop) (run other : Run σ ε α) : Prop :=
  ∀ s t, I s t → ∀ value after, run.exec s = (.ok value, after) →
    ∃ after', other.exec t = (.ok value, after') ∧ I after after'

namespace Follows

variable {I : σ → σ → Prop}

protected theorem pure (value : α) :
    Follows I (pure value : Run σ ε α) (pure value) := by
  intro s t hst result after hrun
  cases hrun
  exact ⟨t, rfl, hst⟩

theorem of_fails {run : Run σ ε α} (h : ∀ state, ¬ run.Passes state) (other : Run σ ε α) :
    Follows I run other := by
  intro s t _ value after hrun
  have hpasses : run.Passes s := by
    rw [Passes, hrun]
    rfl
  exact absurd hpasses (h s)

protected theorem bind {run other : Run σ ε α} {next next' : α → Run σ ε β}
    (hrun : Follows I run other) (hnext : ∀ value, Follows I (next value) (next' value)) :
    Follows I (run >>= next) (other >>= next') := by
  intro s t hst result after hexec
  rw [exec_bind] at hexec
  cases hfirst : run.exec s with
  | mk outcome mid =>
      rw [hfirst] at hexec
      cases outcome with
      | error cause => cases hexec
      | ok value =>
          obtain ⟨mid', hother, hmid⟩ := hrun s t hst value mid hfirst
          obtain ⟨after', hrest, hafter⟩ := hnext value mid mid' hmid result after hexec
          refine ⟨after', ?_, hafter⟩
          rw [exec_bind, hother]
          exact hrest

theorem get_bind {next next' : σ → Run σ ε β}
    (h : ∀ s t, I s t → Follows I (next s) (next' t)) :
    Follows I (get >>= next) (get >>= next') :=
  fun s t hst => h s t hst s t hst

protected theorem ite {c d : Prop} [Decidable c] [Decidable d] {run run' other other' : Run σ ε α}
    (hcond : c ↔ d) (hthen : c → Follows I run run') (helse : ¬ c → Follows I other other') :
    Follows I (if c then run else other) (if d then run' else other') := by
  by_cases h : c
  · rw [if_pos h, if_pos (hcond.mp h)]
    exact hthen h
  · rw [if_neg h, if_neg (mt hcond.mpr h)]
    exact helse h

theorem refuse {c d : Prop} [Decidable c] [Decidable d] {refusal refusal' run other : Run σ ε α}
    (hrefusal : ∀ state, ¬ refusal.Passes state) (hcond : d → c) (hrun : Follows I run other) :
    Follows I (if c then refusal else run) (if d then refusal' else other) := by
  by_cases h : c
  · rw [if_pos h]
    exact .of_fails hrefusal _
  · rw [if_neg h, if_neg (mt hcond h)]
    exact hrun

protected theorem modify {change change' : σ → σ} (h : ∀ s t, I s t → I (change s) (change' t)) :
    Follows I (modify change : Run σ ε PUnit) (modify change') := by
  intro s t hst value after hrun
  cases hrun
  exact ⟨change' t, rfl, h s t hst⟩

theorem ofExcept (view : ε' → ε) (result : Except ε' α) :
    Follows I (ofExcept view result) (ofExcept view result) := by
  cases result with
  | ok value => exact Follows.pure value
  | error cause => exact .of_fails (fun _ h => by cases h) _

theorem forM {ι : Type} {step step' : ι → Run σ ε PUnit}
    (h : ∀ item, Follows I (step item) (step' item)) (items : List ι) :
    Follows I (items.forM step) (items.forM step') := by
  induction items with
  | nil => exact Follows.pure PUnit.unit
  | cons first rest ih =>
      change Follows I (step first >>= fun _ => rest.forM step)
        (step' first >>= fun _ => rest.forM step')
      exact (h first).bind fun _ => ih

end Follows

end Run

end ScriptSandbox
