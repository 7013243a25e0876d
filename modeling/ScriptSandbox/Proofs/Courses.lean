import ScriptSandbox.Proofs.Runs

/-!
# Where runs lead

`Run.Leads R E run` relates the state in which a run is started to the one in which it
stops: by `R` if it returns, and by `E cause` if it fails.  Unlike an invariant, this
tells the end of a run that fails from that of one that returns.  There is one rule for
each way in which runs are put together.
-/

namespace ScriptSandbox

namespace Run

variable {σ ε ε' α β : Type}

structure Course (R : σ → σ → Prop) (E : ε → σ → σ → Prop) : Prop where
  refl : ∀ s, R s s
  trans : ∀ {s t u}, R s t → R t u → R s u
  fail : ∀ {cause s t u}, R s t → E cause t u → E cause s u

def Ends (R : σ → σ → Prop) (E : ε → σ → σ → Prop) (s : σ) : Except ε α × σ → Prop
  | (.ok _, t) => R s t
  | (.error cause, t) => E cause s t

def Leads (R : σ → σ → Prop) (E : ε → σ → σ → Prop) (run : Run σ ε α) : Prop :=
  ∀ s, Ends R E s (run.exec s)

namespace Leads

variable {R : σ → σ → Prop} {E : ε → σ → σ → Prop}

theorem reaches {S : σ → σ → Prop} {run : Run σ ε α} (h : Leads R E run)
    (hok : ∀ {s t}, R s t → S s t) (herror : ∀ {cause s t}, E cause s t → S s t) (s : σ) :
    S s (run.exec s).2 := by
  have hends := h s
  cases hexec : run.exec s with
  | mk result t =>
      rw [hexec] at hends
      cases result with
      | ok value => exact hok hends
      | error cause => exact herror hends

theorem ok {run : Run σ ε α} (h : Leads R E run) {s t : σ} {value : α}
    (hrun : run.exec s = (.ok value, t)) : R s t := by
  have hends := h s
  rw [hrun] at hends
  exact hends

theorem error {run : Run σ ε α} (h : Leads R E run) {s t : σ} {cause : ε}
    (hrun : run.exec s = (.error cause, t)) : E cause s t := by
  have hends := h s
  rw [hrun] at hends
  exact hends

theorem mono {R' : σ → σ → Prop} {F : ε → σ → σ → Prop} {run : Run σ ε α} (h : Leads R E run)
    (hok : ∀ {s t}, R s t → R' s t) (herror : ∀ {cause s t}, E cause s t → F cause s t) :
    Leads R' F run := by
  intro s
  have hends := h s
  cases hexec : run.exec s with
  | mk result t =>
      rw [hexec] at hends
      cases result with
      | ok value => exact hok hends
      | error cause => exact herror hends

protected theorem pure (h : Course R E) (value : α) : Leads R E (pure value) :=
  fun s => h.refl s

protected theorem throw {cause : ε} (h : ∀ s, E cause s s) : Leads R E (throw cause : Run σ ε α) :=
  fun s => h s

protected theorem bind (h : Course R E) {run : Run σ ε α} {next : α → Run σ ε β}
    (hrun : Leads R E run) (hnext : ∀ value, Leads R E (next value)) :
    Leads R E (run >>= next) := by
  intro s
  have hfirst := hrun s
  rw [exec_bind]
  cases hexec : run.exec s with
  | mk result t =>
      rw [hexec] at hfirst
      cases result with
      | error cause => exact hfirst
      | ok value =>
          have hsecond := hnext value t
          cases hrest : (next value).exec t with
          | mk result u =>
              simp only [hrest] at hsecond ⊢
              cases result with
              | ok other => exact h.trans hfirst hsecond
              | error cause => exact h.fail hfirst hsecond

protected theorem ite {c : Prop} [Decidable c] {run other : Run σ ε α}
    (hthen : c → Leads R E run) (helse : ¬ c → Leads R E other) :
    Leads R E (if c then run else other) := by
  by_cases hc : c
  · rw [if_pos hc]
    exact hthen hc
  · rw [if_neg hc]
    exact helse hc

theorem get_bind {next : σ → Run σ ε β} (h : ∀ state, Leads R E (next state)) :
    Leads R E (get >>= next) :=
  fun s => h s s

protected theorem modify {change : σ → σ} (h : ∀ s, R s (change s)) :
    Leads R E (modify change : Run σ ε PUnit) :=
  fun s => h s

theorem ofExcept (h : Course R E) {view : ε' → ε} (hview : ∀ cause s, E (view cause) s s)
    (result : Except ε' α) : Leads R E (ofExcept view result) := by
  cases result with
  | ok value => exact Leads.pure h value
  | error cause => exact Leads.throw (hview cause)

theorem forM (h : Course R E) {ι : Type} {step : ι → Run σ ε PUnit}
    (hstep : ∀ item, Leads R E (step item)) (items : List ι) : Leads R E (items.forM step) := by
  induction items with
  | nil => exact Leads.pure h PUnit.unit
  | cons first rest ih =>
      change Leads R E (step first >>= fun _ => rest.forM step)
      exact Leads.bind h (hstep first) fun _ => ih

theorem tryCatch {S : σ → σ → Prop} (htrans : ∀ {s t u}, S s t → S t u → S s u)
    {run : Run σ ε α} {handler : ε → Run σ ε α} (hrun : Leads S (fun _ => S) run)
    (hhandler : ∀ cause, Leads S (fun _ => S) (handler cause)) :
    Leads S (fun _ => S) (tryCatch run handler) := by
  intro s
  have hfirst := hrun s
  rw [exec_tryCatch]
  cases hexec : run.exec s with
  | mk result t =>
      rw [hexec] at hfirst
      cases result with
      | ok value => exact hfirst
      | error cause =>
          have hsecond := hhandler cause t
          cases hrest : (handler cause).exec t with
          | mk result u =>
              simp only [hrest] at hsecond ⊢
              cases result with
              | ok value => exact htrans hfirst hsecond
              | error other => exact htrans hfirst hsecond

end Leads

end Run

end ScriptSandbox
