import ScriptSandbox.Run

/-!
# What runs keep and what they return

`Run.Yields I run Q` says of a run, started where the invariant `I` holds, that
`I` holds where it stops, also when it fails, and that whatever it returns has the
property `Q`.  The lemmas below follow the way in which runs are put together, so a
program is judged step by step and never unfolded as a whole.
-/

namespace ScriptSandbox

@[simp]
theorem bind_eq_ok {ε α β : Type} {result : Except ε α} {next : α → Except ε β} {value : β} :
    result >>= next = .ok value ↔ ∃ mid, result = .ok mid ∧ next mid = .ok value := by
  cases result with
  | ok mid => exact ⟨fun h => ⟨mid, rfl, h⟩, fun ⟨_, hmid, h⟩ => by cases hmid; exact h⟩
  | error cause => exact ⟨fun h => (by cases h), fun ⟨_, hmid, _⟩ => by cases hmid⟩

@[simp] theorem mapError_eq_ok {ε ε' α : Type} {view : ε → ε'} {result : Except ε α} {value : α} :
    result.mapError view = .ok value ↔ result = .ok value := by
  cases result with
  | ok other => exact ⟨fun h => (by cases h; rfl), fun h => (by cases h; rfl)⟩
  | error cause => exact ⟨fun h => (by cases h), fun h => (by cases h)⟩

theorem exists_of_isOk {ε α σ : Type} {result : Except ε α × σ}
    (h : result.1.isOk = true) : ∃ value after, result = (.ok value, after) := by
  obtain ⟨outcome, after⟩ := result
  cases outcome with
  | ok value => exact ⟨value, after, rfl⟩
  | error cause => cases h

theorem mem_of_mapM_eq_ok {ε α β : Type} {step : α → Except ε β} {items : List α}
    {results : List β} (h : items.mapM step = .ok results) {result : β}
    (hresult : result ∈ results) : ∃ item ∈ items, step item = .ok result := by
  induction items generalizing results with
  | nil =>
      cases h
      cases hresult
  | cons first rest ih =>
      rw [List.mapM_cons] at h
      obtain ⟨head, hhead, h⟩ := bind_eq_ok.mp h
      obtain ⟨tail, htail, h⟩ := bind_eq_ok.mp h
      cases h
      rcases List.mem_cons.mp hresult with rfl | hresult
      · exact ⟨first, List.mem_cons_self, hhead⟩
      · obtain ⟨item, hitem, hstep⟩ := ih htail hresult
        exact ⟨item, List.mem_cons_of_mem first hitem, hstep⟩

namespace Run

variable {σ ε ε' α β : Type}

@[simp] theorem exec_pure (value : α) (state : σ) :
    (pure value : Run σ ε α).exec state = (.ok value, state) := rfl

@[simp] theorem exec_throw (cause : ε) (state : σ) :
    (throw cause : Run σ ε α).exec state = (.error cause, state) := rfl

@[simp] theorem exec_bind (run : Run σ ε α) (next : α → Run σ ε β) (state : σ) :
    (run >>= next).exec state =
      match run.exec state with
      | (.ok value, mid) => (next value).exec mid
      | (.error cause, mid) => (.error cause, mid) := by
  change ExceptT.bindCont next (run.exec state).1 (run.exec state).2 = _
  obtain ⟨outcome, mid⟩ := run.exec state
  cases outcome with
  | ok value => rfl
  | error cause => rfl

@[simp]
theorem exec_bind_eq_ok {run : Run σ ε α} {next : α → Run σ ε β} {state after : σ} {result : β} :
    (run >>= next).exec state = (.ok result, after) ↔
      ∃ value mid, run.exec state = (.ok value, mid) ∧ (next value).exec mid = (.ok result, after) := by
  rw [exec_bind]
  obtain ⟨outcome, mid⟩ := run.exec state
  cases outcome with
  | ok value =>
      exact ⟨fun h => ⟨value, mid, rfl, h⟩, fun ⟨_, _, hrun, h⟩ => (by cases hrun; exact h)⟩
  | error cause => exact ⟨fun h => (by cases h), fun ⟨_, _, hrun, _⟩ => (by cases hrun)⟩

theorem exec_bind_pure (run : Run σ ε α) (make : α → β) (state : σ) :
    (run >>= fun value => pure (make value)).exec state =
      ((run.exec state).1.map make, (run.exec state).2) := by
  rw [exec_bind]
  obtain ⟨outcome, mid⟩ := run.exec state
  cases outcome with
  | ok value => rfl
  | error cause => rfl

@[simp] theorem exec_adapt (view : ε → ε') (run : Run σ ε α) (state : σ) :
    (run.adapt view).exec state =
      ((run.exec state).1.mapError view, (run.exec state).2) := rfl

@[simp] theorem exec_tryCatch (run : Run σ ε α) (handler : ε → Run σ ε α) (state : σ) :
    (tryCatch run handler).exec state =
      match run.exec state with
      | (.ok value, mid) => (.ok value, mid)
      | (.error cause, mid) => (handler cause).exec mid := by
  change ExceptT.tryCatch run handler state = _
  unfold ExceptT.tryCatch ExceptT.mk exec ExceptT.run
  simp only [bind, StateT.bind]
  obtain ⟨outcome, mid⟩ := run state
  cases outcome with
  | ok value => rfl
  | error cause => rfl

/-- The invariant is kept, and what is returned has the property. -/
def Yields (I : σ → Prop) (run : Run σ ε α) (Q : α → Prop) : Prop :=
  ∀ state, I state →
    I (run.exec state).2 ∧ ∀ value, (run.exec state).1 = .ok value → Q value

namespace Yields

variable {I : σ → Prop} {Q R : α → Prop}

theorem ok {run : Run σ ε α} (h : Yields I run Q) {state after : σ} {value : α}
    (hstate : I state) (hrun : run.exec state = (.ok value, after)) :
    I after ∧ Q value := by
  obtain ⟨hkeep, hvalue⟩ := h state hstate
  rw [hrun] at hkeep hvalue
  exact ⟨hkeep, hvalue value rfl⟩

theorem mono {run : Run σ ε α} (h : Yields I run Q) (himp : ∀ value, Q value → R value) :
    Yields I run R :=
  fun state hstate =>
    ⟨(h state hstate).1, fun value hvalue => himp value ((h state hstate).2 value hvalue)⟩

protected theorem and {run : Run σ ε α} (h : Yields I run Q) (h' : Yields I run R) :
    Yields I run fun value => Q value ∧ R value :=
  fun state hstate =>
    ⟨(h state hstate).1, fun value hvalue =>
      ⟨(h state hstate).2 value hvalue, (h' state hstate).2 value hvalue⟩⟩

protected theorem pure {value : α} (h : Q value) : Yields I (pure value : Run σ ε α) Q := by
  intro state hstate
  refine ⟨hstate, fun other hother => ?_⟩
  rw [exec_pure] at hother
  cases hother
  exact h

theorem and_of_any {run : Run σ ε α} (h : Yields I run Q) (h' : Yields (fun _ => True) run R) :
    Yields I run fun value => Q value ∧ R value :=
  fun state hstate =>
    ⟨(h state hstate).1, fun value hvalue =>
      ⟨(h state hstate).2 value hvalue, (h' state trivial).2 value hvalue⟩⟩

protected theorem any (run : Run σ ε α) : Yields (fun _ => True) run (fun _ => True) :=
  fun _ _ => ⟨trivial, fun _ _ => trivial⟩

protected theorem throw (cause : ε) : Yields I (throw cause : Run σ ε α) Q := by
  intro state hstate
  exact ⟨hstate, fun other hother => by rw [exec_throw] at hother; cases hother⟩

protected theorem bind {run : Run σ ε α} {next : α → Run σ ε β} {R : β → Prop}
    (hrun : Yields I run Q) (hnext : ∀ value, Q value → Yields I (next value) R) :
    Yields I (run >>= next) R := by
  intro state hstate
  obtain ⟨hkeep, hvalue⟩ := hrun state hstate
  cases hexec : run.exec state with
  | mk outcome mid =>
      rw [hexec] at hkeep hvalue
      rw [exec_bind, hexec]
      cases outcome with
      | ok value => exact hnext value (hvalue value rfl) mid hkeep
      | error cause => exact ⟨hkeep, fun _ h => by cases h⟩

protected theorem ite {c : Prop} [Decidable c] {run other : Run σ ε α}
    (hthen : c → Yields I run Q) (helse : ¬ c → Yields I other Q) :
    Yields I (if c then run else other) Q := by
  by_cases h : c
  · rw [if_pos h]
    exact hthen h
  · rw [if_neg h]
    exact helse h

protected theorem get : Yields I (get : Run σ ε σ) I := by
  intro state hstate
  refine ⟨hstate, fun other hother => ?_⟩
  cases hother
  exact hstate

protected theorem modify {change : σ → σ} (h : ∀ state, I state → I (change state)) :
    Yields I (modify change : Run σ ε PUnit) (fun _ => True) :=
  fun state hstate => ⟨h state hstate, fun _ _ => trivial⟩

theorem adapt {run : Run σ ε α} (h : Yields I run Q) (view : ε → ε') :
    Yields I (run.adapt view) Q := by
  intro state hstate
  rw [exec_adapt]
  refine ⟨(h state hstate).1, fun value hvalue => (h state hstate).2 value ?_⟩
  cases hexec : (run.exec state).1 with
  | ok other =>
      rw [hexec] at hvalue
      cases hvalue
      rfl
  | error cause =>
      rw [hexec] at hvalue
      cases hvalue

theorem ofExcept (view : ε' → ε) (result : Except ε' α) :
    Yields I (ofExcept view result) (fun value => result = .ok value) := by
  cases result with
  | ok value => exact Yields.pure rfl
  | error cause => exact Yields.throw (view cause)

theorem forM {ι : Type} {step : ι → Run σ ε PUnit} {P : ι → Prop} {items : List ι}
    (h : ∀ item ∈ items, Yields I (step item) (fun _ => P item)) :
    Yields I (items.forM step) (fun _ => ∀ item ∈ items, P item) := by
  induction items with
  | nil => exact Yields.pure (by simp)
  | cons first rest ih =>
      have hrest := ih fun item hitem => h item (List.mem_cons_of_mem first hitem)
      change Yields I (step first >>= fun _ => rest.forM step) _
      refine Yields.bind (h first List.mem_cons_self) fun _ hfirst => ?_
      exact hrest.mono fun _ hall => List.forall_mem_cons.mpr ⟨hfirst, hall⟩

end Yields

/-- From the state the run returns. -/
def Passes (run : Run σ ε α) (state : σ) : Prop :=
  (run.exec state).1.isOk = true

instance (run : Run σ ε α) (state : σ) : Decidable (run.Passes state) :=
  inferInstanceAs (Decidable ((run.exec state).1.isOk = true))

@[simp] theorem passes_bind {run : Run σ ε α} {next : α → Run σ ε β} {state : σ} :
    (run >>= next).Passes state ↔
      ∃ value after, run.exec state = (.ok value, after) ∧ (next value).Passes after := by
  unfold Passes
  rw [exec_bind]
  cases hexec : run.exec state with
  | mk outcome after =>
      cases outcome with
      | ok value =>
          constructor
          · intro h
            exact ⟨value, after, rfl, h⟩
          · rintro ⟨_, _, heq, h⟩
            cases heq
            exact h
      | error cause =>
          constructor
          · intro h
            cases h
          · rintro ⟨_, _, heq, _⟩
            cases heq

theorem Passes.ite {c : Prop} [Decidable c] {run other : Run σ ε α} {state : σ}
    (hthen : c → run.Passes state) (helse : ¬ c → other.Passes state) :
    (if c then run else other).Passes state := by
  by_cases h : c
  · rw [if_pos h]
    exact hthen h
  · rw [if_neg h]
    exact helse h

def Returns (I : σ → Prop) (run : Run σ ε α) (value : α) : Prop :=
  ∀ state, I state → ∃ after, I after ∧ run.exec state = (.ok value, after)

namespace Returns

variable {I : σ → Prop}

protected theorem pure (value : α) : Returns I (pure value : Run σ ε α) value :=
  fun state hstate => ⟨state, hstate, rfl⟩

protected theorem bind {run : Run σ ε α} {value : α} {next : α → Run σ ε β} {result : β}
    (hrun : Returns I run value) (hnext : Returns I (next value) result) :
    Returns I (run >>= next) result := by
  intro state hstate
  obtain ⟨mid, hmid, hexec⟩ := hrun state hstate
  obtain ⟨after, hafter, hexec'⟩ := hnext mid hmid
  refine ⟨after, hafter, ?_⟩
  rw [exec_bind, hexec]
  exact hexec'

theorem get_bind {next : σ → Run σ ε β} {result : β}
    (h : ∀ state, I state → Returns I (next state) result) :
    Returns I (get >>= next) result :=
  fun state hstate => h state hstate state hstate

protected theorem ite {c : Prop} [Decidable c] {run other : Run σ ε α} {value : α}
    (hthen : c → Returns I run value) (helse : ¬ c → Returns I other value) :
    Returns I (if c then run else other) value := by
  by_cases h : c
  · rw [if_pos h]
    exact hthen h
  · rw [if_neg h]
    exact helse h

theorem forM {ι : Type} {step : ι → Run σ ε PUnit} {items : List ι}
    (h : ∀ item ∈ items, Returns I (step item) PUnit.unit) :
    Returns I (items.forM step) PUnit.unit := by
  induction items with
  | nil => exact Returns.pure PUnit.unit
  | cons first rest ih =>
      rw [List.forall_mem_cons] at h
      change Returns I (step first >>= fun _ => rest.forM step) _
      exact h.1.bind (ih h.2)

theorem adapt {run : Run σ ε α} {value : α} (h : Returns I run value) (view : ε → ε') :
    Returns I (run.adapt view) value := by
  intro state hstate
  obtain ⟨after, hafter, hexec⟩ := h state hstate
  refine ⟨after, hafter, ?_⟩
  simp [hexec]

end Returns

end Run

end ScriptSandbox
