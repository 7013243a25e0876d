import ScriptSandbox.Proofs.Enforce.Stability

/-!
# When judging comes to a conclusion

A run of judging that neither returns nor reports a violation has stopped at a value
that lacks a part it was asked for.  `Judge.ConcludesIff store run P` says that this
never happens if `P` holds, and happens if not, in whatever store judging has led to
from the given one.  The lemmas follow the way in which runs are put together: what
comes after a guard matters only where the guard passes.
-/

namespace ScriptSandbox

def InTurn {ι : Type} (P Q : ι → Prop) : List ι → Prop
  | [] => True
  | item :: rest => P item ∧ (Q item → InTurn P Q rest)

theorem InTurn.of_forall {ι : Type} {P Q : ι → Prop} {items : List ι}
    (h : ∀ item ∈ items, P item) : InTurn P Q items := by
  induction items with
  | nil => trivial
  | cons first rest ih =>
      obtain ⟨hfirst, hrest⟩ := List.forall_mem_cons.mp h
      exact ⟨hfirst, fun _ => ih hrest⟩

namespace Judge

variable {store : Store} {α β : Type}

def Concludes (run : Judge α) (store : Store) : Prop :=
  ∀ cause, (run.exec store).1 ≠ .error (.malformed cause)

theorem Concludes.of_passes {run : Judge α} (h : run.Passes store) : run.Concludes store := by
  intro cause hend
  rw [Run.Passes, hend] at h
  cases h

theorem concludes_pure (value : α) : (pure value : Judge α).Concludes store :=
  fun _ => by simp

@[simp] theorem concludes_bind {run : Judge α} {next : α → Judge β} :
    (run >>= next).Concludes store ↔ run.Concludes store ∧
      ∀ value after, run.exec store = (.ok value, after) → (next value).Concludes after := by
  unfold Concludes
  rw [Run.exec_bind]
  cases run.exec store with
  | mk result after =>
      cases result with
      | ok value => simp
      | error refusal => simp

@[simp] theorem read_ok_bind (value : α) (next : α → Judge β) :
    (read (.ok value) >>= next) = next value := rfl

@[simp] theorem concludes_read_bind {result : Except Malformed α} {next : α → Judge β} :
    (read result >>= next).Concludes store ↔
      ∃ value, result = .ok value ∧ (next value).Concludes store := by
  cases result with
  | ok value => exact ⟨fun h => ⟨value, rfl, h⟩, fun ⟨_, hvalue, h⟩ => by cases hvalue; exact h⟩
  | error cause => exact ⟨fun h => absurd rfl (h cause), fun ⟨_, hvalue, _⟩ => by cases hvalue⟩

@[simp] theorem concludes_if_iff {c : Prop} [Decidable c] {run : Judge Unit} :
    (if c then run else pure ()).Concludes store ↔ (c → run.Concludes store) := by
  by_cases h : c
  · rw [if_pos h]
    exact ⟨fun hrun _ => hrun, fun hrun => hrun h⟩
  · rw [if_neg h]
    exact iff_of_true (concludes_pure ()) fun hc => absurd hc h

def AlwaysConcludes (run : Judge α) : Prop :=
  ∀ store, run.Concludes store

namespace AlwaysConcludes

variable {run other : Judge α}

protected theorem pure (value : α) : AlwaysConcludes (pure value) :=
  fun _ => concludes_pure value

protected theorem reject (offence : Offence) (node : Option Node) (context : Option String) :
    AlwaysConcludes (reject offence node context : Judge α) := by
  intro store cause hend
  cases hend

protected theorem update (change : Store → Store) : AlwaysConcludes (update change) :=
  fun _ => Concludes.of_passes rfl

protected theorem bind {next : α → Judge β} (hrun : AlwaysConcludes run)
    (hnext : ∀ value, AlwaysConcludes (next value)) : AlwaysConcludes (run >>= next) :=
  fun store => concludes_bind.mpr ⟨hrun store, fun value after _ => hnext value after⟩

theorem get_bind {next : Store → Judge β} (h : ∀ store, AlwaysConcludes (next store)) :
    AlwaysConcludes (get >>= next) :=
  fun store => h store store

protected theorem ite {c : Prop} [Decidable c] (hthen : AlwaysConcludes run)
    (helse : AlwaysConcludes other) : AlwaysConcludes (if c then run else other) := by
  split
  · exact hthen
  · exact helse

protected theorem require (feature : Feature) (offence : Offence) (node : Node) :
    AlwaysConcludes (require feature offence node) :=
  get_bind fun _ => .ite (.reject _ _ _) (.pure ())

protected theorem name (role : Role) (name : String) (node : Option Node) :
    AlwaysConcludes (Judge.name role name node) := by
  refine .bind (get_bind fun _ => .bind (.update _) fun _ => .pure _) fun _ => ?_
  exact .ite (.reject _ _ _) (.pure ())

protected theorem nonEmptyName (role : Role) (text : String) (node : Option Node) :
    AlwaysConcludes (nonEmptyName role text node) :=
  .ite (.reject _ _ _) (.name role text node)

end AlwaysConcludes

def ConcludesIff (store : Store) (run : Judge α) (P : Prop) : Prop :=
  ∀ mid, Reaches store mid → (run.Concludes mid ↔ P)

theorem AlwaysConcludes.iff_true {run : Judge α} (h : AlwaysConcludes run) :
    ConcludesIff store run True :=
  fun mid _ => iff_true_intro (h mid)

/--
What a step of judging comes to: it concludes if `P` holds, and returns the values with `Q`,
of which there is one at most.
-/
structure Decides (store : Store) (run : Judge α) (P : Prop) (Q : α → Prop) : Prop where
  concludes : ConcludesIff store run P
  yields : Run.Yields (Reaches store) run Q
  returns : ∀ value, Q value → Run.Returns (Reaches store) run value

theorem read_decides (result : Except Malformed α) :
    Decides store (read result) (∃ value, result = .ok value) (result = .ok ·) where
  concludes mid _ := by
    cases result with
    | ok value => exact iff_of_true (concludes_pure value) ⟨value, rfl⟩
    | error cause =>
        exact iff_of_false (fun h => h cause rfl) fun ⟨_, hvalue⟩ => by cases hvalue
  yields := read_yields result
  returns _ h := read_returns h

theorem require_decides (feature : Feature) (offence : Offence) (node : Node) :
    Decides store (require feature offence node) True (fun _ => store.allows feature = true) where
  concludes := (AlwaysConcludes.require feature offence node).iff_true
  yields := require_yields feature offence node
  returns _ h := require_returns offence node h

theorem name_decides (role : Role) (name : String) (node : Option Node) :
    Decides store (Judge.name role name node) True (fun _ => store.Accepts role name) where
  concludes := (AlwaysConcludes.name role name node).iff_true
  yields := name_yields role name node
  returns _ h := name_returns node h

theorem nonEmptyName_decides (role : Role) (text : String) (node : Option Node) :
    Decides store (nonEmptyName role text node) True
      (fun _ => text ≠ "" ∧ store.Accepts role text) where
  concludes := (AlwaysConcludes.nonEmptyName role text node).iff_true
  yields := nonEmptyName_yields role text node
  returns _ h := Run.Returns.ite (fun hempty => absurd hempty h.1) fun _ => name_returns node h.2

theorem update_decides {change : Store → Store}
    (h : ∀ mid, Reaches store mid → Reaches store (change mid)) :
    Decides store (update change) True (fun _ => True) where
  concludes := (AlwaysConcludes.update change).iff_true
  yields := update_yields h
  returns _ _ mid hmid := ⟨change mid, h mid hmid, rfl⟩

theorem pure_decides (value : α) : Decides store (pure value) True (· = value) where
  concludes := (AlwaysConcludes.pure value).iff_true
  yields := Run.Yields.pure rfl
  returns other h := by
    subst h
    exact Run.Returns.pure other

theorem reject_decides (offence : Offence) (node : Option Node) (context : Option String) :
    Decides store (reject offence node context : Judge α) True (fun _ => False) where
  concludes := (AlwaysConcludes.reject offence node context).iff_true
  yields := reject_yields offence node context
  returns _ h := h.elim

namespace ConcludesIff

variable {run : Judge α} {P R : Prop} {Q : α → Prop}

theorem congr (h : ConcludesIff store run P) (hiff : P ↔ R) : ConcludesIff store run R :=
  fun mid hmid => (h mid hmid).trans hiff

protected theorem bind {next : α → Judge β} {R : α → Prop} (hrun : Decides store run P Q)
    (hnext : ∀ value, Q value → ConcludesIff store (next value) (R value)) :
    ConcludesIff store (run >>= next) (P ∧ ∀ value, Q value → R value) := by
  intro mid hmid
  rw [concludes_bind, hrun.concludes mid hmid]
  refine and_congr_right fun _ => ⟨fun h value hvalue => ?_, fun h value after hexec => ?_⟩
  · obtain ⟨after, hafter, hexec⟩ := hrun.returns value hvalue mid hmid
    exact (hnext value hvalue after hafter).mp (h value after hexec)
  · obtain ⟨hafter, hvalue⟩ := hrun.yields.ok hmid hexec
    exact (hnext value hvalue after hafter).mpr (h value hvalue)

theorem bind_always {next : α → Judge β} (h : ConcludesIff store run P)
    (hnext : ∀ value, AlwaysConcludes (next value)) : ConcludesIff store (run >>= next) P := by
  intro mid hmid
  rw [concludes_bind, h mid hmid]
  exact and_iff_left fun value after _ => hnext value after

theorem read_bind {result : Except Malformed α} {next : α → Judge β} {R : α → Prop}
    (h : ∀ value, result = .ok value → ConcludesIff store (next value) (R value)) :
    ConcludesIff store (read result >>= next) (∃ value, result = .ok value ∧ R value) := by
  refine (ConcludesIff.bind (read_decides result) h).congr ⟨?_, ?_⟩
  · rintro ⟨⟨value, hvalue⟩, hall⟩
    exact ⟨value, hvalue, hall value hvalue⟩
  · rintro ⟨value, hvalue, hrest⟩
    refine ⟨⟨value, hvalue⟩, fun other hother => ?_⟩
    rw [hvalue] at hother
    cases hother
    exact hrest

theorem guard_bind {step : Judge Unit} {next : Unit → Judge β} {guard : Prop}
    (hstep : Decides store step True (fun _ => guard))
    (h : guard → ConcludesIff store (next ()) R) :
    ConcludesIff store (step >>= next) (guard → R) :=
  (ConcludesIff.bind hstep fun _ => h).congr (by simp)

theorem get_bind {next : Store → Judge β}
    (h : ∀ mid, store.SamePolicy mid → ConcludesIff store (next mid) R) :
    ConcludesIff store (get >>= next) R :=
  fun mid hmid => h mid hmid.samePolicy mid hmid

theorem update_bind {change : Store → Store} {next : Unit → Judge β}
    (hchange : ∀ mid, Reaches store mid → Reaches store (change mid))
    (h : ConcludesIff store (next ()) R) : ConcludesIff store (update change >>= next) R :=
  fun mid hmid => h (change mid) (hchange mid hmid)

theorem if_iff {c : Prop} [Decidable c] {step : Judge Unit} (h : c → ConcludesIff store step R) :
    ConcludesIff store (if c then step else pure ()) (c → R) := by
  intro mid hmid
  rw [concludes_if_iff]
  exact forall_congr' fun hc => h hc mid hmid

theorem forM {ι : Type} {step : ι → Judge Unit} {P Q : ι → Prop}
    (h : ∀ item, Decides store (step item) (P item) (fun _ => Q item)) (items : List ι) :
    ConcludesIff store (items.forM step) (InTurn P Q items) := by
  induction items with
  | nil => exact (AlwaysConcludes.pure ()).iff_true
  | cons first rest ih =>
      have hbind : ConcludesIff store (step first >>= fun _ => rest.forM step) _ :=
        .bind (h first) fun _ _ => ih
      exact hbind.congr (and_congr_right fun _ => ⟨fun h => h (), fun h _ => h⟩)

end ConcludesIff

namespace Decides

variable {run : Judge α} {P P' : Prop} {Q Q' : α → Prop}

protected theorem congr (h : Decides store run P Q) (hP : P ↔ P')
    (hQ : ∀ value, Q value ↔ Q' value) :
    Decides store run P' Q' where
  concludes := h.concludes.congr hP
  yields := h.yields.mono fun value => (hQ value).mp
  returns value hvalue := h.returns value ((hQ value).mpr hvalue)

protected theorem bind {next : α → Judge β} {R : α → Prop} {S : α → β → Prop}
    (h : Decides store run P Q)
    (hnext : ∀ value, Q value → Decides store (next value) (R value) (S value)) :
    Decides store (run >>= next) (P ∧ ∀ value, Q value → R value)
      (fun result => ∃ value, Q value ∧ S value result) where
  concludes := .bind h fun value hvalue => (hnext value hvalue).concludes
  yields := h.yields.bind fun value hvalue =>
    (hnext value hvalue).yields.mono fun _ hresult => ⟨value, hvalue, hresult⟩
  returns result := fun ⟨value, hvalue, hresult⟩ =>
    (h.returns value hvalue).bind ((hnext value hvalue).returns result hresult)

theorem read_bind {result : Except Malformed α} {next : α → Judge β} {R : α → Prop}
    {S : α → β → Prop}
    (h : ∀ value, result = .ok value → Decides store (next value) (R value) (S value)) :
    Decides store (read result >>= next) (∃ value, result = .ok value ∧ R value)
      (fun final => ∃ value, result = .ok value ∧ S value final) where
  concludes := .read_bind fun value hvalue => (h value hvalue).concludes
  yields := ((read_decides result).bind h).yields
  returns := ((read_decides result).bind h).returns

theorem guard_bind {step : Judge Unit} {next : Unit → Judge β} {guard R : Prop} {S : β → Prop}
    (hstep : Decides store step True (fun _ => guard))
    (h : guard → Decides store (next ()) R S) :
    Decides store (step >>= next) (guard → R) (fun final => guard ∧ S final) :=
  (hstep.bind fun _ => h).congr (by simp) (by simp)

end Decides

end Judge

end ScriptSandbox
