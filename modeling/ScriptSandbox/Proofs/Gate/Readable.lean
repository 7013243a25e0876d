import ScriptSandbox.Proofs.Gate.Passes
import ScriptSandbox.Proofs.Harvest.Readable

/-!
# When a check comes to an outcome

Each pass of a check can be stopped by a node that lacks what is read of it.  Neither a
return nor a report stands at the end of such a pass, and nothing catches it, so the check
has no outcome.  It has one, or a verdict that its place cannot take, exactly if whatever is
offered to a pass that is begun can be read there.
-/

namespace ScriptSandbox

private theorem Visitor.Ends.malformed_iff {α : Type} {visitor : Visitor Store Refusal}
    {store : Store}
    {offers : List (Offer Store)} {result : Except (WalkFailure Refusal) α × Store}
    (h : visitor.Ends store offers result) :
    (∃ cause, result.1 = .error (.raised (.malformed cause))) ↔
      ∃ offer ∈ offers, ¬ Judge.Concludes (visitor.leave offer.node) offer.state := by
  have hjudged {judged : List (Offer Store)} {after : Store}
      (hjudges : visitor.Judges store judged after) :
      ∀ offer ∈ judged, Judge.Concludes (visitor.leave offer.node) offer.state := by
    induction hjudges with
    | nil => simp
    | snoc _ hleave ih =>
        refine List.forall_mem_append.mpr ⟨ih, List.forall_mem_singleton.mpr fun cause hend => ?_⟩
        rw [hleave] at hend
        cases hend
  have hnone {judged : List (Offer Store)} {after : Store}
      (hjudges : visitor.Judges store judged after) :
      ¬ ∃ offer ∈ judged, ¬ Judge.Concludes (visitor.leave offer.node) offer.state :=
    fun ⟨offer, hoffer, hstuck⟩ => hstuck (hjudged hjudges offer hoffer)
  cases h with
  | ok hjudges => exact iff_of_false (by simp) (hnone hjudges)
  | misplaced hjudges => exact iff_of_false (by simp) (hnone hjudges)
  | @raised judged n mid after cause hjudges hleave =>
      constructor
      · rintro ⟨malformed, hcause⟩
        cases hcause
        refine ⟨⟨n, mid⟩, List.mem_append_right _ (List.mem_singleton.mpr rfl), fun h => ?_⟩
        exact h malformed (by rw [hleave])
      · rintro ⟨offer, hoffer, hstuck⟩
        rcases List.mem_append.mp hoffer with hoffer | hoffer
        · exact absurd (hjudged hjudges offer hoffer) hstuck
        · rw [List.mem_singleton.mp hoffer] at hstuck
          obtain ⟨malformed, hend⟩ := not_forall_not.mp hstuck
          rw [hleave] at hend
          cases hend
          exact ⟨malformed, rfl⟩

namespace Gate

variable {script trusted : Tree} {store mid : Store} {α β : Type}

def Misreads (run : Gate α) (store : Store) : Prop :=
  ∃ cause, (run.exec store).1 = .error (.raised (.malformed cause))

@[simp] private theorem misreads_bind {run : Gate α} {next : α → Gate β} :
    Misreads (run >>= next) store ↔ Misreads run store ∨
      ∃ value mid, run.exec store = (.ok value, mid) ∧ Misreads (next value) mid := by
  unfold Misreads
  rw [Run.exec_bind]
  cases run.exec store with
  | mk result after =>
      cases result with
      | ok value => simp
      | error failure => simp

private theorem not_misreads_pure (value : α) : ¬ Misreads (pure value) store := by
  rintro ⟨cause, hend⟩
  cases hend

namespace Pass

/-- What the pass reads of the node can be read. -/
def Readable : Pass → Store → Node → Prop
  | .trusted _, store, n => TrustedHarvest.Readable store n
  | .own _, store, n => OwnHarvest.Readable store n
  | .validation _, store, n => n.generated = false → n.kind.rule.Readable store n

@[simp] theorem leave_concludes_iff (pass : Pass) (n : Node) (store : Store) :
    Judge.Concludes (pass.visitor.leave n) store ↔ pass.Readable store n := by
  cases pass with
  | trusted tree => exact TrustedHarvest.node_concludes_iff n store
  | own tree => exact OwnHarvest.leave_concludes_iff n store
  | validation tree => exact Enforce.node_concludes_iff n store

private theorem misreads_iff (pass : Pass) (store : Store) :
    Misreads pass.run store ↔
      ∃ offer ∈ pass.offers store, ¬ pass.Readable offer.state offer.node := by
  have hends := (pass.offers_end store).malformed_iff
  simp only [leave_concludes_iff] at hends
  rw [← hends, Misreads, exec_run]
  cases ((Walk.tree [pass.visitor] pass.tree).exec store).1 with
  | ok walked => simp [Except.map]
  | error failure => simp [Except.map]

end Pass

inductive Begins (script trusted : Tree) (store : Store) : Pass → Store → Prop where
  | trusted (h : trusted.isEmpty = false) : Begins script trusted store (.trusted trusted) store
  | own {mid : Store}
      (h : if trusted.isEmpty then mid = store
        else (harvestTrusted trusted).exec store = (.ok (), mid)) :
      Begins script trusted store (.own script) mid
  | validation {mid : Store} (h : (harvests script trusted).exec store = (.ok (), mid)) :
      Begins script trusted store (.validation script) mid

private theorem harvests_misread_iff :
    Misreads (harvests script trusted) store ↔
      (trusted.isEmpty = false ∧ Misreads (harvestTrusted trusted) store) ∨
        ∃ mid, (if trusted.isEmpty then mid = store
            else (harvestTrusted trusted).exec store = (.ok (), mid)) ∧
          Misreads (harvestOwn script) mid := by
  unfold harvests
  cases trusted.isEmpty with
  | true =>
      change Misreads (harvestOwn script) store ↔ _
      simp
  | false =>
      change Misreads (harvestTrusted trusted >>= fun _ => harvestOwn script) store ↔ _
      rw [misreads_bind]
      simp only [true_and, Bool.false_eq_true, if_false]
      exact or_congr_right ⟨fun ⟨_, mid, h⟩ => ⟨mid, h⟩, fun ⟨mid, h⟩ => ⟨(), mid, h⟩⟩

private theorem prepare_misreads_iff :
    Misreads (prepare script trusted) store ↔
      Misreads (harvests script trusted) store ∨
        ∃ mid, (harvests script trusted).exec store = (.ok (), mid) ∧
          Misreads (Pass.validation script).run mid := by
  have hlogs : ∀ (guarded : Tree) (last : Store), ¬ Misreads (do
      log (.passed guarded.length)
      pure guarded) last := by
    rintro guarded last ⟨cause, hend⟩
    cases hend
  have hvalidation : ∀ mid, Misreads (Pass.validation script).run mid ↔
      Misreads (validate script) mid := by
    intro mid
    change Misreads (validate script >>= fun _ => pure ()) mid ↔ _
    rw [misreads_bind]
    exact or_iff_left fun ⟨_, _, _, h⟩ => not_misreads_pure () h
  rw [prepare_eq, misreads_bind]
  refine or_congr_right ⟨?_, ?_⟩
  · rintro ⟨_, mid, hharvests, hrest⟩
    rw [misreads_bind] at hrest
    refine ⟨mid, hharvests, (hvalidation mid).mpr (hrest.resolve_right ?_)⟩
    exact fun ⟨guarded, last, _, h⟩ => hlogs guarded last h
  · rintro ⟨mid, hharvests, hmisreads⟩
    exact ⟨(), mid, hharvests, misreads_bind.mpr (.inl ((hvalidation mid).mp hmisreads))⟩

private theorem check_misreads_iff :
    Misreads (check script trusted) store ↔ Misreads (prepare script trusted) store := by
  unfold Misreads
  rw [exec_check]
  cases (prepare script trusted).exec store with
  | mk result after =>
      cases result with
      | ok guarded => simp
      | error failure =>
          cases failure with
          | misplaced cause => simp
          | raised refusal => cases refusal <;> simp

private theorem check_misreads_iff_exists :
    Misreads (check script trusted) store ↔
      ∃ pass mid, Begins script trusted store pass mid ∧
        ∃ offer ∈ pass.offers mid, ¬ pass.Readable offer.state offer.node := by
  rw [check_misreads_iff, prepare_misreads_iff, harvests_misread_iff]
  simp only [← Pass.misreads_iff]
  constructor
  · rintro ((⟨hne, hmisreads⟩ | ⟨mid, hbefore, hmisreads⟩) | ⟨mid, hharvests, hmisreads⟩)
    · exact ⟨_, _, .trusted hne, hmisreads⟩
    · exact ⟨_, _, .own hbefore, hmisreads⟩
    · exact ⟨_, _, .validation hharvests, hmisreads⟩
  · rintro ⟨pass, mid, hbegins, hmisreads⟩
    cases hbegins with
    | trusted hne => exact .inl (.inl ⟨hne, hmisreads⟩)
    | own hbefore => exact .inl (.inr ⟨mid, hbefore, hmisreads⟩)
    | validation hharvests => exact .inr ⟨mid, hharvests, hmisreads⟩

/-- Whatever is offered to a pass that the check begins can be read there. -/
def Readable (script trusted : Tree) (store : Store) : Prop :=
  ∀ pass mid, Begins script trusted store pass mid →
    ∀ offer ∈ pass.offers mid, pass.Readable offer.state offer.node

private theorem not_misreads_iff_readable :
    ¬ Misreads (check script trusted) store ↔ Readable script trusted store := by
  rw [check_misreads_iff_exists, Readable]
  push Not
  rfl

theorem check_ends_iff :
    ((∃ outcome, ((check script trusted).exec store).1 = .ok outcome) ∨
        ∃ cause, ((check script trusted).exec store).1 = .error (.misplaced cause)) ↔
      Readable script trusted store := by
  rw [← not_misreads_iff_readable, Misreads, exec_check]
  cases (prepare script trusted).exec store with
  | mk result after =>
      cases result with
      | ok guarded => simp
      | error failure =>
          cases failure with
          | misplaced cause => simp
          | raised refusal => cases refusal <;> simp

end Gate

end ScriptSandbox
