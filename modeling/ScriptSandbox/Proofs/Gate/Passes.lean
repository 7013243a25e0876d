import ScriptSandbox.Gate
import ScriptSandbox.Proofs.Enforce.Changes
import ScriptSandbox.Proofs.Harvest.Changes
import ScriptSandbox.Proofs.Walk.Offers

/-!
# Passes over one store

A store is changed by operations of its own and by passes, which may be aborted: what
an aborted pass has done to the store stays done.  Each pass makes changes of one sort
and, where it is aborted by a violation, reports that violation last.
-/

namespace ScriptSandbox

open Store (Change Evolves)

def Store.Change.OrReport (C : Change → Prop) : Change → Prop
  | .report _ => True
  | change => C change

theorem Store.Change.OrReport.of {C : Change → Prop} {change : Change} (h : C change) :
    OrReport C change := by
  cases change <;> first | exact h | trivial

theorem Store.Change.OrReport.mono {C D : Change → Prop} {change : Change}
    (h : OrReport C change) (himp : C change → D change) : OrReport D change := by
  cases change <;> first | exact himp h | trivial

section

variable {C : Change → Prop} {visitor : Visitor Store Refusal} {α : Type} {store after : Store}
  {offers : List (Offer Store)} (hleave : ∀ n, Judge.Makes C (visitor.leave n))

include hleave

theorem Visitor.Judges.evolves (h : visitor.Judges store offers after) :
    Evolves C store after ∧ ∀ offer ∈ offers, Evolves C store offer.state := by
  induction h with
  | nil => exact ⟨.refl, by simp⟩
  | @snoc offers n mid after verdict _ hjudged ih =>
      have hstep : Evolves C mid after := (hleave n).ok hjudged
      refine ⟨ih.1.trans hstep, fun offer hoffer => ?_⟩
      rcases List.mem_append.mp hoffer with hoffer | hoffer
      · exact ih.2 offer hoffer
      · rw [List.mem_singleton.mp hoffer]
        exact ih.1

theorem Visitor.Ends.evolves {result : Except (WalkFailure Refusal) α × Store}
    (h : visitor.Ends store offers result) :
    Evolves (Change.OrReport C) store result.2 ∧
      ∀ offer ∈ offers, Evolves C store offer.state := by
  cases h with
  | ok hjudges =>
      obtain ⟨hafter, hoffers⟩ := hjudges.evolves hleave
      exact ⟨hafter.mono .of, hoffers⟩
  | misplaced hjudges =>
      obtain ⟨hafter, hoffers⟩ := hjudges.evolves hleave
      exact ⟨hafter.mono .of, hoffers⟩
  | @raised offers n mid after cause hjudges hraised =>
      obtain ⟨hmid, hoffers⟩ := hjudges.evolves hleave
      have hends : Refusal.After C cause mid after := (hleave n).error hraised
      have hlast : Evolves (Change.OrReport C) mid after := hends.evolves .of fun _ => trivial
      refine ⟨(hmid.mono .of).trans hlast, fun offer hoffer => ?_⟩
      rcases List.mem_append.mp hoffer with hoffer | hoffer
      · exact hoffers offer hoffer
      · rw [List.mem_singleton.mp hoffer]
        exact hmid

end

namespace Gate

inductive Pass where
  | trusted (tree : Tree)
  | own (tree : Tree)
  | validation (tree : Tree)

namespace Pass

def tree : Pass → Tree
  | .trusted tree => tree
  | .own tree => tree
  | .validation tree => tree

def visitor : Pass → Visitor Store Refusal
  | .trusted _ => TrustedHarvest.visitor
  | .own _ => OwnHarvest.visitor
  | .validation _ => Enforce.visitor

def run : Pass → Gate Unit
  | .trusted tree => harvestTrusted tree
  | .own tree => harvestOwn tree
  | .validation tree => do
      let _ ← validate tree
      pure ()

def after (pass : Pass) (store : Store) : Store := (pass.run.exec store).2

/-- The nodes that the pass judges, each with the store in which it judges it. -/
def offers (pass : Pass) (store : Store) : List (Offer Store) :=
  pass.visitor.offers pass.tree store

def Does : Pass → Change → Prop
  | .trusted _ => Change.Passes
  | .own _ => Change.Lists
  | .validation _ => Change.Validates

theorem Does.passes {pass : Pass} {change : Change} (h : pass.Does change) : change.Passes := by
  cases pass with
  | trusted tree => exact h
  | own tree => exact Change.Lists.passes h
  | validation tree => exact Change.Validates.passes h

variable (pass : Pass) (store : Store)

theorem leave_makes (n : Node) : Judge.Makes pass.Does (pass.visitor.leave n) := by
  cases pass with
  | trusted tree => exact TrustedHarvest.node_makes n
  | own tree => exact OwnHarvest.leave_makes n
  | validation tree => exact Enforce.node_makes n

theorem exec_run :
    pass.run.exec store =
      (((Walk.tree [pass.visitor] pass.tree).exec store).1.map fun _ => (),
        ((Walk.tree [pass.visitor] pass.tree).exec store).2) := by
  cases pass <;> exact Run.exec_bind_pure _ _ store

theorem offers_end :
    pass.visitor.Ends store (pass.offers store)
      ((Walk.tree [pass.visitor] pass.tree).exec store) :=
  Walk.offers_end pass.visitor pass.tree store

theorem evolves : Evolves (Change.OrReport pass.Does) store (pass.after store) := by
  rw [after, exec_run]
  exact ((pass.offers_end store).evolves pass.leave_makes).1

theorem offer_evolves {offer : Offer Store} (h : offer ∈ pass.offers store) :
    Evolves pass.Does store offer.state :=
  ((pass.offers_end store).evolves pass.leave_makes).2 offer h

end Pass

section

variable {script trusted guarded : Tree} {store mid after : Store}

def harvests (script trusted : Tree) : Gate Unit := do
  if !trusted.isEmpty then harvestTrusted trusted
  harvestOwn script

theorem harvests_ok_iff :
    (harvests script trusted).exec store = (.ok (), after) ↔
      ∃ mid, (if trusted.isEmpty then mid = store
          else (harvestTrusted trusted).exec store = (.ok (), mid)) ∧
        (harvestOwn script).exec mid = (.ok (), after) := by
  unfold harvests
  cases trusted.isEmpty with
  | true => exact ⟨fun h => ⟨store, rfl, h⟩, fun ⟨_, hmid, h⟩ => (hmid ▸ h :)⟩
  | false =>
      change (harvestTrusted trusted >>= fun _ => harvestOwn script).exec store = _ ↔ _
      rw [Run.exec_bind_eq_ok]
      exact ⟨fun ⟨_, mid, h⟩ => ⟨mid, h⟩, fun ⟨mid, h⟩ => ⟨(), mid, h⟩⟩

theorem prepare_eq (script trusted : Tree) :
    prepare script trusted = (do
      harvests script trusted
      let guarded ← validate script
      log (.passed guarded.length)
      pure guarded) := by
  unfold prepare harvests
  cases trusted.isEmpty with
  | true => rfl
  | false => exact (bind_assoc (harvestTrusted trusted) _ _).symm

theorem exec_check (script trusted : Tree) (store : Store) :
    (check script trusted).exec store =
      match (prepare script trusted).exec store with
      | (.ok guarded, after) => (.ok (.passed guarded), after)
      | (.error (.raised (.violation violation)), after) =>
          (.ok (.failed violation), after.record (.failed violation.kind.name))
      | (.error failure, after) => (.error failure, after) := by
  change (tryCatch (prepare script trusted >>= fun guarded => pure (.passed guarded)) _ :
    Gate Outcome).exec store = _
  rw [Run.exec_tryCatch, Run.exec_bind]
  cases (prepare script trusted).exec store with
  | mk result after =>
      cases result with
      | ok guarded => rfl
      | error failure =>
          cases failure with
          | misplaced cause => rfl
          | raised refusal => cases refusal <;> rfl

theorem check_passed_iff :
    (check script trusted).exec store = (.ok (.passed guarded), after) ↔
      ∃ mid last, (harvests script trusted).exec store = (.ok (), mid) ∧
        (validate script).exec mid = (.ok guarded, last) ∧
          after = last.record (.passed guarded.length) := by
  have hprepare : (check script trusted).exec store = (.ok (.passed guarded), after) ↔
      (prepare script trusted).exec store = (.ok guarded, after) := by
    rw [exec_check]
    split <;> simp_all
  rw [hprepare, prepare_eq, Run.exec_bind_eq_ok]
  constructor
  · rintro ⟨_, mid, hharvests, hrest⟩
    obtain ⟨walked, last, hvalidate, hlog⟩ := Run.exec_bind_eq_ok.mp hrest
    cases hlog
    exact ⟨mid, last, hharvests, hvalidate, rfl⟩
  · rintro ⟨mid, last, hharvests, hvalidate, rfl⟩
    exact ⟨(), mid, hharvests, Run.exec_bind_eq_ok.mpr ⟨guarded, last, hvalidate, rfl⟩⟩

theorem check_failed_iff {violation : Violation} :
    (check script trusted).exec store = (.ok (.failed violation), after) ↔
      ∃ last, (prepare script trusted).exec store =
          (.error (.raised (.violation violation)), last) ∧
        after = last.record (.failed violation.kind.name) := by
  rw [exec_check]
  cases (prepare script trusted).exec store with
  | mk result last =>
      cases result with
      | ok guarded => simp
      | error failure =>
          cases failure with
          | misplaced cause => simp
          | raised refusal =>
              cases refusal with
              | malformed cause => simp
              | violation reported =>
                  constructor
                  · intro hrun
                    cases hrun
                    exact ⟨last, rfl, rfl⟩
                  · rintro ⟨_, hprepare, rfl⟩
                    cases hprepare
                    rfl

end

def afterPasses (passes : List Pass) (store : Store) : Store :=
  passes.foldl (fun store pass => pass.after store) store

theorem afterPasses_evolves (passes : List Pass) (store : Store) :
    Evolves (Change.OrReport Change.Passes) store (afterPasses passes store) := by
  refine Evolves.foldl (fun store pass => ?_) passes store
  exact (pass.evolves store).mono fun h => h.mono Pass.Does.passes

/-- Whatever may be done with a store. -/
inductive Step where
  | operation (change : Change)
  | judgeName (role : Role) (name : String)
  | run (pass : Pass)
  | prepare (script trusted : Tree)
  | check (script trusted : Tree)

namespace Step

def after : Step → Store → Store
  | .operation change, store => change.apply store
  | .judgeName role name, store => ((Judge.nonEmptyName role name none).exec store).2
  | .run pass, store => pass.after store
  | .prepare script trusted, store => ((Gate.prepare script trusted).exec store).2
  | .check script trusted, store => ((Gate.check script trusted).exec store).2

end Step

def afterSteps (steps : List Step) (store : Store) : Store :=
  steps.foldl (fun store step => step.after store) store

def Evolving {α : Type} (run : Gate α) : Prop :=
  Run.Leads Store.Reaches (fun _ => Store.Reaches) run

namespace Evolving

theorem course : Run.Course Store.Reaches (fun _ : WalkFailure Refusal => Store.Reaches) where
  refl _ := .refl
  trans h h' := h.trans h'
  fail h h' := h.trans h'

theorem log (entry : AuditEntry) (change : Change)
    (h : ∀ store, change.apply store = store.record entry) : Evolving (Gate.log entry) := by
  refine Run.Leads.modify fun store => ?_
  rw [← h]
  exact .single trivial

theorem walk (pass : Pass) : Evolving (Walk.tree [pass.visitor] pass.tree) := by
  intro store
  have hall := ((pass.offers_end store).evolves pass.leave_makes).1.mono fun _ =>
    (trivial : (fun _ : Change => True) _)
  cases hexec : (Walk.tree [pass.visitor] pass.tree).exec store with
  | mk result after =>
      rw [hexec] at hall
      cases result <;> exact hall

theorem prepare (script trusted : Tree) : Evolving (Gate.prepare script trusted) := by
  have hpure : ∀ {α : Type} (value : α), Evolving (pure value : Gate α) :=
    fun value => Run.Leads.pure course value
  have htrusted : Evolving (harvestTrusted trusted) :=
    Run.Leads.bind course (walk (.trusted trusted)) fun _ => hpure ()
  have hown : Evolving (harvestOwn script) :=
    Run.Leads.bind course (walk (.own script)) fun _ => hpure ()
  have hscript : Evolving (do
      harvestOwn script
      let guarded ← validate script
      Gate.log (.passed guarded.length)
      pure guarded) := by
    refine Run.Leads.bind course hown fun _ => ?_
    refine Run.Leads.bind course (walk (.validation script)) fun guarded => ?_
    have hlog := log (.passed guarded.length) (.passed guarded.length) fun _ => rfl
    exact Run.Leads.bind course hlog fun _ => hpure guarded
  exact Run.Leads.ite (fun _ => Run.Leads.bind course htrusted fun _ => hscript) fun _ => hscript

theorem check (script trusted : Tree) : Evolving (Gate.check script trusted) := by
  refine Run.Leads.tryCatch (fun h h' => h.trans h') ?_ fun failure => ?_
  · exact Run.Leads.bind course (prepare script trusted) fun _ => Run.Leads.pure course _
  · cases failure with
    | misplaced cause => exact Run.Leads.throw fun _ => .refl
    | raised refusal =>
        cases refusal with
        | malformed cause => exact Run.Leads.throw fun _ => .refl
        | violation reported =>
            have hlog := log (.failed reported.kind.name) (.failed reported.kind) fun _ => rfl
            exact Run.Leads.bind course hlog fun _ => Run.Leads.pure course _

end Evolving

theorem Step.reaches (step : Step) (store : Store) : store.Reaches (step.after store) := by
  cases step with
  | operation change => exact .single trivial
  | judgeName role name =>
      have hmakes : Judge.Makes (fun _ => True) (Judge.nonEmptyName role name none) :=
        Judge.nonEmptyName_makes (fun _ _ _ => trivial) role name none
      exact hmakes.reaches (fun h => h) (fun h => h.evolves id fun _ => trivial) store
  | run pass => exact (pass.evolves store).mono fun _ => trivial
  | prepare script trusted => exact (Evolving.prepare script trusted).reaches id id store
  | check script trusted => exact (Evolving.check script trusted).reaches id id store

theorem afterSteps_reaches (steps : List Step) (store : Store) :
    store.Reaches (afterSteps steps store) :=
  Evolves.foldl (fun store step => step.reaches store) steps store

end Gate

end ScriptSandbox
