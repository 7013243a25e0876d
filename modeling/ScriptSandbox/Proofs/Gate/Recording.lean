import ScriptSandbox.Proofs.Gate.Passes
import ScriptSandbox.Proofs.Gate.Validation

/-!
# The record of a run

The log tells how each run of the gate ends.  A run that passes a script records this last.
A run that rejects one reports the violation and then records the failure.  Neither entry is
made otherwise, so over any number of runs reports and recorded failures come in pairs.
-/

namespace ScriptSandbox

open Store (Change Evolves)

namespace AuditEntry

def ofViolation (reported : Violation) : AuditEntry :=
  .violation reported.kind.name reported.message reported.context reported.line

def IsQuiet (entry : AuditEntry) : Prop :=
  entry.operation ≠ "VIOLATION" ∧ entry.operation ≠ "VALIDATE"

/-- The kind that the report of a violation gives. -/
def reportedKind? (entry : AuditEntry) : Option Json :=
  if entry.operation = "VIOLATION" then Record.get? entry.fields "kind" else none

/-- The kind that the record of a failed run gives. -/
def failedKind? (entry : AuditEntry) : Option Json :=
  if entry.operation = "VALIDATE" then
    match Record.get? entry.fields "result" with
    | some (.str "fail") => Record.get? entry.fields "kind"
    | _ => none
  else none

@[simp] theorem isQuiet_whitelist (category name : String) : (whitelist category name).IsQuiet := by
  simp [IsQuiet, whitelist]

@[simp] theorem isQuiet_namespaceDecl (name : String) : (namespaceDecl name).IsQuiet := by
  simp [IsQuiet, namespaceDecl]

@[simp] theorem isQuiet_aliasName (name : String) (shortName : Option String) :
    (aliasName name shortName).IsQuiet := by
  simp [IsQuiet, aliasName]

private theorem IsQuiet.reportedKind?_eq {entry : AuditEntry} (h : entry.IsQuiet) :
    entry.reportedKind? = none :=
  if_neg h.1

private theorem IsQuiet.failedKind?_eq {entry : AuditEntry} (h : entry.IsQuiet) :
    entry.failedKind? = none :=
  if_neg h.2

end AuditEntry

/-! ## What is logged before a run ends -/

namespace Store

structure LogsQuietly (store after : Store) : Prop where
  audited : after.audited = store.audited
  log : ∃ calls, after.log = store.log ++ calls ∧ ∀ entry ∈ calls, entry.IsQuiet

namespace LogsQuietly

variable {store mid after : Store}

theorem of_eq (haudited : after.audited = store.audited) (hlog : after.log = store.log) :
    store.LogsQuietly after :=
  ⟨haudited, [], by rw [hlog, List.append_nil], by simp⟩

protected theorem trans (h : store.LogsQuietly mid) (h' : mid.LogsQuietly after) :
    store.LogsQuietly after := by
  obtain ⟨calls, hcalls, hquiet⟩ := h.log
  obtain ⟨more, hmore, hquiet'⟩ := h'.log
  refine ⟨h'.audited.trans h.audited, calls ++ more, ?_, ?_⟩
  · rw [hmore, hcalls, List.append_assoc]
  · exact List.forall_mem_append.mpr ⟨hquiet, hquiet'⟩

end LogsQuietly

variable (store : Store)

@[simp]
theorem audited_record (entry : AuditEntry) : (store.record entry).audited = store.audited := by
  unfold record
  split <;> rfl

@[simp] theorem log_record {store : Store} (haudited : store.audited = true) (entry : AuditEntry) :
    (store.record entry).log = store.log ++ [entry] := by
  rw [record, if_pos haudited]

private theorem logsQuietly_record {entry : AuditEntry} (h : entry.IsQuiet) :
    store.LogsQuietly (store.record entry) := by
  refine ⟨audited_record store entry, ?_⟩
  unfold record
  split
  · exact ⟨[entry], rfl, List.forall_mem_singleton.mpr h⟩
  · exact ⟨[], (List.append_nil _).symm, by simp⟩

private theorem logsQuietly_apply {change : Change} (h : change.Passes) :
    store.LogsQuietly (change.apply store) := by
  cases change with
  | whitelist category name =>
      simp only [Change.apply, whitelist]
      split
      · exact .of_eq rfl rfl
      · have hadded : store.LogsQuietly
            { store with allowed := store.allowed ++ [(category, category.normalize name)] } :=
          .of_eq rfl rfl
        exact hadded.trans (logsQuietly_record _ (AuditEntry.isQuiet_whitelist _ _))
  | defineNamespace name =>
      simp only [Change.apply, defineNamespace]
      split
      · exact .of_eq rfl rfl
      · have hadded : store.LogsQuietly
            { store with namespaces := store.namespaces ++ [Text.dropLeading '\\' name] } :=
          .of_eq rfl rfl
        exact hadded.trans (logsQuietly_record _ (AuditEntry.isQuiet_namespaceDecl name))
  | defineAlias name shortName =>
      simp only [Change.apply, defineAlias]
      split
      · exact .of_eq rfl rfl
      · have hadded : store.LogsQuietly
            { store with
              aliases := Record.set store.aliases (Category.aliases.normalize name) shortName } :=
          .of_eq rfl rfl
        exact hadded.trans (logsQuietly_record _ (AuditEntry.isQuiet_aliasName _ _))
  | declare name => exact .of_eq rfl rfl
  | noteCheck category name extra =>
      simp only [Change.apply, noteCheck]
      split <;> exact .of_eq rfl rfl
  | _ => exact (h.elim id id).elim

private theorem Evolves.logsQuietly {store after : Store} (h : Evolves Change.Passes store after) :
    store.LogsQuietly after :=
  h.keeps (fun _ mid hchange hmid => hmid.trans (logsQuietly_apply mid hchange)) (.of_eq rfl rfl)

end Store

/-! ## How walks and runs end -/

def WalkFailure.After : WalkFailure Refusal → Store → Store → Prop
  | .misplaced _, store, after => Evolves Change.Passes store after
  | .raised refusal, store, after => refusal.After Change.Passes store after

theorem Visitor.Ends.after {visitor : Visitor Store Refusal} {store : Store} {α : Type}
    {offers : List (Offer Store)} {result : Except (WalkFailure Refusal) α × Store}
    (hleave : ∀ n, Judge.Makes Change.Passes (visitor.leave n))
    (h : visitor.Ends store offers result) :
    Run.Ends (Evolves Change.Passes) WalkFailure.After store result := by
  cases h with
  | ok hjudges => exact (hjudges.evolves hleave).1
  | misplaced hjudges => exact (hjudges.evolves hleave).1
  | raised hjudges hraised =>
      have hends : Refusal.After Change.Passes _ _ _ := (hleave _).error hraised
      exact (Judge.course Change.Passes).fail (hjudges.evolves hleave).1 hends

namespace Gate

def Passing {α : Type} (run : Gate α) : Prop :=
  Run.Leads (Evolves Change.Passes) WalkFailure.After run

namespace Passing

variable {α β : Type}

theorem course : Run.Course (Evolves Change.Passes) WalkFailure.After where
  refl _ := .refl
  trans h h' := h.trans h'
  fail {failure _ _ _} h h' := by
    cases failure with
    | misplaced cause => exact h.trans h'
    | raised refusal => exact (Judge.course Change.Passes).fail h h'

theorem walk (pass : Pass) : Passing (Walk.tree [pass.visitor] pass.tree) := by
  intro store
  have hleave : ∀ n, Judge.Makes Change.Passes (pass.visitor.leave n) :=
    fun n => (pass.leave_makes n).mono Pass.Does.passes
  exact (pass.offers_end store).after hleave

theorem harvestTrusted (trusted : Tree) : Passing (harvestTrusted trusted) :=
  Run.Leads.bind course (walk (.trusted trusted)) fun _ => Run.Leads.pure course ()

theorem harvestOwn (script : Tree) : Passing (harvestOwn script) :=
  Run.Leads.bind course (walk (.own script)) fun _ => Run.Leads.pure course ()

theorem harvests (script trusted : Tree) : Passing (harvests script trusted) :=
  Run.Leads.ite (fun _ => Run.Leads.bind course (harvestTrusted trusted) fun _ => harvestOwn script)
    fun _ => harvestOwn script

theorem validate (script : Tree) : Passing (validate script) :=
  walk (.validation script)

end Passing

def RecordsPass (run : Gate Tree) : Prop :=
  ∀ store,
    match run.exec store with
    | (.ok guarded, after) => ∃ mid, Evolves Change.Passes store mid ∧
        after = mid.record (.passed guarded.length)
    | (.error failure, after) => failure.After store after

theorem RecordsPass.bind {α : Type} {run : Gate α} {next : α → Gate Tree} (hrun : Passing run)
    (hnext : ∀ value, RecordsPass (next value)) : RecordsPass (run >>= next) := by
  intro store
  have hfirst := hrun store
  rw [Run.exec_bind]
  cases hexec : run.exec store with
  | mk result mid =>
      rw [hexec] at hfirst
      cases result with
      | error failure => exact hfirst
      | ok value =>
          have hsecond := hnext value mid
          cases hrest : (next value).exec mid with
          | mk result after =>
              simp only [hrest] at hsecond ⊢
              cases result with
              | error failure => exact Passing.course.fail hfirst hsecond
              | ok guarded =>
                  obtain ⟨last, hlast, hafter⟩ := hsecond
                  exact ⟨last, Evolves.trans hfirst hlast, hafter⟩

private theorem prepare_recordsPass (script trusted : Tree) : RecordsPass
    (prepare script trusted) := by
  have hlog : ∀ guarded : Tree, RecordsPass (do
      log (.passed guarded.length)
      pure guarded) := fun guarded store => ⟨store, .refl, rfl⟩
  rw [prepare_eq]
  refine .bind (.harvests script trusted) fun _ => ?_
  exact .bind (.validate script) hlog

/-! ## The entries of one run -/

/-- What the entries of one run tell of how it ends. -/
inductive Recounts : List AuditEntry → Except (WalkFailure Refusal) Outcome → Prop where
  | passed {quiet : List AuditEntry} {guarded : Tree} (hquiet : ∀ entry ∈ quiet, entry.IsQuiet) :
      Recounts (quiet ++ [.passed guarded.length]) (.ok (.passed guarded))
  | failed {quiet : List AuditEntry} {violation : Violation}
      (hquiet : ∀ entry ∈ quiet, entry.IsQuiet) :
      Recounts (quiet ++ [.ofViolation violation, .failed violation.kind.name])
        (.ok (.failed violation))
  | aborted {quiet : List AuditEntry} {failure : WalkFailure Refusal}
      (hquiet : ∀ entry ∈ quiet, entry.IsQuiet)
      (hfailure : ∀ violation, failure ≠ .raised (.violation violation)) :
      Recounts quiet (.error failure)

def RecountedBy (store : Store) (result : Except (WalkFailure Refusal) Outcome × Store) : Prop :=
  result.2.audited = true ∧
    ∃ calls, result.2.log = store.log ++ calls ∧ Recounts calls result.1

theorem Recounts.kinds_eq {calls : List AuditEntry}
    {outcome : Except (WalkFailure Refusal) Outcome} (h : Recounts calls outcome) :
    calls.filterMap AuditEntry.reportedKind? = calls.filterMap AuditEntry.failedKind? := by
  have hnone : ∀ {quiet : List AuditEntry}, (∀ entry ∈ quiet, entry.IsQuiet) →
      quiet.filterMap AuditEntry.reportedKind? = [] ∧
        quiet.filterMap AuditEntry.failedKind? = [] := fun hquiet =>
    ⟨List.filterMap_eq_nil_iff.mpr fun entry hentry => (hquiet entry hentry).reportedKind?_eq,
      List.filterMap_eq_nil_iff.mpr fun entry hentry => (hquiet entry hentry).failedKind?_eq⟩
  cases h with
  | passed hquiet =>
      rw [List.filterMap_append, List.filterMap_append, (hnone hquiet).1, (hnone hquiet).2]
      rfl
  | failed hquiet =>
      rw [List.filterMap_append, List.filterMap_append, (hnone hquiet).1, (hnone hquiet).2]
      rfl
  | aborted hquiet _ => rw [(hnone hquiet).1, (hnone hquiet).2]

variable {store : Store}

private theorem recounts_of_evolves {failure : WalkFailure Refusal} {after : Store}
    (haudited : store.audited = true) (h : Evolves Change.Passes store after)
    (hfailure : ∀ violation, failure ≠ .raised (.violation violation)) :
    RecountedBy store (.error failure, after) := by
  obtain ⟨calls, hcalls, hquiet⟩ := h.logsQuietly.log
  exact ⟨h.logsQuietly.audited.trans haudited, calls, hcalls, .aborted hquiet hfailure⟩

private theorem check_recounted (haudited : store.audited = true) (script trusted : Tree) :
    RecountedBy store ((check script trusted).exec store) := by
  have hprepare := prepare_recordsPass script trusted store
  rw [exec_check]
  cases hexec : (prepare script trusted).exec store with
  | mk result after =>
      rw [hexec] at hprepare
      cases result with
      | ok guarded =>
          obtain ⟨mid, hmid, rfl⟩ := hprepare
          obtain ⟨calls, hcalls, hquiet⟩ := hmid.logsQuietly.log
          have hmid' : mid.audited = true := hmid.logsQuietly.audited.trans haudited
          refine ⟨(mid.audited_record _).trans hmid', _, ?_, .passed hquiet⟩
          rw [Store.log_record hmid', hcalls, List.append_assoc]
      | error failure =>
          cases failure with
          | misplaced cause => exact recounts_of_evolves haudited hprepare (by simp)
          | raised refusal =>
              cases refusal with
              | malformed cause => exact recounts_of_evolves haudited hprepare (by simp)
              | violation reported =>
                  obtain ⟨mid, hmid, rfl⟩ := hprepare
                  obtain ⟨calls, hcalls, hquiet⟩ := hmid.logsQuietly.log
                  have hmid' : mid.audited = true := hmid.logsQuietly.audited.trans haudited
                  have hreport : ((Change.report reported).apply mid).audited = true :=
                    (mid.audited_record _).trans hmid'
                  refine ⟨(Store.audited_record _ _).trans hreport, _, ?_, .failed hquiet⟩
                  have hlog : ((Change.report reported).apply mid).log =
                      mid.log ++ [.ofViolation reported] := Store.log_record hmid' _
                  rw [Store.log_record hreport, hlog, hcalls]
                  simp

/-! ## The entries of many runs -/

/-- The outcomes of runs on one store, each a script and its trusted code, and the store then. -/
def checkAll : List (Tree × Tree) → Store → List (Except (WalkFailure Refusal) Outcome) × Store
  | [], store => ([], store)
  | run :: rest, store =>
      let (outcome, mid) := (check run.1 run.2).exec store
      let (others, after) := checkAll rest mid
      (outcome :: others, after)

/--
The entries of a run of the gate tell its outcome.  If it passes the script, this is recorded
last, with the number of statements, and no violation is reported; if it rejects the script,
the one report of the violation and the record of the failure come last; and if it fails
otherwise there is no such entry.  So over any runs, the reported kinds are the recorded ones.
-/
theorem runs_recorded_once (haudited : store.audited = true) :
    (∀ script trusted, ∃ calls,
      ((check script trusted).exec store).2.log = store.log ++ calls ∧
        Recounts calls ((check script trusted).exec store).1) ∧
      ∀ runs, ∃ blocks,
        (checkAll runs store).2.log = store.log ++ blocks.flatten ∧
          List.Forall₂ Recounts blocks (checkAll runs store).1 ∧
            blocks.flatten.filterMap AuditEntry.reportedKind? =
              blocks.flatten.filterMap AuditEntry.failedKind? := by
  refine ⟨fun script trusted => (check_recounted haudited script trusted).2, fun runs => ?_⟩
  induction runs generalizing store with
  | nil => exact ⟨[], (List.append_nil _).symm, .nil, rfl⟩
  | cons run rest ih =>
      obtain ⟨hmid, calls, hcalls, hrecounts⟩ := check_recounted haudited run.1 run.2
      obtain ⟨blocks, hblocks, hall, hkinds⟩ := ih hmid
      refine ⟨calls :: blocks, ?_, .cons hrecounts hall, ?_⟩
      · rw [List.flatten_cons, ← List.append_assoc, ← hcalls, ← hblocks]
        rfl
      · rw [List.flatten_cons, List.filterMap_append, List.filterMap_append, hrecounts.kinds_eq,
          hkinds]

end Gate

namespace Sample

def mixedRuns : List (Tree × Tree) :=
  [((nodesOf (.arr [variableEntry "__sandbox"])).map .node, []),
    ((nodesOf (.arr [variableEntry "x"])).map .node, [])]

def loggingStore : Store := Store.empty Options.default true

end Sample

namespace Gate

theorem runs_recorded_once_of_mixed : Sample.loggingStore.audited = true ∧
    ∃ violation guarded after calls more,
      checkAll Sample.mixedRuns Sample.loggingStore =
          ([.ok (.failed violation), .ok (.passed guarded)], after) ∧
        after.log = calls ++ more ∧ Recounts calls (.ok (.failed violation)) ∧
          Recounts more (.ok (.passed guarded)) ∧
            after.log.filterMap AuditEntry.reportedKind? = [.str "sandbox_access"] := by
  obtain ⟨_, hruns⟩ := @runs_recorded_once Sample.loggingStore rfl
  obtain ⟨blocks, hlog, hblocks, _⟩ := hruns Sample.mixedRuns
  have hends : ∃ violation guarded after, checkAll Sample.mixedRuns Sample.loggingStore =
      ([.ok (.failed violation), .ok (.passed guarded)], after) ∧
        after.log.filterMap AuditEntry.reportedKind? = [.str "sandbox_access"] :=
    ⟨_, _, _, rfl, rfl⟩
  obtain ⟨violation, guarded, after, hends, hkinds⟩ := hends
  rw [hends] at hlog hblocks
  cases hblocks with
  | @cons calls _ _ _ hcalls hrest =>
      cases hrest with
      | @cons more _ _ _ hmore hnone =>
          cases hnone
          refine ⟨rfl, violation, guarded, after, calls, more, hends, ?_, hcalls, hmore, hkinds⟩
          rw [hlog]
          simp [Sample.loggingStore, Store.empty]

end Gate

end ScriptSandbox
