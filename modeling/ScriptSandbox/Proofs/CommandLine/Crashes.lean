import ScriptSandbox.CommandLine.Command
import ScriptSandbox.Proofs.Gate.Shaped
import ScriptSandbox.Proofs.Gate.Validation

/-!
# What the command dies of

The command reports what it cannot load, and what the gate says of what it has loaded.
Nothing catches what stops a check without an outcome, nor the fault of a script that passes
and has no dump.  Neither happens to a script of shaped nodes.
-/

namespace ScriptSandbox

open Gate

namespace CommandLine

/-- The command dies, and not of a verdict that its place cannot take. -/
inductive Outcome.Crashes : Outcome → Prop where
  | refused (refusal : Refusal) : Crashes (.failed (.raised refusal))
  | notDumped (fault : DumpFault) : Crashes (.notDumped fault)

section

variable {inputs : Inputs} {audited : Bool}

private theorem judge_crashes_iff :
    (judge inputs audited).1.Crashes ↔
      ¬ Readable (inputs.script.map .node) (inputs.prelude.map .node)
          (Store.ofConfig inputs.config audited) ∨
        ∃ guarded after fault,
          (check (inputs.script.map .node) (inputs.prelude.map .node)).exec
              (Store.ofConfig inputs.config audited) = (.ok (.passed guarded), after) ∧
            dumpableNodes guarded = .error fault := by
  rw [← check_ends_iff, judge]
  cases (check (inputs.script.map .node) (inputs.prelude.map .node)).exec
      (Store.ofConfig inputs.config audited) with
  | mk result after =>
      cases result with
      | error failure =>
          cases failure with
          | misplaced cause => exact iff_of_false nofun (by simp)
          | raised refusal => exact iff_of_true (.refused refusal) (by simp)
      | ok outcome =>
          cases outcome with
          | failed violation => exact iff_of_false nofun (by simp)
          | passed guarded =>
              cases hdump : dumpableNodes guarded with
              | ok nodes =>
                  dsimp only
                  rw [hdump]
                  refine iff_of_false nofun ?_
                  rintro (h | ⟨_, _, fault, hpassed, hfault⟩)
                  · exact h (.inl ⟨_, rfl⟩)
                  · cases hpassed
                    rw [hdump] at hfault
                    cases hfault
              | error fault =>
                  dsimp only
                  rw [hdump]
                  exact iff_of_true (.notDumped fault) (.inr ⟨guarded, after, fault, rfl, hdump⟩)

private theorem judge_not_crashes_of_shaped (hraw : ∀ n ∈ inputs.script, n.isRaw = true)
    (hscript : ∀ n ∈ visitedIn (inputs.script.map .node), n.Shaped)
    (hprelude : ∀ n ∈ visitedIn (inputs.prelude.map .node), n.Shaped) :
    ¬ (judge inputs audited).1.Crashes := by
  rw [judge_crashes_iff]
  rintro (hstuck | ⟨guarded, after, fault, hpassed, hfault⟩)
  · exact hstuck (readable_of_shaped hscript hprelude)
  · have hhides : ∀ n ∈ inputs.script, n.hidesNode = false :=
      fun n hn => Node.hidesNode_of_isRaw (hraw n hn)
    obtain ⟨dumped, hdumped⟩ := dumpable_of_shaped hscript hhides hpassed
    rw [hfault] at hdumped
    cases hdumped

end

variable {read : Path → Except FileFault String} {file : String} {paths : Paths}

private theorem loadScript_isRaw {nodes : List Node} (h : loadScript read file = .ok nodes) :
    ∀ n ∈ nodes, n.isRaw = true := by
  obtain ⟨text, _, hread⟩ := bind_eq_ok.mp h
  have hread := mapError_eq_ok.mp hread
  unfold readTree at hread
  split at hread
  · cases hread
  · exact loadTree_isRaw (mapError_eq_ok.mp hread)

private theorem script_isRaw_of_load {inputs : Inputs} (h : load read file paths = .ok inputs) :
    ∀ n ∈ inputs.script, n.isRaw = true := by
  obtain ⟨config, _, h⟩ := bind_eq_ok.mp h
  obtain ⟨nodes, hnodes, h⟩ := bind_eq_ok.mp h
  obtain ⟨prelude, _, h⟩ := bind_eq_ok.mp h
  cases h
  exact loadScript_isRaw hnodes

private theorem run_crashes_iff :
    (run read file paths).1.Crashes ↔ ∃ inputs, load read file paths = .ok inputs ∧
      (judge inputs paths.auditLog.isSome).1.Crashes := by
  rw [run]
  cases load read file paths with
  | error fault => exact iff_of_false nofun (by simp)
  | ok inputs => simp

variable (read : Path → Except FileFault String) (file : String) (paths : Paths)

/--
A check has an outcome or a misplaced verdict exactly if its passes can read all that they are
offered, and the command dies of nothing else exactly if besides what passes has a dump.  Both
are so if all nodes that a walk comes to are shaped, whatever the store permits.
-/
theorem ends_iff_readable (script trusted : Tree) (store : Store) :
    (((∃ outcome, ((check script trusted).exec store).1 = .ok outcome) ∨
        ∃ cause, ((check script trusted).exec store).1 = .error (.misplaced cause)) ↔
      Readable script trusted store) ∧
    ((∀ n ∈ visitedIn script ++ visitedIn trusted, n.Shaped) → Readable script trusted store) ∧
    ((run read file paths).1.Crashes ↔ ∃ inputs, load read file paths = .ok inputs ∧
      (¬ Readable (inputs.script.map .node) (inputs.prelude.map .node)
          (Store.ofConfig inputs.config paths.auditLog.isSome) ∨
        ∃ guarded after fault,
          (check (inputs.script.map .node) (inputs.prelude.map .node)).exec
              (Store.ofConfig inputs.config paths.auditLog.isSome) =
                (.ok (.passed guarded), after) ∧
            dumpableNodes guarded = .error fault)) ∧
    ((∀ inputs, load read file paths = .ok inputs →
        ∀ n ∈ visitedIn (inputs.script.map .node) ++ visitedIn (inputs.prelude.map .node),
          n.Shaped) → ¬ (run read file paths).1.Crashes) := by
  refine ⟨check_ends_iff, fun hshaped => ?_, ?_, fun hshaped => ?_⟩
  · obtain ⟨hscript, htrusted⟩ := List.forall_mem_append.mp hshaped
    exact readable_of_shaped hscript htrusted
  · simp only [run_crashes_iff, judge_crashes_iff]
  · rw [run_crashes_iff]
    rintro ⟨inputs, hload, hcrashes⟩
    obtain ⟨hscript, hprelude⟩ := List.forall_mem_append.mp (hshaped inputs hload)
    exact judge_not_crashes_of_shaped (script_isRaw_of_load hload) hscript hprelude hcrashes

end CommandLine

namespace Sample

def constantsStore : Store :=
  Store.empty (Options.default.setFlag (.allow .constants) true) false

/-- A call whose argument is a text where a parser puts a node. -/
def bareDefinition : Json :=
  .arr [entry "Expr_FuncCall" [("name", nameEntry "define"), ("args", .arr [.str "LIMIT"])]]

def definition : Json :=
  .arr [callEntry (nameEntry "define") (entry "Scalar_String" [("value", .str "LIMIT")])]

def readEmptyStatement (_ : CommandLine.Path) : Except CommandLine.FileFault String :=
  .ok "[\x7b\"nodeType\": \"Stmt_Nop\"\x7d]"

def onlyScript : CommandLine.Paths := ⟨none, none, none, none, none⟩

end Sample

namespace CommandLine

theorem ends_of_definition :
    (∀ n ∈ visitedIn (Sample.treeOf Sample.definition) ++ visitedIn [], n.Shaped) ∧
      ((∃ outcome, ((check (Sample.treeOf Sample.definition) []).exec Sample.constantsStore).1 =
          .ok outcome) ∨
        ∃ cause, ((check (Sample.treeOf Sample.definition) []).exec Sample.constantsStore).1 =
          .error (.misplaced cause)) ∧
      (∃ inputs, load Sample.readEmptyStatement "tree.json" Sample.onlyScript = .ok inputs ∧
        inputs.script.length = 1) ∧
      ¬ (run Sample.readEmptyStatement "tree.json" Sample.onlyScript).1.Crashes := by
  have hload : ∃ inputs, load Sample.readEmptyStatement "tree.json" Sample.onlyScript = .ok inputs ∧
      inputs.script.length = 1 ∧
      ∀ n ∈ visitedIn (inputs.script.map .node) ++ visitedIn (inputs.prelude.map .node),
        n.Shaped := ⟨_, rfl, rfl, by decide⟩
  have hshaped : ∀ n ∈ visitedIn (Sample.treeOf Sample.definition) ++ visitedIn [], n.Shaped := by
    decide
  obtain ⟨hends, hreads, _, hcommand⟩ := ends_iff_readable Sample.readEmptyStatement "tree.json"
    Sample.onlyScript (Sample.treeOf Sample.definition) [] Sample.constantsStore
  obtain ⟨inputs, hload, hlength, hinputs⟩ := hload
  refine ⟨hshaped, hends.mpr (hreads hshaped), ⟨inputs, hload, hlength⟩, hcommand ?_⟩
  intro others hothers
  rw [hload] at hothers
  cases hothers
  exact hinputs

/-- The first argument is asked for its kind, and is a text. -/
theorem check_dies_of_bare_definition :
    loadTree true Sample.bareDefinition = .ok (Sample.nodesOf Sample.bareDefinition) ∧
      ((check (Sample.treeOf Sample.bareDefinition) []).exec Sample.constantsStore).1 =
        .error (.raised (.malformed .member)) :=
  ⟨rfl, rfl⟩

end CommandLine

end ScriptSandbox
