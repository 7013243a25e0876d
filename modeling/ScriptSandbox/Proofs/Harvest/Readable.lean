import ScriptSandbox.Proofs.Enforce.Readable
import ScriptSandbox.Proofs.Harvest.References
import ScriptSandbox.Proofs.Harvest.RelaxedOwn

/-!
# What a harvest has to be able to read

Harvests have fewer guards than rules: a written name is spelled whether or not it can be
listed, and what is imported is read without any feature for it.
-/

namespace ScriptSandbox

open Judge

namespace OwnHarvest

@[simp] theorem leave_concludes_iff (n : Node) (store : Store) :
    Judge.Concludes (visitor.leave n) store ↔ Readable store n := by
  rw [← leave_passes_iff]
  refine ⟨fun h => ?_, Concludes.of_passes⟩
  rw [Run.Passes]
  cases hend : ((visitor.leave n).exec store).1 with
  | ok verdict => rfl
  | error refusal =>
      cases refusal with
      | malformed cause => exact absurd hend (h cause)
      | violation reported => exact absurd hend (leave_ne_violation n store reported)

end OwnHarvest

namespace TrustedHarvest

def ImportHarvested (store : Store) (value : Value) : Prop :=
  ∃ n, value = .node n ∧ ∀ written shortName, n.NamesImport written shortName →
    (Value.node written).SpellsNonEmpty store .aliasName

/-- What the harvest of trusted code reads of a node can be read. -/
def Readable (store : Store) (n : Node) : Prop :=
  match n.kind with
  | .expression .funcCall =>
      n.NameReadable "name" ∧
        (isDefineCall n = .ok true → store.isOverridden "define" = false →
          ∃ found, definedConstant (.node n) = .ok found)
  | .expression .constFetch => n.NameReadable "name"
  | .expression .new => n.NameReadable "class"
  | .statement .globalDecl =>
      store.hasWhitelist .variables = true → ∃ names, globalNames n = .ok names
  | .statement .namespaceDecl =>
      n.NamespaceReadable store ∧
        ((n.field "name").name? = none → ∃ items, n.fieldItems "stmts" = .ok items)
  | .statement .useDecl =>
      n.ItemsReadable "uses" Value.ImportReadable (ImportHarvested store)
  | _ => True

variable {store : Store} {n : Node}

private theorem importHarvested_node_iff :
    ImportHarvested store (.node n) ↔ ∀ written shortName, n.NamesImport written shortName →
      (Value.node written).SpellsNonEmpty store .aliasName := by
  simp [ImportHarvested]

private theorem harvest_always (category : Category) (name : String) :
    AlwaysConcludes (Judge.update (harvest category name)) :=
  .update _

private theorem declaration_always (category : Category) (name : Option String) :
    AlwaysConcludes (declaration category name) := by
  cases name with
  | some name => exact .update _
  | none => exact .pure ()

private theorem reference_concludes (category : Category) (field : String) (n : Node) :
    ConcludesIff store (reference category (n.field field)) (n.NameReadable field) := by
  unfold reference Node.NameReadable
  cases (n.field field).name? with
  | none => exact (AlwaysConcludes.pure ()).iff_true.congr (by simp)
  | some written =>
      refine (Enforce.spelled_concludes fun text => harvest_always category text).congr ?_
      simp

private theorem constant_concludes_iff :
    (constant n).Concludes store ↔ ∃ isDefine, isDefineCall n = .ok isDefine ∧
      (isDefine = true → store.isOverridden "define" = false →
        ∃ found, definedConstant (.node n) = .ok found) := by
  unfold constant
  rw [concludes_read_bind]
  refine exists_congr fun isDefine => and_congr_right fun _ => ?_
  rw [concludes_if_iff]
  refine forall_congr' fun _ => ?_
  change (if _ then _ else _ : Judge Unit).Concludes store ↔ _
  rw [concludes_if_iff, concludes_read_bind, Bool.not_eq_true']
  refine forall_congr' fun _ => exists_congr fun found => and_iff_left ?_
  cases found with
  | some name => exact harvest_always .constants name store
  | none => exact concludes_pure ()

private theorem call_concludes_iff (hkind : n.kind = .expression .funcCall) :
    (call n).Concludes store ↔ n.NameReadable "name" ∧
      (isDefineCall n = .ok true → store.isOverridden "define" = false →
        ∃ found, definedConstant (.node n) = .ok found) := by
  rw [call_eq]
  unfold reference Node.NameReadable
  cases hname : (n.field "name").name? with
  | none =>
      have hcall : isDefineCall n = .ok false := by simp [isDefineCall, hname]
      change (constant n).Concludes store ↔ _
      simp [constant_concludes_iff, hcall]
  | some written =>
      have hcall : isDefineCall n =
          written.nameText >>= fun text => .ok (decide (Text.lower text = "define")) := by
        simp only [isDefineCall, hkind, hname]
        rfl
      have hconstant : ∀ text, written.nameText = .ok text →
          ((constant n).Concludes (harvest .functions text store) ↔
            (isDefineCall n = .ok true → store.isOverridden "define" = false →
              ∃ found, definedConstant (.node n) = .ok found)) := by
        intro text htext
        have hgains : store.Gains _ [] (harvest .functions text store) :=
          gains_harvest .functions text
        have hruntime := hgains.grows.isOverridden_eq
        rw [constant_concludes_iff, hcall, htext, hruntime]
        simp [bind, Except.bind]
      rw [bind_assoc, concludes_read_bind]
      simp only [Option.some.injEq, forall_eq', Value.Spells]
      constructor
      · rintro ⟨text, htext, h⟩
        exact ⟨⟨text, htext⟩, (hconstant text htext).mp h⟩
      · rintro ⟨⟨text, htext⟩, h⟩
        exact ⟨text, htext, (hconstant text htext).mpr h⟩

private theorem function_always (n : Node) : AlwaysConcludes (function n) := by
  unfold function
  split
  · refine .get_bind fun mid => .ite (.bind (.reject _ _ _) fun _ => ?_) ?_
    all_goals exact .bind (.update _) fun _ => .update _
  · exact .pure ()

theorem variableRef_always (name : Option String) : AlwaysConcludes (variableRef name) :=
  .get_bind fun _ => .ite (declaration_always _ _) (.pure ())

private theorem globals_concludes_iff :
    (globals n).Concludes store ↔
      (store.hasWhitelist .variables = true → ∃ names, globalNames n = .ok names) := by
  change (if _ then _ else _ : Judge Unit).Concludes store ↔ _
  rw [concludes_if_iff, concludes_read_bind]
  refine forall_congr' fun _ => exists_congr fun names => and_iff_left ?_
  exact AlwaysConcludes.update _ store

theorem namespaceDecl_concludes (n : Node) :
    ConcludesIff store (namespaceDecl n) (n.NamespaceReadable store ∧
      ((n.field "name").name? = none → ∃ items, n.fieldItems "stmts" = .ok items)) := by
  unfold namespaceDecl Node.NamespaceReadable
  cases (n.field "name").name? with
  | none =>
      refine (ConcludesIff.bind_always (read_decides (n.fieldItems "stmts")).concludes
        fun _ => .pure _).congr ?_
      simp
  | some written =>
      refine (ConcludesIff.read_bind fun text _ => Enforce.flattening_concludes n text).congr ?_
      simp

theorem useItem_of_import {m written : Node} {shortName : Option String}
    (h : m.NamesImport written shortName) (n : Node) :
    useItem n (.node m) = (do
      let text ← Judge.read written.nameText
      Judge.nonEmptyName .aliasName text (some n)
      Judge.update (·.defineAlias text shortName)) := by
  obtain ⟨hkind, hname, hshort⟩ := h
  simp only [useItem, Value.member, Value.kind, read_ok_bind, hkind, hname, hshort, if_true]

theorem useItem_of_no_import {m : Node}
    (h : ∀ written shortName, ¬ m.NamesImport written shortName) (n : Node) :
    useItem n (.node m) = pure () := by
  simp only [useItem, Value.member, Value.kind, read_ok_bind]
  split
  next hkind =>
    split
    next hname hshort => exact absurd ⟨hkind, hname, hshort⟩ (h _ _)
    next => rfl
  next => rfl

theorem useItem_decides (n : Node) (item : Value) :
    Decides store (useItem n item) item.ImportReadable (fun _ => ImportHarvested store item) := by
  cases item with
  | node m =>
      rw [Value.importReadable_node_iff, importHarvested_node_iff]
      by_cases himport : ∃ written shortName, m.NamesImport written shortName
      · obtain ⟨written, shortName, himport⟩ := himport
        rw [useItem_of_import himport, himport.forall_iff, himport.forall_iff]
        refine (Decides.read_bind fun text _ => .guard_bind (nonEmptyName_decides _ text _)
          fun _ => update_decides fun _ h => h.defineAlias text shortName).congr ?_ fun _ => ?_
        · simp [Value.Spells, Node.nameText]
        · simp [Value.SpellsNonEmpty, Node.nameText]
      · simp only [not_exists] at himport
        rw [useItem_of_no_import himport]
        exact (pure_decides ()).congr (by simp [himport]) (by simp [himport])
  | _ =>
      exact Enforce.decides_of_not_node rfl (by simp [Value.ImportReadable])
        (by simp [ImportHarvested])

theorem useDecl_concludes (n : Node) :
    ConcludesIff store (useDecl n)
      (n.ItemsReadable "uses" Value.ImportReadable (ImportHarvested store)) :=
  .read_bind fun items _ => .bind_always (.forM (useItem_decides n) items) fun _ => .pure _

@[simp] theorem node_concludes_iff (n : Node) (store : Store) :
    (node n).Concludes store ↔ Readable store n := by
  have hkeep {judge : Judge Unit} {P : Prop} (h : judge.Concludes store ↔ P) :
      (judge >>= fun _ => pure Verdict.keep).Concludes store ↔ P := by
    rw [concludes_bind, h]
    exact and_iff_left fun _ _ _ => concludes_pure _
  have halways {judge : Judge Unit} (h : AlwaysConcludes judge) :
      (judge >>= fun _ => pure Verdict.keep).Concludes store ↔ True :=
    hkeep (iff_true_intro (h store))
  unfold node
  split
  case h_13 =>
    simp only [Readable]
    exact iff_true_intro (concludes_pure _)
  all_goals
    rename_i hkind
    simp only [Readable, hkind]
  · exact hkeep (call_concludes_iff hkind)
  · exact halways (function_always n)
  · exact halways (variableRef_always _)
  · exact halways (variableRef_always _)
  · exact hkeep (reference_concludes .constants "name" n store .start)
  · exact halways (declaration_always _ _)
  · exact halways (declaration_always _ _)
  · exact halways (declaration_always _ _)
  · exact hkeep (reference_concludes .types "class" n store .start)
  · exact hkeep globals_concludes_iff
  · exact namespaceDecl_concludes n store .start
  · exact useDecl_concludes n store .start

end TrustedHarvest

end ScriptSandbox
