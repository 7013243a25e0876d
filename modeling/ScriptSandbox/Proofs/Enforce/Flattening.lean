import ScriptSandbox.Proofs.Enforce.Generated
import ScriptSandbox.Proofs.Enforce.Verdicts
import ScriptSandbox.Proofs.Walk.Flattening

/-!
# Judging flattens

Judging a script removes its imports and puts the statements of its namespaces in their
place, and gives one result to every other node.  Nothing that it generates is a namespace or
an import.
-/

namespace ScriptSandbox

open Judge

variable {store : Store}

private theorem Kind.not_givesWay_of_rule {kind : Kind} (hnamespace : kind.rule ≠ .namespaceDecl)
    (huse : kind.rule ≠ .useDecl) : ¬ kind.GivesWay := by
  rintro (rfl | rfl)
  · exact hnamespace rfl
  · exact huse rfl

theorem Kind.eq_namespaceDecl {kind : Kind} (h : kind.rule = .namespaceDecl) :
    kind = .statement .namespaceDecl := by
  cases kind with
  | statement which =>
      cases which with
      | namespaceDecl => rfl
      | _ => cases h
  | expression which => cases which <;> cases h
  | literal which => cases which <;> cases h
  | _ => cases h

theorem Kind.eq_useDecl {kind : Kind} (h : kind.rule = .useDecl) : kind = .statement .useDecl := by
  cases kind with
  | statement which =>
      cases which with
      | useDecl => rfl
      | _ => cases h
  | expression which => cases which <;> cases h
  | literal which => cases which <;> cases h
  | _ => cases h

/-- What takes the place of a node that does not give way. -/
inductive Enforce.Result (store : Store) (n : Node) : Node → Prop where
  | generated (h : n.generated = true) : Result store n n
  | kept (h : n.Meets store) : Result store n n
  | replaced {result : Node} (h : Outcome store n (.replace result)) : Result store n result

theorem Outcome.flattens {n : Node} {verdict : Verdict} (houtcome : Outcome store n verdict) :
    Flattens (Enforce.Result store) n verdict := by
  have hreplaced : ∀ {result : Node}, n.kind.rule ≠ .namespaceDecl → n.kind.rule ≠ .useDecl →
      Outcome store n (.replace result) → Flattens (Enforce.Result store) n (.replace result) :=
    fun hnamespace huse h => ⟨Kind.not_givesWay_of_rule hnamespace huse, .replaced h⟩
  have h := houtcome
  cases houtcome with
  | kept hmeets =>
      have hrule : n.kind.rule.Meets store n := hmeets
      refine ⟨Kind.not_givesWay_of_rule (fun hnamespace => ?_) (fun huse => ?_), .kept hmeets⟩
      · rw [hnamespace] at hrule
        exact hrule
      · rw [huse] at hrule
        exact hrule
  | called hcall => cases hcall <;> exact hreplaced (by simp_all) (by simp_all) h
  | guarded hrule => exact hreplaced (by simp [hrule]) (by simp [hrule]) h
  | imported hrule => exact hreplaced (by simp [hrule]) (by simp [hrule]) h
  | substituted hrule =>
      obtain hrule | hrule := hrule <;> exact hreplaced (by simp [hrule]) (by simp [hrule]) h
  | flattened hrule hitems => exact ⟨Kind.eq_namespaceDecl hrule, hitems⟩
  | dropped hrule => exact Kind.eq_useDecl hrule

theorem Enforce.node_flattens {n : Node} (h : n.kind.GivesWay → n.generated = false) :
    Run.Yields (Reaches store) (node n) (Flattens (Enforce.Result store) n) := by
  cases hgenerated : n.generated with
  | true =>
      have hkept : node n = pure .keep := by rw [node, hgenerated, if_pos rfl]
      rw [hkept]
      refine Run.Yields.pure ⟨fun hkind => ?_, .generated hgenerated⟩
      exact Bool.false_ne_true ((h hkind).symm.trans hgenerated)
  | false => exact (node_yields hgenerated).mono fun _ houtcome => houtcome.flattens

/-- No node in the value is a namespace or an import. -/
def Value.StaysWhole (value : Value) : Prop :=
  ScriptSandbox.StaysWhole value.nodes

private theorem Value.staysWhole_eq_each : StaysWhole = Each fun n => ¬ n.kind.GivesWay := rfl

namespace Value

theorem staysWhole_of_nodes_eq_nil {value : Value} (h : value.nodes = []) : value.StaysWhole :=
  each_of_nodes_eq_nil h

@[simp] theorem staysWhole_node {n : Node} : (Value.node n).StaysWhole ↔
    ¬ n.kind.GivesWay ∧ ∀ entry ∈ n.fields, entry.2.StaysWhole :=
  each_node

theorem Settled.staysWhole {value : Value} (h : value.Settled StaysWhole) : value.StaysWhole := by
  rw [staysWhole_eq_each] at h
  exact h.each

end Value

section

variable {n : Node} (h : n.Settled Value.StaysWhole)

include h

theorem Node.Settled.items_stayWhole {name : String} {items : List Value}
    (hitems : n.fieldItems name = .ok items) : ∀ item ∈ items, item.StaysWhole := by
  rw [Value.staysWhole_eq_each] at h
  exact (h.each_field name).items hitems

theorem Outcome.places_whole {verdict : Verdict} (houtcome : Outcome store n verdict) :
    verdict.Places Value.StaysWhole n := by
  have hflattens := houtcome.flattens
  rw [Value.staysWhole_eq_each] at h ⊢
  refine houtcome.places_each ?_ ?_ h ?_ ?_
  · rintro m - hplain (hkind | hkind)
    · exact hplain _ hkind
    · exact hplain _ hkind
  · intro m hm
    rwa [Node.kind_fresh]
  · rintro rfl
    exact hflattens.1
  · intro uses hrule _ _ hkind
    change n.kind.GivesWay at hkind
    obtain hkind | hkind := hkind <;> rw [hkind] at hrule <;> cases hrule

end

end ScriptSandbox
