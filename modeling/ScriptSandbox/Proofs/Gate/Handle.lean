import ScriptSandbox.Proofs.Gate.Validation

/-!
# The handle in guarded trees

The handle is the variable through which a guarded script reaches the runtime.  Every
method call on it is one that judging has built.  No variable and no use of a closure
names it; but parameters, static variables and caught errors may, since their rules
never compare a name with the handle.
-/

namespace ScriptSandbox

def Kind.variableField? : Kind → Option String
  | .expression .variableRef => some "name"
  | .expression .closureUse => some "var"
  | .param => some "name"
  | .statement .staticVar => some "name"
  | .statement .catchClause => some "var"
  | _ => none

/-- The kinds that bind a variable whose name is not compared with the handle. -/
def Kind.bindsFreely : Kind → Bool
  | .param => true
  | .statement .staticVar => true
  | .statement .catchClause => true
  | _ => false

def Node.NamesVariable (name : String) (n : Node) : Prop :=
  ∃ field, n.kind.variableField? = some field ∧ n.field field = .str name

instance (name : String) (n : Node) : Decidable (n.NamesVariable name) :=
  match h : n.kind.variableField? with
  | some field =>
      decidable_of_iff ((n.field field).text? = some name) (by
        simp [Node.NamesVariable, h, Value.text?_eq_some_iff])
  | none => isFalse fun ⟨_, hfield, _⟩ => by
      rw [h] at hfield
      cases hfield

variable {store : Store}

private theorem Node.bindsFreely_of_meets {n : Node} (h : n.Meets store)
    (hnames : n.NamesVariable store.handle) : n.kind.bindsFreely = true := by
  obtain ⟨field, hfield, hname⟩ := hnames
  unfold Kind.variableField? at hfield
  split at hfield
  next hkind =>
    cases hfield
    exact absurd ⟨hkind, hname⟩ (Node.not_isHandle_of_meets h)
  next hkind =>
    cases hfield
    rw [Node.Meets, hkind] at h
    exact absurd (congrArg Value.text? hname) h
  next hkind => rw [hkind]; rfl
  next hkind => rw [hkind]; rfl
  next hkind => rw [hkind]; rfl
  next => cases hfield

private theorem Node.namesVariable_of_stemsFrom {n origin source : Node} {name : String}
    (hstems : n.StemsFrom origin) (houtline : Walk.SameOutline source origin)
    (h : n.NamesVariable name) : source.kind = n.kind ∧ source.NamesVariable name := by
  obtain ⟨field, hfield, hname⟩ := h
  have hkind : n.kind = source.kind := hstems.kind.trans houtline.kind
  have hplain : field ≠ "class" ∧ field ≠ "uses" := by
    unfold Kind.variableField? at hfield
    split at hfield <;> cases hfield <;> decide
  have hfresh := hstems.field field hplain.1 hplain.2
  rw [hname, Value.fresh_scalar, eq_comm, Value.fresh_eq_scalar_iff] at hfresh
  refine ⟨hkind.symm, field, ?_, (houtline.scalar field (.str name)).mp hfresh⟩
  rw [← hkind]
  exact hfield

namespace Enforce

theorem variableRef_refuses {n : Node} (hname : n.field "name" = .str store.handle)
    (verdict : Verdict) : ((variableRef n).exec store).1 ≠ .ok verdict := by
  unfold variableRef
  rw [hname]
  change ((if store.handle = store.handle then _ else _ : Judge Verdict).exec store).1 ≠ _
  rw [if_pos rfl]
  exact Judge.exec_reject_ne_ok _ _ _ verdict

private theorem closureUse_refuses {n : Node} (hname : n.field "var" = .str store.handle)
    (verdict : Verdict) : ((keeping (closureUse n)).exec store).1 ≠ .ok verdict := by
  have hrefuses : ∀ result, ((closureUse n).exec store).1 ≠ .ok result := by
    change ∀ result,
      ((if (n.field "var").text? = some store.handle then _ else _ : Judge Unit).exec store).1 ≠ _
    have hvar : (Value.str store.handle).text? = some store.handle := rfl
    rw [hname, if_pos hvar]
    exact Judge.exec_reject_ne_ok _ _ _
  intro h
  rw [keeping, Run.exec_bind] at h
  split at h
  next result mid hexec => exact hrefuses result (congrArg Prod.fst hexec)
  next => cases h

private theorem keeping_passes {judge : Judge Unit} {after : Store}
    (h : judge.exec store = (.ok (), after)) :
    ((keeping judge).exec store).1 = .ok .keep := by
  rw [keeping, Run.exec_bind, h]
  rfl

private theorem staticVar_passes {n : Node} (h : Rule.staticVar.Meets store n) :
    ((keeping (staticVar n)).exec store).1 = .ok .keep := by
  obtain ⟨hallow, name, hname, haccepts⟩ := h
  have hpass : (staticVar n).exec store = (.ok (), store.noteCheck .variables name []) := by
    rw [staticVar, Run.exec_bind, Judge.exec_require _ n hallow, hname]
    exact Judge.exec_name (some n) haccepts
  exact keeping_passes hpass

end Enforce

private theorem Kind.rule_of_bindsFreely {kind : Kind} (h : kind.bindsFreely = true) :
    kind.rule = .exempt ∨ kind.rule = .staticVar ∨ kind.rule = .keyword "try" := by
  unfold Kind.bindsFreely at h
  split at h
  · exact .inl rfl
  · exact .inr (.inl rfl)
  · exact .inr (.inr rfl)
  · cases h

private theorem Outcome.meets_of_bindsFreely {n : Node} {verdict : Verdict}
    (h : Outcome store n verdict) (hfree : n.kind.bindsFreely = true) : n.Meets store := by
  have hrule := Kind.rule_of_bindsFreely hfree
  cases h with
  | kept hmeets => exact hmeets
  | called hcall => cases hcall <;> simp_all
  | guarded => simp_all
  | imported => simp_all
  | substituted hclass => rcases hclass with hclass | hclass <;> simp [hclass] at hrule
  | flattened => simp_all
  | dropped => simp_all

theorem Enforce.node_passes_iff {n : Node} (hnew : n.generated = false)
    (hnames : n.NamesVariable store.handle) :
    (∃ verdict, ((Enforce.node n).exec store).1 = .ok verdict) ↔
      n.kind.bindsFreely = true ∧ n.Meets store := by
  constructor
  · rintro ⟨verdict, hverdict⟩
    have hfree : n.kind.bindsFreely = true := by
      rw [Enforce.node, hnew, if_neg Bool.false_ne_true] at hverdict
      obtain ⟨field, hfield, hname⟩ := hnames
      unfold Kind.variableField? at hfield
      split at hfield
      next hkind =>
        cases hfield
        rw [hkind] at hverdict
        exact absurd hverdict (Enforce.variableRef_refuses hname verdict)
      next hkind =>
        cases hfield
        rw [hkind] at hverdict
        exact absurd hverdict (Enforce.closureUse_refuses hname verdict)
      next hkind => rw [hkind]; rfl
      next hkind => rw [hkind]; rfl
      next hkind => rw [hkind]; rfl
      next => cases hfield
    have houtcome := (Enforce.node_yields hnew store .start).2 verdict hverdict
    exact ⟨hfree, houtcome.meets_of_bindsFreely hfree⟩
  · rintro ⟨hfree, hmeets⟩
    refine ⟨.keep, ?_⟩
    rw [Enforce.node, hnew, if_neg Bool.false_ne_true]
    unfold Node.Meets at hmeets
    rcases Kind.rule_of_bindsFreely hfree with hrule | hrule | hrule
    · rw [hrule]
      rfl
    · rw [hrule] at hmeets ⊢
      exact Enforce.staticVar_passes hmeets
    · rw [hrule] at hmeets ⊢
      exact Enforce.keeping_passes (Judge.exec_name (some n) hmeets)

namespace Gate

variable {nodes : List Node} {guarded : Tree} {after : Store}

/-- A method call on the handle is a call on the runtime, built for a node that was offered. -/
theorem handle_calls_are_runtime_calls (h : Plain nodes)
    (hrun : (validate (nodes.map .node)).exec store = (.ok guarded, after)) :
    ∀ n ∈ nodesIn guarded, n.CallsHandle store.handle →
      ∃ origin call, Offered store nodes origin ∧ RuntimeCall store origin call ∧
        n.fresh = call.fresh := by
  obtain ⟨_, hsound⟩ := validate_sound_of_plain h hrun
  exact fun n hn hcalls => (hsound n hn).calls hcalls

theorem handle_calls_of_script : ∃ after n origin call,
    (validate ((Sample.nodesOf Sample.script).map .node)).exec Sample.store =
        (.ok (Sample.guardedOf Sample.store Sample.script), after) ∧
      n ∈ nodesIn (Sample.guardedOf Sample.store Sample.script) ∧
      n.CallsHandle Sample.store.handle ∧
      Offered Sample.store (Sample.nodesOf Sample.script) origin ∧
      RuntimeCall Sample.store origin call ∧ n.fresh = call.fresh := by
  obtain ⟨after, hrun⟩ := Sample.exec_validate Sample.script_passes
  have hcall : (nodesIn (Sample.guardedOf Sample.store Sample.script)).any
      (fun n => n.CallsHandle Sample.store.handle) = true := by decide +kernel
  obtain ⟨n, hn, hcalls⟩ := List.any_eq_true.mp hcall
  have hcalls := of_decide_eq_true hcalls
  obtain ⟨origin, call, horigin, hbuilt, hfresh⟩ :=
    handle_calls_are_runtime_calls Sample.plain_script hrun n hn hcalls
  exact ⟨after, n, origin, call, hrun, hn, hcalls, horigin, hbuilt, hfresh⟩

/--
No variable and no use of a closure in a guarded tree names the handle.  What else names
it was written in the tree as the parameter, static variable or caught error that it
is, and judging lets such a node pass whenever the policy of its kind is met.
-/
theorem handle_named_only_by_free_binders (h : Plain nodes)
    (hrun : (validate (nodes.map .node)).exec store = (.ok guarded, after)) :
    (∀ n ∈ nodesIn guarded, n.isSynthetic = false → n.NamesVariable store.handle →
        n.kind.bindsFreely = true ∧
          ∃ source ∈ nodes.flatMap Node.nodes,
            source.kind = n.kind ∧ source.NamesVariable store.handle) ∧
      ((∀ n ∈ nodesIn guarded, n.isSynthetic = false → ¬ n.NamesVariable store.handle) ↔
        ∀ n ∈ nodesIn guarded, n.isSynthetic = false → n.kind.bindsFreely = true →
          ¬ n.NamesVariable store.handle) ∧
      ∀ n : Node, n.generated = false → n.NamesVariable store.handle →
        ((∃ verdict, ((Enforce.node n).exec store).1 = .ok verdict) ↔
          n.kind.bindsFreely = true ∧ n.Meets store) := by
  obtain ⟨_, hsound⟩ := validate_sound_of_plain h hrun
  have hfree : ∀ n ∈ nodesIn guarded, n.isSynthetic = false → n.NamesVariable store.handle →
      n.kind.bindsFreely = true := fun n hn hmark hnames =>
    Node.bindsFreely_of_meets ((hsound n hn).meets hmark) hnames
  refine ⟨fun n hn hmark hnames => ⟨hfree n hn hmark hnames, ?_⟩, ?_, ?_⟩
  · obtain ⟨origin, ⟨source, hsource, hleaves⟩, hstems⟩ := (hsound n hn).stems hmark
    exact ⟨source, hsource, Node.namesVariable_of_stemsFrom hstems hleaves.sameOutline hnames⟩
  · exact ⟨fun hnone n hn hmark _ => hnone n hn hmark,
      fun hnone n hn hmark hnames => hnone n hn hmark (hfree n hn hmark hnames) hnames⟩
  · exact fun n hnew hnames => Enforce.node_passes_iff hnew hnames

end Gate

namespace Sample

/-- A function that binds the handle as a parameter, a static variable and a caught error. -/
def binders : Json :=
  .arr [entry "Stmt_Function" [("name", .str "f"),
    ("params", .arr [entry "Param" [("name", .str "__sandbox")]]),
    ("stmts", .arr [
      entry "Stmt_Static" [("vars",
        .arr [entry "Stmt_StaticVar" [("name", .str "__sandbox")]])],
      entry "Stmt_TryCatch" [("stmts", .arr []), ("catches",
        .arr [entry "Stmt_Catch" [("types", .arr []), ("var", .str "__sandbox"),
          ("stmts", .arr [])]])]])]]

def staticStore : Store :=
  Store.empty ((Options.default.setFlag (.allow .functions) true).setFlag
    (.allow .staticVariables) true) false

private theorem plain_binders : Plain (nodesOf binders) :=
  plain_nodesOf (by decide) (by decide)

private theorem binders_pass :
    ((Gate.validate ((nodesOf binders).map .node)).exec staticStore).1.isOk = true := by
  decide

end Sample

namespace Gate

theorem handle_named_in_binders : ∃ after n,
    (validate ((Sample.nodesOf Sample.binders).map .node)).exec Sample.staticStore =
        (.ok (Sample.guardedOf Sample.staticStore Sample.binders), after) ∧
      n ∈ nodesIn (Sample.guardedOf Sample.staticStore Sample.binders) ∧
      n.isSynthetic = false ∧ n.NamesVariable Sample.staticStore.handle ∧
      n.kind.bindsFreely = true ∧
      ∃ source ∈ (Sample.nodesOf Sample.binders).flatMap Node.nodes,
        source.kind = n.kind ∧ source.NamesVariable Sample.staticStore.handle := by
  obtain ⟨after, hrun⟩ := Sample.exec_validate Sample.binders_pass
  have hnamed : (nodesIn (Sample.guardedOf Sample.staticStore Sample.binders)).any
      (fun n => !n.isSynthetic && n.NamesVariable Sample.staticStore.handle) = true := by
    decide +kernel
  obtain ⟨n, hn, hnamed⟩ := List.any_eq_true.mp hnamed
  rw [Bool.and_eq_true, decide_eq_true_eq, Bool.not_eq_true'] at hnamed
  obtain ⟨hmark, hnames⟩ := hnamed
  obtain ⟨hbinders, _⟩ := handle_named_only_by_free_binders Sample.plain_binders hrun
  exact ⟨after, n, hrun, hn, hmark, hnames, hbinders n hn hmark hnames⟩

/-- All three bind the handle in a script that passes. -/
theorem binders_keep_handle :
    Plain (Sample.nodesOf Sample.binders) ∧ ∃ after,
      (validate ((Sample.nodesOf Sample.binders).map .node)).exec Sample.staticStore =
          (.ok (Sample.guardedOf Sample.staticStore Sample.binders), after) ∧
        ((nodesIn (Sample.guardedOf Sample.staticStore Sample.binders)).filter fun n =>
          !n.isSynthetic && n.NamesVariable Sample.staticStore.handle).map Node.kind =
            [.param, .statement .staticVar, .statement .catchClause] := by
  obtain ⟨after, hrun⟩ := Sample.exec_validate Sample.binders_pass
  exact ⟨Sample.plain_binders, after, hrun, by decide +kernel⟩

end Gate

end ScriptSandbox
