import ScriptSandbox.Proofs.Enforce.Generated
import ScriptSandbox.Proofs.Enforce.Stability
import ScriptSandbox.Proofs.Gate.Validation

/-!
# Validating again

Where every call is made by a written name and no function is declared, validating a
guarded tree again gives the same tree: whatever validation has left, put in place or
built is steady.
-/

namespace ScriptSandbox

open Judge

/-- Validating the value again, against a store that validation can lead to, keeps it. -/
def Value.Stays (store : Store) : Value → Prop :=
  Value.Steady Enforce.visitor (Reaches store)

variable {store : Store}

private theorem Value.stays_of_node?_eq_none {value : Value} (h : value.node? = none) :
    value.Stays store :=
  Value.steady_of_node?_eq_none h

private theorem Value.Settled.items_stay {value : Value} {items : List Value}
    (h : value.Settled (Value.Stays store)) (hitems : value.itemsOrNone = .ok items) :
    ∀ item ∈ items, item.Stays store := by
  intro item hitem
  cases item with
  | node m => exact h.of_item hitems hitem
  | _ => trivial

private theorem Node.Settled.items_stay {n : Node} {name : String} {items : List Value}
    (h : n.Settled (Value.Stays store)) (hitems : n.fieldItems name = .ok items) :
    ∀ item ∈ items, item.Stays store :=
  (Node.field_of_fields h (Value.stays_of_node?_eq_none rfl) name).items_stay hitems

namespace Generated

theorem node_stays {kind : Kind} {fields : Record Value} (attributes : Record Json)
    (h : ∀ entry ∈ fields, entry.2.Settled (Value.Stays store)) :
    (Value.node (node kind attributes fields)).Stays store :=
  Walk.steady_of_settled h (Run.Returns.pure Verdict.keep)

@[simp] theorem closed_stays : Closed (Value.Stays store) where
  free {value} hnodes := by
    cases value with
    | node n => exact absurd hnodes n.nodes_ne_nil
    | _ => trivial
  node attributes _ _ _ _ h := node_stays attributes h

end Generated

open Generated Enforce

theorem RuntimeCall.stays {n call : Node} (h : RuntimeCall store n call)
    (hnamed : n.kind.rule = .funcCall → (n.field "name").name?.isSome = true)
    (hsettled : n.Settled (Value.Stays store)) : (Value.node call).Stays store := by
  obtain ⟨method, args, rfl, hargs⟩ := h.arguments
  refine node_stays _ (closed_stays.runtimeCall_settled _ method n fun item hitem => ?_)
  refine closed_stays.argument (hargs item hitem) (fun _ _ hitems => hsettled.items_stay hitems) ?_
  intro computed hrule hcallee hname
  have hsome := hnamed hrule
  rw [hcallee, Value.name?, hname] at hsome
  cases hsome

private theorem Node.stays_withHandle {n : Node} {uses : List Value}
    (hrule : n.kind.rule = .closure)
    (hallow : store.allows .closures = true)
    (hunused : usesVariable store.handle uses = .ok false)
    (hsettled : n.Settled (Value.Stays store)) (huses : ∀ item ∈ uses, item.Stays store) :
    (Value.node (n.withHandle store.handle uses)).Stays store := by
  have hlist : (Value.list (uses ++ [.node (handleUse store.handle)])).Settled
      (Value.Stays store) :=
    List.forall_mem_append.mpr
      ⟨huses, List.forall_mem_singleton.mpr (closed_stays.handleUse store.handle)⟩
  have hleave : Run.Returns (Reaches store) (Enforce.node (n.withHandle store.handle uses))
      Verdict.keep := by
    rw [node_of_rule (n := n.withHandle store.handle uses) rfl hrule]
    exact closure_returns hallow hunused
  exact Walk.steady_of_settled (Node.fields_setField hsettled hlist) hleave

private theorem Node.stays_withClass {n written : Node} {substitute : String}
    (hrule : n.kind.rule = .classAccess ∨ n.kind.rule = .instantiation)
    (hname : written.kind.isName = true) (hnone : store.substitute? substitute = none)
    (hmeets : (n.withClass substitute written).Meets store)
    (hsettled : n.Settled (Value.Stays store)) :
    (Value.node (n.withClass substitute written)).Stays store := by
  have hrenamed : (Value.node (renamed substitute written)).Settled (Value.Stays store) :=
    closed_stays.renamed substitute hname
  have hleave : Run.Returns (Reaches store) (Enforce.node (n.withClass substitute written))
      Verdict.keep := by
    change n.kind.rule.Meets store (n.withClass substitute written) at hmeets
    obtain hrule | hrule := hrule
    · rw [hrule] at hmeets
      rw [node_of_rule (n := n.withClass substitute written) rfl hrule]
      exact classAccess_returns (classStays_withClass hnone hmeets)
    · rw [hrule] at hmeets
      obtain ⟨hallow, hkeyword, hclass⟩ := hmeets
      rw [node_of_rule (n := n.withClass substitute written) rfl hrule]
      exact instantiation_returns hallow hkeyword (classStays_withClass hnone hclass)
  exact Walk.steady_of_settled (Node.fields_setField hsettled hrenamed) hleave

/-- No substitute of a class has a substitute. -/
def Store.SubstitutesOnce (store : Store) : Prop :=
  ∀ name substitute, store.substitute? name = some substitute →
    store.substitute? substitute = none

theorem Store.substitutesOnce_of_classes
    (h : ∀ entry ∈ store.classes, store.substitute? entry.2 = none) : store.SubstitutesOnce := by
  intro name substitute hsubstitute
  obtain ⟨entry, hentry, rfl⟩ := Record.exists_of_get?_eq_some hsubstitute
  exact h entry hentry

private theorem Enforce.node_places_steady {n : Node} (hstore : store.SubstitutesOnce)
    (hnew : n.generated = false) (hdecl : n.kind.rule ≠ .functionDecl)
    (hnamed : n.kind.rule = .funcCall → (n.field "name").name?.isSome = true)
    (hsettled : n.Settled (Value.Stays store)) :
    Run.Yields (Reaches store) (node n) (Verdict.Places (Value.Stays store) n) := by
  have hagain : Run.Yields (Reaches store) (node n) _ := node_keeps_again hnew hdecl
  by_cases hclosure : n.kind.rule = .closure
  · have himports : Run.Yields (Reaches store) (node n) (Imports store n) := by
      rw [node_of_rule hnew hclosure]
      exact closure_imports n
    refine (himports.and hagain).mono fun verdict hverdict => ?_
    obtain ⟨hbecomes, hkeeps⟩ := hverdict
    cases hbecomes with
    | kept => exact Walk.steady_of_settled hsettled (hkeeps rfl)
    | imported hallow huses hunused =>
        exact Node.stays_withHandle hclosure hallow hunused hsettled (hsettled.items_stay huses)
  · refine ((node_yields hnew).and hagain).mono fun verdict hverdict => ?_
    obtain ⟨houtcome, hkeeps⟩ := hverdict
    cases houtcome with
    | kept _ => exact Walk.steady_of_settled hsettled (hkeeps rfl)
    | called hcall => exact hcall.stays hnamed hsettled
    | guarded hrule hcallee hname =>
        have hsome := hnamed hrule
        rw [hcallee, Value.name?, hname] at hsome
        cases hsome
    | imported hrule => exact absurd hrule hclosure
    | substituted hrule hwritten _ hsubstitute hmeets =>
        exact Node.stays_withClass hrule (Value.isName_of_name? hwritten)
          (hstore _ _ hsubstitute) hmeets hsettled
    | flattened _ hitems => exact hsettled.items_stay hitems
    | dropped _ => trivial

namespace Gate

variable {nodes : List Node} {guarded : Tree} {after : Store}

/-- Every call is made by a written name, and no function is declared. -/
structure CallsByName (nodes : List Node) : Prop where
  declares : ∀ n ∈ nodes.flatMap Node.nodes, n.kind ≠ .statement .functionDecl
  named : ∀ n ∈ nodes.flatMap Node.nodes, n.kind = .expression .funcCall →
    (n.field "name").name?.isSome = true

private theorem enforce_steady (hloaded : Loaded nodes) (hcalls : CallsByName nodes)
    (hstore : store.SubstitutesOnce) :
    Walk.Settles Enforce.visitor (Reaches store) (Value.Stays store)
      (· ∈ nodes.flatMap Node.nodes) where
  free value hnodes := by
    cases value with
    | node n => exact absurd hnodes n.nodes_ne_nil
    | _ => trivial
  leave source n hsource hleaves hsettled := by
    have houtline := hleaves.sameOutline
    obtain ⟨strip, data, hdata⟩ := hloaded
    have hnew : n.generated = false :=
      houtline.generated.trans (not_generated_of_loadTree hdata source hsource)
    have hdecl : n.kind.rule ≠ .functionDecl := by
      rw [houtline.kind]
      exact fun hrule => hcalls.declares source hsource (Kind.eq_functionDecl hrule)
    have hnamed : n.kind.rule = .funcCall → (n.field "name").name?.isSome = true := by
      rw [houtline.kind]
      intro hrule
      have hname := hcalls.named source hsource (Kind.eq_funcCall hrule)
      exact hleaves.keepsName (fun _ h => Enforce.node_of_isName h) "name" hname
    exact Enforce.node_places_steady hstore hnew hdecl hnamed hsettled

/--
Validating a guarded tree again returns, and returns the same tree, if the script makes
all calls by written names and declares no function, and no substitute of a class has a
substitute.
-/
theorem validate_again (hloaded : Loaded nodes) (hcalls : CallsByName nodes)
    (hstore : store.SubstitutesOnce)
    (hrun : (validate (nodes.map .node)).exec store = (.ok guarded, after)) :
    ∃ again, (validate guarded).exec after = (.ok guarded, again) := by
  have hraw : itemsRaw (nodes.map .node) = true := itemsRaw_map_node hloaded.isRaw
  have hsettles := enforce_steady hloaded hcalls hstore
  rw [← nodesIn_map_node] at hsettles
  have hwalk : Run.Yields (Reaches store) (validate (nodes.map .node))
      (fun walked => ∀ item ∈ walked, item.Stays store) :=
    Walk.tree_settled_of_shape hsettles rfl (fun _ => rfl)
      (Walk.passesOver_of_raw fun _ => Value.stays_of_node?_eq_none) hraw
  obtain ⟨hreaches, hstays⟩ := hwalk.ok .start hrun
  have hreturns : Run.Returns (Reaches store) (validate guarded) guarded :=
    Walk.tree_returns hstays rfl rfl
  obtain ⟨again, _, hagain⟩ := hreturns after hreaches
  exact ⟨again, hagain⟩

end Gate

namespace Sample

def closing : Json :=
  .arr [entry "Expr_Closure" [("stmts", .arr [entry "Stmt_Return" [("expr",
    callEntry (entry "Name" [("parts", .arr [.str "strlen"])])
      (entry "Expr_New" [("class", entry "Name" [("parts", .arr [.str "Text"])])]))]])]]

def substitutingStore : Store :=
  ((Store.empty ((Options.default.setFlag (.allow .closures) true).setFlag (.allow .objects) true)
    false).override "strlen").defineClass "Text" "SafeText"

private theorem loaded_closing : Loaded (nodesOf closing) :=
  ⟨true, closing, rfl⟩

private theorem callsByName_closing : Gate.CallsByName (nodesOf closing) where
  declares := by decide
  named := by decide

private theorem substitutesOnce_substitutingStore : substitutingStore.SubstitutesOnce :=
  Store.substitutesOnce_of_classes (by decide)

private theorem closing_passes :
    ((Gate.validate ((nodesOf closing).map .node)).exec substitutingStore).1.isOk = true := by
  decide

end Sample

namespace Gate

theorem validate_again_closing : ∃ after again,
    (validate ((Sample.nodesOf Sample.closing).map .node)).exec Sample.substitutingStore =
        (.ok (Sample.guardedOf Sample.substitutingStore Sample.closing), after) ∧
      ((nodesIn (Sample.guardedOf Sample.substitutingStore Sample.closing)).filter
          Node.generated).map Node.kind =
        [.expression .variableRef, .literal .string, .arg, .name .unqualified,
          .expression .methodCall, .expression .closureUse] ∧
      (validate (Sample.guardedOf Sample.substitutingStore Sample.closing)).exec after =
        (.ok (Sample.guardedOf Sample.substitutingStore Sample.closing), again) := by
  obtain ⟨after, hrun⟩ := Sample.exec_validate Sample.closing_passes
  obtain ⟨again, hagain⟩ := validate_again Sample.loaded_closing Sample.callsByName_closing
    Sample.substitutesOnce_substitutingStore hrun
  exact ⟨after, again, hrun, by decide +kernel, hagain⟩

end Gate

end ScriptSandbox
