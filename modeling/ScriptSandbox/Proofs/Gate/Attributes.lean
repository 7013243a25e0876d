import ScriptSandbox.Proofs.Gate.Paired
import ScriptSandbox.Proofs.Gate.Validation
import ScriptSandbox.Proofs.Tree.Bare

/-!
# Attributes have no influence

What the attributes of a script's nodes say, also where they have the mark of generated
nodes, decides nothing: the gate ends in the same way for all of them.
-/

namespace ScriptSandbox

open Likeness

/-- Trees from files that have the same nodes but for their attributes. -/
structure SameButAttributes (nodes others : List Node) : Prop where
  loaded : Loaded nodes
  loaded_other : Loaded others
  bare_eq : nodes.map Node.bare = others.map Node.bare

theorem SameButAttributes.itemsAlike {nodes others : List Node} (h : SameButAttributes nodes others) :
    ItemsAlike upToAttributes (nodes.map .node) (others.map .node) :=
  h.loaded.itemsAlike h.loaded_other h.bare_eq

private theorem upToAttributes_faithful : upToAttributes.Faithful where
  normalize_eq h := h.elim
  lower_eq h := h.elim

namespace Gate

/-- Both pass, with the same nodes but for attributes, or both fail for one reason. -/
inductive Outcome.SameButAttributes : Outcome → Outcome → Prop where
  | passed {guarded other : Tree} (h : bareItems guarded = bareItems other) :
      Outcome.SameButAttributes (.passed guarded) (.passed other)
  | failed {violation other : Violation} (hkind : other.kind = violation.kind)
      (hmessage : other.message = violation.message)
      (hcontext : other.context = violation.context) :
      Outcome.SameButAttributes (.failed violation) (.failed other)

private theorem Outcome.failed_of_alike {violation other : Violation}
    (h : violation.Alike upToAttributes other) :
    Outcome.SameButAttributes (.failed violation) (.failed other) := by
  have hcontext : other.context = violation.context := by
    have hrel := h.context
    generalize violation.context = context, other.context = context' at hrel
    cases hrel with
    | none => rfl
    | some htext =>
        obtain rfl | hcallee := htext
        · rfl
        · exact hcallee.elim
  exact .failed h.kind h.message hcontext

variable {nodes others trusted trusted' : Tree}

private theorem prepare_paired (hscript : ItemsAlike upToAttributes nodes others)
    (htrusted : ItemsAlike upToAttributes trusted trusted') :
    Gate.Paired upToAttributes (prepare nodes trusted) (prepare others trusted')
      (ItemsAlike upToAttributes) := by
  have hpasses : Gate.Paired upToAttributes
      (do
        harvestOwn nodes
        let guarded ← validate nodes
        log (.passed guarded.length)
        pure guarded)
      (do
        harvestOwn others
        let guarded ← validate others
        log (.passed guarded.length)
        pure guarded) (ItemsAlike upToAttributes) := by
    apply (harvestOwn_paired upToAttributes_faithful (fun _ _ h => h) hscript).bind
    intro _ _ _
    apply (validate_paired upToAttributes_faithful (fun _ _ h => h) hscript).bind
    intro guarded guarded' hguarded
    apply (log_paired _ _).bind
    intro _ _ _
    exact Run.Paired.pure hguarded
  have hempty : trusted'.isEmpty = trusted.isEmpty := by cases htrusted <;> rfl
  unfold prepare
  rw [hempty]
  apply Run.Paired.ite Iff.rfl
  · intro _
    apply (harvestTrusted_paired upToAttributes_faithful (fun _ _ h => h) htrusted).bind
    intro _ _ _
    exact hpasses
  · intro _
    exact hpasses

private theorem check_paired (hscript : ItemsAlike upToAttributes nodes others)
    (htrusted : ItemsAlike upToAttributes trusted trusted') :
    Run.Paired Store.SameButLog (· = ·) (check nodes trusted) (check others trusted')
      Outcome.SameButAttributes := by
  have hpassed : Gate.Paired upToAttributes
      (do pure (Outcome.passed (← prepare nodes trusted)))
      (do pure (Outcome.passed (← prepare others trusted'))) Outcome.SameButAttributes :=
    (prepare_paired hscript htrusted).bind fun _ _ h => Run.Paired.pure (.passed h.bare_eq)
  apply hpassed.tryCatch
  intro failure failure' hfailure
  cases hfailure with
  | misplaced hcause =>
      cases hcause with
      | notInList label field hkind =>
          obtain rfl | ⟨_, hforms, _⟩ := hkind
          · exact Run.Paired.throw rfl
          · exact hforms.elim
      | unsupported label value => exact Run.Paired.throw rfl
  | raised hcause =>
      cases hcause with
      | malformed cause => exact Run.Paired.throw rfl
      | violation hviolation =>
          apply (log_paired _ _).bind
          intro _ _ _
          exact Run.Paired.pure (Outcome.failed_of_alike hviolation)

theorem check_blind_to_attributes {nodes others trusted trusted' : List Node}
    (hscript : SameButAttributes nodes others) (htrusted : SameButAttributes trusted trusted')
    (store : Store) :
    ((check (others.map .node) (trusted'.map .node)).exec store).2.withoutLog =
        ((check (nodes.map .node) (trusted.map .node)).exec store).2.withoutLog ∧
      EndsAlike (· = ·) Outcome.SameButAttributes
        ((check (nodes.map .node) (trusted.map .node)).exec store).1
        ((check (others.map .node) (trusted'.map .node)).exec store).1 :=
  check_paired hscript.itemsAlike htrusted.itemsAlike store store rfl

end Gate

namespace Sample

def callFile (attributes : Record Json) : Json :=
  .arr [entry "Expr_FuncCall" [("name", entry "Name" [("parts", .arr [.str "strlen"])]),
    ("args", .arr []), ("attributes", .obj attributes)]]

def callNodes (attributes : Record Json) : List Node :=
  (loadTree false (callFile attributes)).toOption.getD []

def marks : Record Json := [(syntheticMark, .bool true), ("startLine", .str "12")]

private theorem sameButAttributes_call (attributes : Record Json) :
    SameButAttributes (callNodes attributes) (callNodes []) where
  loaded := ⟨false, callFile attributes, rfl⟩
  loaded_other := ⟨false, callFile [], rfl⟩
  bare_eq := rfl

private theorem sameButAttributes_nil : SameButAttributes [] [] where
  loaded := ⟨false, .arr [], rfl⟩
  loaded_other := ⟨false, .arr [], rfl⟩
  bare_eq := rfl

def outcomeOf (nodes : List Node) : Except (WalkFailure Refusal) Gate.Outcome :=
  ((Gate.check (nodes.map .node) []).exec store).1

end Sample

namespace Gate

theorem check_blind_to_marks_of_call :
    (Sample.callNodes Sample.marks).map Node.isSynthetic = [true] ∧
      (Sample.callNodes []).map Node.isSynthetic = [false] ∧
      ∃ guarded other, Sample.outcomeOf (Sample.callNodes Sample.marks) = .ok (.passed guarded) ∧
        Sample.outcomeOf (Sample.callNodes []) = .ok (.passed other) ∧
        bareItems guarded = bareItems other ∧
        (nodesIn other).any (fun n => n.CallsHandle Sample.store.handle) = true := by
  obtain ⟨_, hends⟩ := check_blind_to_attributes (Sample.sameButAttributes_call Sample.marks)
    Sample.sameButAttributes_nil Sample.store
  refine ⟨rfl, rfl, ?_⟩
  change EndsAlike _ _ (Sample.outcomeOf (Sample.callNodes Sample.marks))
    (Sample.outcomeOf (Sample.callNodes [])) at hends
  obtain ⟨guarded, hguarded⟩ : ∃ guarded,
    Sample.outcomeOf (Sample.callNodes Sample.marks) = .ok (.passed guarded) := ⟨_, rfl⟩
  obtain ⟨other, hother, hcalls⟩ : ∃ other,
      Sample.outcomeOf (Sample.callNodes []) = .ok (.passed other) ∧
        (nodesIn other).any (fun n => n.CallsHandle Sample.store.handle) = true :=
    ⟨_, rfl, by decide +kernel⟩
  rw [hguarded, hother] at hends
  cases hends with
  | ok houtcome =>
      cases houtcome with
      | passed hbare => exact ⟨guarded, other, hguarded, hother, hbare, hcalls⟩

end Gate

end ScriptSandbox
