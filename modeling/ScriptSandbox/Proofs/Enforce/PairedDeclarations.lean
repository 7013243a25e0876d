import ScriptSandbox.Enforce.Declarations
import ScriptSandbox.Proofs.Policy.Paired
import ScriptSandbox.Proofs.Walk.Paired

/-!
# Declarations side by side

The rules for declarations judge nodes that are alike in the same way: one lemma for each
rule, put together from the lemmas on the steps of judging.
-/

namespace ScriptSandbox

open Judge

theorem Kind.ne_funcCall {kind : Kind} (h : kind.rule ≠ .funcCall) : kind ≠ .expression .funcCall := by
  intro hkind
  rw [hkind] at h
  exact h rfl

theorem Kind.eq_funcCall {kind : Kind} (h : kind.rule = .funcCall) : kind = .expression .funcCall := by
  cases kind with
  | statement which => cases which <;> cases h
  | expression which =>
      cases which with
      | funcCall => rfl
      | _ => cases h
  | literal which => cases which <;> cases h
  | _ => cases h

theorem Kind.eq_functionDecl {kind : Kind} (h : kind.rule = .functionDecl) :
    kind = .statement .functionDecl := by
  cases kind with
  | statement which =>
      cases which with
      | functionDecl => rfl
      | _ => cases h
  | expression which => cases which <;> cases h
  | literal which => cases which <;> cases h
  | _ => cases h

namespace Enforce

variable {I : Store → Store → Prop} {L : Likeness} {n m : Node} {value other : Value}

private theorem usesVariable_eq (name : String) {uses uses' : List Value}
    (h : ItemsAlike L uses uses') :
    usesVariable name uses' = usesVariable name uses := by
  induction uses generalizing uses' with
  | nil =>
      cases h
      rfl
  | cons use rest ih =>
      cases h with
      | cons huse hrest =>
          rw [usesVariable, usesVariable]
          apply (huse.member rfl "var" (by decide) (by decide)).bind_eq
          intro var var' hvar
          rw [hvar.text?_eq, ih hrest]

private theorem staticName_alike (h : n.Alike L false m) (hkind : n.kind ≠ .expression .funcCall) :
    ∃ place, (staticName n).Alike L place (staticName m) := by
  have hname := h.nameField hkind
  have hvar := h.field "var" (by decide) (by decide)
  unfold staticName
  generalize n.field "name" = name, m.field "name" = name' at hname
  generalize n.field "var" = var, m.field "var" = var' at hvar
  cases hname with
  | scalar _ scalar =>
      cases scalar with
      | null =>
          cases hvar with
          | @node _ inner inner' hinner => exact ⟨_, hinner.placed "name" (by decide)⟩
          | _ => exact ⟨_, .scalar .field .null⟩
      | _ => exact ⟨_, .scalar .field _⟩
  | obj _ fields => exact ⟨_, .obj .field fields⟩
  | list _ hitems => exact ⟨_, .list .field hitems⟩
  | node hinner => exact ⟨.field, .node hinner⟩
  | pair hplace hvalue => exact ⟨_, .pair hplace hvalue⟩

section

variable (h : Pairing I) (hn : n.Alike L false m)

include h hn

theorem keyword_paired (word : String) :
    Judge.Paired I L (keyword word n) (keyword word m) fun _ _ => True :=
  name_paired h .keyword word hn

private theorem declaredName_paired (offence : Offence) (hkind : n.kind ≠ .expression .funcCall) :
    Judge.Paired I L (declaredName offence n) (declaredName offence m) (· = ·) := by
  unfold declaredName
  rw [hn.declaredName?_eq hkind]
  cases n.declaredName? with
  | some name => exact Run.Paired.pure rfl
  | none => exact reject_paired h offence hn _

theorem spelledName_paired (offence : Offence) (hvalue : other.nameText = value.nameText) :
    Judge.Paired I L (spelledName offence n value) (spelledName offence m other) (· = ·) := by
  apply (read_same hvalue).bind
  rintro text _ rfl
  apply Run.Paired.ite Iff.rfl
  · intro _
    exact reject_bind_paired h offence hn _ _ _
  · intro _
    exact Run.Paired.pure rfl

private theorem spells_paired (role : Role) (offence : Offence)
    (hvalue : other.nameText = value.nameText) :
    Judge.Paired I L
      (spelledName offence n value >>= fun text => Judge.name role text (some n))
      (spelledName offence m other >>= fun text => Judge.name role text (some m))
      fun _ _ => True := by
  apply (spelledName_paired h hn offence hvalue).bind
  rintro text _ rfl
  exact name_paired h role text hn

omit h in
private theorem allItems_paired {field : String} (hname : field ≠ "name") (hfield : field ≠ "value")
    {step step' : Value → Judge Unit}
    (hstep : ∀ item item', item.Alike L .item item' →
      Judge.Paired I L (step item) (step' item') fun _ _ => True) :
    Judge.Paired I L (Judge.read (n.fieldItems field) >>= fun items => items.forM step)
      (Judge.read (m.fieldItems field) >>= fun items => items.forM step') fun _ _ => True := by
  apply (read_paired (hn.fieldItems field hname hfield)).bind
  intro items items' hitems
  exact Run.Paired.forM (itemsAlike_iff_forall₂.mp hitems) hstep

theorem functionDecl_paired (hkind : n.kind ≠ .expression .funcCall)
    (hdeclared : ∀ s t, I s t → t.declared = s.declared) :
    Judge.Paired I L (functionDecl n) (functionDecl m) fun _ _ => True := by
  apply (require_paired h _ _ hn).bind
  intro _ _ _
  apply (keyword_paired h hn "function").bind
  intro _ _ _
  apply (declaredName_paired h hn _ hkind).bind
  rintro name _ rfl
  apply Run.Paired.get.bind
  intro s t hst
  have hbyRef := hn.field "byRef" (by decide) (by decide)
  have hisDeclared : t.isDeclared name = s.isDeclared name := by
    simp only [Store.isDeclared, hdeclared s t hst]
  rw [(h.samePolicy hst).isOverridden_eq, hisDeclared, hbyRef.truthy_eq,
    (h.samePolicy hst).allows_eq]
  apply Run.Paired.ite Iff.rfl
  · intro _
    exact reject_bind_paired h _ hn _ _ _
  intro _
  apply Run.Paired.ite Iff.rfl
  · intro _
    exact reject_bind_paired h _ hn _ _ _
  · intro _
    exact update_paired fun s t hst => h.declare name hst

theorem closure_paired :
    Judge.Paired I L (closure n) (closure m) (Verdict.Alike L false) := by
  apply (require_paired h _ _ hn).bind
  intro _ _ _
  apply (read_paired (hn.fieldItems "uses" (by decide) (by decide))).bind
  intro uses uses' huses
  apply Run.Paired.get.bind
  intro s t hst
  rw [(h.samePolicy hst).handle_eq]
  apply (read_same (usesVariable_eq s.handle huses)).bind
  rintro used _ rfl
  apply Run.Paired.ite Iff.rfl
  · intro _
    exact Run.Paired.pure .keep
  · intro _
    have hgiven : ItemsAlike L (uses ++ [.node (Generated.handleUse s.handle)])
        (uses' ++ [.node (Generated.handleUse s.handle)]) := huses.append (.refl L _)
    have hcopy := (hn.withGenerated false).setField "uses" (by decide) (.list .field hgiven)
    exact Run.Paired.pure (.replace hcopy)

theorem closureUse_paired :
    Judge.Paired I L (closureUse n) (closureUse m) fun _ _ => True := by
  apply Run.Paired.get.bind
  intro s t hst
  have hvar := hn.field "var" (by decide) (by decide)
  rw [(h.samePolicy hst).handle_eq, hvar.text?_eq]
  apply Run.Paired.ite Iff.rfl
  · intro _
    exact reject_paired h _ hn none
  · intro _
    exact Run.Paired.pure trivial

private theorem parentClass_paired :
    Judge.Paired I L (parentClass n) (parentClass m) fun _ _ => True := by
  unfold parentClass
  have hparent := (hn.field "extends" (by decide) (by decide)).name?
  generalize (n.field "extends").name? = parent?, (m.field "extends").name? = parent'? at hparent
  cases hparent with
  | none => exact Run.Paired.pure trivial
  | some hparent =>
      apply (keyword_paired h hn "extends").bind
      intro _ _ _
      exact spells_paired h hn .classExtension _ hparent.nameText_eq

private theorem implemented_paired (hitem : value.Alike L .item other) :
    Judge.Paired I L (implemented n value) (implemented m other) fun _ _ => True :=
  spells_paired h hn .interface _ (hitem.nameText_eq rfl)

theorem classDecl_paired (hkind : n.kind ≠ .expression .funcCall) :
    Judge.Paired I L (classDecl n) (classDecl m) fun _ _ => True := by
  apply (require_paired h _ _ hn).bind
  intro _ _ _
  apply (keyword_paired h hn "class").bind
  intro _ _ _
  apply (declaredName_paired h hn _ hkind).bind
  rintro name _ rfl
  apply (name_paired h .classDecl name hn).bind
  intro _ _ _
  apply (parentClass_paired h hn).bind
  intro _ _ _
  have himplements := hn.field "implements" (by decide) (by decide)
  rw [himplements.truthy_eq]
  apply Run.Paired.ite Iff.rfl
  · intro _
    apply (keyword_paired h hn "implements").bind
    intro _ _ _
    exact allItems_paired hn (by decide) (by decide) fun _ _ hitem => implemented_paired h hn hitem
  · intro _
    exact Run.Paired.pure trivial

theorem interfaceDecl_paired (hkind : n.kind ≠ .expression .funcCall) :
    Judge.Paired I L (interfaceDecl n) (interfaceDecl m) fun _ _ => True := by
  apply (require_paired h _ _ hn).bind
  intro _ _ _
  apply (keyword_paired h hn "interface").bind
  intro _ _ _
  apply (declaredName_paired h hn _ hkind).bind
  rintro name _ rfl
  apply (name_paired h .interface name hn).bind
  intro _ _ _
  apply allItems_paired hn (by decide) (by decide)
  intro item item' hitem
  apply (read_same (hitem.nameText_eq rfl)).bind
  rintro text _ rfl
  exact name_paired h .interface text hn

theorem traitDecl_paired (hkind : n.kind ≠ .expression .funcCall) :
    Judge.Paired I L (traitDecl n) (traitDecl m) fun _ _ => True := by
  apply (require_paired h _ _ hn).bind
  intro _ _ _
  apply (keyword_paired h hn "trait").bind
  intro _ _ _
  apply (declaredName_paired h hn _ hkind).bind
  rintro name _ rfl
  exact name_paired h .traitName name hn

theorem traitUse_paired :
    Judge.Paired I L (traitUse n) (traitUse m) fun _ _ => True := by
  apply (keyword_paired h hn "use").bind
  intro _ _ _
  apply allItems_paired hn (by decide) (by decide)
  intro item item' hitem
  exact spells_paired h hn .traitName _ (hitem.nameText_eq rfl)

private theorem globalVar_paired (hitem : value.Alike L .item other) :
    Judge.Paired I L (globalVar n value) (globalVar m other) fun _ _ => True := by
  apply (read_same (variableName?_eq hitem)).bind
  rintro name? _ rfl
  cases name? with
  | some name => exact name_paired h .globalVar name hn
  | none => exact reject_paired h _ hn none

theorem globalDecl_paired :
    Judge.Paired I L (globalDecl n) (globalDecl m) fun _ _ => True := by
  apply (require_paired h _ _ hn).bind
  intro _ _ _
  apply (keyword_paired h hn "global").bind
  intro _ _ _
  exact allItems_paired hn (by decide) (by decide) fun _ _ hitem => globalVar_paired h hn hitem

theorem staticVar_paired (hkind : n.kind ≠ .expression .funcCall) :
    Judge.Paired I L (staticVar n) (staticVar m) fun _ _ => True := by
  apply (require_paired h _ _ hn).bind
  intro _ _ _
  obtain ⟨place, hname⟩ := staticName_alike hn hkind
  generalize staticName n = name, staticName m = name' at hname
  cases hname with
  | scalar _ scalar =>
      cases scalar with
      | str name => exact name_paired h .variableRef name hn
      | _ => exact reject_paired h _ hn none
  | _ => exact reject_paired h _ hn none

theorem namespaceDecl_paired (hkind : n.kind ≠ .expression .funcCall) :
    Judge.Paired I L (namespaceDecl n) (namespaceDecl m) (Verdict.Alike L false) := by
  apply (require_paired h _ _ hn).bind
  intro _ _ _
  apply (keyword_paired h hn "namespace").bind
  intro _ _ _
  have hname := (hn.nameField hkind).name?
  generalize (n.field "name").name? = name?, (m.field "name").name? = name'? at hname
  cases hname with
  | none => exact reject_paired h _ hn none
  | some hname =>
      apply (read_same hname.nameText_eq).bind
      rintro text _ rfl
      apply (nonEmptyName_paired h .namespaceName text hn).bind
      intro _ _ _
      apply (update_paired fun s t hst => h.defineNamespace text hst).bind
      intro _ _ _
      apply (read_paired (hn.fieldItems "stmts" (by decide) (by decide))).bind
      intro items items' hitems
      exact Run.Paired.pure (.splice hitems)

private theorem importedName_paired {written written' : Node}
    (hwritten : written.Alike L false written')
    {shortForm shortForm' : Value} (hshort : shortForm.Alike L .field shortForm')
    (shortName : Option String) :
    Judge.Paired I L
      (do
        let text ← Judge.read written.nameText
        Judge.nonEmptyName .aliasName text (some n)
        if shortForm.truthy then keyword "as" n
        Judge.update (·.defineAlias text shortName))
      (do
        let text ← Judge.read written'.nameText
        Judge.nonEmptyName .aliasName text (some m)
        if shortForm'.truthy then keyword "as" m
        Judge.update (·.defineAlias text shortName)) fun _ _ => True := by
  apply (read_same hwritten.nameText_eq).bind
  rintro text _ rfl
  apply (nonEmptyName_paired h .aliasName text hn).bind
  intro _ _ _
  have hdefine : Judge.Paired I L (Judge.update (·.defineAlias text shortName))
      (Judge.update (·.defineAlias text shortName)) fun _ _ => True :=
    update_paired fun s t hst => h.defineAlias text shortName hst
  rw [hshort.truthy_eq]
  apply Run.Paired.ite Iff.rfl
  · intro _
    apply (keyword_paired h hn "as").bind
    intro _ _ _
    exact hdefine
  · intro _
    exact hdefine

theorem useItem_paired (hitem : value.Alike L .item other) :
    Judge.Paired I L (useItem n value) (useItem m other) fun _ _ => True := by
  apply (read_paired (hitem.member rfl "alias" (by decide) (by decide))).bind
  intro shortForm shortForm' hshort
  cases hitem with
  | @node _ item item' hitem =>
      have hkind : item'.kind = item.kind := hitem.kind_eq
      have hread : EndsAlike (· = ·) (fun a b => a = item.kind ∧ b = item.kind)
          (Value.node item).kind (Value.node item').kind := .ok ⟨rfl, hkind⟩
      apply (read_paired hread).bind
      rintro _ _ ⟨rfl, rfl⟩
      apply (read_paired (Q := Value.Alike L (item.kind.place "name"))
        (.ok (hitem.placed "name" (by decide)))).bind
      intro name name' hname
      rw [hshort.shortName?_eq]
      by_cases huse : item.kind = .statement .useItem
      · rw [Kind.place_of_kind_ne "name" (by rw [huse]; decide)] at hname
        have hwritten := hname.name?
        generalize name.name? = written?, name'.name? = written'? at hwritten
        rw [huse]
        cases hwritten with
        | none => exact reject_paired h _ hn none
        | some hwritten =>
            cases shortName? shortForm with
            | none => exact reject_paired h _ hn none
            | some shortName => exact importedName_paired h hn hwritten hshort shortName
      · split
        · exact absurd ‹_› huse
        split
        · exact absurd ‹_› huse
        exact reject_paired h _ hn none
  | _ => exact Run.Paired.throw (.malformed .member)

theorem useDecl_paired :
    Judge.Paired I L (useDecl n) (useDecl m) (Verdict.Alike L false) := by
  apply (require_paired h _ _ hn).bind
  intro _ _ _
  apply (keyword_paired h hn "use").bind
  intro _ _ _
  apply (read_paired (hn.fieldItems "uses" (by decide) (by decide))).bind
  intro items items' hitems
  have huses : Judge.Paired I L (items.forM (useItem n)) (items'.forM (useItem m))
      fun _ _ => True :=
    Run.Paired.forM (itemsAlike_iff_forall₂.mp hitems) fun _ _ hitem => useItem_paired h hn hitem
  apply huses.bind
  intro _ _ _
  exact Run.Paired.pure .remove

end

end Enforce

end ScriptSandbox
