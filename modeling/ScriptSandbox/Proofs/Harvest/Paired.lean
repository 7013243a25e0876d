import ScriptSandbox.Harvest.Own
import ScriptSandbox.Harvest.Trusted
import ScriptSandbox.Proofs.Policy.Paired
import ScriptSandbox.Proofs.Walk.Paired

/-!
# Harvesting side by side

Both harvests do the same to two stores that are equal but for their logs, wherever
nodes are alike and no text in them may differ.
-/

namespace ScriptSandbox

open Judge

/-! ## Definitions of constants -/

private theorem Likeness.Faithful.isDefine_iff {L : Likeness} (hL : L.Faithful)
    {text other : String}
    (h : L.SameText text other) : Text.lower other = "define" ↔ Text.lower text = "define" := by
  obtain rfl | h := h
  · exact Iff.rfl
  · have hwatched : "define" ∈ watchedFunctions := by decide
    constructor
    · intro hdefine
      rw [← hL.lower_eq h (.inr (hdefine ▸ hwatched)), hdefine]
    · intro hdefine
      rw [hL.lower_eq h (.inl (hdefine ▸ hwatched)), hdefine]

private theorem isDefineCall_eq {L : Likeness} (hL : L.Faithful) {n m : Node}
    (h : n.Alike L false m)
    (hkind : n.kind = .expression .funcCall) : isDefineCall m = isDefineCall n := by
  have hcallee := (h.calleeField hkind).name?
  unfold isDefineCall
  rw [h.kind_eq, hkind]
  generalize (n.field "name").name? = name?, (m.field "name").name? = name'? at hcallee
  cases hcallee with
  | none => rfl
  | some hname =>
      apply hname.calleeText.bind_eq
      intro text text' htext
      simp only [hL.isDefine_iff htext]

/-! ## Stores -/

namespace Store.SameButLog

variable {store other : Store} (h : store.SameButLog other)

include h

theorem whitelist (category : Category) (name : String) :
    (store.whitelist category name).SameButLog (other.whitelist category name) :=
  h.change (·.whitelist category name) (·.withoutLog_whitelist category name)

theorem foldl (step : Store → String → Store)
    (hstep : ∀ {s t : Store} name, s.SameButLog t → (step s name).SameButLog (step t name))
    (names : List String) : (names.foldl step store).SameButLog (names.foldl step other) := by
  induction names generalizing store other with
  | nil => exact h
  | cons name rest ih => exact ih (hstep name h)

theorem harvest {category : Category} {name name' : String}
    (hname : category.normalize name' = category.normalize name) :
    (TrustedHarvest.harvest category name store).SameButLog
      (TrustedHarvest.harvest category name' other) := by
  have hwhitelist : other.whitelist category name' = other.whitelist category name := by
    simp only [Store.whitelist, hname]
  unfold TrustedHarvest.harvest
  rw [h.samePolicy.hasBlacklist_eq, hwhitelist]
  split
  · exact h
  · exact h.whitelist category name

theorem enabled_eq (feature : Feature) (definable : Definable) (category : Category) :
    OwnHarvest.enabled other feature definable category =
      OwnHarvest.enabled store feature definable category := by
  simp only [OwnHarvest.enabled, h.samePolicy.allows_eq, h.samePolicy.flag_eq,
    h.samePolicy.hasBlacklist_eq]

end Store.SameButLog

variable {L : Likeness} {n m : Node}

/-! ## What a script defines itself -/

namespace OwnHarvest

private theorem declaration_paired (feature : Feature) (definable : Definable) (category : Category)
    (name : Option String) :
    Judge.Paired Store.SameButLog L (update (declaration feature definable category name))
      (update (declaration feature definable category name)) fun _ _ => True := by
  apply update_paired
  intro s t hst
  unfold declaration
  cases name with
  | none => exact hst
  | some name =>
      simp only [hst.enabled_eq]
      split
      · exact hst.whitelist category name
      · exact hst

theorem classDecl_paired (name : Option String) :
    Judge.Paired Store.SameButLog L (update (classDecl name)) (update (classDecl name))
      fun _ _ => True := by
  apply update_paired
  intro s t hst
  unfold classDecl
  cases name with
  | none => exact hst
  | some name =>
      have hclasses := hst.whitelist .classes name
      simp only [hst.enabled_eq, hclasses.samePolicy.hasBlacklist_eq]
      split
      · split
        · exact hclasses
        · exact hclasses.whitelist .types name
      · exact hst

private theorem constant_paired (hL : L.Faithful) (htext : ∀ a b, ¬ L.text a b)
    (hn : n.Alike L false m)
    (hkind : n.kind = .expression .funcCall) :
    Judge.Paired Store.SameButLog L (constant n) (constant m) fun _ _ => True := by
  apply (read_same (isDefineCall_eq hL hn hkind)).bind
  rintro isDefine _ rfl
  apply Run.Paired.ite Iff.rfl
  · intro _
    apply Run.Paired.get.bind
    intro s t hst
    rw [hst.enabled_eq, hst.samePolicy.isOverridden_eq]
    apply Run.Paired.ite Iff.rfl
    · intro _
      apply (read_same (definedConstant_eq htext hn)).bind
      rintro name? _ rfl
      cases name? with
      | some name => exact update_paired fun s t hst => hst.whitelist .constants name
      | none => exact Run.Paired.pure trivial
    · intro _
      exact Run.Paired.pure trivial
  · intro _
    exact Run.Paired.pure trivial

private theorem globals_paired (hn : n.Alike L false m) :
    Judge.Paired Store.SameButLog L (globals n) (globals m) fun _ _ => True := by
  apply Run.Paired.get.bind
  intro s t hst
  have hrestricts : restrictsGlobals t = restrictsGlobals s := by
    simp only [restrictsGlobals, hst.samePolicy.allows_eq, hst.samePolicy.flag_eq,
      hst.samePolicy.hasWhitelist_eq, hst.samePolicy.hasBlacklist_eq]
  rw [hrestricts]
  apply Run.Paired.ite Iff.rfl
  · intro _
    apply (read_same (globalNames_eq hn)).bind
    rintro names _ rfl
    apply update_paired
    intro s t hst
    exact hst.foldl _ (fun name h => h.whitelist .variables name) names
  · intro _
    exact Run.Paired.pure trivial

theorem node_paired (hL : L.Faithful) (htext : ∀ a b, ¬ L.text a b) (hn : n.Alike L false m) :
    Judge.Paired Store.SameButLog L (node n) (node m) fun _ _ => True := by
  have hname : n.kind ≠ .expression .funcCall → m.declaredName? = n.declaredName? :=
    hn.declaredName?_eq
  unfold node
  rw [hn.kind_eq]
  cases hkind : n.kind with
  | statement which =>
      rw [hname (by rw [hkind]; simp)]
      cases which with
      | classDecl => exact classDecl_paired _
      | interfaceDecl => exact declaration_paired _ _ _ _
      | traitDecl => exact declaration_paired _ _ _ _
      | functionDecl => exact declaration_paired _ _ _ _
      | globalDecl => exact globals_paired hn
      | _ => exact Run.Paired.pure trivial
  | expression which =>
      cases which with
      | funcCall => exact constant_paired hL htext hn hkind
      | _ => exact Run.Paired.pure trivial
  | _ => exact Run.Paired.pure trivial

@[simp] theorem node_of_isName {n : Node} (hname : n.kind.isName = true) : node n = pure () := by
  unfold node
  cases hkind : n.kind with
  | name spelling => rfl
  | _ => simp [hkind, Kind.isName] at hname

theorem visitor_pairs (hL : L.Faithful) (htext : ∀ a b, ¬ L.text a b) :
    visitor.Pairs Store.SameButLog (Refusal.Alike L) L := by
  intro called n m hn
  change Judge.Paired Store.SameButLog L (node n >>= fun _ => pure .keep)
    (node m >>= fun _ => pure .keep) (Verdict.Alike L called)
  have hnode : Judge.Paired Store.SameButLog L (node n) (node m) fun _ _ => True := by
    cases hname : n.kind.isName with
    | true =>
        have hname' := hn.isName_eq
        rw [hname] at hname'
        rw [node_of_isName hname, node_of_isName hname']
        exact Run.Paired.pure trivial
    | false => exact node_paired hL htext (hn.toField hname)
  apply hnode.bind
  intro _ _ _
  exact Run.Paired.pure .keep

end OwnHarvest

/-! ## What trusted code refers to -/

namespace TrustedHarvest

variable {value other : Value}

private theorem harvest_paired (category : Category) (name : String) :
    Judge.Paired Store.SameButLog L (update (harvest category name))
      (update (harvest category name)) fun _ _ => True :=
  update_paired fun _ _ hst => hst.harvest rfl

private theorem declaration_paired (category : Category) (name : Option String) :
    Judge.Paired Store.SameButLog L (declaration category name) (declaration category name)
      fun _ _ => True := by
  cases name with
  | some name => exact harvest_paired category name
  | none => exact Run.Paired.pure trivial

private theorem reference_paired (category : Category) (h : value.Alike L .field other) :
    Judge.Paired Store.SameButLog L (reference category value) (reference category other)
      fun _ _ => True := by
  have hname := h.name?
  unfold reference
  generalize value.name? = name?, other.name? = name'? at hname
  cases hname with
  | none => exact Run.Paired.pure trivial
  | some hname =>
      apply (read_same hname.nameText_eq).bind
      rintro text _ rfl
      exact harvest_paired category text

private theorem callee_paired (hL : L.Faithful) (h : value.Alike L .callee other) :
    Judge.Paired Store.SameButLog L (reference .functions value) (reference .functions other)
      fun _ _ => True := by
  have hname := h.name?
  unfold reference
  generalize value.name? = name?, other.name? = name'? at hname
  cases hname with
  | none => exact Run.Paired.pure trivial
  | some hname =>
      apply (read_paired hname.calleeText).bind
      intro text text' htext
      apply update_paired
      intro s t hst
      apply hst.harvest
      obtain rfl | htext := htext
      · rfl
      · exact hL.normalize_eq htext

private theorem call_paired (hL : L.Faithful) (htext : ∀ a b, ¬ L.text a b) (hn : n.Alike L false m)
    (hkind : n.kind = .expression .funcCall) :
    Judge.Paired Store.SameButLog L (call n) (call m) fun _ _ => True := by
  apply (callee_paired hL (hn.calleeField hkind)).bind
  intro _ _ _
  apply (read_same (isDefineCall_eq hL hn hkind)).bind
  rintro isDefine _ rfl
  apply Run.Paired.ite Iff.rfl
  · intro _
    apply Run.Paired.get.bind
    intro s t hst
    rw [hst.samePolicy.isOverridden_eq]
    apply Run.Paired.ite Iff.rfl
    · intro _
      apply (read_same (definedConstant_eq htext hn)).bind
      rintro name? _ rfl
      cases name? with
      | some name => exact harvest_paired .constants name
      | none => exact Run.Paired.pure trivial
    · intro _
      exact Run.Paired.pure trivial
  · intro _
    exact Run.Paired.pure trivial

private theorem function_paired (hn : n.Alike L false m) (hkind : n.kind ≠ .expression .funcCall) :
    Judge.Paired Store.SameButLog L (function n) (function m) fun _ _ => True := by
  unfold function
  rw [hn.declaredName?_eq hkind]
  cases n.declaredName? with
  | none => exact Run.Paired.pure trivial
  | some name =>
      apply Run.Paired.get.bind
      intro s t hst
      have hisDeclared : t.isDeclared name = s.isDeclared name := by
        simp only [Store.isDeclared, hst.declared_eq]
      rw [hisDeclared]
      apply Run.Paired.ite Iff.rfl
      · intro _
        exact reject_bind_paired Store.pairing_sameButLog _ hn _ _ _
      · intro _
        apply (update_paired fun s t hst => Store.pairing_sameButLog.declare name hst).bind
        intro _ _ _
        exact harvest_paired .functions name

theorem variableRef_paired (name : Option String) :
    Judge.Paired Store.SameButLog L (variableRef name) (variableRef name) fun _ _ => True := by
  apply Run.Paired.get.bind
  intro s t hst
  rw [hst.samePolicy.hasWhitelist_eq, hst.samePolicy.allows_eq]
  apply Run.Paired.ite Iff.rfl
  · intro _
    exact declaration_paired .variables name
  · intro _
    exact Run.Paired.pure trivial

private theorem globals_paired (hn : n.Alike L false m) :
    Judge.Paired Store.SameButLog L (globals n) (globals m) fun _ _ => True := by
  apply Run.Paired.get.bind
  intro s t hst
  rw [hst.samePolicy.hasWhitelist_eq]
  apply Run.Paired.ite Iff.rfl
  · intro _
    apply (read_same (globalNames_eq hn)).bind
    rintro names _ rfl
    apply update_paired
    intro s t hst
    exact hst.foldl (fun store name => harvest .variables name store)
      (fun _ h => h.harvest rfl) names
  · intro _
    exact Run.Paired.pure trivial

theorem namespaceDecl_paired (hn : n.Alike L false m) (hkind : n.kind ≠ .expression .funcCall) :
    Judge.Paired Store.SameButLog L (namespaceDecl n) (namespaceDecl m)
      (Verdict.Alike L false) := by
  have hname := (hn.nameField hkind).name?
  have hsplice : Judge.Paired Store.SameButLog L
      (Judge.read (n.fieldItems "stmts") >>= fun items => pure (Verdict.splice items))
      (Judge.read (m.fieldItems "stmts") >>= fun items => pure (Verdict.splice items))
      (Verdict.Alike L false) := by
    apply (read_paired (hn.fieldItems "stmts" (by decide) (by decide))).bind
    intro items items' hitems
    exact Run.Paired.pure (.splice hitems)
  unfold namespaceDecl
  generalize (n.field "name").name? = name?, (m.field "name").name? = name'? at hname
  cases hname with
  | none => exact hsplice
  | some hname =>
      apply (read_same hname.nameText_eq).bind
      rintro text _ rfl
      apply (nonEmptyName_paired Store.pairing_sameButLog .namespaceName text hn).bind
      intro _ _ _
      apply (update_paired fun s t hst => Store.pairing_sameButLog.defineNamespace text hst).bind
      intro _ _ _
      exact hsplice

theorem useItem_paired (hn : n.Alike L false m) (hitem : value.Alike L .item other) :
    Judge.Paired Store.SameButLog L (useItem n value) (useItem m other) fun _ _ => True := by
  apply (read_paired (hitem.member rfl "alias" (by decide) (by decide))).bind
  intro shortForm shortForm' hshort
  cases hitem with
  | @node _ item item' hitem =>
      have hkind : item'.kind = item.kind := hitem.kind_eq
      have hread : EndsAlike (· = ·) (fun a b => a = item.kind ∧ b = item.kind)
          (Value.node item).kind (Value.node item').kind := .ok ⟨rfl, hkind⟩
      apply (read_paired hread).bind
      rintro _ _ ⟨rfl, rfl⟩
      apply Run.Paired.ite Iff.rfl
      · intro huse
        have hname := hitem.nameField (by rw [huse]; decide)
        apply (read_paired (Q := Value.Alike L .field) (.ok hname)).bind
        intro name name' hname
        have hwritten := hname.name?
        rw [hshort.shortName?_eq]
        generalize name.name? = written?, name'.name? = written'? at hwritten
        cases hwritten with
        | none => exact Run.Paired.pure trivial
        | some hwritten =>
            cases shortName? shortForm with
            | none => exact Run.Paired.pure trivial
            | some shortName =>
                apply (read_same hwritten.nameText_eq).bind
                rintro text _ rfl
                apply (nonEmptyName_paired Store.pairing_sameButLog .aliasName text hn).bind
                intro _ _ _
                exact update_paired fun s t hst =>
                  Store.pairing_sameButLog.defineAlias text shortName hst
      · intro _
        exact Run.Paired.pure trivial
  | _ => exact Run.Paired.throw (.malformed .member)

theorem useDecl_paired (hn : n.Alike L false m) :
    Judge.Paired Store.SameButLog L (useDecl n) (useDecl m) (Verdict.Alike L false) := by
  apply (read_paired (hn.fieldItems "uses" (by decide) (by decide))).bind
  intro items items' hitems
  have huses : Judge.Paired Store.SameButLog L (items.forM (useItem n)) (items'.forM (useItem m))
      fun _ _ => True :=
    Run.Paired.forM (itemsAlike_iff_forall₂.mp hitems) fun _ _ hitem => useItem_paired hn hitem
  apply huses.bind
  intro _ _ _
  exact Run.Paired.pure .remove

private theorem keep_paired {step step' : Judge Unit}
    (h : Judge.Paired Store.SameButLog L step step' fun _ _ => True) :
    Judge.Paired Store.SameButLog L (step >>= fun _ => pure Verdict.keep)
      (step' >>= fun _ => pure Verdict.keep) (Verdict.Alike L false) := by
  apply Run.Paired.bind h
  intro _ _ _
  exact Run.Paired.pure .keep

theorem node_paired (hL : L.Faithful) (htext : ∀ a b, ¬ L.text a b) (hn : n.Alike L false m) :
    Judge.Paired Store.SameButLog L (node n) (node m) (Verdict.Alike L false) := by
  have hname : n.kind ≠ .expression .funcCall → m.declaredName? = n.declaredName? :=
    hn.declaredName?_eq
  unfold node
  rw [hn.kind_eq]
  cases hkind : n.kind with
  | statement which =>
      have hcall : n.kind ≠ .expression .funcCall := by rw [hkind]; simp
      rw [hname hcall]
      cases which with
      | functionDecl => exact keep_paired (function_paired hn hcall)
      | staticVar => exact keep_paired (variableRef_paired _)
      | classDecl => exact keep_paired (declaration_paired _ _)
      | interfaceDecl => exact keep_paired (declaration_paired _ _)
      | traitDecl => exact keep_paired (declaration_paired _ _)
      | globalDecl => exact keep_paired (globals_paired hn)
      | namespaceDecl => exact namespaceDecl_paired hn hcall
      | useDecl => exact useDecl_paired hn
      | _ => exact Run.Paired.pure .keep
  | expression which =>
      cases which with
      | funcCall => exact keep_paired (call_paired hL htext hn hkind)
      | variableRef =>
          rw [hname (by rw [hkind]; decide)]
          exact keep_paired (variableRef_paired _)
      | constFetch =>
          exact keep_paired (reference_paired _ (hn.nameField (by rw [hkind]; decide)))
      | new => exact keep_paired (reference_paired _ (hn.field "class" (by decide) (by decide)))
      | _ => exact Run.Paired.pure .keep
  | _ => exact Run.Paired.pure .keep

@[simp] theorem node_of_isName {n : Node} (hname : n.kind.isName = true) : node n = pure .keep := by
  unfold node
  cases hkind : n.kind with
  | name spelling => rfl
  | _ => simp [hkind, Kind.isName] at hname

theorem visitor_pairs (hL : L.Faithful) (htext : ∀ a b, ¬ L.text a b) :
    visitor.Pairs Store.SameButLog (Refusal.Alike L) L := by
  intro called n m hn
  change Judge.Paired Store.SameButLog L (node n) (node m) (Verdict.Alike L called)
  cases hname : n.kind.isName with
  | true =>
      have hname' := hn.isName_eq
      rw [hname] at hname'
      rw [node_of_isName hname, node_of_isName hname']
      exact Run.Paired.pure .keep
  | false => exact (node_paired hL htext (hn.toField hname)).mono fun _ _ h => h.atPlace

end TrustedHarvest

end ScriptSandbox
