import ScriptSandbox.Proofs.Enforce.Verdicts
import ScriptSandbox.Proofs.Policy.Relaxed
import ScriptSandbox.Proofs.Walk.Conditional

/-!
# Judging against a store that allows more

A node that passes against a store passes against one that is related to it by
`Store.Relaxed`, and gets the same verdict there, if the other store permits the constants
and variables that the node fetches.  There is one lemma for each rule, put together from
the lemmas on the steps of judging.
-/

namespace ScriptSandbox

open Judge

def Role.isFetched : Role → Bool
  | .constant => true
  | .variableRef => true
  | _ => false

private theorem Role.category_of_not_isFetched {role : Role} (h : role.isFetched = false) :
    role.category ≠ .constants ∧ role.category ≠ .variables := by
  revert h
  cases role <;> decide

namespace Enforce

inductive Fetches (n : Node) : Role → String → Prop where
  | constant {written : Node} {text : String} (hrule : n.kind.rule = .constFetch)
      (hwritten : (n.field "name").name? = some written) (htext : written.nameText = .ok text) :
      Fetches n .constant text
  | variableRef {name : String} (hrule : n.kind.rule = .variableRef)
      (hname : n.field "name" = .str name) (hplain : name ∉ superglobals) :
      Fetches n .variableRef name
  | staticVar {name : String} (hrule : n.kind.rule = .staticVar)
      (hname : staticName n = .str name) : Fetches n .variableRef name

variable {spared : Category → Prop} {I : Store → Store → Prop} {Licensed : Role → String → Prop}

section

variable (h : Lenient spared I Licensed)

include h

section

variable (hplain : ∀ role name, role.isFetched = false → Licensed role name)

include hplain

private theorem plainName_follows (role : Role) (text : String) (n : Node)
    (hrole : role.isFetched = false) :
    Run.Follows I (Judge.name role text (some n)) (Judge.name role text (some n)) :=
  name_follows h (hplain role text hrole) (some n)

private theorem keyword_follows (word : String) (n : Node) :
    Run.Follows I (keyword word n) (keyword word n) :=
  plainName_follows h hplain .keyword word n rfl

omit h hplain in
private theorem declaredName_follows (offence : Offence) (n : Node) :
    Run.Follows I (declaredName offence n) (declaredName offence n) := by
  unfold declaredName
  cases n.declaredName? with
  | some name => exact .pure name
  | none => exact reject_follows _ _ _ _

omit h hplain in
private theorem spelledName_follows (offence : Offence) (n : Node) (value : Value) :
    Run.Follows I (spelledName offence n value) (spelledName offence n value) := by
  apply (read_follows value.nameText).bind
  intro text
  exact .ite Iff.rfl (fun _ => reject_bind_follows _ _ _ _ _) fun _ => .pure text

private theorem spells_follows (role : Role) (offence : Offence) (n : Node) (value : Value)
    (hrole : role.isFetched = false) :
    Run.Follows I
      (spelledName offence n value >>= fun text => Judge.name role text (some n))
      (spelledName offence n value >>= fun text => Judge.name role text (some n)) := by
  apply (spelledName_follows offence n value).bind
  intro text
  exact plainName_follows h hplain role text n hrole

omit h hplain in
private theorem allItems_follows (n : Node) (field : String) {step : Value → Judge Unit}
    (hstep : ∀ item, Run.Follows I (step item) (step item)) :
    Run.Follows I (Judge.read (n.fieldItems field) >>= fun items => items.forM step)
      (Judge.read (n.fieldItems field) >>= fun items => items.forM step) := by
  apply (read_follows (n.fieldItems field)).bind
  intro items
  exact .forM hstep items

private theorem functionDecl_follows (n : Node) : Run.Follows I (functionDecl n) (functionDecl n) :=
    by
  apply (require_follows h _ _ n).bind
  intro _
  apply (keyword_follows h hplain "function" n).bind
  intro _
  apply (declaredName_follows _ n).bind
  intro name
  apply Run.Follows.get_bind
  intro s t hst
  have hrelaxed := h.relaxed hst
  rw [hrelaxed.isOverridden_eq, hrelaxed.isDeclared_eq]
  refine .ite Iff.rfl (fun _ => reject_bind_follows _ _ _ _ _) fun _ => ?_
  -- Returning a reference may be refused where few features are allowed.
  by_cases href : ((n.field "byRef").truthy && !s.allows .references) = true
  · rw [if_pos href]
    exact reject_bind_follows _ _ _ _ _
  · have href' : ¬ ((n.field "byRef").truthy && !t.allows .references) = true := by
      intro hrefused
      rw [Bool.and_eq_true, Bool.not_eq_true'] at href hrefused
      refine href ⟨hrefused.1, Bool.eq_false_iff.mpr fun hallow => ?_⟩
      rw [hrelaxed.allows _ hallow] at hrefused
      exact Bool.noConfusion hrefused.2
    rw [if_neg href, if_neg href']
    exact change_follows h (.declare name) trivial

omit hplain in
private theorem closure_follows (n : Node) : Run.Follows I (closure n) (closure n) := by
  apply (require_follows h _ _ n).bind
  intro _
  apply (read_follows (n.fieldItems "uses")).bind
  intro uses
  apply Run.Follows.get_bind
  intro s t hst
  rw [(h.relaxed hst).handle]
  apply (read_follows (usesVariable s.handle uses)).bind
  intro _
  exact .ite Iff.rfl (fun _ => .pure _) fun _ => .pure _

omit hplain in
private theorem closureUse_follows (n : Node) : Run.Follows I (closureUse n) (closureUse n) := by
  apply Run.Follows.get_bind
  intro s t hst
  rw [(h.relaxed hst).handle]
  exact .ite Iff.rfl (fun _ => reject_follows _ _ _ _) fun _ => .pure ()

private theorem parentClass_follows (n : Node) : Run.Follows I (parentClass n) (parentClass n) := by
  unfold parentClass
  cases (n.field "extends").name? with
  | none => exact .pure ()
  | some parent =>
      apply (keyword_follows h hplain "extends" n).bind
      intro _
      exact spells_follows h hplain .classExtension _ n _ rfl

private theorem implemented_follows (n : Node) (item : Value) :
    Run.Follows I (implemented n item) (implemented n item) :=
  spells_follows h hplain .interface _ n item rfl

private theorem classDecl_follows (n : Node) : Run.Follows I (classDecl n) (classDecl n) := by
  apply (require_follows h _ _ n).bind
  intro _
  apply (keyword_follows h hplain "class" n).bind
  intro _
  apply (declaredName_follows _ n).bind
  intro name
  apply (plainName_follows h hplain .classDecl name n rfl).bind
  intro _
  apply (parentClass_follows h hplain n).bind
  intro _
  refine .ite Iff.rfl (fun _ => ?_) fun _ => .pure ()
  apply (keyword_follows h hplain "implements" n).bind
  intro _
  exact allItems_follows n _ (implemented_follows h hplain n)

private theorem interfaceDecl_follows (n : Node) :
    Run.Follows I (interfaceDecl n) (interfaceDecl n) := by
  apply (require_follows h _ _ n).bind
  intro _
  apply (keyword_follows h hplain "interface" n).bind
  intro _
  apply (declaredName_follows _ n).bind
  intro name
  apply (plainName_follows h hplain .interface name n rfl).bind
  intro _
  apply allItems_follows n
  intro parent
  apply (read_follows parent.nameText).bind
  intro text
  exact plainName_follows h hplain .interface text n rfl

private theorem traitDecl_follows (n : Node) : Run.Follows I (traitDecl n) (traitDecl n) := by
  apply (require_follows h _ _ n).bind
  intro _
  apply (keyword_follows h hplain "trait" n).bind
  intro _
  apply (declaredName_follows _ n).bind
  intro name
  exact plainName_follows h hplain .traitName name n rfl

private theorem traitUse_follows (n : Node) : Run.Follows I (traitUse n) (traitUse n) := by
  apply (keyword_follows h hplain "use" n).bind
  intro _
  apply allItems_follows n
  intro item
  exact spells_follows h hplain .traitName _ n item rfl

private theorem globalVar_follows (n : Node) (item : Value) :
    Run.Follows I (globalVar n item) (globalVar n item) := by
  apply (read_follows (variableName? item)).bind
  intro name?
  cases name? with
  | some name => exact plainName_follows h hplain .globalVar name n rfl
  | none => exact reject_follows _ _ _ _

private theorem globalDecl_follows (n : Node) : Run.Follows I (globalDecl n) (globalDecl n) := by
  apply (require_follows h _ _ n).bind
  intro _
  apply (keyword_follows h hplain "global" n).bind
  intro _
  exact allItems_follows n _ (globalVar_follows h hplain n)

theorem namespaceDecl_follows (n : Node) :
    Run.Follows I (namespaceDecl n) (namespaceDecl n) := by
  apply (require_follows h _ _ n).bind
  intro _
  apply (keyword_follows h hplain "namespace" n).bind
  intro _
  cases (n.field "name").name? with
  | none => exact reject_follows _ _ _ _
  | some name =>
      apply (read_follows name.nameText).bind
      intro text
      have hname := hplain .namespaceName text rfl
      apply (nonEmptyName_follows h hname (some n)).bind
      intro _
      apply (change_follows h (.defineNamespace text) trivial).bind
      intro _
      apply (read_follows (n.fieldItems "stmts")).bind
      intro items
      exact .pure _

theorem useItem_follows (n : Node) (item : Value) :
    Run.Follows I (useItem n item) (useItem n item) := by
  apply (read_follows (item.member "alias")).bind
  intro shortForm
  apply (read_follows item.kind).bind
  intro kind
  apply (read_follows (item.member "name")).bind
  intro name
  split
  case h_2 => exact reject_follows _ _ _ _
  case h_1 written shortName _ _ =>
    apply (read_follows written.nameText).bind
    intro text
    have hname := hplain .aliasName text rfl
    apply (nonEmptyName_follows h hname (some n)).bind
    intro _
    have hdefine := change_follows h (.defineAlias text shortName) trivial
    refine .ite Iff.rfl (fun _ => ?_) fun _ => hdefine
    apply (keyword_follows h hplain "as" n).bind
    intro _
    exact hdefine

theorem useDecl_follows (n : Node) : Run.Follows I (useDecl n) (useDecl n) := by
  apply (require_follows h _ _ n).bind
  intro _
  apply (keyword_follows h hplain "use" n).bind
  intro _
  apply (read_follows (n.fieldItems "uses")).bind
  intro items
  apply (Run.Follows.forM (useItem_follows h hplain n) items).bind
  intro _
  exact .pure _

omit hplain in
private theorem replaceByRuntime_follows (method : String) (args : List Value) (n : Node) :
    Run.Follows I (replaceByRuntime method args n) (replaceByRuntime method args n) := by
  apply Run.Follows.get_bind
  intro s t hst
  rw [(h.relaxed hst).handle]
  exact .pure _

omit hplain in
private theorem dynamicCall_follows (n : Node) : Run.Follows I (dynamicCall n) (dynamicCall n) := by
  unfold dynamicCall
  split
  · apply Run.Follows.get_bind
    intro s t hst
    rw [(h.relaxed hst).handle]
    exact .pure _
  · exact .of_fails (fun _ hpasses => by cases hpasses) _

private theorem namedCall_follows (n written : Node) :
    Run.Follows I (namedCall n written) (namedCall n written) := by
  apply (read_follows written.nameText).bind
  intro text
  apply (plainName_follows h hplain .function text n rfl).bind
  intro _
  apply (read_follows (n.fieldItems "args")).bind
  intro args
  apply Run.Follows.get_bind
  intro s t hst
  rw [(h.relaxed hst).isOverridden_eq, (h.relaxed hst).overwrite, (h.relaxed hst).overwrite]
  refine .ite Iff.rfl (fun _ => replaceByRuntime_follows h _ _ n) fun _ => ?_
  refine .ite Iff.rfl (fun _ => replaceByRuntime_follows h _ _ n) fun _ => ?_
  exact .ite Iff.rfl (fun _ => replaceByRuntime_follows h _ _ n) fun _ => .pure _

private theorem funcCall_follows (n : Node) : Run.Follows I (funcCall n) (funcCall n) := by
  unfold funcCall
  cases (n.field "name").name? with
  | none => exact dynamicCall_follows h n
  | some written => exact namedCall_follows h hplain n written

private theorem superglobal_follows (n : Node) (name : String) :
    Run.Follows I (superglobal n name) (superglobal n name) := by
  apply (plainName_follows h hplain .superglobal name n rfl).bind
  intro _
  apply (overwrite_follows h .superglobals).bind
  intro _
  exact .ite Iff.rfl (fun _ => replaceByRuntime_follows h _ _ n) fun _ => .pure _

private theorem magicConst_follows (n : Node) (name : String) :
    Run.Follows I (magicConst n name) (magicConst n name) := by
  apply (plainName_follows h hplain .magicConst name n rfl).bind
  intro _
  apply Run.Follows.get_bind
  intro s t hst
  rw [(h.relaxed hst).isDefinedMagicConst_eq]
  exact .ite Iff.rfl (fun _ => replaceByRuntime_follows h _ _ n) fun _ => .pure _

omit hplain in
private theorem resolveClass_follows (n : Node) : Run.Follows I (resolveClass n) (resolveClass n) :=
    by
  unfold resolveClass
  cases (n.field "class").name? with
  | none => exact reject_follows _ _ _ _
  | some written =>
      apply (read_follows written.nameText).bind
      intro name
      apply Run.Follows.get_bind
      intro s t hst
      rw [(h.relaxed hst).substitute?_eq]
      cases s.substitute? name with
      | none => exact .pure _
      | some substitute => exact .pure _

private theorem classAccess_follows (n : Node) : Run.Follows I (classAccess n) (classAccess n) := by
  apply (resolveClass_follows h n).bind
  rintro ⟨verdict, name⟩
  apply (plainName_follows h hplain .classAccess name n rfl).bind
  intro _
  exact .pure verdict

private theorem instantiation_follows (n : Node) : Run.Follows I (instantiation n)
    (instantiation n) := by
  apply (require_follows h _ _ n).bind
  intro _
  apply (keyword_follows h hplain "new" n).bind
  intro _
  apply (resolveClass_follows h n).bind
  rintro ⟨verdict, name⟩
  apply (plainName_follows h hplain .type name n rfl).bind
  intro _
  exact .pure verdict

private theorem primitive_follows (type : Option String) (n : Node) :
    Run.Follows I (primitive type n) (primitive type n) := by
  cases type with
  | none => exact .pure ()
  | some type => exact plainName_follows h hplain .primitive type n rfl

end

private theorem shellExec_follows (hfunctions : ¬ spared .functions) (n : Node) :
    Run.Follows I (shellExec n) (shellExec n) := by
  apply Run.Follows.get_bind
  intro s t hst
  have hrelaxed := h.relaxed hst
  have hlisted : t.isWhitelisted .functions shellFunction =
      s.isWhitelisted .functions shellFunction :=
    decide_eq_decide.mpr (hrelaxed.allowed .functions hfunctions _)
  have hoffence : shellOffence? t = shellOffence? s := by
    rw [shellOffence?, hrelaxed.hasBlacklist_eq, hrelaxed.hasWhitelist_eq hfunctions,
      hrelaxed.isBlacklisted_eq, hlisted, shellOffence?]
  rw [hrelaxed.isOverridden_eq, hoffence]
  refine .ite Iff.rfl (fun _ => ?_) fun _ => ?_
  · apply (read_follows (command n)).bind
    intro line
    exact replaceByRuntime_follows h _ _ n
  · cases shellOffence? s with
    | some offence => exact reject_follows _ _ _ _
    | none =>
        apply (require_follows h _ _ n).bind
        intro _
        exact .pure _

theorem variableRef_follows {n : Node}
    (hplain : ∀ role name, role.isFetched = false → Licensed role name)
    (hfetched : ∀ name, n.field "name" = .str name → name ∉ superglobals →
      Licensed .variableRef name) :
    Run.Follows I (variableRef n) (variableRef n) := by
  unfold variableRef
  split
  case h_2 => exact reject_follows _ _ _ _
  case h_1 name hname =>
    apply Run.Follows.get_bind
    intro s t hst
    rw [(h.relaxed hst).handle]
    refine .ite Iff.rfl (fun _ => reject_follows _ _ _ _) fun _ => ?_
    refine .ite Iff.rfl (fun _ => superglobal_follows h hplain n name) fun hplainName => ?_
    rw [List.contains_iff_mem] at hplainName
    apply (name_follows h (hfetched name hname hplainName) (some n)).bind
    intro _
    exact .pure _

private theorem staticVar_follows {n : Node}
    (hfetched : ∀ name, staticName n = .str name → Licensed .variableRef name) :
    Run.Follows I (staticVar n) (staticVar n) := by
  apply (require_follows h _ _ n).bind
  intro _
  split
  case h_1 name hname => exact name_follows h (hfetched name hname) (some n)
  case h_2 => exact reject_follows _ _ _ _

private theorem constFetch_follows {n : Node}
    (hfetched : ∀ written text, (n.field "name").name? = some written →
      written.nameText = .ok text → Licensed .constant text) :
    Run.Follows I (constFetch n) (constFetch n) := by
  unfold constFetch
  cases hwritten : (n.field "name").name? with
  | none => exact reject_follows _ _ _ _
  | some written =>
      apply read_bind_follows
      intro text htext
      exact name_follows h (hfetched written text hwritten htext) (some n)

end

theorem keeping_follows {judge : Judge Unit} (hjudge : Run.Follows I judge judge) :
    Run.Follows I (keeping judge) (keeping judge) := by
  apply Run.Follows.bind hjudge
  intro _
  exact .pure _

private theorem required_follows (h : Lenient spared I Licensed) (n : Node) (feature : Feature)
    (offence : Offence) {judge : Judge Unit} (hjudge : Run.Follows I judge judge) :
    Run.Follows I
      (keeping do
        Judge.require feature offence n
        judge)
      (keeping do
        Judge.require feature offence n
        judge) := by
  apply keeping_follows
  apply (require_follows h feature offence n).bind
  intro _
  exact hjudge

private theorem byRule_follows (h : Lenient spared I Licensed) (hfunctions : ¬ spared .functions)
    (hplain : ∀ role name, role.isFetched = false → Licensed role name)
    {n : Node} (hfetched : ∀ role name, Fetches n role name → Licensed role name)
    {rule : Rule} (hrule : n.kind.rule = rule) :
    Run.Follows I (byRule n rule) (byRule n rule) := by
  cases rule with
  | exempt => exact .pure _
  | keyword word => exact keeping_follows (keyword_follows h hplain word n)
  | operator sign =>
      exact keeping_follows (plainName_follows h hplain .operator sign n rfl)
  | primitive type => exact keeping_follows (primitive_follows h hplain (some type) n)
  | magicConst name => exact magicConst_follows h hplain n name
  | escaping => exact keeping_follows (require_follows h _ _ n)
  | casting type => exact required_follows h n _ _ (primitive_follows h hplain type n)
  | functionDecl => exact keeping_follows (functionDecl_follows h hplain n)
  | closure => exact closure_follows h n
  | closureUse => exact keeping_follows (closureUse_follows h n)
  | classDecl => exact keeping_follows (classDecl_follows h hplain n)
  | interfaceDecl => exact keeping_follows (interfaceDecl_follows h hplain n)
  | traitDecl => exact keeping_follows (traitDecl_follows h hplain n)
  | traitUse => exact keeping_follows (traitUse_follows h hplain n)
  | generator => exact required_follows h n _ _ (keyword_follows h hplain "yield" n)
  | globalDecl => exact keeping_follows (globalDecl_follows h hplain n)
  | staticVar =>
      exact keeping_follows (staticVar_follows h fun name hname =>
        hfetched _ _ (.staticVar hrule hname))
  | constDecl => exact reject_follows _ _ _ _
  | errorSuppress => exact keeping_follows (require_follows h _ _ n)
  | assignRef =>
      have hsign := plainName_follows h hplain .operator referenceSign n rfl
      exact required_follows h n _ _ hsign
  | halting => exact required_follows h n _ _ (keyword_follows h hplain "halt" n)
  | namespaceDecl => exact namespaceDecl_follows h hplain n
  | useDecl => exact useDecl_follows h hplain n
  | funcCall => exact funcCall_follows h hplain n
  | variableRef =>
      exact variableRef_follows h hplain fun name hname hplainName =>
        hfetched _ _ (.variableRef hrule hname hplainName)
  | constFetch =>
      exact keeping_follows (constFetch_follows h fun written text hwritten htext =>
        hfetched _ _ (.constant hrule hwritten htext))
  | classAccess => exact classAccess_follows h hplain n
  | instantiation => exact instantiation_follows h hplain n
  | shellExec => exact shellExec_follows h hfunctions n

theorem node_follows (h : Lenient spared I Licensed) (hfunctions : ¬ spared .functions)
    (hplain : ∀ role name, role.isFetched = false → Licensed role name)
    {n : Node}
    (hfetched : n.generated = false → ∀ role name, Fetches n role name → Licensed role name) :
    Run.Follows I (node n) (node n) := by
  unfold node
  refine .ite Iff.rfl (fun _ => .pure _) fun hnew => ?_
  exact byRule_follows h hfunctions hplain (hfetched (Bool.eq_false_iff.mpr hnew)) rfl

theorem Fetches.meets {store : Store} {n : Node} {role : Role} {name : String}
    {verdict : Verdict} (hfetches : Fetches n role name) (houtcome : Outcome store n verdict) :
    n.Meets store := by
  cases houtcome with
  | kept hmeets => exact hmeets
  | called hcall => cases hcall <;> cases hfetches <;> simp_all
  | _ => cases hfetches <;> simp_all

theorem Fetches.accepts {store : Store} {n : Node} {role : Role} {name : String}
    (hfetches : Fetches n role name) (hmeets : n.Meets store) : store.Accepts role name := by
  cases hfetches with
  | constant hrule hwritten htext =>
      rw [Node.Meets, hrule] at hmeets
      obtain ⟨other, hother, text, hspelled, haccepts⟩ := hmeets
      cases hwritten.symm.trans hother
      cases htext.symm.trans hspelled
      exact haccepts
  | variableRef hrule hname hplain =>
      rw [Node.Meets, hrule] at hmeets
      obtain ⟨other, hother, _, haccepts⟩ := hmeets
      cases hname.symm.trans hother
      rwa [if_neg hplain] at haccepts
  | staticVar hrule hname =>
      rw [Node.Meets, hrule] at hmeets
      obtain ⟨_, other, hother, haccepts⟩ := hmeets
      cases hname.symm.trans hother
      exact haccepts

private theorem Fetches.accepts_of_passes {store : Store} {n : Node} {role : Role} {name : String}
    (hfetches : Fetches n role name) (hnew : n.generated = false)
    (hpasses : (node n).Passes store) : store.Accepts role name := by
  obtain ⟨verdict, after, hrun⟩ := exists_of_isOk hpasses
  obtain ⟨_, houtcome⟩ := (node_yields hnew).ok .start hrun
  exact hfetches.accepts (hfetches.meets houtcome)

/-- The store permits the constant or variable that the node fetches, if it fetches one. -/
def FetchesAccepted (store : Store) (n : Node) : Prop :=
  n.generated = false → ∀ role name, Fetches n role name → store.Accepts role name

theorem visitor_returnsIf {second : Store}
    (hspared : ∀ category, spared category → category = .constants ∨ category = .variables) :
    visitor.ReturnsIf (fun s t => s.Relaxed spared t ∧ second.SamePolicy t)
      (FetchesAccepted second) := by
  let Licensed (role : Role) (name : String) : Prop :=
    role.isFetched = false ∨ second.Accepts role name
  have hlenient : Lenient spared (fun s t => s.Relaxed spared t ∧ second.SamePolicy t) Licensed := by
    refine ⟨And.left, ?_, ?_⟩
    · rintro s t role name ⟨hrelaxed, hsame⟩ (hrole | haccepts) hcheck
      · refine hrelaxed.check (fun hlist => ?_) hcheck
        obtain ⟨hconstants, hvariables⟩ := Role.category_of_not_isFetched hrole
        exact (hspared _ hlist).elim hconstants hvariables
      · rw [hsame.check_eq]
        exact haccepts
    · rintro s t change hchange ⟨hrelaxed, hsame⟩
      exact ⟨hrelaxed.apply hchange, hsame.trans (Store.samePolicy_apply t (.of hchange))⟩
  have hfunctions : ¬ spared .functions := by
    intro hlist
    rcases hspared _ hlist with h | h <;> cases h
  intro n s t hst verdict after hrun
  refine ⟨fun hadmitted => ?_, fun hpasses hnew role name hfetches => ?_⟩
  · have hlicensed : n.generated = false → ∀ role name, Fetches n role name → Licensed role name :=
      fun hnew role name hfetches => .inr (hadmitted hnew role name hfetches)
    exact node_follows hlenient hfunctions (fun _ _ => .inl) hlicensed s t hst verdict after hrun
  · have haccepts := hfetches.accepts_of_passes hnew hpasses
    rwa [Store.Accepts, hst.2.check_eq] at haccepts

end Enforce

end ScriptSandbox
