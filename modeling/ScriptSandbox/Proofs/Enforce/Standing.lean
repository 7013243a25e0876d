import ScriptSandbox.Proofs.Enforce.Stability

/-!
# Nodes that are kept

What a node needs, besides the policy of its kind, to be kept as it is: the arguments of a
call can be read, a closure imports the runtime already, and a class has no substitute.
A node that stands is kept, and so is its copy; a node that was kept once stands, unless
it declares a function.
-/

namespace ScriptSandbox

open Judge

def Node.KeepsClass (store : Store) (n : Node) : Prop :=
  n.kind.rule = .classAccess ∨ n.kind.rule = .instantiation →
    ∀ written name, (n.field "class").name? = some written → written.nameText = .ok name →
      store.substitute? name = none

structure Node.Prepared (store : Store) (n : Node) : Prop where
  arguments : n.kind.rule = .funcCall → ∃ args, n.fieldItems "args" = .ok args
  imports : n.kind.rule = .closure →
    ∃ uses, n.fieldItems "uses" = .ok uses ∧ Enforce.usesVariable store.handle uses = .ok true

structure Node.ReadFor (store : Store) (n : Node) (verdict : Verdict) : Prop where
  arguments : n.kind.rule = .funcCall → verdict = .keep → ∃ args, n.fieldItems "args" = .ok args
  uses : n.kind.rule = .closure →
    ∃ uses used, n.fieldItems "uses" = .ok uses ∧
      Enforce.usesVariable store.handle uses = .ok used ∧ (verdict = .keep ↔ used = true)
  keepsClass : verdict = .keep → n.KeepsClass store

private theorem Node.ReadFor.prepared {store : Store} {n : Node} (h : n.ReadFor store .keep) :
    n.Prepared store where
  arguments hrule := h.arguments hrule rfl
  imports hrule := by
    obtain ⟨uses, used, huses, hused, hkept⟩ := h.uses hrule
    rw [hkept.mp rfl] at hused
    exact ⟨uses, huses, hused⟩

structure Node.Stands (store : Store) (n : Node) : Prop where
  meets : n.Meets store
  prepared : n.Prepared store
  keepsClass : n.KeepsClass store
  undeclared : n.kind.rule ≠ .functionDecl

variable {store : Store}

theorem Node.ReadFor.stands {n : Node} (h : n.ReadFor store .keep) (hmeets : n.Meets store)
    (hdecl : n.kind.rule ≠ .functionDecl) : n.Stands store :=
  ⟨hmeets, h.prepared, h.keepsClass rfl, hdecl⟩

theorem Node.stands_of_exempt {n : Node} (hrule : n.kind.rule = .exempt) : n.Stands store := by
  refine ⟨?_, ⟨fun h => ?_, fun h => ?_⟩, fun h => ?_, fun h => ?_⟩
  · rw [Node.Meets, hrule]
    trivial
  all_goals
    rw [hrule] at h
    simp at h

@[simp] theorem Enforce.usesVariable_fresh (name : String) (uses : List Value) :
    usesVariable name (freshItems uses) = usesVariable name uses := by
  induction uses with
  | nil => rfl
  | cons use rest ih =>
      rw [freshItems, usesVariable, usesVariable, Value.member_fresh, ih]
      cases use.member "var" with
      | error cause => rfl
      | ok var =>
          change (if var.fresh.text? = some name then _ else _ : Except Malformed Bool) = _
          rw [Value.text?_fresh]
          rfl

namespace Node

variable {n : Node}

theorem KeepsClass.fresh (h : n.KeepsClass store) : n.fresh.KeepsClass store := by
  intro hrule written name hwritten hname
  rw [kind_fresh] at hrule
  rw [field_fresh, Value.name?_fresh, Option.map_eq_some_iff] at hwritten
  obtain ⟨source, hsource, rfl⟩ := hwritten
  rw [nameText_fresh] at hname
  exact h hrule source name hsource hname

theorem Prepared.fresh (h : n.Prepared store) : n.fresh.Prepared store where
  arguments hrule := by
    rw [kind_fresh] at hrule
    obtain ⟨args, hargs⟩ := h.arguments hrule
    exact ⟨freshItems args, by rw [fieldItems_fresh, hargs]; rfl⟩
  imports hrule := by
    rw [kind_fresh] at hrule
    obtain ⟨uses, huses, hused⟩ := h.imports hrule
    refine ⟨freshItems uses, by rw [fieldItems_fresh, huses]; rfl, ?_⟩
    simp [hused]

theorem Stands.fresh (h : n.Stands store) : n.fresh.Stands store where
  meets := h.meets.fresh
  prepared := h.prepared.fresh
  keepsClass := h.keepsClass.fresh
  undeclared := by
    rw [kind_fresh]
    exact h.undeclared

end Node

namespace Enforce

variable {n : Node}

private theorem namedCall_reads (n written : Node) :
    Run.Yields (fun _ => True) (namedCall n written)
      (fun _ => ∃ args, n.fieldItems "args" = .ok args) := by
  refine (Run.Yields.any _).bind fun text _ => ?_
  refine (Run.Yields.any _).bind fun _ _ => ?_
  refine (Run.Yields.ofExcept Refusal.malformed (n.fieldItems "args")).bind fun args hargs => ?_
  exact (Run.Yields.any _).mono fun _ _ => ⟨args, hargs⟩

private theorem funcCall_reads (n : Node) :
    Run.Yields (fun _ => True) (funcCall n)
      (fun verdict => verdict = .keep → ∃ args, n.fieldItems "args" = .ok args) := by
  unfold funcCall
  cases (n.field "name").name? with
  | some written => exact (namedCall_reads n written).mono fun _ hargs _ => hargs
  | none =>
      change Run.Yields _ (dynamicCall n) _
      unfold dynamicCall
      split
      next =>
        refine (Run.Yields.any _).bind fun _ _ => Run.Yields.pure fun hkeep => ?_
        cases hkeep
      next => exact Run.Yields.throw _

private theorem closure_reads (n : Node) :
    Run.Yields (Reaches store) (closure n)
      (fun verdict => ∃ uses used, n.fieldItems "uses" = .ok uses ∧
        usesVariable store.handle uses = .ok used ∧ (verdict = .keep ↔ used = true)) := by
  refine (require_yields _ _ n).bind fun _ _ => ?_
  refine (read_yields (n.fieldItems "uses")).bind fun uses huses => ?_
  refine get_yields.bind fun mid hmid => ?_
  rw [hmid.handle_eq]
  refine (read_yields (usesVariable store.handle uses)).bind fun used hused => ?_
  refine Run.Yields.ite (fun himports => ?_) fun himports => ?_
  · exact Run.Yields.pure ⟨uses, used, huses, hused, fun _ => himports, fun _ => rfl⟩
  · refine Run.Yields.pure ⟨uses, used, huses, hused, fun hkeep => ?_, fun h => absurd h himports⟩
    cases hkeep

private theorem resolveClass_reads (n : Node) :
    Run.Yields (Reaches store) (resolveClass n)
      (fun resolved => resolved.1 = .keep → n.KeepsClass store) := by
  unfold resolveClass
  cases hwritten : (n.field "class").name? with
  | none => exact reject_yields _ _ _
  | some written =>
      refine (read_yields written.nameText).bind fun name hname => ?_
      refine get_yields.bind fun mid hmid => ?_
      rw [hmid.substitute?_eq]
      cases hsubstitute : store.substitute? name with
      | none =>
          refine Run.Yields.pure fun _ _ given text hgiven htext => ?_
          rw [hwritten] at hgiven
          cases hgiven
          rw [hname] at htext
          cases htext
          exact hsubstitute
      | some substitute =>
          refine Run.Yields.pure fun hkeep => ?_
          cases hkeep

private theorem classAccess_reads (n : Node) :
    Run.Yields (Reaches store) (classAccess n)
      (fun verdict => verdict = .keep → n.KeepsClass store) := by
  refine (resolveClass_reads n).bind fun resolved hkeeps => ?_
  exact (name_yields .classAccess resolved.2 (some n)).bind fun _ _ => Run.Yields.pure hkeeps

private theorem instantiation_reads (n : Node) :
    Run.Yields (Reaches store) (instantiation n)
      (fun verdict => verdict = .keep → n.KeepsClass store) := by
  refine (require_yields _ _ n).bind fun _ _ => ?_
  refine (keyword_yields "new" n).bind fun _ _ => ?_
  refine (resolveClass_reads n).bind fun resolved hkeeps => ?_
  exact (name_yields .type resolved.2 (some n)).bind fun _ _ => Run.Yields.pure hkeeps

theorem node_reads (hnew : n.generated = false) :
    Run.Yields (Reaches store) (node n) (n.ReadFor store) := by
  have hinvariant : Run.Yields (Reaches store) (node n) (fun _ => True) :=
    (node_yields hnew).mono fun _ _ => trivial
  cases hrule : n.kind.rule with
  | funcCall =>
      rw [node_of_rule hnew hrule] at hinvariant ⊢
      exact (hinvariant.and_of_any (funcCall_reads n)).mono fun verdict hverdict =>
        ⟨fun _ => hverdict.2, by simp [hrule], by simp [Node.KeepsClass, hrule]⟩
  | closure =>
      rw [node_of_rule hnew hrule]
      exact (closure_reads n).mono fun verdict hverdict =>
        ⟨by simp [hrule], fun _ => hverdict, by simp [Node.KeepsClass, hrule]⟩
  | classAccess =>
      rw [node_of_rule hnew hrule]
      exact (classAccess_reads n).mono fun verdict hkeeps =>
        ⟨by simp [hrule], by simp [hrule], hkeeps⟩
  | instantiation =>
      rw [node_of_rule hnew hrule]
      exact (instantiation_reads n).mono fun verdict hkeeps =>
        ⟨by simp [hrule], by simp [hrule], hkeeps⟩
  | _ =>
      exact hinvariant.mono fun _ _ =>
        ⟨by simp [hrule], by simp [hrule], by simp [Node.KeepsClass, hrule]⟩

private theorem keeping_returns {judge : Judge Unit} (h : Run.Returns (Reaches store) judge ()) :
    Run.Returns (Reaches store) (keeping judge) .keep :=
  h.bind (Run.Returns.pure Verdict.keep)

private theorem keyword_returns {word : String} (n : Node) (h : store.Accepts .keyword word) :
    Run.Returns (Reaches store) (keyword word n) () :=
  name_returns (some n) h

theorem declaredName_returns {name : String} (offence : Offence)
    (h : n.declaredName? = some name) :
    Run.Returns (Reaches store) (declaredName offence n) name := by
  unfold declaredName
  rw [h]
  exact Run.Returns.pure name

private theorem spelledName_returns {value : Value} {text : String} (offence : Offence) (n : Node)
    (htext : value.nameText = .ok text) (hne : text ≠ "") :
    Run.Returns (Reaches store) (spelledName offence n value) text := by
  apply (read_returns htext).bind
  exact Run.Returns.ite (fun hempty => absurd hempty hne) fun _ => Run.Returns.pure text

private theorem declares_returns {role : Role} (offence : Offence)
    (h : n.DeclaresAccepted store role) :
    Run.Returns (Reaches store)
      (declaredName offence n >>= fun name => Judge.name role name (some n)) () := by
  obtain ⟨name, hname, haccepts⟩ := h
  exact (declaredName_returns offence hname).bind (name_returns (some n) haccepts)

theorem spells_returns {role : Role} {value : Value} (offence : Offence) (n : Node)
    (h : value.SpellsNonEmpty store role) :
    Run.Returns (Reaches store)
      (spelledName offence n value >>= fun text => Judge.name role text (some n)) () := by
  obtain ⟨text, htext, hne, haccepts⟩ := h
  exact (spelledName_returns offence n htext hne).bind (name_returns (some n) haccepts)

private theorem allItems_returns {field : String} {step : Value → Judge Unit} {Q : Value → Prop}
    (hstep : ∀ item, Q item → Run.Returns (Reaches store) (step item) ())
    (h : n.AllItems field Q) :
    Run.Returns (Reaches store)
      (Judge.read (n.fieldItems field) >>= fun items => items.forM step) () := by
  obtain ⟨items, hitems, hall⟩ := h
  exact (read_returns hitems).bind (Run.Returns.forM fun item hitem => hstep item (hall item hitem))

private theorem closureUse_returns (h : Rule.closureUse.Meets store n) :
    Run.Returns (Reaches store) (closureUse n) () := by
  apply Run.Returns.get_bind
  intro mid hmid
  rw [hmid.samePolicy.handle_eq]
  exact Run.Returns.ite (fun hvar => absurd hvar h) fun _ => Run.Returns.pure ()

private theorem closure_returns_of_import {uses : List Value}
    (hallow : store.allows .closures = true)
    (huses : n.fieldItems "uses" = .ok uses) (hused : usesVariable store.handle uses = .ok true) :
    Run.Returns (Reaches store) (closure n) .keep := by
  apply (require_returns _ _ hallow).bind
  apply (read_returns huses).bind
  apply Run.Returns.get_bind
  intro mid hmid
  rw [hmid.samePolicy.handle_eq]
  exact (read_returns hused).bind (Run.Returns.pure Verdict.keep)

theorem parentClass_returns (h : n.ParentAccepted store) :
    Run.Returns (Reaches store) (parentClass n) () := by
  unfold parentClass
  cases hparent : (n.field "extends").name? with
  | none => exact Run.Returns.pure ()
  | some parent =>
      obtain ⟨hkeyword, hspells⟩ := h parent hparent
      exact (keyword_returns n hkeyword).bind (spells_returns _ n hspells)

private theorem classDecl_returns (h : Rule.classDecl.Meets store n) :
    Run.Returns (Reaches store) (classDecl n) () := by
  obtain ⟨hallow, hkeyword, ⟨name, hname, haccepts⟩, hparent, himplements⟩ := h
  apply (require_returns _ _ hallow).bind
  apply (keyword_returns n hkeyword).bind
  apply (declaredName_returns _ hname).bind
  apply (name_returns _ haccepts).bind
  apply (parentClass_returns hparent).bind
  refine Run.Returns.ite (fun htruthy => ?_) fun _ => Run.Returns.pure ()
  obtain ⟨hword, hitems⟩ := himplements htruthy
  apply (keyword_returns n hword).bind
  exact allItems_returns (fun item hspells => spells_returns _ n hspells) hitems

private theorem interfaceDecl_returns (h : Rule.interfaceDecl.Meets store n) :
    Run.Returns (Reaches store) (interfaceDecl n) () := by
  obtain ⟨hallow, hkeyword, ⟨name, hname, haccepts⟩, hparents⟩ := h
  apply (require_returns _ _ hallow).bind
  apply (keyword_returns n hkeyword).bind
  apply (declaredName_returns _ hname).bind
  apply (name_returns _ haccepts).bind
  refine allItems_returns (fun item hspells => ?_) hparents
  obtain ⟨text, htext, haccepts⟩ := hspells
  exact (read_returns htext).bind (name_returns (some n) haccepts)

private theorem traitDecl_returns (h : Rule.traitDecl.Meets store n) :
    Run.Returns (Reaches store) (traitDecl n) () := by
  obtain ⟨hallow, hkeyword, hname⟩ := h
  apply (require_returns _ _ hallow).bind
  apply (keyword_returns n hkeyword).bind
  exact declares_returns _ hname

private theorem traitUse_returns (h : Rule.traitUse.Meets store n) :
    Run.Returns (Reaches store) (traitUse n) () := by
  obtain ⟨hkeyword, hitems⟩ := h
  apply (keyword_returns n hkeyword).bind
  exact allItems_returns (fun item hspells => spells_returns _ n hspells) hitems

theorem globalVar_returns {item : Value} (n : Node) (h : item.NamesGlobal store) :
    Run.Returns (Reaches store) (globalVar n item) () := by
  obtain ⟨name, hname, haccepts⟩ := h
  exact (read_returns hname).bind (name_returns (some n) haccepts)

private theorem globalDecl_returns (h : Rule.globalDecl.Meets store n) :
    Run.Returns (Reaches store) (globalDecl n) () := by
  obtain ⟨hallow, hkeyword, hitems⟩ := h
  apply (require_returns _ _ hallow).bind
  apply (keyword_returns n hkeyword).bind
  exact allItems_returns (fun item hnames => globalVar_returns n hnames) hitems

private theorem staticVar_returns (h : Rule.staticVar.Meets store n) :
    Run.Returns (Reaches store) (staticVar n) () := by
  obtain ⟨hallow, name, hname, haccepts⟩ := h
  apply (require_returns _ _ hallow).bind
  rw [hname]
  exact name_returns (some n) haccepts

private theorem namedCall_returns {written : Node} {args : List Value}
    (hwritten : (n.field "name").name? = some written) (h : n.CallAccepted store)
    (hargs : n.fieldItems "args" = .ok args) :
    Run.Returns (Reaches store) (namedCall n written) .keep := by
  obtain ⟨given, text, hgiven, htext, haccepts, hfree, hdefined, harguments⟩ := h
  rw [hwritten] at hgiven
  cases hgiven
  apply (read_returns htext).bind
  apply (name_returns _ haccepts).bind
  apply (read_returns hargs).bind
  apply Run.Returns.get_bind
  intro mid hmid
  rw [hmid.samePolicy.isOverridden_eq, hmid.samePolicy.flag_eq, hmid.samePolicy.flag_eq, hfree]
  refine Run.Returns.ite (fun h => ?_) fun _ => ?_
  · cases h
  refine Run.Returns.ite (fun h => ?_) fun _ => ?_
  · rw [Bool.and_eq_true, List.contains_iff_mem] at h
    exact absurd h hdefined
  refine Run.Returns.ite (fun h => ?_) fun _ => Run.Returns.pure Verdict.keep
  rw [Bool.and_eq_true, List.contains_iff_mem] at h
  exact absurd h harguments

private theorem funcCall_returns {args : List Value} (h : n.CallAccepted store)
    (hargs : n.fieldItems "args" = .ok args) : Run.Returns (Reaches store) (funcCall n) .keep := by
  obtain ⟨written, _, hwritten, _⟩ := id h
  unfold funcCall
  rw [hwritten]
  exact namedCall_returns hwritten h hargs

private theorem superglobal_returns {name : String} (haccepts : store.Accepts .superglobal name)
    (hflag : store.flag (.overwrite .superglobals) = false) :
    Run.Returns (Reaches store) (superglobal n name) .keep := by
  apply (name_returns _ haccepts).bind
  apply Run.Returns.get_bind
  intro mid hmid
  rw [hmid.samePolicy.flag_eq, hflag]
  exact Run.Returns.pure Verdict.keep

private theorem variableRef_returns (h : n.VariableAccepted store) :
    Run.Returns (Reaches store) (variableRef n) .keep := by
  obtain ⟨name, hname, hfree, haccepts⟩ := h
  unfold variableRef
  rw [hname]
  apply Run.Returns.get_bind
  intro mid hmid
  rw [hmid.samePolicy.handle_eq]
  refine Run.Returns.ite (fun h => absurd h hfree) fun _ => ?_
  refine Run.Returns.ite (fun hsuper => ?_) fun hsuper => ?_
  · rw [if_pos (List.contains_iff_mem.mp hsuper)] at haccepts
    exact superglobal_returns haccepts.1 haccepts.2
  · rw [if_neg fun hmem => hsuper (List.contains_iff_mem.mpr hmem)] at haccepts
    exact (name_returns _ haccepts).bind (Run.Returns.pure Verdict.keep)

private theorem constFetch_returns (h : Rule.constFetch.Meets store n) :
    Run.Returns (Reaches store) (constFetch n) () := by
  obtain ⟨written, hwritten, text, htext, haccepts⟩ := h
  unfold constFetch
  rw [hwritten]
  exact (read_returns htext).bind (name_returns (some n) haccepts)

private theorem magicConst_returns {name : String} (haccepts : store.Accepts .magicConst name)
    (hfree : store.isDefinedMagicConst name = false) :
    Run.Returns (Reaches store) (magicConst n name) .keep := by
  apply (name_returns _ haccepts).bind
  apply Run.Returns.get_bind
  intro mid hmid
  rw [hmid.samePolicy.isDefinedMagicConst_eq, hfree]
  exact Run.Returns.pure Verdict.keep

private theorem shellExec_returns (h : Rule.shellExec.Meets store n) :
    Run.Returns (Reaches store) (shellExec n) .keep := by
  obtain ⟨hallow, hfree, hlists⟩ := h
  apply Run.Returns.get_bind
  intro mid hmid
  have hoffence : shellOffence? mid = none := by
    rw [shellOffence?_eq_none_iff, hmid.samePolicy.listsAccept_eq]
    exact hlists
  rw [hmid.samePolicy.isOverridden_eq, hfree, hoffence]
  exact (require_returns _ n hallow).bind (Run.Returns.pure Verdict.keep)

private theorem classStays {role : Role} (h : n.ClassAccepted store role)
    (hkeeps : ∀ written name, (n.field "class").name? = some written →
      written.nameText = .ok name → store.substitute? name = none) : ClassStays store role n := by
  obtain ⟨written, hwritten, name, hname, haccepts⟩ := h
  exact ⟨written, name, hwritten, hname, hkeeps written name hwritten hname, haccepts⟩

private theorem primitive_returns {type : Option String} (n : Node)
    (h : ∀ name ∈ type, store.Accepts .primitive name) :
    Run.Returns (Reaches store) (primitive type n) () := by
  cases type with
  | none => exact Run.Returns.pure ()
  | some name => exact name_returns (some n) (h name rfl)

private theorem byRule_returns (h : n.Stands store) {rule : Rule} (hrule : n.kind.rule = rule) :
    Run.Returns (Reaches store) (byRule n rule) .keep := by
  have hmeets := h.meets
  rw [Node.Meets, hrule] at hmeets
  cases rule with
  | exempt => exact Run.Returns.pure Verdict.keep
  | keyword word => exact keeping_returns (keyword_returns n hmeets)
  | operator sign => exact keeping_returns (name_returns (some n) hmeets)
  | primitive type => exact keeping_returns (name_returns (some n) hmeets)
  | magicConst name => exact magicConst_returns hmeets.1 hmeets.2
  | escaping => exact keeping_returns (require_returns _ n hmeets)
  | casting type =>
      exact keeping_returns ((require_returns _ n hmeets.1).bind (primitive_returns n hmeets.2))
  | functionDecl => exact absurd hrule h.undeclared
  | closure =>
      obtain ⟨uses, huses, hused⟩ := h.prepared.imports hrule
      exact closure_returns_of_import hmeets huses hused
  | closureUse => exact keeping_returns (closureUse_returns hmeets)
  | classDecl => exact keeping_returns (classDecl_returns hmeets)
  | interfaceDecl => exact keeping_returns (interfaceDecl_returns hmeets)
  | traitDecl => exact keeping_returns (traitDecl_returns hmeets)
  | traitUse => exact keeping_returns (traitUse_returns hmeets)
  | generator =>
      exact keeping_returns ((require_returns _ n hmeets.1).bind (keyword_returns n hmeets.2))
  | globalDecl => exact keeping_returns (globalDecl_returns hmeets)
  | staticVar => exact keeping_returns (staticVar_returns hmeets)
  | constDecl => exact hmeets.elim
  | errorSuppress => exact keeping_returns (require_returns _ n hmeets)
  | assignRef =>
      exact keeping_returns ((require_returns _ n hmeets.1).bind (name_returns (some n) hmeets.2))
  | halting =>
      exact keeping_returns ((require_returns _ n hmeets.1).bind (keyword_returns n hmeets.2))
  | namespaceDecl => exact hmeets.elim
  | useDecl => exact hmeets.elim
  | funcCall =>
      obtain ⟨args, hargs⟩ := h.prepared.arguments hrule
      exact funcCall_returns hmeets hargs
  | variableRef => exact variableRef_returns hmeets
  | constFetch => exact keeping_returns (constFetch_returns hmeets)
  | classAccess => exact classAccess_returns (classStays hmeets (h.keepsClass (.inl hrule)))
  | instantiation =>
      obtain ⟨hallow, hkeyword, hclass⟩ := hmeets
      exact instantiation_returns hallow hkeyword (classStays hclass (h.keepsClass (.inr hrule)))
  | shellExec => exact shellExec_returns hmeets

theorem node_returns (h : n.Stands store) : Run.Returns (Reaches store) (node n) .keep :=
  Run.Returns.ite (fun _ => Run.Returns.pure Verdict.keep) fun _ => byRule_returns h rfl

end Enforce

end ScriptSandbox
