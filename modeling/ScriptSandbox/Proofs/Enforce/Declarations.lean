import ScriptSandbox.Proofs.Enforce.Outcome
import ScriptSandbox.Proofs.Policy.Frame

/-!
# Declarations that pass

What holds of a declaration whose rule has returned: one lemma for each rule, put
together from the lemmas on the steps of judging.
-/

namespace ScriptSandbox

open Judge

namespace Enforce

variable {store : Store}

theorem keyword_yields (word : String) (n : Node) :
    Run.Yields (Reaches store) (keyword word n) (fun _ => store.Accepts .keyword word) :=
  name_yields .keyword word (some n)

theorem declaredName_yields (offence : Offence) (n : Node) :
    Run.Yields (Reaches store) (declaredName offence n)
      (fun name => n.declaredName? = some name) := by
  unfold declaredName
  cases hname : n.declaredName? with
  | some name => exact Run.Yields.pure rfl
  | none => exact reject_yields _ _ _

private theorem spelledName_yields (offence : Offence) (n : Node) (value : Value) :
    Run.Yields (Reaches store) (spelledName offence n value)
      (fun text => value.nameText = .ok text ∧ text ≠ "") := by
  refine (read_yields value.nameText).bind fun text htext => ?_
  refine Run.Yields.ite (fun _ => reject_bind_yields _ _ _ _) fun hne => ?_
  exact Run.Yields.pure ⟨htext, hne⟩

private theorem declares_yields (role : Role) (offence : Offence) (n : Node) :
    Run.Yields (Reaches store)
      (declaredName offence n >>= fun name => Judge.name role name (some n))
      (fun _ => n.DeclaresAccepted store role) := by
  refine (declaredName_yields offence n).bind fun name hname => ?_
  exact (name_yields role name (some n)).mono fun _ haccepts => ⟨name, hname, haccepts⟩

theorem spells_yields (role : Role) (offence : Offence) (n : Node) (value : Value) :
    Run.Yields (Reaches store)
      (spelledName offence n value >>= fun text => Judge.name role text (some n))
      (fun _ => value.SpellsNonEmpty store role) := by
  refine (spelledName_yields offence n value).bind fun text htext => ?_
  exact (name_yields role text (some n)).mono
    fun _ haccepts => ⟨text, htext.1, htext.2, haccepts⟩

private theorem allItems_yields {n : Node} {field : String} {step : Value → Judge Unit}
    {Q : Value → Prop}
    (h : ∀ item, Run.Yields (Reaches store) (step item) (fun _ => Q item)) :
    Run.Yields (Reaches store) (Judge.read (n.fieldItems field) >>= fun items => items.forM step)
      (fun _ => n.AllItems field Q) := by
  refine (read_yields (n.fieldItems field)).bind fun items hitems => ?_
  exact (Run.Yields.forM fun item _ => h item).mono fun _ hall => ⟨items, hitems, hall⟩

theorem functionDecl_yields (n : Node) :
    Run.Yields (Reaches store) (functionDecl n)
      (fun _ => Rule.functionDecl.Meets store n) := by
  refine (require_yields _ _ n).bind fun _ hallow => ?_
  refine (keyword_yields "function" n).bind fun _ hkeyword => ?_
  refine (declaredName_yields _ n).bind fun name hname => ?_
  refine get_yields.bind fun mid hmid => ?_
  refine Run.Yields.ite (fun _ => reject_bind_yields _ _ _ _) fun hfree => ?_
  refine Run.Yields.ite (fun _ => reject_bind_yields _ _ _ _) fun hvalue => ?_
  refine (update_yields fun _ h => h.declare name).mono fun _ _ => ?_
  rw [Bool.or_eq_true, not_or, Bool.not_eq_true, hmid.isOverridden_eq] at hfree
  refine ⟨hallow, hkeyword, ⟨name, hname, hfree.1⟩, fun href => ?_⟩
  rw [href, hmid.allows_eq] at hvalue
  simpa using hvalue

theorem closure_yields {n : Node} (hrule : n.kind.rule = .closure) :
    Run.Yields (Reaches store) (closure n) (Outcome store n) := by
  refine (require_yields _ _ n).bind fun _ hallow => ?_
  refine (read_yields (n.fieldItems "uses")).bind fun uses huses => ?_
  refine get_yields.bind fun mid hmid => ?_
  refine (read_yields (usesVariable mid.handle uses)).bind fun names _ => ?_
  refine Run.Yields.ite (fun _ => Run.Yields.pure (.kept ?_)) fun _ => ?_
  · rw [Node.Meets, hrule]
    exact hallow
  · rw [hmid.handle_eq]
    exact Run.Yields.pure (.imported hrule hallow huses)

theorem closureUse_yields (n : Node) :
    Run.Yields (Reaches store) (closureUse n) (fun _ => Rule.closureUse.Meets store n) := by
  refine get_yields.bind fun mid hmid => ?_
  refine Run.Yields.ite (fun _ => reject_yields _ _ _) fun hvar => ?_
  rw [hmid.handle_eq] at hvar
  exact Run.Yields.pure hvar

theorem parentClass_yields (n : Node) :
    Run.Yields (Reaches store) (parentClass n) (fun _ => n.ParentAccepted store) := by
  unfold parentClass
  cases hparent : (n.field "extends").name? with
  | none =>
      refine Run.Yields.pure fun parent h => ?_
      rw [hparent] at h
      cases h
  | some parent =>
      refine (keyword_yields "extends" n).bind fun _ hkeyword => ?_
      refine (spells_yields .classExtension _ n (.node parent)).mono fun _ hspells => ?_
      intro other hother
      rw [hparent] at hother
      cases hother
      exact ⟨hkeyword, hspells⟩

private theorem implemented_yields (n : Node) (item : Value) :
    Run.Yields (Reaches store) (implemented n item)
      (fun _ => item.SpellsNonEmpty store .interface) :=
  spells_yields .interface _ n item

theorem classDecl_yields (n : Node) :
    Run.Yields (Reaches store) (classDecl n) (fun _ => Rule.classDecl.Meets store n) := by
  refine (require_yields _ _ n).bind fun _ hallow => ?_
  refine (keyword_yields "class" n).bind fun _ hkeyword => ?_
  refine (declaredName_yields _ n).bind fun name hname => ?_
  refine (name_yields .classDecl name (some n)).bind fun _ haccepts => ?_
  refine (parentClass_yields n).bind fun _ hparent => ?_
  refine Run.Yields.ite (fun _ => ?_) fun hnone => ?_
  · refine (keyword_yields "implements" n).bind fun _ himplements => ?_
    refine (allItems_yields (implemented_yields n)).mono fun _ hitems => ?_
    exact ⟨hallow, hkeyword, ⟨name, hname, haccepts⟩, hparent, fun _ => ⟨himplements, hitems⟩⟩
  · exact Run.Yields.pure
      ⟨hallow, hkeyword, ⟨name, hname, haccepts⟩, hparent, fun h => absurd h hnone⟩

theorem interfaceDecl_yields (n : Node) :
    Run.Yields (Reaches store) (interfaceDecl n)
      (fun _ => Rule.interfaceDecl.Meets store n) := by
  refine (require_yields _ _ n).bind fun _ hallow => ?_
  refine (keyword_yields "interface" n).bind fun _ hkeyword => ?_
  refine (declaredName_yields _ n).bind fun name hname => ?_
  refine (name_yields .interface name (some n)).bind fun _ haccepts => ?_
  have hparent : ∀ item : Value, Run.Yields (Reaches store)
      (do Judge.name .interface (← Judge.read item.nameText) (some n))
      (fun _ => item.SpellsAccepted store .interface) := by
    intro item
    refine (read_yields item.nameText).bind fun text htext => ?_
    exact (name_yields .interface text (some n)).mono fun _ h => ⟨text, htext, h⟩
  refine (allItems_yields hparent).mono fun _ hitems => ?_
  exact ⟨hallow, hkeyword, ⟨name, hname, haccepts⟩, hitems⟩

theorem traitDecl_yields (n : Node) :
    Run.Yields (Reaches store) (traitDecl n) (fun _ => Rule.traitDecl.Meets store n) := by
  refine (require_yields _ _ n).bind fun _ hallow => ?_
  refine (keyword_yields "trait" n).bind fun _ hkeyword => ?_
  exact (declares_yields .traitName _ n).mono fun _ hname => ⟨hallow, hkeyword, hname⟩

theorem traitUse_yields (n : Node) :
    Run.Yields (Reaches store) (traitUse n) (fun _ => Rule.traitUse.Meets store n) := by
  refine (keyword_yields "use" n).bind fun _ hkeyword => ?_
  refine (allItems_yields fun item => spells_yields .traitName _ n item).mono fun _ hitems => ?_
  exact ⟨hkeyword, hitems⟩

theorem globalVar_yields (n : Node) (item : Value) :
    Run.Yields (Reaches store) (globalVar n item) (fun _ => item.NamesGlobal store) := by
  refine (read_yields (variableName? item)).bind fun name? hname => ?_
  cases name? with
  | some name =>
      exact (name_yields .globalVar name (some n)).mono fun _ haccepts => ⟨name, hname, haccepts⟩
  | none => exact reject_yields _ _ _

theorem globalDecl_yields (n : Node) :
    Run.Yields (Reaches store) (globalDecl n) (fun _ => Rule.globalDecl.Meets store n) := by
  refine (require_yields _ _ n).bind fun _ hallow => ?_
  refine (keyword_yields "global" n).bind fun _ hkeyword => ?_
  refine (allItems_yields (globalVar_yields n)).mono fun _ hitems => ?_
  exact ⟨hallow, hkeyword, hitems⟩

theorem staticVar_yields (n : Node) :
    Run.Yields (Reaches store) (staticVar n) (fun _ => Rule.staticVar.Meets store n) := by
  refine (require_yields _ _ n).bind fun _ hallow => ?_
  cases hname : staticName n with
  | scalar value =>
      cases value with
      | str name =>
          exact (name_yields .variableRef name (some n)).mono
            fun _ haccepts => ⟨hallow, name, hname, haccepts⟩
      | _ => exact reject_yields _ _ _
  | _ => exact reject_yields _ _ _

theorem namespaceDecl_yields {n : Node} (hrule : n.kind.rule = .namespaceDecl) :
    Run.Yields (Reaches store) (namespaceDecl n) (Outcome store n) := by
  refine (require_yields _ _ n).bind fun _ _ => ?_
  refine (keyword_yields "namespace" n).bind fun _ _ => ?_
  cases (n.field "name").name? with
  | none => exact reject_yields _ _ _
  | some name =>
      refine (read_yields name.nameText).bind fun text _ => ?_
      refine (nonEmptyName_yields .namespaceName text (some n)).bind fun _ _ => ?_
      refine (update_yields fun _ h => h.defineNamespace text).bind fun _ _ => ?_
      refine (read_yields (n.fieldItems "stmts")).bind fun items hitems => ?_
      exact Run.Yields.pure (.flattened hrule hitems)

private theorem useItem_yields (n : Node) (item : Value) :
    Run.Yields (Reaches store) (useItem n item) (fun _ => True) := by
  refine (read_yields (item.member "alias")).bind fun shortForm _ => ?_
  refine (read_yields item.kind).bind fun kind _ => ?_
  refine (read_yields (item.member "name")).bind fun name _ => ?_
  split
  next written shortName _ _ _ =>
    refine (read_yields written.nameText).bind fun text _ => ?_
    refine (nonEmptyName_yields .aliasName text (some n)).bind fun _ _ => ?_
    have hdefine : Run.Yields (Reaches store)
        (Judge.update (·.defineAlias text shortName)) (fun _ => True) :=
      update_yields fun _ h => h.defineAlias text shortName
    refine Run.Yields.ite (fun _ => ?_) fun _ => hdefine
    exact (keyword_yields "as" n).bind fun _ _ => hdefine
  next => exact reject_yields _ _ _

theorem useDecl_yields {n : Node} (hrule : n.kind.rule = .useDecl) :
    Run.Yields (Reaches store) (useDecl n) (Outcome store n) := by
  refine (require_yields _ _ n).bind fun _ _ => ?_
  refine (keyword_yields "use" n).bind fun _ _ => ?_
  refine (read_yields (n.fieldItems "uses")).bind fun items _ => ?_
  refine (Run.Yields.forM fun item _ => useItem_yields n item).bind fun _ _ => ?_
  exact Run.Yields.pure (.dropped hrule)

end Enforce

end ScriptSandbox
