import ScriptSandbox.Proofs.Enforce.Conclusions
import ScriptSandbox.Proofs.Enforce.Standing

/-!
# What a rule has to be able to read

`Rule.Readable` says, for the rule of a kind, which parts of a node have to be readable for
the rule to come to a conclusion.  A part that is read after a guard matters only where the
guard passes.  Most rules read nothing but texts, and no guard, with which they can do
whatever the field holds.
-/

namespace ScriptSandbox

open Judge

namespace Value

def Spells (value : Value) : Prop :=
  ∃ text, value.nameText = .ok text

end Value

namespace Node

def ItemsReadable (field : String) (P Q : Value → Prop) (n : Node) : Prop :=
  ∃ items, n.fieldItems field = .ok items ∧ InTurn P Q items

def NameReadable (field : String) (n : Node) : Prop :=
  ∀ written, (n.field field).name? = some written → (Value.node written).Spells

def NamespaceReadable (store : Store) (n : Node) : Prop :=
  ∀ written, (n.field "name").name? = some written →
    ∃ text, written.nameText = .ok text ∧
      (text ≠ "" ∧ store.Accepts .namespaceName text → ∃ items, n.fieldItems "stmts" = .ok items)

def NamesImport (n written : Node) (shortName : Option String) : Prop :=
  n.kind = .statement .useItem ∧ (n.field "name").name? = some written ∧
    shortName? (n.field "alias") = some shortName

end Node

namespace Value

def ImportReadable (value : Value) : Prop :=
  ∃ n, value = .node n ∧
    ∀ written shortName, n.NamesImport written shortName → (Value.node written).Spells

def ImportAccepted (store : Store) (value : Value) : Prop :=
  ∃ n written shortName, value = .node n ∧ n.NamesImport written shortName ∧
    (Value.node written).SpellsNonEmpty store .aliasName ∧
    ((n.field "alias").truthy = true → store.Accepts .keyword "as")

private theorem exists_node_of_kind {value : Value} {kind : Kind} (h : value.kind = .ok kind) :
    ∃ n, value = .node n := by
  cases value with
  | node n => exact ⟨n, rfl⟩
  | _ => cases h

theorem importReadable_node_iff {n : Node} :
    (Value.node n).ImportReadable ↔
      ∀ written shortName, n.NamesImport written shortName → (Value.node written).Spells := by
  simp [ImportReadable]

private theorem importAccepted_node_iff {store : Store} {n : Node} :
    (Value.node n).ImportAccepted store ↔
      ∃ written shortName, n.NamesImport written shortName ∧
        (Value.node written).SpellsNonEmpty store .aliasName ∧
        ((n.field "alias").truthy = true → store.Accepts .keyword "as") := by
  simp [ImportAccepted]

end Value

namespace Node.NamesImport

variable {n written : Node} {shortName : Option String} (h : n.NamesImport written shortName)

include h

theorem forall_iff {P : Node → Prop} :
    (∀ other otherName, n.NamesImport other otherName → P other) ↔ P written := by
  refine ⟨fun hall => hall written shortName h, fun hwritten other _ hother => ?_⟩
  rwa [Option.some.inj (hother.2.1.symm.trans h.2.1)]

private theorem exists_iff {P : Node → Prop} :
    (∃ other otherName, n.NamesImport other otherName ∧ P other) ↔ P written := by
  refine ⟨fun ⟨other, _, hother, hP⟩ => ?_, fun hwritten => ⟨written, shortName, h, hwritten⟩⟩
  rwa [Option.some.inj (h.2.1.symm.trans hother.2.1)]

end Node.NamesImport

open Enforce in
/-- What the rule of a kind reads of a node can be read. -/
def Rule.Readable (store : Store) (n : Node) : Rule → Prop
  | .closure =>
      store.allows .closures = true → ∃ uses, n.fieldItems "uses" = .ok uses ∧
        ∃ used, usesVariable store.handle uses = .ok used
  | .classDecl =>
      store.allows .classes = true → store.Accepts .keyword "class" →
        n.DeclaresAccepted store .classDecl →
          (∀ parent, (n.field "extends").name? = some parent →
            store.Accepts .keyword "extends" → (Value.node parent).Spells) ∧
          (n.ParentAccepted store → (n.field "implements").truthy = true →
            store.Accepts .keyword "implements" →
              n.ItemsReadable "implements" Value.Spells (Value.SpellsNonEmpty store .interface))
  | .interfaceDecl =>
      store.allows .interfaces = true → store.Accepts .keyword "interface" →
        n.DeclaresAccepted store .interface →
          n.ItemsReadable "extends" Value.Spells (Value.SpellsAccepted store .interface)
  | .traitUse =>
      store.Accepts .keyword "use" →
        n.ItemsReadable "traits" Value.Spells (Value.SpellsNonEmpty store .traitName)
  | .globalDecl =>
      store.allows .globals = true → store.Accepts .keyword "global" →
        n.ItemsReadable "vars" (fun item => ∃ name, variableName? item = .ok name)
          (Value.NamesGlobal store)
  | .namespaceDecl =>
      store.allows .namespaces = true → store.Accepts .keyword "namespace" →
        n.NamespaceReadable store
  | .useDecl =>
      store.allows .aliases = true → store.Accepts .keyword "use" →
        n.ItemsReadable "uses" Value.ImportReadable (Value.ImportAccepted store)
  | .funcCall =>
      (∀ written, (n.field "name").name? = some written →
        ∃ text, written.nameText = .ok text ∧
          (store.Accepts .function text → ∃ args, n.fieldItems "args" = .ok args)) ∧
      ((n.field "name").name? = none → ∃ callee, n.field "name" = .node callee)
  | .constFetch => n.NameReadable "name"
  | .classAccess => n.NameReadable "class"
  | .instantiation =>
      store.allows .objects = true → store.Accepts .keyword "new" → n.NameReadable "class"
  | .shellExec => store.isOverridden shellFunction = true → ∃ line, command n = .ok line
  | _ => True

namespace Enforce

variable {store : Store} {n : Node} {α : Type}

/-! ## Steps -/

private theorem keyword_decides (word : String) (n : Node) :
    Decides store (keyword word n) True (fun _ => store.Accepts .keyword word) :=
  name_decides .keyword word (some n)

private theorem declaredName_always (offence : Offence) (n : Node) :
    AlwaysConcludes (declaredName offence n) := by
  unfold declaredName
  split
  · exact .pure _
  · exact .reject _ _ _

private theorem declared_bind {offence : Offence} {role : Role} {next : String → Judge Unit}
    {P : Prop}
    (h : ∀ name, n.declaredName? = some name → store.Accepts role name →
      ConcludesIff store (next name) P) :
    ConcludesIff store (do
        let name ← declaredName offence n
        Judge.name role name (some n)
        next name) (n.DeclaresAccepted store role → P) := by
  have hname : Decides store (declaredName offence n) True (n.declaredName? = some ·) :=
    ⟨(declaredName_always offence n).iff_true, declaredName_yields offence n,
      fun _ h => declaredName_returns offence h⟩
  refine (ConcludesIff.bind hname fun name hdeclared =>
    .guard_bind (name_decides role name (some n)) fun haccepts =>
      h name hdeclared haccepts).congr ?_
  constructor
  · rintro ⟨_, hall⟩ ⟨name, hdeclared, haccepts⟩
    exact hall name hdeclared haccepts
  · exact fun hall => ⟨trivial, fun name hdeclared haccepts => hall ⟨name, hdeclared, haccepts⟩⟩

private theorem spelled_decides (offence : Offence) (role : Role) (n : Node) (value : Value) :
    Decides store (do
        let name ← spelledName offence n value
        Judge.name role name (some n)) value.Spells (fun _ => value.SpellsNonEmpty store role) where
  concludes := by
    refine ConcludesIff.bind_always ?_ fun name => .name role name (some n)
    refine .bind_always (read_decides value.nameText).concludes fun text => ?_
    exact AlwaysConcludes.ite (.bind (.reject _ _ _) fun _ => .pure text) (.pure text)
  yields := spells_yields role offence n value
  returns _ h := spells_returns offence n h

private theorem parent_decides (n : Node) (item : Value) :
    Decides store (do Judge.name .interface (← Judge.read item.nameText) (some n)) item.Spells
      (fun _ => item.SpellsAccepted store .interface) where
  concludes := .bind_always (read_decides item.nameText).concludes fun _ => .name _ _ _
  yields := (read_yields item.nameText).bind fun text htext =>
    (name_yields .interface text (some n)).mono fun _ haccepts => ⟨text, htext, haccepts⟩
  returns _ h := by
    obtain ⟨text, htext, haccepts⟩ := h
    exact (read_returns htext).bind (name_returns (some n) haccepts)

private theorem globalVar_decides (n : Node) (item : Value) :
    Decides store (globalVar n item) (∃ name, variableName? item = .ok name)
      (fun _ => item.NamesGlobal store) where
  concludes := by
    refine .bind_always (read_decides (variableName? item)).concludes fun name => ?_
    cases name with
    | some name => exact .name _ _ _
    | none => exact .reject _ _ _
  yields := globalVar_yields n item
  returns _ h := globalVar_returns n h

theorem decides_of_not_node {item : Value} {next : Value → Kind → Judge Unit} {P Q : Prop}
    (hitem : item.node? = none) (hP : ¬ P) (hQ : ¬ Q) :
    Decides store (do
        let shortForm ← Judge.read (item.member "alias")
        next shortForm (← Judge.read item.kind)) P (fun _ => Q) := by
  have hkind : ∀ kind, item.kind ≠ .ok kind := by
    intro kind hkind
    obtain ⟨m, rfl⟩ := Value.exists_node_of_kind hkind
    cases hitem
  have hnext : ∀ shortForm, Decides store (Judge.read item.kind >>= next shortForm) _ _ :=
    fun shortForm => .read_bind (R := fun _ => True) (S := fun _ _ => True)
      fun kind hread => absurd hread (hkind kind)
  refine (Decides.read_bind fun shortForm _ => hnext shortForm).congr ?_ ?_
  · simp [hkind, hP]
  · simp [hkind, hQ]

theorem useItem_of_import {m written : Node} {shortName : Option String}
    (h : m.NamesImport written shortName) (n : Node) :
    useItem n (.node m) = (do
      let text ← Judge.read written.nameText
      Judge.nonEmptyName .aliasName text (some n)
      if (m.field "alias").truthy then keyword "as" n
      Judge.update (·.defineAlias text shortName)) := by
  obtain ⟨hkind, hname, hshort⟩ := h
  simp [useItem, Value.member, Value.kind, hkind, hname, hshort]

theorem useItem_of_no_import {m : Node}
    (h : ∀ written shortName, ¬ m.NamesImport written shortName) (n : Node) :
    useItem n (.node m) = Judge.reject .invalidUse (some n) none := by
  simp only [useItem, Value.member, Value.kind, read_ok_bind]
  split
  next hkind hname hshort => exact absurd ⟨hkind, hname, hshort⟩ (h _ _)
  next => rfl

private theorem aliasing_decides (n m : Node) (text : String) (shortName : Option String) :
    Decides store (do
        if (m.field "alias").truthy then keyword "as" n
        Judge.update (·.defineAlias text shortName)) True
      (fun _ => (m.field "alias").truthy = true → store.Accepts .keyword "as") := by
  have hdefine : Decides store (Judge.update (·.defineAlias text shortName)) True fun _ => True :=
    update_decides fun _ h => h.defineAlias text shortName
  by_cases htruthy : (m.field "alias").truthy = true
  · rw [if_pos htruthy]
    exact (Decides.guard_bind (keyword_decides "as" n) fun _ => hdefine).congr (by simp)
      (by simp [htruthy])
  · rw [if_neg htruthy]
    exact hdefine.congr Iff.rfl (by simp [htruthy])

theorem useItem_decides (n : Node) (item : Value) :
    Decides store (useItem n item) item.ImportReadable (fun _ => item.ImportAccepted store) := by
  cases item with
  | node m =>
      rw [Value.importReadable_node_iff, Value.importAccepted_node_iff]
      by_cases himport : ∃ written shortName, m.NamesImport written shortName
      · obtain ⟨written, shortName, himport⟩ := himport
        rw [useItem_of_import himport, himport.forall_iff, himport.exists_iff]
        refine (Decides.read_bind fun text _ => .guard_bind (nonEmptyName_decides _ text _)
          fun _ => aliasing_decides n m text shortName).congr ?_ fun _ => ?_
        · simp [Value.Spells, Node.nameText]
        · constructor
          · rintro ⟨text, htext, ⟨hne, haccepts⟩, hword⟩
            exact ⟨⟨text, htext, hne, haccepts⟩, hword⟩
          · rintro ⟨⟨text, htext, hne, haccepts⟩, hword⟩
            exact ⟨text, htext, ⟨hne, haccepts⟩, hword⟩
      · simp only [not_exists] at himport
        rw [useItem_of_no_import himport]
        exact (reject_decides _ _ _).congr (by simp [himport]) (by simp [himport])
  | _ =>
      exact decides_of_not_node rfl (by simp [Value.ImportReadable])
        (by simp [Value.ImportAccepted])

/-! ## Rules -/

private theorem items_concludes {field : String} {step : Value → Judge Unit} {P Q : Value → Prop}
    (h : ∀ item, Decides store (step item) (P item) (fun _ => Q item)) (n : Node) :
    ConcludesIff store (Judge.read (n.fieldItems field) >>= fun items => items.forM step)
      (n.ItemsReadable field P Q) :=
  .read_bind fun items _ => .forM h items

private theorem closure_concludes (n : Node) :
    ConcludesIff store (closure n) (Rule.closure.Readable store n) := by
  refine .guard_bind (require_decides _ _ n) fun _ => ?_
  refine .read_bind fun uses _ => .get_bind fun mid hmid => ?_
  rw [hmid.handle_eq]
  refine .bind_always (read_decides (usesVariable store.handle uses)).concludes fun used => ?_
  cases used with
  | true => exact .pure _
  | false => exact .pure _

private theorem parentClass_concludes (n : Node) :
    ConcludesIff store (parentClass n) (∀ parent, (n.field "extends").name? = some parent →
      store.Accepts .keyword "extends" → (Value.node parent).Spells) := by
  unfold parentClass
  cases (n.field "extends").name? with
  | none => exact (AlwaysConcludes.pure ()).iff_true.congr (by simp)
  | some parent =>
      refine (ConcludesIff.guard_bind (keyword_decides "extends" n) fun _ =>
        (spelled_decides _ _ n (.node parent)).concludes).congr ?_
      simp

private theorem parentClass_decides (n : Node) :
    Decides store (parentClass n) (∀ parent, (n.field "extends").name? = some parent →
      store.Accepts .keyword "extends" → (Value.node parent).Spells)
      (fun _ => n.ParentAccepted store) :=
  ⟨parentClass_concludes n, parentClass_yields n, fun _ h => parentClass_returns h⟩

private theorem classDecl_concludes (n : Node) :
    ConcludesIff store (classDecl n) (Rule.classDecl.Readable store n) := by
  refine .guard_bind (require_decides _ _ n) fun _ => ?_
  refine .guard_bind (keyword_decides "class" n) fun _ => ?_
  refine declared_bind fun name _ _ => ?_
  refine (ConcludesIff.bind (parentClass_decides n) fun _ _ => ?_).congr
    (and_congr_right fun _ => ⟨fun h => h (), fun h _ => h⟩)
  refine .if_iff fun _ => .guard_bind (keyword_decides "implements" n) fun _ => ?_
  exact items_concludes (fun item => spelled_decides _ .interface n item) n

private theorem interfaceDecl_concludes (n : Node) :
    ConcludesIff store (interfaceDecl n) (Rule.interfaceDecl.Readable store n) := by
  refine .guard_bind (require_decides _ _ n) fun _ => ?_
  refine .guard_bind (keyword_decides "interface" n) fun _ => ?_
  exact declared_bind fun name _ _ => items_concludes (parent_decides n) n

private theorem traitUse_concludes (n : Node) :
    ConcludesIff store (traitUse n) (Rule.traitUse.Readable store n) := by
  refine .guard_bind (keyword_decides "use" n) fun _ => ?_
  exact items_concludes (fun item => spelled_decides _ .traitName n item) n

private theorem globalDecl_concludes (n : Node) :
    ConcludesIff store (globalDecl n) (Rule.globalDecl.Readable store n) := by
  refine .guard_bind (require_decides _ _ n) fun _ => ?_
  refine .guard_bind (keyword_decides "global" n) fun _ => ?_
  exact items_concludes (globalVar_decides n) n

theorem flattening_concludes (n : Node) (text : String) :
    ConcludesIff store (do
        Judge.nonEmptyName .namespaceName text (some n)
        Judge.update (·.defineNamespace text)
        pure (Verdict.splice (← Judge.read (n.fieldItems "stmts"))))
      (text ≠ "" ∧ store.Accepts .namespaceName text →
        ∃ items, n.fieldItems "stmts" = .ok items) := by
  refine .guard_bind (nonEmptyName_decides .namespaceName text (some n)) fun _ => ?_
  refine .update_bind (fun _ h => h.defineNamespace text) ?_
  exact .bind_always (read_decides (n.fieldItems "stmts")).concludes fun _ => .pure _

theorem namespaceDecl_concludes (n : Node) :
    ConcludesIff store (namespaceDecl n) (Rule.namespaceDecl.Readable store n) := by
  refine .guard_bind (require_decides _ _ n) fun _ => ?_
  refine .guard_bind (keyword_decides "namespace" n) fun _ => ?_
  unfold Node.NamespaceReadable
  cases (n.field "name").name? with
  | none => exact (AlwaysConcludes.reject _ _ _).iff_true.congr (by simp)
  | some written =>
      refine (ConcludesIff.read_bind fun text _ => flattening_concludes n text).congr ?_
      simp

theorem useDecl_concludes (n : Node) :
    ConcludesIff store (useDecl n) (Rule.useDecl.Readable store n) := by
  refine .guard_bind (require_decides _ _ n) fun _ => ?_
  refine .guard_bind (keyword_decides "use" n) fun _ => ?_
  refine .read_bind fun items _ => ?_
  exact .bind_always (.forM (useItem_decides n) items) fun _ => .pure _

private theorem namedCall_concludes (n written : Node) :
    ConcludesIff store (namedCall n written) (∃ text, written.nameText = .ok text ∧
      (store.Accepts .function text → ∃ args, n.fieldItems "args" = .ok args)) := by
  refine .read_bind fun text _ => .guard_bind (name_decides .function text (some n)) fun _ => ?_
  refine .bind_always (read_decides (n.fieldItems "args")).concludes fun args => ?_
  refine AlwaysConcludes.get_bind fun mid => ?_
  have hruntime : ∀ method args, AlwaysConcludes (replaceByRuntime method args n) :=
    fun _ _ => .get_bind fun _ => .pure _
  exact .ite (hruntime _ _) (.ite (hruntime _ _) (.ite (hruntime _ _) (.pure _)))

private theorem dynamicCall_concludes (n : Node) :
    ConcludesIff store (dynamicCall n) (∃ callee, n.field "name" = .node callee) := by
  unfold dynamicCall
  cases n.field "name" with
  | node callee => exact (AlwaysConcludes.get_bind fun _ => .pure _).iff_true.congr (by simp)
  | _ => exact fun mid _ => iff_of_false (fun h => h .member rfl) (by simp)

private theorem funcCall_concludes (n : Node) :
    ConcludesIff store (funcCall n) (Rule.funcCall.Readable store n) := by
  unfold funcCall
  cases hname : (n.field "name").name? with
  | some written =>
      refine (namedCall_concludes n written).congr ?_
      simp [Rule.Readable, hname]
  | none =>
      refine (dynamicCall_concludes n).congr ?_
      simp [Rule.Readable, hname]

theorem spelled_concludes {written : Node} {next : String → Judge α}
    (hnext : ∀ text, AlwaysConcludes (next text)) :
    ConcludesIff store (Judge.read written.nameText >>= next) (Value.node written).Spells :=
  .bind_always (read_decides written.nameText).concludes hnext

private theorem constFetch_concludes (n : Node) :
    ConcludesIff store (constFetch n) (n.NameReadable "name") := by
  unfold constFetch Node.NameReadable
  cases (n.field "name").name? with
  | none => exact (AlwaysConcludes.reject _ _ _).iff_true.congr (by simp)
  | some written =>
      refine (spelled_concludes fun text => .name .constant text (some n)).congr ?_
      simp

private theorem resolveClass_concludes (n : Node) :
    ConcludesIff store (resolveClass n) (n.NameReadable "class") := by
  unfold resolveClass Node.NameReadable
  cases (n.field "class").name? with
  | none => exact (AlwaysConcludes.reject _ _ _).iff_true.congr (by simp)
  | some written =>
      refine (spelled_concludes fun name => .get_bind fun mid => ?_).congr (by simp)
      cases mid.substitute? name with
      | none => exact .pure _
      | some substitute => exact .pure _

private theorem classAccess_concludes (n : Node) :
    ConcludesIff store (classAccess n) (n.NameReadable "class") :=
  .bind_always (resolveClass_concludes n) fun _ => .bind (.name _ _ _) fun _ => .pure _

private theorem instantiation_concludes (n : Node) :
    ConcludesIff store (instantiation n) (Rule.instantiation.Readable store n) := by
  refine .guard_bind (require_decides _ _ n) fun _ => ?_
  refine .guard_bind (keyword_decides "new" n) fun _ => ?_
  exact .bind_always (resolveClass_concludes n) fun _ => .bind (.name _ _ _) fun _ => .pure _

private theorem shellExec_concludes (n : Node) :
    ConcludesIff store (shellExec n) (Rule.shellExec.Readable store n) := by
  refine .get_bind fun mid hmid => ?_
  rw [hmid.isOverridden_eq]
  cases hruntime : store.isOverridden shellFunction with
  | true =>
      refine (ConcludesIff.bind_always (read_decides (command n)).concludes fun line => ?_).congr ?_
      · exact .get_bind fun _ => .pure _
      · simp [Rule.Readable, hruntime]
  | false =>
      refine AlwaysConcludes.iff_true ?_ |>.congr (by simp [Rule.Readable, hruntime])
      cases shellOffence? mid with
      | some offence => exact .reject _ _ _
      | none => exact .bind (.require _ _ _) fun _ => .pure _

/-! ## Rules that always conclude -/

private theorem functionDecl_always (n : Node) : AlwaysConcludes (functionDecl n) := by
  refine .bind (.require _ _ _) fun _ => .bind (.name _ _ _) fun _ => ?_
  refine .bind (declaredName_always _ n) fun name => .get_bind fun mid => ?_
  refine .ite (.bind (.reject _ _ _) fun _ => ?_) ?_
  all_goals exact .ite (.bind (.reject _ _ _) fun _ => .update _) (.update _)

private theorem staticVar_always (n : Node) : AlwaysConcludes (staticVar n) := by
  refine .bind (.require _ _ _) fun _ => ?_
  split
  · exact .name _ _ _
  · exact .reject _ _ _

private theorem superglobal_always (n : Node) (name : String) : AlwaysConcludes
    (superglobal n name) := by
  refine .bind (.name _ _ _) fun _ => .bind (.get_bind fun _ => .pure _) fun _ => ?_
  exact .ite (.get_bind fun _ => .pure _) (.pure _)

theorem variableRef_always (n : Node) : AlwaysConcludes (variableRef n) := by
  unfold variableRef
  split
  next name _ =>
    refine .get_bind fun mid => .ite (.reject _ _ _) (.ite (superglobal_always n name) ?_)
    exact .bind (.name _ _ _) fun _ => .pure _
  next => exact .reject _ _ _

private theorem magicConst_always (n : Node) (name : String) : AlwaysConcludes
    (magicConst n name) := by
  refine .bind (.name _ _ _) fun _ => .get_bind fun mid => ?_
  exact .ite (.get_bind fun _ => .pure _) (.pure _)

private theorem primitive_always (type : Option String) (n : Node) :
    AlwaysConcludes (primitive type n) := by
  cases type with
  | none => exact .pure ()
  | some type => exact .name _ _ _

/-! ## All kinds -/

private theorem keeping_concludes {judge : Judge Unit} {P : Prop} (h : ConcludesIff store judge P) :
    ConcludesIff store (keeping judge) P :=
  .bind_always h fun _ => .pure _

private theorem byRule_concludes (n : Node) (rule : Rule) :
    ConcludesIff store (byRule n rule) (rule.Readable store n) := by
  have halways {judge : Judge Unit} (h : AlwaysConcludes judge) :
      ConcludesIff store (keeping judge) True := keeping_concludes h.iff_true
  cases rule with
  | closure => exact closure_concludes n
  | classDecl => exact keeping_concludes (classDecl_concludes n)
  | interfaceDecl => exact keeping_concludes (interfaceDecl_concludes n)
  | traitUse => exact keeping_concludes (traitUse_concludes n)
  | globalDecl => exact keeping_concludes (globalDecl_concludes n)
  | namespaceDecl => exact namespaceDecl_concludes n
  | useDecl => exact useDecl_concludes n
  | funcCall => exact funcCall_concludes n
  | constFetch => exact keeping_concludes (constFetch_concludes n)
  | classAccess => exact classAccess_concludes n
  | instantiation => exact instantiation_concludes n
  | shellExec => exact shellExec_concludes n
  | exempt => exact (AlwaysConcludes.pure _).iff_true
  | keyword word => exact halways (.name _ _ _)
  | operator sign => exact halways (.name _ _ _)
  | primitive type => exact halways (primitive_always (some type) n)
  | magicConst name => exact (magicConst_always n name).iff_true
  | escaping => exact halways (.require _ _ _)
  | casting type => exact halways (.bind (.require _ _ _) fun _ => primitive_always type n)
  | functionDecl => exact halways (functionDecl_always n)
  | closureUse => exact halways (.get_bind fun _ => .ite (.reject _ _ _) (.pure _))
  | traitDecl =>
      refine halways (.bind (.require _ _ _) fun _ => .bind (.name _ _ _) fun _ => ?_)
      exact .bind (declaredName_always _ n) fun _ => .name _ _ _
  | generator => exact halways (.bind (.require _ _ _) fun _ => .name _ _ _)
  | staticVar => exact halways (staticVar_always n)
  | constDecl => exact (AlwaysConcludes.reject _ _ _).iff_true
  | errorSuppress => exact halways (.require _ _ _)
  | assignRef => exact halways (.bind (.require _ _ _) fun _ => .name _ _ _)
  | halting => exact halways (.bind (.require _ _ _) fun _ => .name _ _ _)
  | variableRef => exact (variableRef_always n).iff_true

@[simp] theorem node_concludes_iff (n : Node) (store : Store) :
    (node n).Concludes store ↔ (n.generated = false → n.kind.rule.Readable store n) := by
  cases hnew : n.generated with
  | true =>
      rw [node, hnew, if_pos rfl]
      exact iff_of_true (concludes_pure _) (by simp)
  | false =>
      rw [node_of_rule hnew rfl, byRule_concludes n n.kind.rule store .start]
      simp

end Enforce

end ScriptSandbox
