import ScriptSandbox.Enforce.Visitor
import ScriptSandbox.Proofs.Policy.Changes

/-!
# What judging a script changes

Every rule asks predicates and defines names, and only the one for functions declares
functions.  No rule changes a list, an override or a flag.
-/

namespace ScriptSandbox

open Judge
open Store (Change Evolves)

namespace Enforce

variable (n : Node)

private theorem judgedName_makes (role : Role) (name : String) (node : Option Node) :
    Makes Change.Names (Judge.name role name node) :=
  name_makes (fun _ _ _ => trivial) role name node

private theorem keyword_makes (word : String) : Makes Change.Names (keyword word n) :=
  judgedName_makes .keyword word (some n)

private theorem declaredName_makes {C : Change → Prop} (offence : Offence) :
    Makes C (declaredName offence n) := by
  unfold declaredName
  split
  · exact Makes.pure _
  · exact reject_makes _ _ _

private theorem spelledName_makes {C : Change → Prop} (offence : Offence) (value : Value) :
    Makes C (spelledName offence n value) := by
  refine (read_makes value.nameText).bind fun text => ?_
  exact Makes.ite ((reject_makes _ _ _).bind fun _ => Makes.pure _) (Makes.pure _)

private theorem spells_makes (role : Role) (offence : Offence) (value : Value) :
    Makes Change.Names
      (spelledName offence n value >>= fun text => Judge.name role text (some n)) :=
  (spelledName_makes n offence value).bind fun text => judgedName_makes role text (some n)

private theorem allItems_makes {C : Change → Prop} {step : Value → Judge Unit} (field : String)
    (hstep : ∀ item, Makes C (step item)) :
    Makes C (Judge.read (n.fieldItems field) >>= fun items => items.forM step) :=
  (read_makes (n.fieldItems field)).bind fun items => Makes.forM hstep items

private theorem functionDecl_makes : Makes Change.Validates (functionDecl n) := by
  refine (require_makes .functions _ n).bind fun _ => ?_
  refine ((keyword_makes n "function").mono Change.Names.validates).bind fun _ => ?_
  refine (declaredName_makes n .unnamedFunction).bind fun name => ?_
  refine Makes.get_bind fun store => ?_
  have hdeclare : Makes Change.Validates (Judge.update (·.declare name)) :=
    change_makes (.declare name) trivial
  have hrest : Makes Change.Validates
      (if (n.field "byRef").truthy && !store.allows .references then
        Judge.reject .returnByReference (some n) none >>= fun _ : Unit =>
          Judge.update (·.declare name)
      else Judge.update (·.declare name)) :=
    Makes.ite ((reject_makes _ _ _).bind fun _ => hdeclare) hdeclare
  exact Makes.ite ((reject_makes _ _ _).bind fun _ => hrest) hrest

private theorem closure_makes : Makes Change.Names (closure n) := by
  refine (require_makes .closures _ n).bind fun _ => ?_
  refine (read_makes (n.fieldItems "uses")).bind fun uses => ?_
  refine Makes.get_bind fun store => ?_
  refine (read_makes (usesVariable store.handle uses)).bind fun used => ?_
  exact Makes.ite (Makes.pure _) (Makes.pure _)

private theorem closureUse_makes : Makes Change.Names (closureUse n) :=
  Makes.get_bind fun _ => Makes.ite (reject_makes _ _ _) (Makes.pure _)

private theorem parentClass_makes : Makes Change.Names (parentClass n) := by
  unfold parentClass
  split
  · exact Makes.pure _
  · exact (keyword_makes n "extends").bind fun _ => spells_makes n .classExtension _ _

private theorem implemented_makes (item : Value) : Makes Change.Names (implemented n item) :=
  spells_makes n .interface _ item

theorem classDecl_makes : Makes Change.Names (classDecl n) := by
  refine (require_makes .classes _ n).bind fun _ => ?_
  refine (keyword_makes n "class").bind fun _ => ?_
  refine (declaredName_makes n .unnamedClass).bind fun name => ?_
  refine (judgedName_makes .classDecl name (some n)).bind fun _ => ?_
  refine (parentClass_makes n).bind fun _ => ?_
  refine Makes.ite ?_ (Makes.pure _)
  refine (keyword_makes n "implements").bind fun _ => ?_
  exact allItems_makes n "implements" (implemented_makes n)

private theorem interfaceDecl_makes : Makes Change.Names (interfaceDecl n) := by
  refine (require_makes .interfaces _ n).bind fun _ => ?_
  refine (keyword_makes n "interface").bind fun _ => ?_
  refine (declaredName_makes n .unnamedInterface).bind fun name => ?_
  refine (judgedName_makes .interface name (some n)).bind fun _ => ?_
  refine allItems_makes n "extends" fun parent => ?_
  exact (read_makes parent.nameText).bind fun text => judgedName_makes .interface text (some n)

private theorem traitDecl_makes : Makes Change.Names (traitDecl n) := by
  refine (require_makes .traits _ n).bind fun _ => ?_
  refine (keyword_makes n "trait").bind fun _ => ?_
  refine (declaredName_makes n .unnamedTrait).bind fun name => ?_
  exact judgedName_makes .traitName name (some n)

private theorem traitUse_makes : Makes Change.Names (traitUse n) := by
  refine (keyword_makes n "use").bind fun _ => ?_
  exact allItems_makes n "traits" fun item => spells_makes n .traitName _ item

private theorem globalVar_makes (item : Value) : Makes Change.Names (globalVar n item) := by
  refine (read_makes (variableName? item)).bind fun name? => ?_
  cases name? with
  | some name => exact judgedName_makes .globalVar name (some n)
  | none => exact reject_makes _ _ _

private theorem globalDecl_makes : Makes Change.Names (globalDecl n) := by
  refine (require_makes .globals _ n).bind fun _ => ?_
  refine (keyword_makes n "global").bind fun _ => ?_
  exact allItems_makes n "vars" (globalVar_makes n)

private theorem staticVar_makes : Makes Change.Names (staticVar n) := by
  refine (require_makes .staticVariables _ n).bind fun _ => ?_
  split
  · exact judgedName_makes .variableRef _ (some n)
  · exact reject_makes _ _ _

theorem namespaceDecl_makes : Makes Change.Names (namespaceDecl n) := by
  refine (require_makes .namespaces _ n).bind fun _ => ?_
  refine (keyword_makes n "namespace").bind fun _ => ?_
  split
  · exact reject_makes _ _ _
  · next name _ =>
    refine (read_makes name.nameText).bind fun text => ?_
    refine (nonEmptyName_makes (fun _ _ _ => trivial) .namespaceName text (some n)).bind
      fun _ => ?_
    refine (change_makes (.defineNamespace text) trivial).bind fun _ => ?_
    exact (read_makes (n.fieldItems "stmts")).bind fun items => Makes.pure _

theorem useItem_makes (item : Value) : Makes Change.Names (useItem n item) := by
  refine (read_makes (item.member "alias")).bind fun shortForm => ?_
  refine (read_makes item.kind).bind fun kind => ?_
  refine (read_makes (item.member "name")).bind fun name => ?_
  split
  · next written shortName _ _ =>
    refine (read_makes written.nameText).bind fun text => ?_
    refine (nonEmptyName_makes (fun _ _ _ => trivial) .aliasName text (some n)).bind fun _ => ?_
    have hdefine : Makes Change.Names (Judge.update (·.defineAlias text shortName)) :=
      change_makes (.defineAlias text shortName) trivial
    exact Makes.ite ((keyword_makes n "as").bind fun _ => hdefine) hdefine
  · exact reject_makes _ _ _

theorem useDecl_makes : Makes Change.Names (useDecl n) := by
  refine (require_makes .aliases _ n).bind fun _ => ?_
  refine (keyword_makes n "use").bind fun _ => ?_
  refine (read_makes (n.fieldItems "uses")).bind fun items => ?_
  exact (Makes.forM (useItem_makes n) items).bind fun _ => Makes.pure _

private theorem replaceByRuntime_makes {C : Change → Prop} (method : String) (args : List Value) :
    Makes C (replaceByRuntime method args n) :=
  Makes.get_bind fun _ => Makes.pure _

private theorem dynamicCall_makes : Makes Change.Names (dynamicCall n) := by
  unfold dynamicCall
  split
  · exact Makes.get_bind fun _ => Makes.pure _
  · exact Makes.malformed .member

private theorem namedCall_makes (written : Node) : Makes Change.Names (namedCall n written) := by
  refine (read_makes written.nameText).bind fun text => ?_
  refine (judgedName_makes .function text (some n)).bind fun _ => ?_
  refine (read_makes (n.fieldItems "args")).bind fun args => ?_
  refine Makes.get_bind fun store => ?_
  refine Makes.ite (replaceByRuntime_makes n _ _) ?_
  refine Makes.ite (replaceByRuntime_makes n _ _) ?_
  exact Makes.ite (replaceByRuntime_makes n _ _) (Makes.pure _)

private theorem funcCall_makes : Makes Change.Names (funcCall n) := by
  unfold funcCall
  split
  · exact namedCall_makes n _
  · exact dynamicCall_makes n

private theorem superglobal_makes (name : String) : Makes Change.Names (superglobal n name) := by
  refine (judgedName_makes .superglobal name (some n)).bind fun _ => ?_
  refine (flag_makes (.overwrite .superglobals)).bind fun _ => ?_
  exact Makes.ite (replaceByRuntime_makes n _ _) (Makes.pure _)

theorem variableRef_makes : Makes Change.Names (variableRef n) := by
  unfold variableRef
  split
  · refine Makes.get_bind fun store => ?_
    refine Makes.ite (reject_makes _ _ _) (Makes.ite (superglobal_makes n _) ?_)
    exact (judgedName_makes .variableRef _ (some n)).bind fun _ => Makes.pure _
  · exact reject_makes _ _ _

private theorem constFetch_makes : Makes Change.Names (constFetch n) := by
  unfold constFetch
  split
  · next name _ =>
    exact (read_makes name.nameText).bind fun text => judgedName_makes .constant text (some n)
  · exact reject_makes _ _ _

private theorem magicConst_makes (name : String) : Makes Change.Names (magicConst n name) := by
  refine (judgedName_makes .magicConst name (some n)).bind fun _ => ?_
  refine Makes.get_bind fun store => ?_
  exact Makes.ite (replaceByRuntime_makes n _ _) (Makes.pure _)

private theorem resolveClass_makes : Makes Change.Names (resolveClass n) := by
  unfold resolveClass
  split
  · exact reject_makes _ _ _
  · next written _ =>
    refine (read_makes written.nameText).bind fun name => ?_
    refine Makes.get_bind fun store => ?_
    split
    · exact Makes.pure _
    · exact Makes.pure _

private theorem classAccess_makes : Makes Change.Names (classAccess n) := by
  refine (resolveClass_makes n).bind fun resolved => ?_
  exact (judgedName_makes .classAccess resolved.2 (some n)).bind fun _ => Makes.pure _

private theorem instantiation_makes : Makes Change.Names (instantiation n) := by
  refine (require_makes .objects _ n).bind fun _ => ?_
  refine (keyword_makes n "new").bind fun _ => ?_
  refine (resolveClass_makes n).bind fun resolved => ?_
  exact (judgedName_makes .type resolved.2 (some n)).bind fun _ => Makes.pure _

private theorem shellExec_makes : Makes Change.Names (shellExec n) := by
  refine Makes.get_bind fun store => ?_
  refine Makes.ite ?_ ?_
  · exact (read_makes (command n)).bind fun line => replaceByRuntime_makes n _ _
  · split
    · exact reject_makes _ _ _
    · exact (require_makes .backticks _ n).bind fun _ => Makes.pure _

private theorem primitive_makes (type : Option String) : Makes Change.Names (primitive type n) := by
  cases type with
  | some type => exact judgedName_makes .primitive type (some n)
  | none => exact Makes.pure _

private theorem keeping_makes {C : Change → Prop} {judge : Judge Unit} (h : Makes C judge) :
    Makes C (keeping judge) :=
  h.bind fun _ => Makes.pure _

variable {n}

private theorem byRule_makes {rule : Rule} (hrule : rule ≠ .functionDecl) :
    Makes Change.Names (byRule n rule) := by
  cases rule with
  | exempt => exact Makes.pure _
  | keyword word => exact keeping_makes (keyword_makes n word)
  | operator sign => exact keeping_makes (judgedName_makes .operator sign (some n))
  | primitive type => exact keeping_makes (primitive_makes n (some type))
  | magicConst name => exact magicConst_makes n name
  | escaping => exact keeping_makes (require_makes _ _ n)
  | casting type =>
      exact keeping_makes ((require_makes _ _ n).bind fun _ => primitive_makes n type)
  | functionDecl => exact absurd rfl hrule
  | closure => exact closure_makes n
  | closureUse => exact keeping_makes (closureUse_makes n)
  | classDecl => exact keeping_makes (classDecl_makes n)
  | interfaceDecl => exact keeping_makes (interfaceDecl_makes n)
  | traitDecl => exact keeping_makes (traitDecl_makes n)
  | traitUse => exact keeping_makes (traitUse_makes n)
  | generator =>
      exact keeping_makes ((require_makes _ _ n).bind fun _ => keyword_makes n "yield")
  | globalDecl => exact keeping_makes (globalDecl_makes n)
  | staticVar => exact keeping_makes (staticVar_makes n)
  | constDecl => exact reject_makes _ _ _
  | errorSuppress => exact keeping_makes (require_makes _ _ n)
  | assignRef =>
      exact keeping_makes ((require_makes _ _ n).bind fun _ =>
        judgedName_makes .operator referenceSign (some n))
  | halting =>
      exact keeping_makes ((require_makes _ _ n).bind fun _ => keyword_makes n "halt")
  | namespaceDecl => exact namespaceDecl_makes n
  | useDecl => exact useDecl_makes n
  | funcCall => exact funcCall_makes n
  | variableRef => exact variableRef_makes n
  | constFetch => exact keeping_makes (constFetch_makes n)
  | classAccess => exact classAccess_makes n
  | instantiation => exact instantiation_makes n
  | shellExec => exact shellExec_makes n

theorem node_makes_of_rule_ne (hrule : n.kind.rule ≠ .functionDecl) :
    Makes Change.Names (node n) :=
  Makes.ite (Makes.pure _) (byRule_makes hrule)

theorem node_makes (n : Node) : Makes Change.Validates (node n) := by
  by_cases hrule : n.kind.rule = .functionDecl
  · have hdecl : Makes Change.Validates (byRule n n.kind.rule) := by
      rw [hrule]
      exact keeping_makes (functionDecl_makes n)
    exact Makes.ite (Makes.pure _) hdecl
  · exact (node_makes_of_rule_ne hrule).mono Change.Names.validates

end Enforce

end ScriptSandbox
