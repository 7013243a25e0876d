import ScriptSandbox.Harvest.Own
import ScriptSandbox.Harvest.Trusted
import ScriptSandbox.Proofs.Policy.Changes

/-!
# What harvesting changes

A script's own definitions only go to allow-lists.  What trusted code refers to goes to
allow-lists too; its namespaces and imports are defined, and its functions declared.
-/

namespace ScriptSandbox

open Judge
open Store (Change Evolves)

theorem Store.Evolves.whitelist {store mid : Store} (h : Evolves Change.Lists store mid)
    (category : Category) (name : String) :
    Evolves Change.Lists store (mid.whitelist category name) := by
  have hchange : Evolves Change.Lists store ((Change.whitelist category name).apply mid) :=
    h.change trivial
  exact hchange

namespace OwnHarvest

variable (n : Node)

private theorem declaration_makes (feature : Feature) (definable : Definable) (category : Category)
    (name : Option String) :
    Makes Change.Lists (Judge.update (declaration feature definable category name)) := by
  refine update_makes fun store => ?_
  unfold declaration
  cases name with
  | none => exact .refl
  | some name =>
      by_cases henabled : enabled store feature definable category = true
      · simp only [henabled, if_true]
        exact Evolves.refl.whitelist category name
      · simp only [henabled]
        exact .refl

theorem classDecl_makes (name : Option String) :
    Makes Change.Lists (Judge.update (classDecl name)) := by
  refine update_makes fun store => ?_
  unfold classDecl
  cases name with
  | none => exact .refl
  | some name =>
      have hclasses : Evolves Change.Lists store (store.whitelist .classes name) :=
        Evolves.refl.whitelist .classes name
      by_cases henabled : enabled store .classes .classes .classes = true
      · simp only [henabled, if_true]
        split
        · exact hclasses
        · exact hclasses.whitelist .types name
      · simp only [henabled]
        exact .refl

private theorem constant_makes : Makes Change.Lists (constant n) := by
  refine (read_makes (isDefineCall n)).bind fun isDefine => Makes.ite ?_ (Makes.pure _)
  refine Makes.get_bind fun store => Makes.ite ?_ (Makes.pure _)
  refine (read_makes (definedConstant (.node n))).bind fun name? => ?_
  cases name? with
  | some name => exact change_makes (.whitelist .constants name) trivial
  | none => exact Makes.pure _

private theorem globals_makes : Makes Change.Lists (globals n) := by
  refine Makes.get_bind fun store => Makes.ite ?_ (Makes.pure _)
  refine (read_makes (globalNames n)).bind fun names => update_makes fun store => ?_
  exact Evolves.foldl (fun _ name => Evolves.refl.whitelist .variables name) names store

theorem node_makes : Makes Change.Lists (node n) := by
  unfold node
  split
  · exact classDecl_makes _
  · exact declaration_makes _ _ _ _
  · exact declaration_makes _ _ _ _
  · exact declaration_makes _ _ _ _
  · exact constant_makes n
  · exact globals_makes n
  · exact Makes.pure _

theorem leave_makes : Makes Change.Lists (visitor.leave n) :=
  (node_makes n).bind fun _ => Makes.pure _

end OwnHarvest

namespace TrustedHarvest

variable (n : Node)

private theorem harvest_evolves (category : Category) (name : String) (store : Store) :
    Evolves Change.Lists store (harvest category name store) := by
  unfold harvest
  split
  · exact .refl
  · exact Evolves.refl.whitelist category name

private theorem harvest_makes (category : Category) (name : String) :
    Makes Change.Refers (Judge.update (harvest category name)) :=
  update_makes fun store => (harvest_evolves category name store).mono .inr

private theorem declaration_makes (category : Category) (name : Option String) :
    Makes Change.Refers (declaration category name) := by
  cases name with
  | some name => exact harvest_makes category name
  | none => exact Makes.pure _

private theorem reference_makes (category : Category) (value : Value) :
    Makes Change.Refers (reference category value) := by
  unfold reference
  split
  · next name _ =>
    exact (read_makes name.nameText).bind fun text => harvest_makes category text
  · exact Makes.pure _

private theorem call_makes : Makes Change.Refers (call n) := by
  refine (reference_makes .functions _).bind fun _ => ?_
  refine (read_makes (isDefineCall n)).bind fun isDefine => Makes.ite ?_ (Makes.pure _)
  refine Makes.get_bind fun store => Makes.ite ?_ (Makes.pure _)
  refine (read_makes (definedConstant (.node n))).bind fun name? => ?_
  cases name? with
  | some name => exact harvest_makes .constants name
  | none => exact Makes.pure _

private theorem function_makes : Makes Change.Passes (function n) := by
  unfold function
  split
  · next name _ =>
    refine Makes.get_bind fun store => ?_
    have hdeclare : Makes Change.Passes
        (Judge.update (·.declare name) >>= fun _ => Judge.update (harvest .functions name)) :=
      (change_makes (.declare name) (.inl trivial)).bind fun _ =>
        (harvest_makes .functions name).mono Change.Refers.passes
    exact Makes.ite ((reject_makes _ _ _).bind fun _ => hdeclare) hdeclare
  · exact Makes.pure _

theorem variableRef_makes (name : Option String) : Makes Change.Refers (variableRef name) :=
  Makes.get_bind fun _ => Makes.ite (declaration_makes .variables name) (Makes.pure _)

private theorem globals_makes : Makes Change.Refers (globals n) := by
  refine Makes.get_bind fun store => Makes.ite ?_ (Makes.pure _)
  refine (read_makes (globalNames n)).bind fun names => update_makes fun store => ?_
  exact Evolves.foldl
    (fun store name => (harvest_evolves .variables name store).mono .inr) names store

theorem namespaceDecl_makes : Makes Change.Names (namespaceDecl n) := by
  have hsplice : Makes Change.Names
      (Judge.read (n.fieldItems "stmts") >>= fun items => pure (Verdict.splice items)) :=
    (read_makes (n.fieldItems "stmts")).bind fun items => Makes.pure _
  unfold namespaceDecl
  split
  · next name _ =>
    refine (read_makes name.nameText).bind fun text => ?_
    refine (nonEmptyName_makes (fun _ _ _ => trivial) .namespaceName text (some n)).bind
      fun _ => ?_
    exact (change_makes (.defineNamespace text) trivial).bind fun _ => hsplice
  · exact hsplice

theorem useItem_makes (item : Value) : Makes Change.Names (useItem n item) := by
  refine (read_makes (item.member "alias")).bind fun shortForm => ?_
  refine (read_makes item.kind).bind fun kind => Makes.ite ?_ (Makes.pure _)
  refine (read_makes (item.member "name")).bind fun name => ?_
  split
  · next written shortName _ _ =>
    refine (read_makes written.nameText).bind fun text => ?_
    refine (nonEmptyName_makes (fun _ _ _ => trivial) .aliasName text (some n)).bind
      fun _ => ?_
    exact change_makes (.defineAlias text shortName) trivial
  · exact Makes.pure _

theorem useDecl_makes : Makes Change.Names (useDecl n) := by
  refine (read_makes (n.fieldItems "uses")).bind fun items => ?_
  exact (Makes.forM (useItem_makes n) items).bind fun _ => Makes.pure _

theorem node_makes_of_kind_ne (hkind : n.kind ≠ .statement .functionDecl) :
    Makes Change.Refers (node n) := by
  unfold node
  split
  · exact (call_makes n).bind fun _ => Makes.pure _
  · next h => exact absurd h hkind
  · exact (variableRef_makes _).bind fun _ => Makes.pure _
  · exact (variableRef_makes _).bind fun _ => Makes.pure _
  · exact (reference_makes _ _).bind fun _ => Makes.pure _
  · exact (declaration_makes _ _).bind fun _ => Makes.pure _
  · exact (declaration_makes _ _).bind fun _ => Makes.pure _
  · exact (declaration_makes _ _).bind fun _ => Makes.pure _
  · exact (reference_makes _ _).bind fun _ => Makes.pure _
  · exact (globals_makes n).bind fun _ => Makes.pure _
  · exact (namespaceDecl_makes n).mono .inl
  · exact (useDecl_makes n).mono .inl
  · exact Makes.pure _

theorem node_makes : Makes Change.Passes (node n) := by
  by_cases hkind : n.kind = .statement .functionDecl
  · unfold node
    rw [hkind]
    exact (function_makes n).bind fun _ => Makes.pure _
  · exact (node_makes_of_kind_ne n hkind).mono Change.Refers.passes

end TrustedHarvest

end ScriptSandbox
