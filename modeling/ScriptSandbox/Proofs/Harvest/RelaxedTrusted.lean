import ScriptSandbox.Harvest.Trusted
import ScriptSandbox.Proofs.Policy.Relaxed
import ScriptSandbox.Proofs.Walk.Conditional

/-!
# Harvesting trusted code where more is allowed

Trusted code that is harvested into a store is harvested into a store that allows more, and
lists the same names there.  Only variables may be missing from the other list: they are
harvested from references where each has to be on the list, and no longer where variables
are allowed.
-/

namespace ScriptSandbox

open Judge

/-! ## Restricted variables -/

namespace Store

variable {store : Store}

@[simp] theorem hasWhitelist_whitelist {category other : Category} {name : String} :
    (store.whitelist category name).hasWhitelist other = true ↔
      store.hasWhitelist other = true ∨ (category.normalize name ≠ "" ∧ other = category) := by
  simp only [hasWhitelist_iff, mem_allowed_whitelist]
  constructor
  · rintro ⟨key, hkey | ⟨hne, hother, rfl⟩⟩
    · exact .inl ⟨key, hkey⟩
    · exact .inr ⟨hne, hother⟩
  · rintro (⟨key, hkey⟩ | ⟨hne, hother⟩)
    · exact ⟨key, .inl hkey⟩
    · exact ⟨_, .inr ⟨hne, hother, rfl⟩⟩

end Store

namespace TrustedHarvest

def listsVariables (store : Store) : Bool :=
  store.hasWhitelist .variables && !store.allows .variables && !store.hasBlacklist .variables

/-- Stores into which trusted code is harvested side by side. -/
structure Alongside (spared : Category → Prop) (store other : Store) : Prop where
  relaxed : store.Relaxed spared other
  restriction : other.hasWhitelist .variables = store.hasWhitelist .variables
  references : ¬ spared .variables → listsVariables other = listsVariables store

variable {spared : Category → Prop} {store other : Store}

namespace Alongside

variable (h : Alongside spared store other)

include h

theorem grow {after after' : Store} (hrelaxed : after.Relaxed spared after')
    (hgrows : store.Grows after) (hgrows' : other.Grows after')
    (hrestriction : after.hasWhitelist .variables = store.hasWhitelist .variables)
    (hrestriction' : after'.hasWhitelist .variables = other.hasWhitelist .variables) :
    Alongside spared after after' := by
  have hlists : ∀ {first last : Store}, first.Grows last →
      last.hasWhitelist .variables = first.hasWhitelist .variables →
      listsVariables last = listsVariables first := by
    intro first last hgrows hlist
    rw [listsVariables, hlist, hgrows.allows_eq, hgrows.hasBlacklist_eq, listsVariables]
  refine ⟨hrelaxed, ?_, fun hspared => ?_⟩
  · rw [hrestriction', h.restriction, hrestriction]
  · rw [hlists hgrows' hrestriction', h.references hspared, hlists hgrows hrestriction]

theorem apply (change : Store.Change) (hchange : change.Validates) :
    Alongside spared (change.apply store) (change.apply other) :=
  h.grow (h.relaxed.apply hchange) (store.grows_apply (.of hchange.passes))
    (other.grows_apply (.of hchange.passes))
    ((store.samePolicy_apply (.of hchange)).hasWhitelist_eq .variables)
    ((other.samePolicy_apply (.of hchange)).hasWhitelist_eq .variables)

theorem whitelist {category : Category} (name : String)
    (hbegun : category = .variables → store.hasWhitelist .variables = true) :
    Alongside spared (store.whitelist category name) (other.whitelist category name) := by
  have hrestriction : ∀ first : Store,
      (category = .variables → first.hasWhitelist .variables = true) →
      (first.whitelist category name).hasWhitelist .variables = first.hasWhitelist .variables := by
    intro first hfirst
    rw [Bool.eq_iff_iff, Store.hasWhitelist_whitelist, or_iff_left_iff_imp]
    exact fun ⟨_, hcategory⟩ => hfirst hcategory.symm
  refine h.grow (h.relaxed.whitelist category name) (store.grows_whitelist _ _)
    (other.grows_whitelist _ _) (hrestriction store hbegun) (hrestriction other fun hcategory => ?_)
  rw [h.restriction]
  exact hbegun hcategory

theorem harvest {category : Category} (name : String)
    (hbegun : category = .variables → store.hasWhitelist .variables = true) :
    Alongside spared (harvest category name store) (harvest category name other) := by
  unfold TrustedHarvest.harvest
  rw [h.relaxed.hasBlacklist_eq]
  split
  · exact h
  · exact h.whitelist name hbegun

theorem whitelist_left (hspared : spared .variables) (hlist : store.hasWhitelist .variables = true)
    (name : String) : Alongside spared (store.whitelist .variables name) other := by
  refine h.grow (h.relaxed.whitelist_left hspared name) (store.grows_whitelist _ _) (.refl other) ?_ rfl
  rw [hlist, Store.hasWhitelist_whitelist]
  exact .inl hlist

end Alongside

/-! ## Rules -/

private theorem alongside_lenient (hspared : ∀ category, spared category → category = .variables) :
    Lenient spared (Alongside spared) fun role _ => role ≠ .variableRef where
  relaxed h := h.relaxed
  check := by
    intro s t role name h hrole hcheck
    refine h.relaxed.check (fun hlist => ?_) hcheck
    have hcategory := hspared _ hlist
    cases role <;> first | exact hrole rfl | cases hcategory
  apply change hchange h := h.apply change hchange

private theorem harvest_follows {category : Category} (name : String)
    (hcategory : category ≠ .variables) :
    Run.Follows (Alongside spared) (update (harvest category name))
      (update (harvest category name)) :=
  Run.Follows.modify fun _ _ h => h.harvest name fun hvariables => absurd hvariables hcategory

private theorem declaration_follows {category : Category} (name : Option String)
    (hcategory : category ≠ .variables) :
    Run.Follows (Alongside spared) (declaration category name) (declaration category name) := by
  cases name with
  | none => exact .pure ()
  | some name => exact harvest_follows name hcategory

private theorem reference_follows {category : Category} (value : Value)
    (hcategory : category ≠ .variables) :
    Run.Follows (Alongside spared) (reference category value) (reference category value) := by
  unfold reference
  cases value.name? with
  | none => exact .pure ()
  | some written =>
      apply (read_follows written.nameText).bind
      intro text
      exact harvest_follows text hcategory

private theorem call_follows (n : Node) : Run.Follows (Alongside spared) (call n) (call n) := by
  apply (reference_follows (n.field "name") (by decide)).bind
  intro _
  apply (read_follows (isDefineCall n)).bind
  intro isDefine
  refine .ite Iff.rfl (fun _ => ?_) fun _ => .pure ()
  apply Run.Follows.get_bind
  intro s t hst
  rw [hst.relaxed.isOverridden_eq]
  refine .ite Iff.rfl (fun _ => ?_) fun _ => .pure ()
  apply (read_follows (definedConstant (.node n))).bind
  intro name?
  cases name? with
  | none => exact .pure ()
  | some name => exact harvest_follows name (by decide)

private theorem exec_variableRef (name : String) (store : Store) :
    (variableRef (some name)).exec store =
      (.ok (), if listsVariables store then store.whitelist .variables name else store) := by
  change (if _ then _ else _ : Judge Unit).exec store = _
  unfold listsVariables
  cases store.hasWhitelist .variables <;> cases store.allows .variables <;>
    cases hdenied : store.hasBlacklist .variables <;> first
    | rfl
    | exact congrArg (Prod.mk _) (if_neg (by simp [hdenied]))
    | exact congrArg (Prod.mk _) (if_pos hdenied)

theorem Alongside.listsVariables (h : Alongside spared store other)
    (hlists : listsVariables other = true) : TrustedHarvest.listsVariables store = true := by
  simp only [TrustedHarvest.listsVariables, Bool.and_eq_true, Bool.not_eq_true', h.restriction,
    h.relaxed.hasBlacklist_eq] at hlists ⊢
  obtain ⟨⟨hlist, hallow⟩, hdenied⟩ := hlists
  refine ⟨⟨hlist, Bool.eq_false_iff.mpr fun hon => ?_⟩, hdenied⟩
  exact Bool.false_ne_true (hallow.symm.trans (h.relaxed.allows _ hon))

theorem variableRef_follows (name : Option String) :
    Run.Follows (Alongside spared) (variableRef name) (variableRef name) := by
  cases name with
  | none => exact .get_bind fun _ _ _ => .pure ()
  | some name =>
      intro s t hst value after hrun
      rw [exec_variableRef] at hrun
      cases hrun
      refine ⟨_, exec_variableRef name t, ?_⟩
      cases hlists : listsVariables s with
      | false =>
          have hlists' : listsVariables t = false :=
            Bool.eq_false_iff.mpr fun hon => Bool.false_ne_true (hlists.symm.trans (hst.listsVariables hon))
          rw [if_neg (by simp), if_neg (by simp [hlists'])]
          exact hst
      | true =>
          have hlist : s.hasWhitelist .variables = true := by
            simp only [listsVariables, Bool.and_eq_true] at hlists
            exact hlists.1.1
          rw [if_pos rfl]
          by_cases hspared : spared .variables
          · split
            · exact hst.whitelist name fun _ => hlist
            · exact hst.whitelist_left hspared hlist name
          · rw [if_pos ((hst.references hspared).trans hlists)]
            exact hst.whitelist name fun _ => hlist

private theorem Alongside.harvestEach (h : Alongside spared store other)
    (hlist : store.hasWhitelist .variables = true) (names : List String) :
    Alongside spared
      (names.foldl (fun store name => TrustedHarvest.harvest .variables name store) store)
      (names.foldl (fun store name => TrustedHarvest.harvest .variables name store) other) := by
  induction names generalizing store other with
  | nil => exact h
  | cons name rest ih =>
      have hkept : (TrustedHarvest.harvest .variables name store).hasWhitelist .variables = true := by
        unfold TrustedHarvest.harvest
        split
        · exact hlist
        · exact Store.hasWhitelist_whitelist.mpr (.inl hlist)
      exact ih (h.harvest name fun _ => hlist) hkept

private theorem globals_follows (n : Node) : Run.Follows (Alongside spared) (globals n)
    (globals n) := by
  have hexec : ∀ store : Store, store.hasWhitelist .variables = true →
      (globals n).exec store = (do
        let names ← Judge.read (globalNames n)
        Judge.update fun store => names.foldl (fun store name => harvest .variables name store) store
          : Judge Unit).exec store := by
    intro store hlist
    change (if _ then _ else _ : Judge Unit).exec store = _
    rw [if_pos hlist]
  intro s t hst value after hrun
  cases hlist : s.hasWhitelist .variables with
  | false =>
      change (if _ then _ else _ : Judge Unit).exec s = _ at hrun
      rw [if_neg (by simp [hlist])] at hrun
      cases hrun
      refine ⟨t, ?_, hst⟩
      change (if _ then _ else _ : Judge Unit).exec t = _
      rw [if_neg (by simp [hst.restriction, hlist])]
      rfl
  | true =>
      rw [hexec s hlist] at hrun
      rw [hexec t (hst.restriction.trans hlist)]
      cases hnames : globalNames n with
      | error cause =>
          rw [hnames] at hrun
          cases hrun
      | ok names =>
          rw [hnames] at hrun
          cases hrun
          exact ⟨_, rfl, hst.harvestEach hlist names⟩

private theorem function_follows (n : Node) : Run.Follows (Alongside spared) (function n)
    (function n) := by
  unfold function
  cases n.declaredName? with
  | none => exact .pure ()
  | some name =>
      apply Run.Follows.get_bind
      intro s t hst
      rw [hst.relaxed.isDeclared_eq]
      refine .ite Iff.rfl (fun _ => reject_bind_follows _ _ _ _ _) fun _ => ?_
      have hdeclare : Run.Follows (Alongside spared) (update (·.declare name))
          (update (·.declare name)) :=
        Run.Follows.modify fun _ _ h => h.apply (.declare name) trivial
      apply hdeclare.bind
      intro _
      exact harvest_follows name (by decide)

theorem keeping_follows {judge : Judge Unit}
    (h : Run.Follows (Alongside spared) judge judge) :
    Run.Follows (Alongside spared) (judge >>= fun _ => pure Verdict.keep)
      (judge >>= fun _ => pure .keep) :=
  h.bind fun _ => .pure _

section

variable (hspared : ∀ category, spared category → category = .variables)

include hspared

theorem namespaceDecl_follows (n : Node) :
    Run.Follows (Alongside spared) (namespaceDecl n) (namespaceDecl n) := by
  have hlenient := alongside_lenient hspared
  have hstmts : Run.Follows (Alongside spared)
      (do pure (.splice (← Judge.read (n.fieldItems "stmts"))) : Judge Verdict)
      (do pure (.splice (← Judge.read (n.fieldItems "stmts")))) :=
    (read_follows _).bind fun items => .pure _
  unfold namespaceDecl
  cases (n.field "name").name? with
  | none => exact hstmts
  | some written =>
      apply (read_follows written.nameText).bind
      intro text
      have hname : Run.Follows (Alongside spared) (nonEmptyName .namespaceName text (some n))
          (nonEmptyName .namespaceName text (some n)) :=
        nonEmptyName_follows hlenient (by decide) (some n)
      apply hname.bind
      intro _
      apply (change_follows hlenient (.defineNamespace text) trivial).bind
      intro _
      exact hstmts

theorem useItem_follows (n : Node) (item : Value) :
    Run.Follows (Alongside spared) (useItem n item) (useItem n item) := by
  have hlenient := alongside_lenient hspared
  apply (read_follows (item.member "alias")).bind
  intro shortForm
  apply (read_follows item.kind).bind
  intro kind
  refine .ite Iff.rfl (fun _ => ?_) fun _ => .pure ()
  apply (read_follows (item.member "name")).bind
  intro name
  split
  case h_2 => exact .pure ()
  case h_1 written shortName _ _ =>
    apply (read_follows written.nameText).bind
    intro text
    have hname : Run.Follows (Alongside spared) (nonEmptyName .aliasName text (some n))
        (nonEmptyName .aliasName text (some n)) :=
      nonEmptyName_follows hlenient (by decide) (some n)
    apply hname.bind
    intro _
    exact change_follows hlenient (.defineAlias text shortName) trivial

theorem useDecl_follows (n : Node) :
    Run.Follows (Alongside spared) (useDecl n) (useDecl n) := by
  apply (read_follows (n.fieldItems "uses")).bind
  intro items
  apply (Run.Follows.forM (useItem_follows hspared n) items).bind
  intro _
  exact .pure _

theorem node_follows (n : Node) : Run.Follows (Alongside spared) (node n) (node n) := by
  unfold node
  split
  case h_1 => exact keeping_follows (call_follows n)
  case h_2 => exact keeping_follows (function_follows n)
  case h_3 => exact keeping_follows (variableRef_follows _)
  case h_4 => exact keeping_follows (variableRef_follows _)
  case h_5 => exact keeping_follows (reference_follows _ (by decide))
  case h_6 => exact keeping_follows (declaration_follows _ (by decide))
  case h_7 => exact keeping_follows (declaration_follows _ (by decide))
  case h_8 => exact keeping_follows (declaration_follows _ (by decide))
  case h_9 => exact keeping_follows (reference_follows _ (by decide))
  case h_10 => exact keeping_follows (globals_follows n)
  case h_11 => exact namespaceDecl_follows hspared n
  case h_12 => exact useDecl_follows hspared n
  case h_13 => exact .pure _

theorem tree_follows (nodes : Tree) :
    Run.Follows (Alongside spared) (Walk.tree [visitor] nodes) (Walk.tree [visitor] nodes) :=
  Walk.tree_follows (node_follows hspared) nodes

end

end TrustedHarvest

end ScriptSandbox
