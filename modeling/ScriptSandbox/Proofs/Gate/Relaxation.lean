import ScriptSandbox.Proofs.Enforce.Relaxed
import ScriptSandbox.Proofs.Gate.Validation
import ScriptSandbox.Proofs.Harvest.RelaxedOwn
import ScriptSandbox.Proofs.Walk.Acceptance

/-!
# Allowing more features

A feature that is allowed admits a construct, but it may also switch a harvest on or off,
and the first name on an empty allow-list turns the list into a restriction.  A script that
passes goes on passing when more features are allowed, unless it fetches a constant or a
variable that the lists, as they are harvested then, do not permit.

Each store judges a copy of the script of its own.  A node counts as generated for the
store that judges it, so what one store has guarded is never handed to the other here.
-/

namespace ScriptSandbox

open Judge

namespace Store

/-- The stores are the same, except that the other one may allow more features. -/
structure Enables (store other : Store) : Prop where
  same : other = { store with options := other.options }
  handle : other.handle = store.handle
  flag : ∀ flag, (∀ feature, flag ≠ .allow feature) → other.flag flag = store.flag flag
  allows : ∀ feature, store.allows feature = true → other.allows feature = true

theorem Enables.relaxed {store other : Store} (h : store.Enables other)
    (spared : Category → Prop) : store.Relaxed spared other where
  handle := h.handle
  allows := h.allows
  overwrite _ := h.flag _ (by simp)
  denied _ := by rw [h.same]
  predicates _ wider hwider := by
    rw [h.same] at hwider
    exact ⟨wider, hwider, fun _ _ => id⟩
  overrides _ := by rw [h.same]
  classes _ := by rw [h.same]
  magicConsts _ := by rw [h.same]
  declared _ := by rw [h.same]
  allowed _ _ _ := by rw [h.same]

theorem Enables.hasWhitelist_eq {store other : Store} (h : store.Enables other)
    (category : Category) : other.hasWhitelist category = store.hasWhitelist category :=
  (h.relaxed fun _ => False).hasWhitelist_eq not_false

/-- The store, with one more feature allowed. -/
def allow (store : Store) (feature : Feature) : Store :=
  { store with options := store.options.setFlag (.allow feature) true }

@[simp]
theorem enables_allow (store : Store) (feature : Feature) : store.Enables (store.allow feature) where
  same := rfl
  handle := rfl
  flag flag hflag := if_neg (hflag feature)
  allows other hallow := by
    by_cases hother : Flag.allow other = .allow feature
    · exact if_pos hother
    · exact (if_neg hother).trans hallow

end Store

/-! ## Declarations that pass -/

namespace Enforce

private theorem meets_of_needs {store : Store} {n : Node} {verdict : Verdict} {feature : Feature}
    (hneeds : OwnHarvest.Needs n.kind feature) (houtcome : Outcome store n verdict) :
    n.Meets store := by
  have hrule : n.kind.rule ∈ [Rule.classDecl, .interfaceDecl, .traitDecl, .functionDecl, .globalDecl] := by
    generalize n.kind = kind at hneeds
    cases hneeds with
    | declaration hkind => cases hkind <;> decide
    | globalDecl => decide
  cases houtcome with
  | kept hmeets => exact hmeets
  | called hcall => cases hcall <;> simp_all
  | substituted hclass => rcases hclass with hclass | hclass <;> simp [hclass] at hrule
  | _ => simp_all

private theorem allows_of_meets {store : Store} {n : Node} {feature : Feature}
    (hneeds : OwnHarvest.Needs n.kind feature) (hmeets : n.Meets store) :
    store.allows feature = true := by
  unfold Node.Meets at hmeets
  generalize n.kind = kind at hneeds hmeets
  cases hneeds with
  | declaration hkind => cases hkind <;> exact hmeets.1
  | globalDecl => exact hmeets.1

private theorem visitor_demands_features (store : Store) :
    Walk.Demands visitor (Reaches store) fun n => n.generated = false →
      ∀ feature, OwnHarvest.Needs n.kind feature → store.allows feature = true := by
  intro source n houtline
  cases hgenerated : n.generated with
  | true =>
      have hkept : node n = pure .keep := by rw [node, hgenerated, if_pos rfl]
      have hsource : source.generated = true := houtline.generated.symm.trans hgenerated
      change Run.Yields _ (node n) _
      rw [hkept]
      exact Run.Yields.pure fun hnew => absurd (hsource.symm.trans hnew) (by decide)
  | false =>
      refine (node_yields hgenerated).mono fun verdict houtcome _ feature hneeds => ?_
      rw [← houtline.kind] at hneeds
      exact allows_of_meets hneeds (meets_of_needs hneeds houtcome)

end Enforce

namespace Gate

variable {script trusted guarded : Tree} {store other mid after : Store}

/-! ## Harvests side by side -/

private theorem grows_of_harvestTrusted
    (hrun : (harvestTrusted trusted).exec store = (.ok (), mid)) :
    store.Grows mid := by
  have hevolves := (Pass.trusted trusted).evolves store
  rw [Pass.after, Pass.run, hrun] at hevolves
  exact (hevolves.mono fun h => h.mono Pass.Does.passes).grows

private theorem declared_of_harvestOwn (hrun : (harvestOwn script).exec store = (.ok (), mid)) :
    mid.declared = store.declared := by
  have hevolves := (Pass.own script).evolves store
  rw [Pass.after, Pass.run, hrun] at hevolves
  exact hevolves.eq fun change before hchange =>
    Store.declared_apply before (hchange.mono .inr)

private theorem grows_of_harvests (hrun : (harvests script trusted).exec store = (.ok (), mid)) :
    store.Grows mid := by
  obtain ⟨between, htrusted, hown⟩ := harvests_ok_iff.mp hrun
  refine .trans ?_ (adds_of_harvestOwn hown).grows
  split at htrusted
  · exact htrusted ▸ .refl store
  · exact grows_of_harvestTrusted htrusted

/-- The categories whose lists may come out otherwise where more features are allowed. -/
def Spared (store other : Store) (script trusted : Tree) : Category → Prop
  | .variables => trusted.isEmpty = false ∧
      TrustedHarvest.listsVariables other ≠ TrustedHarvest.listsVariables store
  | .constants => OwnHarvest.HarvestsConstants store other (visitedIn script)
  | _ => False

private theorem spared_cases {script trusted : Tree} (category : Category)
    (h : Spared store other script trusted category) :
    category = .constants ∨ category = .variables := by
  cases category <;> first | exact .inl rfl | exact .inr rfl | exact h.elim

private theorem harvestTrusted_relaxed (h : store.Enables other)
    (hrun : if trusted.isEmpty then mid = store
      else (harvestTrusted trusted).exec store = (.ok (), mid)) (script : Tree) :
    ∃ mid', (if trusted.isEmpty then mid' = other
        else (harvestTrusted trusted).exec other = (.ok (), mid')) ∧
      mid.Relaxed
        (fun category => category = .variables ∧ Spared store other script trusted category) mid' ∧
      mid'.hasWhitelist .variables = mid.hasWhitelist .variables ∧
      store.Grows mid ∧ other.Grows mid' := by
  cases hempty : trusted.isEmpty with
  | true =>
      rw [hempty, if_pos rfl] at hrun
      subst hrun
      exact ⟨other, rfl, h.relaxed _, h.hasWhitelist_eq _, .refl _, .refl _⟩
  | false =>
      rw [hempty, if_neg Bool.false_ne_true] at hrun
      have hstart : TrustedHarvest.Alongside
          (fun category => category = .variables ∧ Spared store other script trusted category)
          store other := by
        refine ⟨h.relaxed _, h.hasWhitelist_eq _, fun hspared => ?_⟩
        by_contra hlists
        exact hspared ⟨rfl, hempty, hlists⟩
      have hfollows : Run.Follows (TrustedHarvest.Alongside
          fun category => category = .variables ∧ Spared store other script trusted category)
          (harvestTrusted trusted) (harvestTrusted trusted) :=
        (TrustedHarvest.tree_follows (fun _ hspared => hspared.1) trusted).bind fun _ => .pure ()
      obtain ⟨mid', hrun', hmid⟩ := hfollows store other hstart () mid hrun
      refine ⟨mid', hrun', hmid.relaxed, hmid.restriction, grows_of_harvestTrusted hrun,
        grows_of_harvestTrusted hrun'⟩

private theorem harvests_relaxed {first : Store} (h : store.Enables other)
    (hrun : (harvests script trusted).exec store = (.ok (), first))
    (hneeds : ∀ n ∈ visitedIn script, ∀ feature, OwnHarvest.Needs n.kind feature →
      store.allows feature = true)
    (hreadable : ∀ n ∈ visitedIn script, isDefineCall n = .ok true →
      OwnHarvest.enabled other .constants .constants .constants = true →
        other.isOverridden "define" = false →
          store.allows .constants = true ∨ ∃ found, definedConstant (.node n) = .ok found) :
    ∃ second, (harvests script trusted).exec other = (.ok (), second) ∧
      first.Relaxed (Spared store other script trusted) second ∧
      ∀ key, (Category.constants, key) ∈ first.allowed → (Category.constants, key) ∈ second.allowed := by
  obtain ⟨mid, htrusted, hown⟩ := harvests_ok_iff.mp hrun
  obtain ⟨mid', htrusted', hmid, hrestriction, hgrows, hgrows'⟩ :=
    harvestTrusted_relaxed h htrusted script
  have hmids : OwnHarvest.Alongside
      (fun category => category = .variables ∧ Spared store other script trusted category)
      mid mid' := by
    refine ⟨hmid, fun definable => ?_, hrestriction⟩
    rw [hgrows'.flag_eq, h.flag _ (by simp), hgrows.flag_eq]
  have hneeds' : ∀ n ∈ visitedIn script, ∀ feature, OwnHarvest.Needs n.kind feature →
      mid.allows feature = true := fun n hn feature hneeded => by
    rw [hgrows.allows_eq]
    exact hneeds n hn feature hneeded
  obtain ⟨second, hown'⟩ := harvestOwn_returns hown fun n hn =>
    (readable_of_harvestOwn hown n hn).relaxed hmids (hneeds' n hn) fun hcall => by
      rw [OwnHarvest.enabled_of_grows hgrows', hgrows'.isOverridden_eq, hgrows.allows_eq]
      exact hreadable n hn hcall
  have hadds := adds_of_harvestOwn hown
  have hadds' := adds_of_harvestOwn hown'
  have hdeclared : ∀ key, key ∈ second.declared ↔ key ∈ first.declared := by
    rw [declared_of_harvestOwn hown', declared_of_harvestOwn hown]
    exact hmid.declared
  refine ⟨second, harvests_ok_iff.mpr ⟨mid', htrusted', hown'⟩, ?_, fun key hkey => ?_⟩
  · have hrelaxed := hadds.relaxed hmids hadds' hdeclared hneeds'
    refine hrelaxed.mono fun category hspared => ?_
    rcases hspared with ⟨_, hspared⟩ | ⟨rfl, hoff, n, hn, name, hdefines⟩
    · exact hspared
    · rw [OwnHarvest.defines_constants_iff, OwnHarvest.enabled_of_grows hgrows', hgrows'.isOverridden_eq,
        ← OwnHarvest.defines_constants_iff] at hdefines
      exact ⟨(hgrows.allows_eq _).symm.trans hoff, n, hn, name, hdefines⟩
  · rw [hadds'.allowed, hmid.allowed .constants (by simp)]
    exact ((hadds.allowed _ _).mp hkey).imp_right (.relaxed hmids)

/-! ## Checks side by side -/

private theorem allows_of_validate {last : Store}
    (hgenerated : ∀ n ∈ visitedIn script, n.generated = true →
      ∀ feature, ¬ OwnHarvest.Needs n.kind feature)
    (hrun : (validate script).exec store = (.ok guarded, last)) :
    ∀ n ∈ visitedIn script, ∀ feature, OwnHarvest.Needs n.kind feature →
      store.allows feature = true := by
  intro n hn feature hneeds
  have hdemands : Run.Yields (Reaches store) (validate script) fun _ => ∀ n ∈ visitedIn script,
      n.generated = false → ∀ feature, OwnHarvest.Needs n.kind feature →
        store.allows feature = true :=
    Walk.tree_demands (Enforce.visitor_demands_features store) rfl
  have hallows := (hdemands.ok .start hrun).2 n hn
  cases hnew : n.generated with
  | true => exact absurd hneeds (hgenerated n hn hnew feature)
  | false => exact hallows hnew feature hneeds

private theorem fetchesAccepted_of_validate {last : Store}
    (hrun : (validate script).exec store = (.ok guarded, last)) :
    ∀ offer ∈ Enforce.visitor.offers script store, Enforce.FetchesAccepted store offer.node := by
  have hpasses : (validate script).Passes store := by
    rw [Run.Passes, hrun]
    rfl
  exact (Walk.tree_returnsIf (Enforce.visitor_returnsIf fun _ h => h.elim)
    (⟨.refl _ store, .refl store⟩ :
      store.Relaxed (fun _ => False) store ∧ store.SamePolicy store) hrun).2 hpasses

private theorem fetchesAccepted_relaxed {spared : Category → Prop} {first second : Store}
    (h : first.Relaxed spared second) (hvariables : ¬ spared .variables)
    (hlisted : ∀ key, (Category.constants, key) ∈ first.allowed →
      (Category.constants, key) ∈ second.allowed)
    (hbegun : second.hasWhitelist .constants = true → first.hasWhitelist .constants = true)
    {n : Node} (hfirst : Enforce.FetchesAccepted first n) : Enforce.FetchesAccepted second n := by
  intro hnew role name hfetches
  have haccepts := hfirst hnew role name hfetches
  cases hfetches with
  | constant => exact h.check_of_listed (hlisted _) (fun _ => hbegun) haccepts
  | variableRef => exact h.check hvariables haccepts
  | staticVar => exact h.check hvariables haccepts

/--
A script that passes and whose definitions can be read is harvested where more features are
allowed, too.  It passes there exactly if the constants and variables that it fetches are
permitted by the lists that come out, and then the guarded script is the same.  They are
permitted in any case unless a list of constants begins with what the script defines, or
variables that trusted code refers to are no longer listed.
-/
theorem enabling_relaxes_but_for_fetches (h : store.Enables other)
    (hgenerated : ∀ n ∈ visitedIn script, n.generated = true →
      ∀ feature, ¬ OwnHarvest.Needs n.kind feature)
    (hreadable : ∀ n ∈ visitedIn script, isDefineCall n = .ok true →
      OwnHarvest.enabled other .constants .constants .constants = true →
        other.isOverridden "define" = false →
          store.allows .constants = true ∨ ∃ found, definedConstant (.node n) = .ok found)
    (hrun : (check script trusted).exec store = (.ok (.passed guarded), after)) :
    ∃ first second, (harvests script trusted).exec store = (.ok (), first) ∧
      (harvests script trusted).exec other = (.ok (), second) ∧
      ((∃ last, (check script trusted).exec other = (.ok (.passed guarded), last)) ↔
        ∀ offer ∈ Enforce.visitor.offers script first,
          Enforce.FetchesAccepted second offer.node) ∧
      (∀ again last, (check script trusted).exec other = (.ok (.passed again), last) →
        again = guarded) ∧
      (¬ Spared store other script trusted .variables →
        (¬ Spared store other script trusted .constants ∨ first.hasWhitelist .constants = true) →
        ∃ last, (check script trusted).exec other = (.ok (.passed guarded), last)) := by
  obtain ⟨first, judged, hfirst, hvalidate, _⟩ := check_passed_iff.mp hrun
  have hneeds : ∀ n ∈ visitedIn script, ∀ feature, OwnHarvest.Needs n.kind feature →
      store.allows feature = true := by
    intro n hn feature hneeded
    rw [← (grows_of_harvests hfirst).allows_eq]
    exact allows_of_validate hgenerated hvalidate n hn feature hneeded
  obtain ⟨second, hsecond, hrelaxed, hlisted⟩ := harvests_relaxed h hfirst hneeds hreadable
  have hwalk := Walk.tree_returnsIf (Enforce.visitor_returnsIf spared_cases)
    (⟨hrelaxed, .refl second⟩ :
      first.Relaxed (Spared store other script trusted) second ∧ second.SamePolicy second) hvalidate
  have hpasses : (∀ offer ∈ Enforce.visitor.offers script first,
      Enforce.FetchesAccepted second offer.node) →
        ∃ last, (check script trusted).exec other = (.ok (.passed guarded), last) := by
    intro hadmitted
    obtain ⟨last, hagain, _⟩ := hwalk.1 hadmitted
    exact ⟨_, check_passed_iff.mpr ⟨second, last, hsecond, hagain, rfl⟩⟩
  have hadmits : ∀ again last, (check script trusted).exec other = (.ok (.passed again), last) →
      (∀ offer ∈ Enforce.visitor.offers script first, Enforce.FetchesAccepted second offer.node) ∧
        again = guarded := by
    intro again last hcheck
    obtain ⟨mid, ends, hmid, hagain, _⟩ := check_passed_iff.mp hcheck
    cases hsecond.symm.trans hmid
    have hreturns : (validate script).Passes second := by
      rw [Run.Passes, hagain]
      rfl
    have hadmitted := hwalk.2 hreturns
    obtain ⟨_, hsame, _⟩ := hwalk.1 hadmitted
    cases hsame.symm.trans hagain
    exact ⟨hadmitted, rfl⟩
  have hconverse : (∃ last, (check script trusted).exec other = (.ok (.passed guarded), last)) →
      ∀ offer ∈ Enforce.visitor.offers script first,
        Enforce.FetchesAccepted second offer.node := by
    rintro ⟨last, hcheck⟩
    exact (hadmits guarded last hcheck).1
  refine ⟨first, second, hfirst, hsecond, ⟨hconverse, hpasses⟩,
    fun again last hcheck => (hadmits again last hcheck).2, fun hvariables hconstants => ?_⟩
  refine hpasses fun offer hoffer => fetchesAccepted_relaxed hrelaxed hvariables hlisted ?_
    (fetchesAccepted_of_validate hvalidate offer hoffer)
  intro hlist
  rcases hconstants with hspared | hold
  · exact (hrelaxed.hasWhitelist_eq hspared).symm.trans hlist
  · exact hold

end Gate

namespace Sample

def fetchEntry (name : String) : Json :=
  entry "Expr_ConstFetch" [("name", nameEntry name)]

def textEntry (text : String) : Json :=
  entry "Scalar_String" [("value", .str text)]

def fetching : Tree :=
  (nodesOf (.arr [callEntry (nameEntry "define") (textEntry "LIMIT"),
    fetchEntry "PHP_EOL"])).map .node

def fetchedStore : Store :=
  (Store.empty Options.default false).whitelist .constants "PHP_EOL"

def IsReadable (script : Tree) : Prop :=
  ∀ n ∈ visitedIn script, n.generated = false ∧
    ((isDefineCall n).toOption = some true → (definedConstant (.node n)).toOption.isSome = true)

instance (script : Tree) : Decidable (IsReadable script) :=
  inferInstanceAs (Decidable (∀ _ ∈ _, _))

end Sample

namespace Gate

theorem enabling_relaxes_but_for_fetches_of_listed : ∃ guarded after last,
    (check Sample.fetching []).exec Sample.fetchedStore = (.ok (.passed guarded), after) ∧
      (check Sample.fetching []).exec (Sample.fetchedStore.allow .constants) =
        (.ok (.passed guarded), last) := by
  have hrun : ∃ guarded after,
      (check Sample.fetching []).exec Sample.fetchedStore = (.ok (.passed guarded), after) :=
    ⟨_, _, rfl⟩
  obtain ⟨guarded, after, hrun⟩ := hrun
  have hreadable : Sample.IsReadable Sample.fetching := by decide +kernel
  have hgenerated : ∀ n ∈ visitedIn Sample.fetching, n.generated = true →
      ∀ feature, ¬ OwnHarvest.Needs n.kind feature := by
    intro n hn hmark
    rw [(hreadable n hn).1] at hmark
    cases hmark
  have hdefinitions : ∀ n ∈ visitedIn Sample.fetching, isDefineCall n = .ok true →
      ∃ found, definedConstant (.node n) = .ok found := by
    intro n hn hcall
    have hfound := (hreadable n hn).2 (by rw [hcall]; rfl)
    cases hread : definedConstant (.node n) with
    | ok found => exact ⟨found, rfl⟩
    | error cause =>
        rw [hread] at hfound
        cases hfound
  obtain ⟨first, second, hfirst, _, _, _, hpasses⟩ := enabling_relaxes_but_for_fetches
    (Sample.fetchedStore.enables_allow .constants) hgenerated
    (fun n hn hcall _ _ => .inr (hdefinitions n hn hcall)) hrun
  have hlist : first.hasWhitelist .constants = true := by
    have hstart : Sample.fetchedStore.hasWhitelist .constants = true := by decide
    obtain ⟨key, hkey⟩ := Store.hasWhitelist_iff.mp hstart
    exact Store.hasWhitelist_iff.mpr ⟨key, (grows_of_harvests hfirst).allowed.subset hkey⟩
  have htrusted : ¬ Spared Sample.fetchedStore (Sample.fetchedStore.allow .constants)
      Sample.fetching [] .variables := by
    rintro ⟨hgiven, _⟩
    cases hgiven
  obtain ⟨last, hlast⟩ := hpasses htrusted (.inr hlist)
  exact ⟨guarded, after, last, hrun, hlast⟩

/-- More features are allowed in the other store, and a script that has passed does not pass. -/
def Loses (store other : Store) (script trusted : Tree) : Prop :=
  store.Enables other ∧
    (∃ guarded after, (check script trusted).exec store = (.ok (.passed guarded), after)) ∧
    ∀ guarded after, (check script trusted).exec other ≠ (.ok (.passed guarded), after)

private theorem loses_of_exec {store other after : Store} {script trusted : Tree}
    {result : Except (WalkFailure Refusal) Outcome} (h : store.Enables other)
    (hpasses : ∃ guarded after, (check script trusted).exec store = (.ok (.passed guarded), after))
    (hexec : (check script trusted).exec other = (result, after))
    (hresult : ∀ guarded, result ≠ .ok (.passed guarded)) :
    Loses store other script trusted := by
  refine ⟨h, hpasses, fun guarded last hcheck => ?_⟩
  cases hexec.symm.trans hcheck
  exact hresult guarded rfl

end Gate

namespace Sample

def variableTree (name : String) : Tree :=
  (nodesOf (.arr [variableEntry name])).map .node

/-- A call that defines no constant, since its argument is none. -/
def definingNothing : Tree :=
  (nodesOf (.arr [entry "Expr_FuncCall"
    [("name", nameEntry "define"), ("args", .arr [.str "LIMIT"])]])).map .node

/-- A class that counts as generated, and an object of another class. -/
def generatedClass : Tree :=
  (nodesOf (.arr [entry "Stmt_Class" [("name", .str "Point"), ("stmts", .arr [])]])).map
      (fun n => .node { n with generated := true }) ++
    (nodesOf (.arr [entry "Expr_New" [("class", nameEntry "Box"), ("args", .arr [])]])).map .node

def freeStore : Store := Store.empty Options.default false

/-- Variables have to be on a list, and one is. -/
def restrictedStore : Store :=
  (Store.empty (Options.default.setFlag (.allow .variables) false) false).whitelist .variables "y"

end Sample

namespace Gate

/--
A first constant begins a list of constants; variables that trusted code refers to are no
longer listed; a definition that is read now has no name; a class that counts as generated
begins a list of types.
-/
theorem enabling_may_reject :
    Loses Sample.freeStore (Sample.freeStore.allow .constants) Sample.fetching [] ∧
      Loses Sample.restrictedStore (Sample.restrictedStore.allow .variables)
        (Sample.variableTree "x") (Sample.variableTree "x") ∧
      Loses Sample.freeStore (Sample.freeStore.allow .constants) Sample.definingNothing [] ∧
      Loses (Sample.freeStore.allow .objects) ((Sample.freeStore.allow .objects).allow .classes)
        Sample.generatedClass [] := by
  have henables := Store.enables_allow
  exact ⟨loses_of_exec (henables _ _) ⟨_, _, rfl⟩ rfl nofun,
    loses_of_exec (henables _ _) ⟨_, _, rfl⟩ rfl nofun,
    loses_of_exec (henables _ _) ⟨_, _, rfl⟩ rfl nofun,
    loses_of_exec (henables _ _) ⟨_, _, rfl⟩ rfl nofun⟩

end Gate

end ScriptSandbox
