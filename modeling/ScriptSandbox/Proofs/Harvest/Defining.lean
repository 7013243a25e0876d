import ScriptSandbox.Proofs.Gate.Growth
import ScriptSandbox.Proofs.Policy.AllowLists

/-!
# What a script's own definitions add

`OwnHarvest.Defines` says which names a node of a script defines and the store lets be
harvested.  A harvest that is not aborted adds exactly the names that the visited nodes
define to the allow-lists, and changes nothing else.
-/

namespace ScriptSandbox

open Store (Change Evolves)

@[simp] theorem Store.grows_whitelistEach {store : Store} (names : List (Category × String)) :
    store.Grows (store.whitelistEach names) := by
  induction names generalizing store with
  | nil => exact .refl store
  | cons entry rest ih => exact (store.grows_whitelist entry.1 entry.2).trans ih

/-! ## Definitions -/

namespace OwnHarvest

/-- The declarations that introduce one name in one category. -/
inductive Introduces : Kind → Feature → Definable → Category → Prop where
  | classDecl : Introduces (.statement .classDecl) .classes .classes .classes
  | interfaceDecl : Introduces (.statement .interfaceDecl) .interfaces .interfaces .interfaces
  | traitDecl : Introduces (.statement .traitDecl) .traits .traits .traits
  | functionDecl : Introduces (.statement .functionDecl) .functions .functions .functions

/-- The node defines the name in the category, and the store lets it be harvested. -/
inductive Defines (store : Store) (n : Node) : Category → String → Prop where
  | declaration {feature : Feature} {definable : Definable} {category : Category} {name : String}
      (hkind : Introduces n.kind feature definable category)
      (hname : n.declaredName? = some name)
      (henabled : enabled store feature definable category = true) : Defines store n category name
  | classType {name : String} (hkind : n.kind = .statement .classDecl)
      (hname : n.declaredName? = some name)
      (henabled : enabled store .classes .classes .classes = true)
      (htypes : store.hasBlacklist .types = false) : Defines store n .types name
  | constant {name : String} (hcall : isDefineCall n = .ok true)
      (henabled : enabled store .constants .constants .constants = true)
      (hruntime : store.isOverridden "define" = false)
      (hname : definedConstant (.node n) = .ok (some name)) : Defines store n .constants name
  | global {names : List String} {name : String} (hkind : n.kind = .statement .globalDecl)
      (hrestricts : restrictsGlobals store = true) (hnames : globalNames n = .ok names)
      (hname : name ∈ names) : Defines store n .variables name

inductive Harvests (store : Store) (n : Node) : Except Refusal Unit × Store → Prop where
  | listed {names : List (Category × String)}
      (hnames : ∀ category name, (category, name) ∈ names ↔ Defines store n category name) :
      Harvests store n (.ok (), store.whitelistEach names)
  | malformed {cause : Malformed} : Harvests store n (.error (.malformed cause), store)

variable {store : Store} {n : Node}

theorem Harvests.of_eq {result : Except Refusal Unit × Store} (names : List (Category × String))
    (hresult : result = (.ok (), store.whitelistEach names))
    (hnames : ∀ category name, (category, name) ∈ names ↔ Defines store n category name) :
    Harvests store n result :=
  hresult ▸ .listed hnames

theorem kind_of_isDefineCall (h : isDefineCall n = .ok true) : n.kind = .expression .funcCall := by
  unfold isDefineCall at h
  split at h
  · assumption
  · cases h

private theorem defines_iff_of_introduces {feature : Feature} {definable : Definable}
    {category other : Category} {name : String}
    (hkind : Introduces n.kind feature definable category)
    (hclass : n.kind ≠ .statement .classDecl) :
    Defines store n other name ↔
      other = category ∧ n.declaredName? = some name ∧
        enabled store feature definable category = true := by
  constructor
  · intro h
    cases h with
    | declaration hkind' hname henabled =>
        generalize n.kind = kind at hkind hkind'
        cases hkind <;> cases hkind' <;> exact ⟨rfl, hname, henabled⟩
    | classType hkind' => exact absurd hkind' hclass
    | constant hcall =>
        rw [kind_of_isDefineCall hcall] at hkind
        cases hkind
    | global hkind' =>
        rw [hkind'] at hkind
        cases hkind
  · rintro ⟨rfl, hname, henabled⟩
    exact .declaration hkind hname henabled

private theorem declaration_harvests {feature : Feature} {definable : Definable}
    {category : Category}
    (hkind : Introduces n.kind feature definable category)
    (hclass : n.kind ≠ .statement .classDecl) :
    Harvests store n
      (.ok (), declaration feature definable category n.declaredName? store) := by
  cases hname : n.declaredName? with
  | none =>
      refine .of_eq [] rfl fun other name => ?_
      simp [defines_iff_of_introduces hkind hclass, hname]
  | some name =>
      by_cases henabled : enabled store feature definable category = true
      · refine .of_eq [(category, name)] ?_ fun other written => ?_
        · simp [declaration, henabled, Store.whitelistEach]
        · simp [defines_iff_of_introduces hkind hclass, hname, henabled, eq_comm]
      · refine .of_eq [] ?_ fun other written => ?_
        · simp [declaration, henabled, Store.whitelistEach]
        · simp [defines_iff_of_introduces hkind hclass, henabled]

private theorem defines_iff_of_classDecl (hkind : n.kind = .statement .classDecl)
    {category : Category}
    {name : String} :
    Defines store n category name ↔
      (category = .classes ∨ category = .types ∧ store.hasBlacklist .types = false) ∧
        n.declaredName? = some name ∧ enabled store .classes .classes .classes = true := by
  constructor
  · intro h
    cases h with
    | declaration hkind' hname henabled =>
        rw [hkind] at hkind'
        cases hkind'
        exact ⟨.inl rfl, hname, henabled⟩
    | classType _ hname henabled htypes => exact ⟨.inr ⟨rfl, htypes⟩, hname, henabled⟩
    | constant hcall => cases hkind.symm.trans (kind_of_isDefineCall hcall)
    | global hkind' => cases hkind.symm.trans hkind'
  · rintro ⟨rfl | ⟨rfl, htypes⟩, hname, henabled⟩
    · exact .declaration (hkind ▸ .classDecl) hname henabled
    · exact .classType hkind hname henabled htypes

private theorem classDecl_harvests (hkind : n.kind = .statement .classDecl) :
    Harvests store n (.ok (), classDecl n.declaredName? store) := by
  cases hname : n.declaredName? with
  | none =>
      refine .of_eq [] rfl fun category name => ?_
      simp [defines_iff_of_classDecl hkind, hname]
  | some name =>
      have hdenied : (store.whitelist .classes name).hasBlacklist .types =
          store.hasBlacklist .types := by
        rw [Store.hasBlacklist, Store.deniedIn, (store.grows_whitelist .classes name).denied]
        rfl
      by_cases henabled : enabled store .classes .classes .classes = true
      · cases htypes : store.hasBlacklist .types with
        | true =>
            refine .of_eq [(.classes, name)] ?_ fun category written => ?_
            · simp [classDecl, henabled, hdenied, htypes, Store.whitelistEach]
            · simp [defines_iff_of_classDecl hkind, hname, henabled, htypes, eq_comm]
        | false =>
            refine .of_eq [(.classes, name), (.types, name)] ?_ fun category written => ?_
            · simp [classDecl, henabled, hdenied, htypes, Store.whitelistEach]
            · simp [defines_iff_of_classDecl hkind, hname, henabled, htypes, eq_comm, or_and_right]
      · refine .of_eq [] ?_ fun category written => ?_
        · simp [classDecl, henabled, Store.whitelistEach]
        · simp [defines_iff_of_classDecl hkind, henabled]

private theorem defines_iff_of_funcCall (hkind : n.kind = .expression .funcCall)
    {category : Category}
    {name : String} :
    Defines store n category name ↔
      category = .constants ∧ isDefineCall n = .ok true ∧
        enabled store .constants .constants .constants = true ∧
          store.isOverridden "define" = false ∧
            definedConstant (.node n) = .ok (some name) := by
  constructor
  · intro h
    cases h with
    | declaration hkind' => rw [hkind] at hkind'; cases hkind'
    | classType hkind' => cases hkind.symm.trans hkind'
    | constant hcall henabled hruntime hname => exact ⟨rfl, hcall, henabled, hruntime, hname⟩
    | global hkind' => cases hkind.symm.trans hkind'
  · rintro ⟨rfl, hcall, henabled, hruntime, hname⟩
    exact .constant hcall henabled hruntime hname

theorem defines_constants_iff {name : String} :
    Defines store n .constants name ↔
      isDefineCall n = .ok true ∧ enabled store .constants .constants .constants = true ∧
        store.isOverridden "define" = false ∧ definedConstant (.node n) = .ok (some name) := by
  constructor
  · intro h
    cases h with
    | declaration hkind =>
        generalize n.kind = kind at hkind
        cases hkind
    | constant hcall henabled hruntime hname => exact ⟨hcall, henabled, hruntime, hname⟩
  · rintro ⟨hcall, henabled, hruntime, hname⟩
    exact .constant hcall henabled hruntime hname

private theorem constant_harvests (hkind : n.kind = .expression .funcCall) :
    Harvests store n ((constant n).exec store) := by
  unfold constant
  cases hcall : isDefineCall n with
  | error cause => exact .malformed
  | ok isDefine =>
      cases isDefine with
      | false =>
          refine .of_eq [] rfl fun category name => ?_
          simp [defines_iff_of_funcCall hkind, hcall]
      | true =>
          change Harvests store n ((if enabled store .constants .constants .constants &&
            !store.isOverridden "define" then _ else _ : Judge Unit).exec store)
          split
          case isFalse hdisabled =>
            refine .of_eq [] rfl fun category name => ?_
            rw [defines_iff_of_funcCall hkind]
            refine ⟨fun h => absurd h List.not_mem_nil, ?_⟩
            rintro ⟨_, _, henabled, hruntime, _⟩
            exact absurd (by simp [henabled, hruntime]) hdisabled
          case isTrue henabled =>
            rw [Bool.and_eq_true, Bool.not_eq_true'] at henabled
            cases hname : definedConstant (.node n) with
            | error cause => exact .malformed
            | ok found =>
                cases found with
                | none =>
                    refine .of_eq [] rfl fun category name => ?_
                    simp [defines_iff_of_funcCall hkind, hname]
                | some name =>
                    refine .of_eq [(.constants, name)] rfl fun category written => ?_
                    simp [defines_iff_of_funcCall hkind, hcall, henabled, hname, eq_comm]

private theorem defines_iff_of_globalDecl (hkind : n.kind = .statement .globalDecl)
    {category : Category}
    {name : String} :
    Defines store n category name ↔
      category = .variables ∧ restrictsGlobals store = true ∧
        ∃ names, globalNames n = .ok names ∧ name ∈ names := by
  constructor
  · intro h
    cases h with
    | declaration hkind' => rw [hkind] at hkind'; cases hkind'
    | classType hkind' => cases hkind.symm.trans hkind'
    | constant hcall => cases hkind.symm.trans (kind_of_isDefineCall hcall)
    | global _ hrestricts hnames hname => exact ⟨rfl, hrestricts, _, hnames, hname⟩
  · rintro ⟨rfl, hrestricts, names, hnames, hname⟩
    exact .global hkind hrestricts hnames hname

private theorem globals_harvests (hkind : n.kind = .statement .globalDecl) :
    Harvests store n ((globals n).exec store) := by
  change Harvests store n ((if restrictsGlobals store then _ else _ : Judge Unit).exec store)
  split
  case isFalse hfree =>
    refine .of_eq [] rfl fun category name => ?_
    simp [defines_iff_of_globalDecl hkind, hfree]
  case isTrue hrestricts =>
    cases hnames : globalNames n with
    | error cause => exact .malformed
    | ok names =>
        refine .of_eq (names.map fun name => (.variables, name)) ?_ fun category name => ?_
        · rw [Store.whitelistEach, List.foldl_map]
          rfl
        · simp [defines_iff_of_globalDecl hkind, hrestricts, hnames, eq_comm, and_comm]

private theorem node_harvests (n : Node) (store : Store) : Harvests store n ((node n).exec store) :=
    by
  unfold node
  split
  case h_1 hkind => exact classDecl_harvests hkind
  case h_2 hkind => exact declaration_harvests (hkind ▸ .interfaceDecl) (by simp [hkind])
  case h_3 hkind => exact declaration_harvests (hkind ▸ .traitDecl) (by simp [hkind])
  case h_4 hkind => exact declaration_harvests (hkind ▸ .functionDecl) (by simp [hkind])
  case h_5 hkind => exact constant_harvests hkind
  case h_6 hkind => exact globals_harvests hkind
  case h_7 hclass hinterface htrait hfunction hcall hglobal =>
    refine .of_eq [] rfl fun category name => ⟨fun h => absurd h List.not_mem_nil, fun h => ?_⟩
    cases h with
    | declaration hkind =>
        generalize hother : n.kind = kind at hkind
        cases hkind with
        | classDecl => exact (hclass hother).elim
        | interfaceDecl => exact (hinterface hother).elim
        | traitDecl => exact (htrait hother).elim
        | functionDecl => exact (hfunction hother).elim
    | classType hkind => exact (hclass hkind).elim
    | constant hdefine => exact (hcall (kind_of_isDefineCall hdefine)).elim
    | global hkind => exact (hglobal hkind).elim

/-! ## Stores that harvest the same -/

theorem hasBlacklist_of_defines {category : Category} {name : String}
    (h : Defines store n category name) : store.hasBlacklist category = false := by
  have hlist : ∀ {feature definable category}, enabled store feature definable category = true →
      store.hasBlacklist category = false := by
    intro feature definable category henabled
    simpa using (Bool.and_eq_true_iff.mp henabled).2
  cases h with
  | declaration _ _ henabled => exact hlist henabled
  | classType _ _ _ htypes => exact htypes
  | constant _ henabled => exact hlist henabled
  | global _ hrestricts =>
      rw [restrictsGlobals, Bool.and_eq_true, Bool.not_eq_true'] at hrestricts
      exact hrestricts.2

theorem hasWhitelist_of_defines {name : String} (h : Defines store n .variables name) :
    store.hasWhitelist .variables = true := by
  cases h with
  | declaration hkind =>
      generalize n.kind = kind at hkind
      cases hkind
  | global _ hrestricts =>
      simp only [restrictsGlobals, Bool.and_eq_true] at hrestricts
      exact hrestricts.1.2

structure SameHarvest (store later : Store) : Prop where
  options : later.options = store.options
  denied : later.denied = store.denied
  overrides : later.overrides = store.overrides
  restriction : later.hasWhitelist .variables = store.hasWhitelist .variables

protected theorem SameHarvest.symm {later : Store} (h : SameHarvest store later) :
    SameHarvest later store :=
  ⟨h.options.symm, h.denied.symm, h.overrides.symm, h.restriction.symm⟩

section

variable {later : Store} (h : SameHarvest store later)

include h

theorem SameHarvest.hasBlacklist_eq (category : Category) :
    later.hasBlacklist category = store.hasBlacklist category := by
  simp only [Store.hasBlacklist, Store.deniedIn, h.denied]

theorem SameHarvest.isOverridden_eq (name : String) :
    later.isOverridden name = store.isOverridden name := by
  rw [Store.isOverridden, h.overrides, Store.isOverridden]

theorem SameHarvest.enabled_eq (feature : Feature) (definable : Definable) (category : Category) :
    enabled later feature definable category = enabled store feature definable category := by
  simp only [enabled, Store.allows, Store.flag, h.hasBlacklist_eq, h.options]

theorem SameHarvest.restrictsGlobals_eq : restrictsGlobals later = restrictsGlobals store := by
  simp only [restrictsGlobals, Store.allows, Store.flag, h.hasBlacklist_eq, h.options, h.restriction]

theorem Defines.of_same {category : Category} {name : String}
    (hdefines : Defines store n category name) : Defines later n category name := by
  cases hdefines with
  | declaration hkind hname hon => exact .declaration hkind hname ((h.enabled_eq _ _ _).trans hon)
  | classType hkind hname hon htypes =>
      exact .classType hkind hname ((h.enabled_eq _ _ _).trans hon)
        ((h.hasBlacklist_eq _).trans htypes)
  | constant hcall hon hruntime hname =>
      exact .constant hcall ((h.enabled_eq _ _ _).trans hon) ((h.isOverridden_eq _).trans hruntime)
        hname
  | global hkind hrestricts hnames hname =>
      exact .global hkind (h.restrictsGlobals_eq.trans hrestricts) hnames hname

end

/-! ## A whole harvest -/

/-- The nodes define the name, in its normal spelling.  An empty name is never listed. -/
def Harvested (store : Store) (nodes : List Node) (category : Category) (key : String) : Prop :=
  key ≠ "" ∧ ∃ n ∈ nodes, ∃ name, Defines store n category name ∧ category.normalize name = key

/-- What the nodes define is on the allow-lists, and nothing else has changed. -/
structure Adds (store : Store) (nodes : List Node) (after : Store) : Prop where
  grows : store.Grows after
  allowed : ∀ category key, (category, key) ∈ after.allowed ↔
    (category, key) ∈ store.allowed ∨ Harvested store nodes category key

variable {nodes : List Node} {mid after : Store}

@[simp] theorem Adds.nil : Adds store [] store where
  grows := .refl store
  allowed category key := by simp [Harvested]

theorem Adds.sameHarvest (h : Adds store nodes after) : SameHarvest store after where
  options := h.grows.options
  denied := h.grows.denied
  overrides := h.grows.overrides
  restriction := by
    rw [Bool.eq_iff_iff, Store.hasWhitelist_iff]
    constructor
    · rintro ⟨key, hkey⟩
      rcases (h.allowed _ _).mp hkey with hkey | ⟨_, _, _, _, hdefines, _⟩
      · exact Store.hasWhitelist_iff.mpr ⟨key, hkey⟩
      · exact hasWhitelist_of_defines hdefines
    · intro hlist
      obtain ⟨key, hkey⟩ := Store.hasWhitelist_iff.mp hlist
      exact ⟨key, (h.allowed _ _).mpr (.inl hkey)⟩

theorem harvests_of_leave {verdict : Verdict}
    (hleave : (visitor.leave n).exec mid = (.ok verdict, after)) :
    Harvests mid n (.ok (), after) := by
  have hnode := node_harvests n mid
  change ((node n) >>= fun _ => pure Verdict.keep).exec mid = _ at hleave
  rw [Run.exec_bind] at hleave
  cases hexec : (node n).exec mid with
  | mk result last =>
      rw [hexec] at hnode hleave
      cases result with
      | error cause => cases hleave
      | ok value =>
          cases hleave
          exact hnode

theorem Adds.snoc {verdict : Verdict} (h : Adds store nodes mid)
    (hleave : (visitor.leave n).exec mid = (.ok verdict, after)) :
    Adds store (nodes ++ [n]) after := by
  cases harvests_of_leave hleave with
  | @listed names hnames =>
      refine ⟨h.grows.trans (Store.grows_whitelistEach names), fun category key => ?_⟩
      rw [Store.mem_allowed_whitelistEach, h.allowed, or_assoc]
      refine or_congr_right ?_
      have hdefines : ∀ name, (category, name) ∈ names ↔ Defines store n category name :=
        fun name => (hnames category name).trans
          ⟨.of_same h.sameHarvest.symm, .of_same h.sameHarvest⟩
      simp only [Harvested, hdefines, List.mem_append, List.mem_singleton]
      constructor
      · rintro (⟨hne, m, hm, hname⟩ | ⟨hne, hname⟩)
        · exact ⟨hne, m, .inl hm, hname⟩
        · exact ⟨hne, n, .inr rfl, hname⟩
      · rintro ⟨hne, m, hm | rfl, hname⟩
        · exact .inl ⟨hne, m, hm, hname⟩
        · exact .inr ⟨hne, hname⟩

private theorem adds_of_judges {offers : List (Offer Store)}
    (h : visitor.Judges store offers after) :
    Adds store (offers.map Offer.node) after := by
  induction h with
  | nil => exact .nil
  | snoc _ hleave ih =>
      rw [List.map_append]
      exact ih.snoc hleave

theorem keepsOrFails : visitor.KeepsOrFails := by
  intro n
  exact (Run.Yields.any (node n)).bind fun _ _ => Run.Yields.pure rfl

theorem leave_ne_violation (n : Node) (store : Store) (violation : Violation) :
    ((visitor.leave n).exec store).1 ≠ .error (.violation violation) := by
  have hnode := node_harvests n store
  change (((node n) >>= fun _ => pure Verdict.keep).exec store).1 ≠ _
  rw [Run.exec_bind]
  cases hexec : (node n).exec store with
  | mk result after =>
      rw [hexec] at hnode
      cases hnode with
      | listed => simp
      | malformed => simp

end OwnHarvest

namespace Gate

open OwnHarvest (Adds)

variable {script : Tree} {store mid : Store}

theorem exec_harvestOwn (script : Tree) (store : Store) :
    (harvestOwn script).exec store =
      (((Walk.tree [OwnHarvest.visitor] script).exec store).1.map fun _ => (),
        ((Walk.tree [OwnHarvest.visitor] script).exec store).2) :=
  (Pass.own script).exec_run store

theorem walk_of_harvestOwn (hrun : (harvestOwn script).exec store = (.ok (), mid)) :
    ∃ walked, (Walk.tree [OwnHarvest.visitor] script).exec store = (.ok walked, mid) := by
  rw [exec_harvestOwn] at hrun
  cases hwalk : (Walk.tree [OwnHarvest.visitor] script).exec store with
  | mk result last =>
      rw [hwalk] at hrun
      cases result with
      | error cause => cases hrun
      | ok walked =>
          cases hrun
          exact ⟨walked, rfl⟩

theorem offers_of_harvestOwn {walked : Tree}
    (hrun : (Walk.tree [OwnHarvest.visitor] script).exec store = (.ok walked, mid)) :
    (OwnHarvest.visitor.offers script store).map Offer.node = visitedIn script := by
  have hoffered := Walk.offers_offered script store (Walk.inside_keeps OwnHarvest.keepsOrFails)
  rw [hrun] at hoffered
  exact nodes_of_offeredAs hoffered

theorem adds_of_harvestOwn (hrun : (harvestOwn script).exec store = (.ok (), mid)) :
    Adds store (visitedIn script) mid := by
  obtain ⟨walked, hwalk⟩ := walk_of_harvestOwn hrun
  rw [← offers_of_harvestOwn hwalk]
  exact OwnHarvest.adds_of_judges (Walk.offers_judged hwalk)

theorem harvestOwn_ne_violation (script : Tree) (store : Store) (violation : Violation) :
    ((harvestOwn script).exec store).1 ≠ .error (.raised (.violation violation)) := by
  have hends := Walk.offers_end OwnHarvest.visitor script store
  rw [exec_harvestOwn]
  cases hwalk : (Walk.tree [OwnHarvest.visitor] script).exec store with
  | mk result last =>
      rw [hwalk] at hends
      generalize OwnHarvest.visitor.offers script store = offers at hends
      cases hends with
      | ok _ => simp [Except.map]
      | misplaced _ => simp [Except.map]
      | @raised _ n state _ cause _ hleave =>
          have hcause := OwnHarvest.leave_ne_violation n state violation
          rw [hleave] at hcause
          simpa [Except.map] using hcause

end Gate

end ScriptSandbox
