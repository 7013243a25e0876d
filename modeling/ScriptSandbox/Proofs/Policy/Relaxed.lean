import ScriptSandbox.Proofs.FollowedRuns
import ScriptSandbox.Proofs.Gate.Growth
import ScriptSandbox.Proofs.Policy.AllowLists

/-!
# Stores that allow more features

`Store.Relaxed` relates a store to one that allows the same features and perhaps more, whose
predicates accept the same names and perhaps more, and that has the same definitions and
lists, but for the lists of some categories.  The other store permits every name that the
first one permits, in all categories but these, so judging against it returns whatever
judging against the first one returns.
-/

namespace ScriptSandbox

open Store (Change)

namespace Store

/--
The other store allows more and has no predicate that rejects more.  It differs otherwise in
the lists of the spared categories, and in what its own harvest is told to list.
-/
structure Relaxed (spared : Category → Prop) (store other : Store) : Prop where
  handle : other.handle = store.handle
  allows : ∀ feature, store.allows feature = true → other.allows feature = true
  overwrite : ∀ interception,
    other.flag (.overwrite interception) = store.flag (.overwrite interception)
  denied : ∀ entry, entry ∈ other.denied ↔ entry ∈ store.denied
  predicates : ∀ category wider, other.predicates category = some wider →
    ∃ narrower, store.predicates category = some narrower ∧
      ∀ key extra, narrower key extra = true → wider key extra = true
  overrides : ∀ key, key ∈ other.overrides ↔ key ∈ store.overrides
  classes : ∀ key, Record.get? other.classes key = Record.get? store.classes key
  magicConsts : ∀ key, key ∈ other.magicConsts ↔ key ∈ store.magicConsts
  declared : ∀ key, key ∈ other.declared ↔ key ∈ store.declared
  allowed : ∀ category, ¬ spared category →
    ∀ key, (category, key) ∈ other.allowed ↔ (category, key) ∈ store.allowed

variable {spared : Category → Prop} {store other : Store}

@[simp] protected theorem Relaxed.refl (spared : Category → Prop) (store : Store) :
    store.Relaxed spared store where
  handle := rfl
  allows _ := id
  overwrite _ := rfl
  denied _ := .rfl
  predicates _ wider hwider := ⟨wider, hwider, fun _ _ => id⟩
  overrides _ := .rfl
  classes _ := rfl
  magicConsts _ := .rfl
  declared _ := .rfl
  allowed _ _ _ := .rfl

namespace Relaxed

variable (h : Relaxed spared store other)

include h

theorem hasBlacklist_eq (category : Category) :
    other.hasBlacklist category = store.hasBlacklist category := by
  rw [Bool.eq_iff_iff, hasBlacklist_iff, hasBlacklist_iff]
  exact exists_congr fun key => h.denied (category, key)

theorem isBlacklisted_eq (category : Category) (name : String) :
    other.isBlacklisted category name = store.isBlacklisted category name :=
  decide_eq_decide.mpr (h.denied _)

theorem hasWhitelist_eq {category : Category} (hlists : ¬ spared category) :
    other.hasWhitelist category = store.hasWhitelist category := by
  rw [Bool.eq_iff_iff, hasWhitelist_iff, hasWhitelist_iff]
  exact exists_congr (h.allowed category hlists)

theorem isOverridden_eq (name : String) : other.isOverridden name = store.isOverridden name :=
  decide_eq_decide.mpr (h.overrides _)

theorem isDeclared_eq (name : String) : other.isDeclared name = store.isDeclared name :=
  decide_eq_decide.mpr (h.declared _)

theorem substitute?_eq (name : String) : other.substitute? name = store.substitute? name :=
  h.classes _

theorem isDefinedMagicConst_eq (name : String) :
    other.isDefinedMagicConst name = store.isDefinedMagicConst name :=
  decide_eq_decide.mpr (h.magicConsts _)

theorem predicateAccepts {category : Category} {key : String} {extra : List Json}
    (haccepts : store.predicateAccepts category key extra = true) :
    other.predicateAccepts category key extra = true := by
  unfold Store.predicateAccepts at haccepts ⊢
  cases hwider : other.predicates category with
  | none => rfl
  | some wider =>
      obtain ⟨narrower, hnarrower, hmore⟩ := h.predicates category wider hwider
      rw [hnarrower] at haccepts
      exact hmore key extra haccepts

theorem check_of_listed {category : Category} {name : String} {extra : List Json}
    (hlisted : (category, category.normalize name) ∈ store.allowed →
      (category, category.normalize name) ∈ other.allowed)
    (hbegun : store.hasBlacklist category = false → other.hasWhitelist category = true →
      store.hasWhitelist category = true)
    (hcheck : store.check category name extra = true) :
    other.check category name extra = true := by
  rw [check_eq, Bool.and_eq_true] at hcheck ⊢
  obtain ⟨hlists, hpredicate⟩ := hcheck
  refine ⟨?_, h.predicateAccepts hpredicate⟩
  have hvariable : category ≠ .variables ∨ store.allows .variables = true ∨
        (category, category.normalize name) ∈ store.allowed →
      category ≠ .variables ∨ other.allows .variables = true ∨
        (category, category.normalize name) ∈ other.allowed :=
    Or.imp_right (Or.imp (h.allows .variables) hlisted)
  cases hdenied : store.hasBlacklist category with
  | true =>
      rw [listsAccept_of_hasBlacklist _ hdenied] at hlists
      rw [listsAccept_of_hasBlacklist _ ((h.hasBlacklist_eq category).trans hdenied),
        h.denied]
      exact ⟨hlists.1, hvariable hlists.2⟩
  | false =>
      rw [listsAccept_of_not_hasBlacklist _ hdenied] at hlists
      rw [listsAccept_of_not_hasBlacklist _ ((h.hasBlacklist_eq category).trans hdenied)]
      refine ⟨?_, hvariable hlists.2⟩
      rcases hlists.1 with hnone | hmem
      · refine .inl (Bool.eq_false_iff.mpr fun hlist => ?_)
        exact Bool.false_ne_true (hnone.symm.trans (hbegun hdenied hlist))
      · exact .inr (hlisted hmem)

theorem check {category : Category} (hlists : ¬ spared category) {name : String}
    {extra : List Json} (hcheck : store.check category name extra = true) :
    other.check category name extra = true :=
  h.check_of_listed (h.allowed category hlists _).mpr
    (fun _ hlist => (h.hasWhitelist_eq hlists).symm.trans hlist) hcheck

theorem grow {spared' : Category → Prop} {after after' : Store} (hgrows : store.Grows after)
    (hgrows' : other.Grows after')
    (hdeclared : ∀ key, key ∈ after'.declared ↔ key ∈ after.declared)
    (hallowed : ∀ category, ¬ spared' category → ∀ key,
      (category, key) ∈ after'.allowed ↔ (category, key) ∈ after.allowed) :
    Relaxed spared' after after' := by
  refine { handle := ?_, allows := fun feature hallow => ?_, overwrite := fun interception => ?_,
           denied := ?_, predicates := ?_, overrides := ?_, classes := ?_, magicConsts := ?_,
           declared := hdeclared, allowed := hallowed }
  · rw [hgrows'.handle_eq, h.handle, hgrows.handle_eq]
  · rw [hgrows.allows_eq] at hallow
    rw [hgrows'.allows_eq]
    exact h.allows feature hallow
  · rw [hgrows.flag_eq, hgrows'.flag_eq, h.overwrite interception]
  · rw [hgrows'.denied, hgrows.denied]
    exact h.denied
  · rw [hgrows'.predicates, hgrows.predicates]
    exact h.predicates
  · rw [hgrows'.overrides, hgrows.overrides]
    exact h.overrides
  · rw [hgrows'.classes, hgrows.classes]
    exact h.classes
  · rw [hgrows'.magicConsts, hgrows.magicConsts]
    exact h.magicConsts

theorem apply {change : Change} (hchange : change.Validates) :
    Relaxed spared (change.apply store) (change.apply other) := by
  have hpass : Change.OrReport Change.Passes change := .of hchange.passes
  refine h.grow (store.grows_apply hpass) (other.grows_apply hpass) ?_ fun category hlists key => ?_
  · have hnames : change.Names → ∀ key,
        key ∈ (change.apply other).declared ↔ key ∈ (change.apply store).declared := by
      intro hnames
      have hrefers : Change.OrReport Change.Refers change := .of (.inl hnames)
      rw [declared_apply other hrefers, declared_apply store hrefers]
      exact h.declared
    cases change with
    | declare name =>
        intro key
        exact (mem_insertNew _ _).trans ((or_congr_left (h.declared key)).trans (mem_insertNew _ _).symm)
    | _ => exact hnames hchange
  · rw [(samePolicy_apply other (.of hchange)).allowed, (samePolicy_apply store (.of hchange)).allowed]
    exact h.allowed category hlists key

theorem mono {spared' : Category → Prop} (hspared : ∀ category, spared category → spared' category) :
    Relaxed spared' store other :=
  { h with allowed := fun category hlists => h.allowed category (mt (hspared category) hlists) }

theorem whitelist (category : Category) (name : String) :
    Relaxed spared (store.whitelist category name) (other.whitelist category name) := by
  refine h.grow (store.grows_whitelist _ _) (other.grows_whitelist _ _) ?_ fun _ hlists key => ?_
  · rw [declared_whitelist, declared_whitelist]
    exact h.declared
  · simp [h.allowed _ hlists]

theorem whitelist_left {category : Category} (hspared : spared category) (name : String) :
    Relaxed spared (store.whitelist category name) other := by
  refine h.grow (store.grows_whitelist _ _) (.refl other) ?_ fun listed hlists key => ?_
  · rw [declared_whitelist]
    exact h.declared
  · rw [mem_allowed_whitelist, ← h.allowed _ hlists, iff_self_or]
    rintro ⟨_, rfl, _⟩
    exact absurd hspared hlists

end Relaxed

end Store

namespace Judge

/--
Stores so related stay so when a script is judged against both, and the second one permits
the licensed names that the first one permits.
-/
structure Lenient (spared : Category → Prop) (I : Store → Store → Prop)
    (Licensed : Role → String → Prop) : Prop where
  relaxed : ∀ {s t}, I s t → s.Relaxed spared t
  check : ∀ {s t role name}, I s t → Licensed role name →
    s.check role.category name role.extra = true → t.check role.category name role.extra = true
  apply : ∀ {s t} (change : Change), change.Validates → I s t → I (change.apply s) (change.apply t)

variable {spared : Category → Prop} {I : Store → Store → Prop} {Licensed : Role → String → Prop}
  {α β : Type}

@[simp] theorem relaxed_lenient :
    Lenient (fun _ => False) (Store.Relaxed fun _ => False) fun _ _ => True where
  relaxed := id
  check h _ hcheck := h.check not_false hcheck
  apply _ hchange h := h.apply hchange

theorem read_follows (result : Except Malformed α) : Run.Follows I (read result) (read result) :=
  Run.Follows.ofExcept Refusal.malformed result

theorem read_bind_follows {result : Except Malformed α} {next next' : α → Judge β}
    (hnext : ∀ value, result = .ok value → Run.Follows I (next value) (next' value)) :
    Run.Follows I (read result >>= next) (read result >>= next') := by
  cases result with
  | ok value => exact hnext value rfl
  | error cause => exact .of_fails (fun _ hpasses => by cases hpasses) _

theorem reject_follows (offence : Offence) (node : Option Node) (context : Option String)
    (other : Judge α) : Run.Follows I (reject offence node context) other :=
  .of_fails (fun _ => not_passes_reject offence node context) other

theorem reject_bind_follows (offence : Offence) (node : Option Node) (context : Option String)
    (next : α → Judge β) (other : Judge β) :
    Run.Follows I (reject offence node context >>= next) other := by
  refine .of_fails (fun state hpasses => ?_) other
  obtain ⟨_, _, hexec, _⟩ := Run.passes_bind.mp hpasses
  cases hexec

variable (h : Lenient spared I Licensed)

include h

theorem change_follows (change : Change) (hchange : change.Validates) :
    Run.Follows I (update change.apply) (update change.apply) :=
  Run.Follows.modify fun _ _ hst => h.apply change hchange hst

theorem require_follows (feature : Feature) (offence : Offence) (node : Node) :
    Run.Follows I (require feature offence node) (require feature offence node) := by
  apply Run.Follows.get_bind
  intro s t hst
  refine .refuse (fun _ => not_passes_reject _ _ _) (fun hdenied => ?_) (.pure ())
  rw [Bool.not_eq_true'] at hdenied ⊢
  exact Bool.eq_false_iff.mpr fun hallow =>
    Bool.false_ne_true (hdenied.symm.trans ((h.relaxed hst).allows feature hallow))

theorem name_follows {role : Role} {name : String} (hname : Licensed role name)
    (node : Option Node) :
    Run.Follows I (Judge.name role name node) (Judge.name role name node) := by
  intro s t hst value after hrun
  cases hcheck : s.check role.category name role.extra with
  | true =>
      rw [exec_name node hcheck] at hrun
      cases hrun
      refine ⟨_, exec_name node (h.check hst hname hcheck), ?_⟩
      exact h.apply (.noteCheck role.category name role.extra) trivial hst
  | false =>
      have hpasses : (Judge.name role name node >>= fun _ => pure ()).Passes s := by
        rw [Run.Passes, Run.exec_bind, hrun]
        rfl
      exact absurd (passes_name_bind.mp hpasses).1 (by simp [hcheck])

theorem nonEmptyName_follows {role : Role} {text : String} (hname : Licensed role text)
    (node : Option Node) :
    Run.Follows I (nonEmptyName role text node) (nonEmptyName role text node) :=
  Run.Follows.ite Iff.rfl (fun _ => reject_follows _ _ _ _) fun _ => name_follows h hname node

theorem overwrite_follows (interception : Interception) :
    Run.Follows I (Judge.flag (.overwrite interception)) (Judge.flag (.overwrite interception)) := by
  apply Run.Follows.get_bind
  intro s t hst
  rw [(h.relaxed hst).overwrite interception]
  exact .pure _

end Judge

end ScriptSandbox
