import ScriptSandbox.Proofs.Gate.Growth
import ScriptSandbox.Proofs.Policy.AllowLists

/-!
# What a store gains

Names on allow-lists and declared functions are what a pass over trusted code adds to the
policy itself.  `Store.Gains` says which a store has gained, and `Judge.Gains` which it has
gained when a run returns; runs that are put together gain what their parts gain.
-/

namespace ScriptSandbox

open Store (Change Evolves)

namespace Store

/--
Names go to the allow-lists of categories without a deny-list, in their normal spelling, and
functions are declared.  What the store permits by is not changed otherwise.
-/
structure Gains (store : Store) (names : Category → String → Prop) (functions : List String)
    (after : Store) : Prop where
  grows : store.Grows after
  allowed : ∀ category key, (category, key) ∈ after.allowed ↔
    (category, key) ∈ store.allowed ∨
      (store.hasBlacklist category = false ∧ key ≠ "" ∧
        ∃ name, names category name ∧ category.normalize name = key)
  closed : ∀ category, store.hasBlacklist category = true →
    after.allowedIn category = store.allowedIn category
  declared : after.declared = store.declared ++ functions

variable {store mid after : Store} {names more : Category → String → Prop}
  {functions others : List String}

namespace Gains

protected theorem congr (h : store.Gains names functions after)
    (hnames : ∀ category name, names category name ↔ more category name) :
    store.Gains more functions after :=
  { h with
    allowed := by
      simp only [← hnames]
      exact h.allowed }

theorem of_samePolicy (hgrows : store.Grows after) (hpolicy : store.SamePolicy after)
    (hdeclared : after.declared = store.declared ++ functions) :
    store.Gains (fun _ _ => False) functions after where
  grows := hgrows
  allowed category key := by simp [hpolicy.allowed]
  closed category _ := by rw [allowedIn, hpolicy.allowed, allowedIn]
  declared := hdeclared

@[simp] protected theorem refl (store : Store) : store.Gains (fun _ _ => False) [] store :=
  .of_samePolicy (.refl store) (.refl store) (List.append_nil _).symm

protected theorem trans (h : store.Gains names functions mid)
    (h' : mid.Gains more others after) :
    store.Gains (fun category name => names category name ∨ more category name)
      (functions ++ others) after where
  grows := h.grows.trans h'.grows
  allowed category key := by
    rw [h'.allowed, h.allowed, h.grows.hasBlacklist_eq, or_assoc, ← and_or_left, ← and_or_left]
    simp only [or_and_right, exists_or]
  closed category hdenied := by
    rw [h'.closed category (by rw [h.grows.hasBlacklist_eq, hdenied]), h.closed category hdenied]
  declared := by rw [h'.declared, h.declared, List.append_assoc]

end Gains

private theorem Evolves.gains (h : Evolves Change.Names store after) :
    store.Gains (fun _ _ => False) [] after := by
  refine .of_samePolicy ?_ ?_ ?_
  · exact (h.mono fun hchange => .of hchange.validates.passes).grows
  · exact (h.mono fun hchange => .of hchange.validates).samePolicy
  · rw [List.append_nil]
    exact h.eq fun change mid hchange => declared_apply mid (.of (.inl hchange))

theorem gains_declare {name : String} (h : store.isDeclared name = false) :
    store.Gains (fun _ _ => False) [Category.functions.normalize name] (store.declare name) :=
  .of_samePolicy (store.grows_declare name) (store.samePolicy_declare name)
    (store.declared_declare h)

@[simp] theorem allowedIn_whitelist_of_ne {category other : Category} (name : String)
    (h : other ≠ category) :
    (store.whitelist category name).allowedIn other = store.allowedIn other := by
  obtain ⟨added, hlists⟩ := store.exists_lists_whitelist category name
  refine hlists.allowedIn_eq ?_
  rintro ⟨found, key⟩ hentry rfl
  have hafter := List.mem_append_right store.allowed hentry
  rw [← hlists.allowed_eq] at hafter
  rcases mem_allowed_whitelist.mp hafter with hold | ⟨_, hcategory, _⟩
  · exact hlists.new _ hentry hold
  · exact h hcategory

end Store

namespace Judge

variable {α β : Type} {store : Store} {names more : Category → String → Prop}
  {functions others : List String}

def Gains (run : Judge α) (store : Store) (names : Category → String → Prop)
    (functions : List String) : Prop :=
  ∀ value after, run.exec store = (.ok value, after) → store.Gains names functions after

namespace Gains

protected theorem congr {run : Judge α} (h : Gains run store names functions)
    (hnames : ∀ category name, names category name ↔ more category name) :
    Gains run store more functions :=
  fun value after hrun => (h value after hrun).congr hnames

protected theorem pure (value : α) :
    Gains (pure value) store (fun _ _ => False) [] := by
  intro _ after hrun
  cases hrun
  exact .refl store

protected theorem update {change : Store → Store}
    (h : store.Gains names functions (change store)) :
    Gains (Judge.update change) store names functions := by
  intro _ after hrun
  cases hrun
  exact h

protected theorem bind {run : Judge α} {next : α → Judge β}
    (hrun : Gains run store names functions)
    (hnext : ∀ value mid, run.exec store = (.ok value, mid) → Gains (next value) mid more others) :
    Gains (run >>= next) store (fun category name => names category name ∨ more category name)
      (functions ++ others) := by
  intro result after hexec
  obtain ⟨value, mid, hfirst, hsecond⟩ := Run.exec_bind_eq_ok.mp hexec
  exact (hrun value mid hfirst).trans (hnext value mid hfirst result after hsecond)

theorem read_bind {result : Except Malformed α} {next : α → Judge β}
    (h : ∀ value, result = .ok value → Gains (next value) store names functions) :
    Gains (read result >>= next) store names functions := by
  intro value after hexec
  cases hresult : result with
  | error cause =>
      rw [hresult] at hexec
      cases hexec
  | ok found =>
      rw [hresult] at hexec
      exact h found hresult value after hexec

theorem get_bind {next : Store → Judge α} (h : Gains (next store) store names functions) :
    Gains (get >>= next) store names functions :=
  h

theorem bind_pure {run : Judge α} (h : Gains run store names functions) (value : β) :
    Gains (run >>= fun _ => pure value) store names functions := by
  have hbind := (h.bind fun _ _ _ => Gains.pure value).congr fun category name =>
    Iff.of_eq (or_false (names category name))
  rwa [List.append_nil] at hbind

theorem of_makes {run : Judge α} (h : Makes Change.Names run) :
    Gains run store (fun _ _ => False) [] :=
  fun _ _ hrun => (h.ok hrun).gains

end Gains

end Judge

end ScriptSandbox
