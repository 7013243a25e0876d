import ScriptSandbox.Policy.Judge
import ScriptSandbox.Proofs.Runs

/-!
# What judging changes in a store

`Judge.Reaches` lists all that judging a script may do to a store: it logs, notes
which predicates it asked, and registers functions, namespaces and aliases.  None of
this changes what the store permits, so every store reached answers the questions of
policy like the first one.
-/

namespace ScriptSandbox

/-- The stores permit and substitute the same. -/
structure Store.SamePolicy (store other : Store) : Prop where
  options : other.options = store.options
  allowed : other.allowed = store.allowed
  denied : other.denied = store.denied
  predicates : other.predicates = store.predicates
  overrides : other.overrides = store.overrides
  classes : other.classes = store.classes
  magicConsts : other.magicConsts = store.magicConsts

namespace Store.SamePolicy

variable {store other : Store}

@[simp] protected theorem refl (store : Store) : store.SamePolicy store :=
  ⟨rfl, rfl, rfl, rfl, rfl, rfl, rfl⟩

protected theorem trans {third : Store} (h : store.SamePolicy other)
    (h' : other.SamePolicy third) : store.SamePolicy third :=
  ⟨h'.options.trans h.options, h'.allowed.trans h.allowed, h'.denied.trans h.denied,
    h'.predicates.trans h.predicates, h'.overrides.trans h.overrides,
    h'.classes.trans h.classes, h'.magicConsts.trans h.magicConsts⟩

variable (h : store.SamePolicy other)

include h

theorem handle_eq : other.handle = store.handle := by
  rw [Store.handle, h.options, Store.handle]

theorem flag_eq (flag : Flag) : other.flag flag = store.flag flag := by
  rw [Store.flag, h.options, Store.flag]

theorem allows_eq (feature : Feature) : other.allows feature = store.allows feature :=
  h.flag_eq (.allow feature)

theorem hasWhitelist_eq (category : Category) :
    other.hasWhitelist category = store.hasWhitelist category := by
  simp only [Store.hasWhitelist, Store.allowedIn, h.allowed]

theorem hasBlacklist_eq (category : Category) :
    other.hasBlacklist category = store.hasBlacklist category := by
  simp only [Store.hasBlacklist, Store.deniedIn, h.denied]

theorem isWhitelisted_eq (category : Category) (name : String) :
    other.isWhitelisted category name = store.isWhitelisted category name := by
  simp only [Store.isWhitelisted, h.allowed]

theorem isBlacklisted_eq (category : Category) (name : String) :
    other.isBlacklisted category name = store.isBlacklisted category name := by
  simp only [Store.isBlacklisted, h.denied]

theorem listsAccept_eq (category : Category) (key : String) :
    other.listsAccept category key = store.listsAccept category key := by
  simp only [Store.listsAccept, h.hasBlacklist_eq, h.hasWhitelist_eq, h.allows_eq, h.allowed,
    h.denied]

theorem check_eq (category : Category) (name : String) (extra : List Json) :
    other.check category name extra = store.check category name extra := by
  simp only [Store.check, h.listsAccept_eq, h.predicates]

theorem isOverridden_eq (name : String) : other.isOverridden name = store.isOverridden name := by
  simp only [Store.isOverridden, h.overrides]

theorem substitute?_eq (name : String) : other.substitute? name = store.substitute? name := by
  simp only [Store.substitute?, h.classes]

theorem substituteFor_eq (name : String) : other.substituteFor name = store.substituteFor name := by
  rw [Store.substituteFor, h.substitute?_eq, Store.substituteFor]

theorem isDefinedMagicConst_eq (name : String) :
    other.isDefinedMagicConst name = store.isDefinedMagicConst name := by
  simp only [Store.isDefinedMagicConst, h.magicConsts]

end Store.SamePolicy

namespace Store

@[simp] theorem samePolicy_record (store : Store) (entry : AuditEntry) :
    store.SamePolicy (store.record entry) := by
  unfold record
  split <;> exact ⟨rfl, rfl, rfl, rfl, rfl, rfl, rfl⟩

@[simp] theorem samePolicy_noteCheck (store : Store) (category : Category) (name : String)
    (extra : List Json) : store.SamePolicy (store.noteCheck category name extra) := by
  simp only [noteCheck]
  split <;> exact ⟨rfl, rfl, rfl, rfl, rfl, rfl, rfl⟩

@[simp] theorem samePolicy_declare (store : Store) (name : String) :
    store.SamePolicy (store.declare name) :=
  ⟨rfl, rfl, rfl, rfl, rfl, rfl, rfl⟩

@[simp] theorem samePolicy_defineNamespace (store : Store) (name : String) :
    store.SamePolicy (store.defineNamespace name) := by
  unfold defineNamespace
  split
  · exact SamePolicy.refl store
  · have hlist : store.SamePolicy
        { store with namespaces := store.namespaces ++ [Text.dropLeading '\\' name] } :=
      ⟨rfl, rfl, rfl, rfl, rfl, rfl, rfl⟩
    exact hlist.trans (samePolicy_record _ _)

@[simp] theorem samePolicy_defineAlias (store : Store) (name : String) (shortName : Option String) :
    store.SamePolicy (store.defineAlias name shortName) := by
  simp only [defineAlias]
  split
  · exact SamePolicy.refl store
  · have htable : store.SamePolicy
        { store with
          aliases := Record.set store.aliases (Category.aliases.normalize name) shortName } :=
      ⟨rfl, rfl, rfl, rfl, rfl, rfl, rfl⟩
    exact htable.trans (samePolicy_record _ _)

end Store

namespace Store

variable (store : Store)

@[simp]
theorem declared_record (entry : AuditEntry) : (store.record entry).declared = store.declared := by
  unfold record
  split <;> rfl

@[simp] theorem declared_noteCheck (category : Category) (name : String) (extra : List Json) :
    (store.noteCheck category name extra).declared = store.declared := by
  simp only [noteCheck]
  split <;> rfl

@[simp] theorem declared_whitelist (category : Category) (name : String) :
    (store.whitelist category name).declared = store.declared := by
  simp only [whitelist]
  split
  · rfl
  · exact declared_record _ _

@[simp] theorem declared_declare {name : String} (h : store.isDeclared name = false) :
    (store.declare name).declared = store.declared ++ [Category.functions.normalize name] := by
  rw [isDeclared, decide_eq_false_iff_not] at h
  rw [declare, insertNew, if_neg h]

end Store

namespace Judge

/-- The stores that a script being judged can leave of a store. -/
inductive Reaches (store : Store) : Store → Prop where
  | start : Reaches store store
  | record {mid : Store} (entry : AuditEntry) (h : Reaches store mid) :
      Reaches store (mid.record entry)
  | noteCheck {mid : Store} (category : Category) (name : String) (extra : List Json)
      (h : Reaches store mid) : Reaches store (mid.noteCheck category name extra)
  | declare {mid : Store} (name : String) (h : Reaches store mid) :
      Reaches store (mid.declare name)
  | defineNamespace {mid : Store} (name : String) (h : Reaches store mid) :
      Reaches store (mid.defineNamespace name)
  | defineAlias {mid : Store} (name : String) (shortName : Option String)
      (h : Reaches store mid) : Reaches store (mid.defineAlias name shortName)

theorem Reaches.samePolicy {store mid : Store} (h : Reaches store mid) :
    store.SamePolicy mid := by
  induction h with
  | start => exact .refl store
  | record entry _ ih => exact ih.trans (Store.samePolicy_record _ entry)
  | noteCheck category name extra _ ih =>
      exact ih.trans (Store.samePolicy_noteCheck _ category name extra)
  | declare name _ ih => exact ih.trans (Store.samePolicy_declare _ name)
  | defineNamespace name _ ih => exact ih.trans (Store.samePolicy_defineNamespace _ name)
  | defineAlias name shortName _ ih =>
      exact ih.trans (Store.samePolicy_defineAlias _ name shortName)

variable {store : Store} {α : Type} {Q : α → Prop}

theorem get_yields : Run.Yields (Reaches store) (get : Judge Store) (store.SamePolicy ·) :=
  Run.Yields.get.mono fun _ h => h.samePolicy

theorem update_yields {change : Store → Store}
    (h : ∀ mid, Reaches store mid → Reaches store (change mid)) :
    Run.Yields (Reaches store) (update change) (fun _ => True) :=
  Run.Yields.modify h

theorem read_yields (result : Except Malformed α) :
    Run.Yields (Reaches store) (read result) (fun value => result = .ok value) :=
  Run.Yields.ofExcept Refusal.malformed result

private theorem report_yields (violation : Violation) :
    Run.Yields (Reaches store) (report violation : Judge α) Q := by
  refine (update_yields fun _ h => h.record _).bind fun _ _ => ?_
  exact Run.Yields.throw _

theorem reject_yields (offence : Offence) (node : Option Node) (context : Option String) :
    Run.Yields (Reaches store) (reject offence node context : Judge α) Q :=
  report_yields _

theorem reject_bind_yields {β : Type} {R : β → Prop} (offence : Offence) (node : Option Node)
    (context : Option String) (next : α → Judge β) :
    Run.Yields (Reaches store) (reject offence node context >>= next) R :=
  (reject_yields (Q := fun _ => False) offence node context).bind fun _ h => h.elim

theorem flag_yields (flag : Flag) :
    Run.Yields (Reaches store) (Judge.flag flag) (fun value => value = store.flag flag) := by
  refine get_yields.bind fun mid hmid => ?_
  exact Run.Yields.pure (hmid.flag_eq flag)

private theorem ask_yields (category : Category) (name : String) (extra : List Json) :
    Run.Yields (Reaches store) (ask category name extra)
      (fun answer => answer = store.check category name extra) := by
  refine get_yields.bind fun mid hmid => ?_
  refine (update_yields fun _ h => h.noteCheck category name extra).bind fun _ _ => ?_
  exact Run.Yields.pure (hmid.check_eq category name extra)

theorem name_yields (role : Role) (name : String) (node : Option Node) :
    Run.Yields (Reaches store) (Judge.name role name node)
      (fun _ => store.check role.category name role.extra = true) := by
  refine (ask_yields role.category name role.extra).bind fun answer hanswer => ?_
  refine Run.Yields.ite (fun _ => reject_yields _ _ _) fun h => ?_
  refine Run.Yields.pure ?_
  rw [← hanswer]
  simpa using h

theorem require_yields (feature : Feature) (offence : Offence) (node : Node) :
    Run.Yields (Reaches store) (require feature offence node)
      (fun _ => store.allows feature = true) := by
  refine get_yields.bind fun mid hmid => ?_
  refine Run.Yields.ite (fun _ => reject_yields _ _ _) fun h => ?_
  refine Run.Yields.pure ?_
  rw [← hmid.allows_eq]
  simpa using h

theorem nonEmptyName_yields (role : Role) (text : String) (node : Option Node) :
    Run.Yields (Reaches store) (nonEmptyName role text node)
      (fun _ => text ≠ "" ∧ store.check role.category text role.extra = true) := by
  refine Run.Yields.ite (fun _ => reject_yields _ _ _) fun h => ?_
  exact (name_yields role text node).mono fun _ hcheck => ⟨h, hcheck⟩

@[simp] theorem exec_require {feature : Feature} (offence : Offence) (node : Node)
    (h : store.allows feature = true) :
    (require feature offence node).exec store = (.ok (), store) := by
  change (if !store.allows feature then _ else _ : Judge Unit).exec store = _
  rw [h]
  rfl

@[simp] theorem exec_name {role : Role} {name : String} (node : Option Node)
    (h : store.check role.category name role.extra = true) :
    (Judge.name role name node).exec store =
      (.ok (), store.noteCheck role.category name role.extra) := by
  change (if !store.check role.category name role.extra then _ else _ : Judge Unit).exec
    (store.noteCheck role.category name role.extra) = _
  rw [h]
  rfl

theorem exec_reject_ne_ok (offence : Offence) (node : Option Node) (context : Option String)
    (value : α) : ((reject offence node context : Judge α).exec store).1 ≠ .ok value := by
  intro h
  cases h

variable {β : Type}

@[simp] theorem passes_get_bind {next : Store → Judge β} :
    (get >>= next).Passes store ↔ (next store).Passes store :=
  Iff.rfl

@[simp] theorem passes_read_bind {result : Except Malformed α} {next : α → Judge β} :
    (read result >>= next).Passes store ↔
      ∃ value, result = .ok value ∧ (next value).Passes store := by
  cases result with
  | ok value =>
      constructor
      · intro h
        exact ⟨value, rfl, h⟩
      · rintro ⟨_, heq, h⟩
        cases heq
        exact h
  | error cause =>
      constructor
      · intro h
        cases h
      · rintro ⟨_, heq, _⟩
        cases heq

@[simp] theorem passes_name_bind {role : Role} {name : String} {node : Option Node}
    {next : Unit → Judge β} :
    (Judge.name role name node >>= next).Passes store ↔
      store.check role.category name role.extra = true ∧
        (next ()).Passes (store.noteCheck role.category name role.extra) := by
  cases hcheck : store.check role.category name role.extra with
  | true =>
      rw [Run.Passes, Run.exec_bind, exec_name node hcheck]
      exact ⟨fun h => ⟨rfl, h⟩, And.right⟩
  | false =>
      constructor
      · intro h
        obtain ⟨_, _, hexec, _⟩ := Run.passes_bind.mp h
        change (if !store.check role.category name role.extra then _ else _ : Judge Unit).exec
          (store.noteCheck role.category name role.extra) = _ at hexec
        rw [hcheck] at hexec
        cases hexec
      · intro h
        cases h.1

@[simp] theorem passes_require_bind {feature : Feature} {offence : Offence} {node : Node}
    {next : Unit → Judge β} :
    (require feature offence node >>= next).Passes store ↔
      store.allows feature = true ∧ (next ()).Passes store := by
  cases hallow : store.allows feature with
  | true =>
      rw [Run.Passes, Run.exec_bind, exec_require offence node hallow]
      exact ⟨fun h => ⟨rfl, h⟩, And.right⟩
  | false =>
      constructor
      · intro h
        obtain ⟨_, _, hexec, _⟩ := Run.passes_bind.mp h
        change (if !store.allows feature then _ else _ : Judge Unit).exec store = _ at hexec
        rw [hallow] at hexec
        cases hexec
      · intro h
        cases h.1

@[simp] theorem exec_name_eq_ok {role : Role} {name : String} {node : Option Node} {result : Unit}
    {after : Store} :
    (Judge.name role name node).exec store = (.ok result, after) ↔
      store.check role.category name role.extra = true ∧
        after = store.noteCheck role.category name role.extra := by
  by_cases haccepts : store.check role.category name role.extra = true
  · rw [exec_name node haccepts, Prod.mk.injEq]
    exact ⟨fun h => ⟨haccepts, h.2.symm⟩, fun h => ⟨rfl, h.2.symm⟩⟩
  · refine ⟨fun h => ?_, fun h => absurd h.1 haccepts⟩
    have hpasses : (Judge.name role name node >>= pure).Passes store :=
      Run.passes_bind.mpr ⟨result, after, h, rfl⟩
    exact absurd (passes_name_bind.mp hpasses).1 haccepts

@[simp]
theorem exec_require_eq_ok {feature : Feature} {offence : Offence} {node : Node} {result : Unit}
    {after : Store} :
    (require feature offence node).exec store = (.ok result, after) ↔
      store.allows feature = true ∧ after = store := by
  by_cases hallow : store.allows feature = true
  · rw [exec_require offence node hallow, Prod.mk.injEq]
    exact ⟨fun h => ⟨hallow, h.2.symm⟩, fun h => ⟨rfl, h.2.symm⟩⟩
  · refine ⟨fun h => ?_, fun h => absurd h.1 hallow⟩
    have hpasses : (require feature offence node >>= pure).Passes store :=
      Run.passes_bind.mpr ⟨result, after, h, rfl⟩
    exact absurd (passes_require_bind.mp hpasses).1 hallow

theorem not_passes_reject (offence : Offence) (node : Option Node) (context : Option String) :
    ¬ (reject offence node context : Judge α).Passes store := by
  intro h
  cases h

end Judge

end ScriptSandbox
