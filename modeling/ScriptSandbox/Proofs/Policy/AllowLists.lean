import ScriptSandbox.Proofs.Policy.Frame

/-!
# What stands on allow-lists

Whitelisting puts a name on the list of its category, once and in its normal spelling, and
logs it if it is new.  An empty name is never listed.
-/

namespace ScriptSandbox

namespace Store

variable {store : Store}

@[simp]
theorem mem_namesIn {category : Category} {entries : List (Category × String)} {key : String} :
    key ∈ namesIn category entries ↔ (category, key) ∈ entries := by
  rw [namesIn]
  simp only [List.mem_map, List.mem_filter, decide_eq_true_eq]
  constructor
  · rintro ⟨⟨other, _⟩, ⟨hentry, rfl⟩, rfl⟩
    exact hentry
  · intro hentry
    exact ⟨(category, key), ⟨hentry, rfl⟩, rfl⟩

private theorem exists_mem_namesIn {category : Category} {entries : List (Category × String)} :
    (namesIn category entries).isEmpty = false ↔ ∃ key, (category, key) ∈ entries := by
  rw [List.isEmpty_eq_false_iff_exists_mem]
  simp

theorem hasWhitelist_iff {category : Category} :
    store.hasWhitelist category = true ↔ ∃ key, (category, key) ∈ store.allowed := by
  rw [hasWhitelist, Bool.not_eq_true', allowedIn, exists_mem_namesIn]

theorem hasBlacklist_iff {category : Category} :
    store.hasBlacklist category = true ↔ ∃ key, (category, key) ∈ store.denied := by
  rw [hasBlacklist, Bool.not_eq_true', deniedIn, exists_mem_namesIn]

@[simp] theorem mem_allowed_whitelist {category other : Category} {name key : String} :
    (other, key) ∈ (store.whitelist category name).allowed ↔
      (other, key) ∈ store.allowed ∨
        (key ≠ "" ∧ other = category ∧ category.normalize name = key) := by
  simp only [whitelist]
  split
  case isTrue hkept =>
    refine ⟨.inl, ?_⟩
    rintro (hold | ⟨hne, rfl, rfl⟩)
    · exact hold
    · exact hkept.resolve_left hne
  case isFalse hnew =>
    rw [not_or] at hnew
    have hrecord : ∀ (mid : Store) (entry : AuditEntry), (mid.record entry).allowed = mid.allowed :=
      fun mid entry => (samePolicy_record mid entry).allowed
    rw [hrecord, List.mem_append, List.mem_singleton, Prod.mk.injEq]
    refine or_congr_right ⟨?_, ?_⟩
    · rintro ⟨rfl, rfl⟩
      exact ⟨hnew.1, rfl, rfl⟩
    · rintro ⟨_, rfl, rfl⟩
      exact ⟨rfl, rfl⟩

def whitelistEach (names : List (Category × String)) (store : Store) : Store :=
  names.foldl (fun store entry => store.whitelist entry.1 entry.2) store

@[simp] theorem mem_allowed_whitelistEach {names : List (Category × String)} {category : Category}
    {key : String} :
    (category, key) ∈ (store.whitelistEach names).allowed ↔
      (category, key) ∈ store.allowed ∨
        (key ≠ "" ∧ ∃ name, (category, name) ∈ names ∧ category.normalize name = key) := by
  induction names generalizing store with
  | nil => simp [whitelistEach]
  | cons entry rest ih =>
      have hrest : whitelistEach (entry :: rest) store =
          (store.whitelist entry.1 entry.2).whitelistEach rest := rfl
      rw [hrest, ih, mem_allowed_whitelist, or_assoc]
      refine or_congr_right ⟨?_, ?_⟩
      · rintro (⟨hne, rfl, hkey⟩ | ⟨hne, name, hname, hkey⟩)
        · exact ⟨hne, entry.2, List.mem_cons_self, hkey⟩
        · exact ⟨hne, name, List.mem_cons_of_mem entry hname, hkey⟩
      · rintro ⟨hne, name, hname, hkey⟩
        rcases List.mem_cons.mp hname with rfl | hname
        · exact .inl ⟨hne, rfl, hkey⟩
        · exact .inr ⟨hne, name, hname, hkey⟩

def predicateAccepts (store : Store) (category : Category) (key : String) (extra : List Json) : Bool :=
  match store.predicates category with
  | none => true
  | some predicate => predicate key extra

theorem check_eq (store : Store) (category : Category) (name : String) (extra : List Json) :
    store.check category name extra =
      (store.listsAccept category (category.normalize name) &&
        store.predicateAccepts category (category.normalize name) extra) :=
  rfl

theorem listsAccept_of_hasBlacklist (store : Store) {category : Category} {key : String}
    (h : store.hasBlacklist category = true) :
    store.listsAccept category key = true ↔
      (category, key) ∉ store.denied ∧
        (category ≠ .variables ∨ store.allows .variables = true ∨
          (category, key) ∈ store.allowed) := by
  simp [listsAccept, h, or_assoc]

theorem listsAccept_of_not_hasBlacklist (store : Store) {category : Category} {key : String}
    (h : store.hasBlacklist category = false) :
    store.listsAccept category key = true ↔
      (store.hasWhitelist category = false ∨ (category, key) ∈ store.allowed) ∧
        (category ≠ .variables ∨ store.allows .variables = true ∨
          (category, key) ∈ store.allowed) := by
  simp [listsAccept, h, or_assoc]

def withAllowed (store : Store) (added : List (Category × String)) : Store :=
  { store with
    allowed := store.allowed ++ added
    log := if store.audited then
        store.log ++ added.map fun entry => .whitelist entry.1.name entry.2
      else store.log }

/-- The later store differs in the names that are new on its allow-lists, each listed once. -/
structure Lists (store : Store) (added : List (Category × String)) (after : Store) : Prop where
  after_eq : after = store.withAllowed added
  nodup : added.Nodup
  new : ∀ entry ∈ added, entry ∉ store.allowed

variable {store mid after : Store} {added more : List (Category × String)}

@[simp] theorem withAllowed_nil (store : Store) : store.withAllowed [] = store := by
  simp [withAllowed]

@[simp] theorem withAllowed_append (store : Store) (added more : List (Category × String)) :
    (store.withAllowed added).withAllowed more = store.withAllowed (added ++ more) := by
  unfold withAllowed
  split <;> simp [List.append_assoc]

namespace Lists

@[simp] protected theorem nil (store : Store) : store.Lists [] store :=
  ⟨store.withAllowed_nil.symm, List.nodup_nil, by simp⟩

theorem allowed_eq (h : store.Lists added after) : after.allowed = store.allowed ++ added := by
  rw [h.after_eq, withAllowed]

protected theorem trans (h : store.Lists added mid) (h' : mid.Lists more after) :
    store.Lists (added ++ more) after := by
  have hnew : ∀ entry ∈ more, entry ∉ store.allowed ∧ entry ∉ added := by
    intro entry hentry
    have hmid := h'.new entry hentry
    rwa [h.allowed_eq, List.mem_append, not_or] at hmid
  refine ⟨?_, ?_, ?_⟩
  · simp [h'.after_eq, h.after_eq]
  · refine List.nodup_append.mpr ⟨h.nodup, h'.nodup, ?_⟩
    rintro entry hadded _ hmore rfl
    exact (hnew entry hmore).2 hadded
  · exact List.forall_mem_append.mpr ⟨h.new, fun entry hentry => (hnew entry hentry).1⟩

theorem allowedIn_eq (h : store.Lists added after) {category : Category}
    (hnone : ∀ entry ∈ added, entry.1 ≠ category) :
    after.allowedIn category = store.allowedIn category := by
  have hempty : namesIn category added = [] := by
    simpa [namesIn, List.filter_eq_nil_iff] using hnone
  rw [allowedIn, h.allowed_eq, namesIn, List.filter_append, List.map_append]
  exact (congrArg _ hempty).trans (List.append_nil _)

end Lists

theorem exists_lists_whitelist (store : Store) (category : Category) (name : String) :
    ∃ added, store.Lists added (store.whitelist category name) := by
  simp only [whitelist]
  split
  case isTrue => exact ⟨[], .nil store⟩
  case isFalse hnew =>
    refine ⟨[(category, category.normalize name)], ?_, by simp, ?_⟩
    · simp only [record, withAllowed]
      split <;> rfl
    · exact List.forall_mem_singleton.mpr (not_or.mp hnew).2

theorem exists_lists_whitelistEach (names : List (Category × String)) (store : Store) :
    ∃ added, store.Lists added (store.whitelistEach names) := by
  induction names generalizing store with
  | nil => exact ⟨[], .nil store⟩
  | cons entry rest ih =>
      obtain ⟨added, hadded⟩ := store.exists_lists_whitelist entry.1 entry.2
      obtain ⟨more, hmore⟩ := ih (store.whitelist entry.1 entry.2)
      exact ⟨added ++ more, hadded.trans hmore⟩

end Store

end ScriptSandbox
