/-!
# Records

A record is a list of named entries, kept in the order in which the names were
first given.  Setting a name that is present keeps its place.
-/

namespace ScriptSandbox

abbrev Record (α : Type) := List (String × α)

namespace Record

variable {α : Type}

def get? : Record α → String → Option α
  | [], _ => none
  | (key, value) :: rest, name => if key = name then some value else get? rest name

def has (record : Record α) (name : String) : Bool :=
  (get? record name).isSome

/-- A present name keeps its place and takes the new value; a new name goes last. -/
def set : Record α → String → α → Record α
  | [], name, value => [(name, value)]
  | (key, old) :: rest, name, value =>
      if key = name then (key, value) :: rest else (key, old) :: set rest name value

def erase : Record α → String → Record α
  | [], _ => []
  | (key, value) :: rest, name =>
      if key = name then erase rest name else (key, value) :: erase rest name

def names (record : Record α) : List String :=
  record.map Prod.fst

/-- Entries in the order given, a repeated name at its first place with its last value. -/
def ofEntries (entries : List (String × α)) : Record α :=
  entries.foldl (fun record entry => set record entry.1 entry.2) []

theorem exists_of_get?_eq_some {record : Record α} {name : String} {value : α}
    (h : get? record name = some value) : ∃ entry ∈ record, entry.2 = value := by
  induction record with
  | nil => cases h
  | cons entry rest ih =>
      rw [get?] at h
      split at h
      · cases h
        exact ⟨entry, List.mem_cons_self, rfl⟩
      · obtain ⟨found, hfound, hvalue⟩ := ih h
        exact ⟨found, List.mem_cons_of_mem _ hfound, hvalue⟩

@[simp] theorem get?_set_self (record : Record α) (name : String) (value : α) :
    get? (set record name value) name = some value := by
  induction record with
  | nil => simp [set, get?]
  | cons entry rest ih =>
      by_cases h : entry.1 = name <;> simp [set, get?, h, ih]

@[simp] theorem get?_set_ne (record : Record α) {name other : String} (value : α)
    (h : other ≠ name) : get? (set record name value) other = get? record other := by
  induction record with
  | nil => simp [set, get?, Ne.symm h]
  | cons entry rest ih =>
      by_cases hkey : entry.1 = name
      · simp [set, get?, hkey, Ne.symm h]
      · simp [set, get?, hkey, ih]

@[simp] theorem get?_erase_self (record : Record α) (name : String) :
    get? (erase record name) name = none := by
  induction record with
  | nil => rfl
  | cons entry rest ih =>
      by_cases h : entry.1 = name <;> simp [erase, get?, h, ih]

end Record

end ScriptSandbox
