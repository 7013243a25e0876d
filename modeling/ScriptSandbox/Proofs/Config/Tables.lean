import ScriptSandbox.Config.Basic
import ScriptSandbox.Proofs.Gate.Declared
import ScriptSandbox.Proofs.Policy.Definitions

/-!
# Tables of a configured store

A configured store is filled from the lists of its configuration, name by name.  Names that
differ in spelling only meet in three ways: a list holds them once, a later substitute
replaces an earlier one, and a later namespace or alias is dropped.
-/

namespace ScriptSandbox

def insertAll {α : Type} [DecidableEq α] (items news : List α) : List α :=
  news.foldl insertNew items

@[simp] theorem mem_insertAll {α : Type} [DecidableEq α] {item : α} {items news : List α} :
    item ∈ insertAll items news ↔ item ∈ items ∨ item ∈ news := by
  induction news generalizing items with
  | nil => simp [insertAll]
  | cons new rest ih =>
      rw [insertAll, List.foldl_cons, ← insertAll, ih, Store.mem_insertNew, or_assoc,
        List.mem_cons]

theorem nodup_insertAll {α : Type} [DecidableEq α] {items news : List α} (h : items.Nodup) :
    (insertAll items news).Nodup := by
  induction news generalizing items with
  | nil => exact h
  | cons new rest ih => exact ih (Store.nodup_insertNew h new)

namespace Store

def listedKeys (names : List (Category × String)) : List (Category × String) :=
  (names.map fun entry => (entry.1, entry.1.normalize entry.2)).filter fun entry => entry.2 ≠ ""

@[simp]
theorem mem_listedKeys {names : List (Category × String)} {category : Category} {key : String} :
    (category, key) ∈ listedKeys names ↔
      key ≠ "" ∧ ∃ name, (category, name) ∈ names ∧ category.normalize name = key := by
  rw [listedKeys, List.mem_filter, List.mem_map, decide_eq_true_eq, and_comm]
  refine and_congr_right fun _ => ⟨?_, ?_⟩
  · rintro ⟨⟨other, name⟩, hname, heq⟩
    cases heq
    exact ⟨name, hname, rfl⟩
  · rintro ⟨name, hname, rfl⟩
    exact ⟨(category, name), hname, rfl⟩

def pairsOf (lists : List (Category × List String)) : List (Category × String) :=
  lists.flatMap fun entry => entry.2.map fun name => (entry.1, name)

@[simp] theorem mem_pairsOf {lists : List (Category × List String)} {category : Category}
    {name : String} :
    (category, name) ∈ pairsOf lists ↔ ∃ names, (category, names) ∈ lists ∧ name ∈ names := by
  simp only [pairsOf, List.mem_flatMap, List.mem_map, Prod.mk.injEq, Prod.exists]
  constructor
  · rintro ⟨_, names, hnames, _, hname, rfl, rfl⟩
    exact ⟨names, hnames, hname⟩
  · rintro ⟨names, hnames, hname⟩
    exact ⟨category, names, hnames, name, hname, rfl, rfl⟩

private theorem exists_log_record (store : Store) (entry : AuditEntry) :
    ∃ log, store.record entry = { store with log } := by
  unfold record
  split
  · exact ⟨_, rfl⟩
  · exact ⟨store.log, rfl⟩

private theorem exists_log_whitelist (store : Store) (entry : Category × String) :
    ∃ log, store.whitelist entry.1 entry.2 =
      { store with allowed := insertAll store.allowed (listedKeys [entry]), log } := by
  by_cases hempty : entry.1.normalize entry.2 = ""
  · exact ⟨store.log, by simp [whitelist, listedKeys, insertAll, hempty]⟩
  by_cases hold : (entry.1, entry.1.normalize entry.2) ∈ store.allowed
  · exact ⟨store.log, by simp [whitelist, listedKeys, insertAll, insertNew, hempty, hold]⟩
  obtain ⟨log, hlog⟩ := exists_log_record
    { store with allowed := store.allowed ++ [(entry.1, entry.1.normalize entry.2)] }
    (.whitelist entry.1.name (entry.1.normalize entry.2))
  exact ⟨log, by simp [whitelist, listedKeys, insertAll, insertNew, hempty, hold, hlog]⟩

private theorem insertAll_cons_keys (items : List (Category × String)) (entry : Category × String)
    (rest : List (Category × String)) :
    insertAll (insertAll items (listedKeys [entry])) (listedKeys rest) =
      insertAll items (listedKeys (entry :: rest)) := by
  have happend : listedKeys (entry :: rest) = listedKeys [entry] ++ listedKeys rest := by
    rw [listedKeys, ← List.singleton_append, List.map_append, List.filter_append]
    rfl
  rw [happend, insertAll, insertAll, insertAll, List.foldl_append]

private theorem exists_log_whitelistAll (lists : List (Category × List String)) (store : Store) :
    ∃ log, lists.foldl (fun store entry => store.whitelistAll entry.1 entry.2) store =
      { store with allowed := insertAll store.allowed (listedKeys (pairsOf lists)), log } := by
  have hpairs : ∀ store : Store,
      lists.foldl (fun store entry => store.whitelistAll entry.1 entry.2) store =
        (pairsOf lists).foldl (fun store entry => store.whitelist entry.1 entry.2) store := by
    intro store
    rw [pairsOf, List.foldl_flatMap]
    congr 1
    funext store entry
    rw [List.foldl_map, whitelistAll]
  rw [hpairs]
  generalize pairsOf lists = names
  induction names generalizing store with
  | nil => exact ⟨store.log, rfl⟩
  | cons entry rest ih =>
      obtain ⟨_, hentry⟩ := store.exists_log_whitelist entry
      obtain ⟨log, hrest⟩ := ih (store.whitelist entry.1 entry.2)
      refine ⟨log, ?_⟩
      rw [List.foldl_cons, hrest, hentry, ← insertAll_cons_keys store.allowed entry rest]

private theorem blacklist_eq (store : Store) (entry : Category × String) :
    store.blacklist entry.1 entry.2 =
      { store with denied := insertAll store.denied (listedKeys [entry]) } := by
  by_cases hempty : entry.1.normalize entry.2 = "" <;>
    simp [blacklist, listedKeys, insertAll, hempty]

private theorem blacklistAll_eq (lists : List (Category × List String)) (store : Store) :
    lists.foldl (fun store entry => store.blacklistAll entry.1 entry.2) store =
      { store with denied := insertAll store.denied (listedKeys (pairsOf lists)) } := by
  have hpairs : ∀ store : Store,
      lists.foldl (fun store entry => store.blacklistAll entry.1 entry.2) store =
        (pairsOf lists).foldl (fun store entry => store.blacklist entry.1 entry.2) store := by
    intro store
    rw [pairsOf, List.foldl_flatMap]
    congr 1
    funext store entry
    rw [List.foldl_map, blacklistAll]
  rw [hpairs]
  generalize pairsOf lists = names
  induction names generalizing store with
  | nil => rfl
  | cons entry rest ih =>
      rw [List.foldl_cons, ih, blacklist_eq, ← insertAll_cons_keys store.denied entry rest]

private theorem overrides_eq (names : List String) (store : Store) :
    names.foldl (·.override ·) store =
      { store with
        overrides := insertAll store.overrides (names.map Category.functions.normalize) } := by
  induction names generalizing store with
  | nil => rfl
  | cons name rest ih => exact ih (store.override name)

private theorem magicConsts_eq (names : List String) (store : Store) :
    names.foldl (·.defineMagicConst ·) store =
      { store with
        magicConsts :=
          insertAll store.magicConsts (names.map Category.magicConstants.normalize) } := by
  induction names generalizing store with
  | nil => rfl
  | cons name rest ih => exact ih (store.defineMagicConst name)

def classKeys (classes : Record String) : Record String :=
  classes.map fun entry => (Category.classes.normalize entry.1, Text.dropLeading '\\' entry.2)

private theorem classes_eq (classes : Record String) (store : Store) :
    classes.foldl (fun store entry => store.defineClass entry.1 entry.2) store =
      { store with
        classes := (classKeys classes).foldl
          (fun record entry => Record.set record entry.1 entry.2) store.classes } := by
  induction classes generalizing store with
  | nil => rfl
  | cons entry rest ih => exact ih (store.defineClass entry.1 entry.2)

def sameNamespace (a b : String) : Bool :=
  Category.namespaces.normalize a = Category.namespaces.normalize b

def firstSpellings (names : List String) : List String :=
  (names.eraseDupsBy sameNamespace).map (Text.dropLeading '\\')

private theorem isDefinedNamespace_eq {store : Store} {done : List String}
    (h : store.namespaces = done.reverse.map (Text.dropLeading '\\')) (name : String) :
    store.isDefinedNamespace name = done.any (sameNamespace name) := by
  have hname : ∀ other : String,
      decide (Category.namespaces.normalize (Text.dropLeading '\\' other) =
        Category.namespaces.normalize name) = sameNamespace name other := by
    intro other
    rw [Category.normalize_dropLeading, sameNamespace]
    exact decide_eq_decide.mpr eq_comm
  rw [isDefinedNamespace, h, List.any_map, List.any_reverse]
  simp only [Function.comp_def, hname]

private theorem exists_log_defineNamespace (store : Store) (name : String) :
    ∃ log, store.defineNamespace name =
      { store with
        namespaces := if store.isDefinedNamespace name then store.namespaces
          else store.namespaces ++ [Text.dropLeading '\\' name]
        log } := by
  unfold defineNamespace
  split
  · exact ⟨store.log, rfl⟩
  · exact exists_log_record
      { store with namespaces := store.namespaces ++ [Text.dropLeading '\\' name] }
      (.namespaceDecl name)

/-- The loop of `eraseDupsBy` keeps the names that are done, the last one first. -/
theorem exists_log_namespaces (names done : List String) (store : Store)
    (h : store.namespaces = done.reverse.map (Text.dropLeading '\\')) :
    ∃ log, names.foldl (·.defineNamespace ·) store =
      { store with
        namespaces :=
          (List.eraseDupsBy.loop sameNamespace names done).map (Text.dropLeading '\\')
        log } := by
  induction names generalizing done store with
  | nil => exact ⟨store.log, by rw [List.eraseDupsBy.loop, ← h, List.foldl_nil]⟩
  | cons name rest ih =>
      obtain ⟨mid, hmid⟩ := store.exists_log_defineNamespace name
      rw [isDefinedNamespace_eq h] at hmid
      rw [List.eraseDupsBy.loop, List.foldl_cons, hmid]
      cases hold : done.any (sameNamespace name) with
      | true =>
          obtain ⟨log, hrest⟩ := ih done { store with log := mid } h
          exact ⟨log, hrest⟩
      | false =>
          obtain ⟨log, hrest⟩ := ih (name :: done)
            { store with
              namespaces := store.namespaces ++ [Text.dropLeading '\\' name], log := mid }
            (by simp [h])
          exact ⟨log, hrest⟩

def setNew (aliases : Record (Option String)) (entry : String × Option String) :
    Record (Option String) :=
  if Record.has aliases (Category.aliases.normalize entry.1) then aliases
  else Record.set aliases (Category.aliases.normalize entry.1) entry.2

private theorem exists_log_aliases (entries : Record (Option String)) (store : Store) :
    ∃ log, entries.foldl (fun store entry => store.defineAlias entry.1 entry.2) store =
      { store with aliases := entries.foldl setNew store.aliases, log } := by
  induction entries generalizing store with
  | nil => exact ⟨store.log, rfl⟩
  | cons entry rest ih =>
      have hentry : ∃ log, store.defineAlias entry.1 entry.2 =
          { store with aliases := setNew store.aliases entry, log } := by
        simp only [defineAlias, setNew]
        split
        · exact ⟨store.log, rfl⟩
        · exact exists_log_record
            { store with
              aliases :=
                Record.set store.aliases (Category.aliases.normalize entry.1) entry.2 }
            (.aliasName (Category.aliases.normalize entry.1) entry.2)
      obtain ⟨mid, hmid⟩ := hentry
      obtain ⟨log, hrest⟩ := ih { store with aliases := setNew store.aliases entry, log := mid }
      exact ⟨log, by rw [List.foldl_cons, hmid, hrest, List.foldl_cons]⟩

theorem get?_foldl_setNew (entries aliases : Record (Option String)) (name : String) :
    Record.get? (entries.foldl setNew aliases) (Category.aliases.normalize name) =
      (Record.get? aliases (Category.aliases.normalize name)).or
        ((entries.find? fun entry =>
          Category.aliases.normalize entry.1 = Category.aliases.normalize name).map Prod.snd) := by
  induction entries generalizing aliases with
  | nil => simp
  | cons entry rest ih =>
      rw [List.foldl_cons, ih, List.find?_cons]
      by_cases hsame : Category.aliases.normalize entry.1 = Category.aliases.normalize name
      · rw [setNew, hsame, decide_eq_true rfl]
        by_cases hold : Record.has aliases (Category.aliases.normalize name)
        · obtain ⟨value, hvalue⟩ := Option.isSome_iff_exists.mp hold
          rw [if_pos hold, hvalue]
          rfl
        · rw [if_neg hold, Record.get?_set_self]
          rw [Record.has, Option.not_isSome_iff_eq_none] at hold
          rw [hold]
          rfl
      · rw [decide_eq_false hsame, setNew]
        split
        · rfl
        · rw [Record.get?_set_ne _ _ (Ne.symm hsame)]

private theorem exists_log_defineAll (definitions : Definitions) (store : Store)
    (h : store.namespaces = []) :
    ∃ log, store.defineAll definitions =
      { store with
        log
        overrides :=
          insertAll store.overrides (definitions.functions.map Category.functions.normalize)
        magicConsts :=
          insertAll store.magicConsts
            (definitions.magicConsts.map Category.magicConstants.normalize)
        classes :=
          (classKeys definitions.classes).foldl
            (fun record entry => Record.set record entry.1 entry.2) store.classes
        namespaces := firstSpellings definitions.namespaces
        aliases := definitions.aliases.foldl setNew store.aliases } := by
  let tables : Store :=
    definitions.classes.foldl (fun store entry => store.defineClass entry.1 entry.2)
      (definitions.magicConsts.foldl (·.defineMagicConst ·)
        (definitions.functions.foldl (·.override ·) store))
  have htables : tables = { store with
      overrides :=
        insertAll store.overrides (definitions.functions.map Category.functions.normalize)
      magicConsts :=
        insertAll store.magicConsts
          (definitions.magicConsts.map Category.magicConstants.normalize)
      classes :=
        (classKeys definitions.classes).foldl
          (fun record entry => Record.set record entry.1 entry.2) store.classes } := by
    simp only [tables, overrides_eq, magicConsts_eq, classes_eq]
  have hempty : tables.namespaces = [] := by rw [htables, h]
  obtain ⟨mid, hnamespaces⟩ :=
    exists_log_namespaces definitions.namespaces [] tables hempty
  obtain ⟨log, haliases⟩ := exists_log_aliases definitions.aliases
    (definitions.namespaces.foldl (·.defineNamespace ·) tables)
  refine ⟨log, ?_⟩
  change definitions.aliases.foldl (fun store entry => store.defineAlias entry.1 entry.2)
    (definitions.namespaces.foldl (·.defineNamespace ·) tables) = _
  rw [haliases, hnamespaces, htables]
  rfl

theorem ofConfig_eq (config : Config) (audited : Bool) :
    ∃ log, ofConfig config audited =
      { empty config.options audited with
        log
        allowed := insertAll [] (listedKeys (pairsOf config.whitelist))
        denied := insertAll [] (listedKeys (pairsOf config.blacklist))
        overrides :=
          insertAll [] (config.definitions.functions.map Category.functions.normalize)
        magicConsts :=
          insertAll [] (config.definitions.magicConsts.map Category.magicConstants.normalize)
        classes := Record.ofEntries (classKeys config.definitions.classes)
        namespaces := firstSpellings config.definitions.namespaces
        aliases := config.definitions.aliases.foldl setNew [] } := by
  obtain ⟨mid, hallowed⟩ := exists_log_whitelistAll config.whitelist
    (empty config.options audited)
  let lists : Store :=
    { empty config.options audited with
      log := mid
      allowed := insertAll [] (listedKeys (pairsOf config.whitelist))
      denied := insertAll [] (listedKeys (pairsOf config.blacklist)) }
  obtain ⟨log, hdefined⟩ := exists_log_defineAll config.definitions lists rfl
  refine ⟨log, ?_⟩
  rw [ofConfig, hallowed, blacklistAll_eq]
  exact hdefined

end Store

end ScriptSandbox
