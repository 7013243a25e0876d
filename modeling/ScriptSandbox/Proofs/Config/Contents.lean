import ScriptSandbox.Proofs.Config.Grammar
import ScriptSandbox.Proofs.Config.Tables
import ScriptSandbox.Proofs.Json.Reordered

/-!
# What a configuration puts into a store

What an accepted configuration lists and defines, read off the value itself, and the store
that is made of it.  Names are compared in their normal spelling only.
-/

namespace ScriptSandbox

open Config.Form (fieldsOf)

namespace Config

def entriesAt (value : Json) (path : List String) : Record Json :=
  fieldsOf ((value.at? path).getD .null)

def namesAt (value : Json) (path : List String) : List String :=
  textsOf ((value.at? path).getD .null)

def IsListed (value : Json) (sectionName : String) (category : Category) (name : String) : Prop :=
  ∃ entry ∈ entriesAt value [sectionName], entry.1 = category.name ∧ name ∈ textsOf entry.2

end Config

open Config (entriesAt namesAt IsListed)

abbrev Category.Same (category : Category) (a b : String) : Prop :=
  category.normalize a = category.normalize b

/-- The store permits and defines what the value says, under every spelling of a name. -/
structure Store.Follows (store : Store) (value : Json) : Prop where
  /-- No list is for an unknown category. -/
  categories : ∀ sectionName ∈ ["whitelist", "blacklist"],
    ∀ entry ∈ entriesAt value [sectionName], ∃ category, Category.ofName? entry.1 = some category
  whitelisted : ∀ category name, store.isWhitelisted category name = true ↔
    category.normalize name ≠ "" ∧
      ∃ listed, IsListed value "whitelist" category listed ∧ category.Same listed name
  blacklisted : ∀ category name, store.isBlacklisted category name = true ↔
    category.normalize name ≠ "" ∧
      ∃ listed, IsListed value "blacklist" category listed ∧ category.Same listed name
  overridden : ∀ name, store.isOverridden name = true ↔
    ∃ listed ∈ namesAt value ["definitions", "functions"], Category.functions.Same listed name
  magicConst : ∀ name, store.isDefinedMagicConst name = true ↔
    ∃ listed ∈ namesAt value ["definitions", "magic_constants"],
      Category.magicConstants.Same listed name
  /-- The last entry counts. -/
  substitute : ∀ name, store.substitute? name =
    ((entriesAt value ["definitions", "classes"]).reverse.find? fun entry =>
      Category.classes.Same entry.1 name).bind fun entry =>
        entry.2.text?.map (Text.dropLeading '\\')
  /-- The first entry counts. -/
  aliased : ∀ name, store.isDefinedAlias name =
    (entriesAt value ["definitions", "aliases"]).any fun entry =>
      Category.aliases.Same entry.1 name
  aliasOf : ∀ name, store.aliasOf? name =
    ((entriesAt value ["definitions", "aliases"]).find? fun entry =>
      Category.aliases.Same entry.1 name).bind fun entry => entry.2.text?
  namespaces : store.namespaces =
    ((namesAt value ["definitions", "namespaces"]).eraseDupsBy fun a b =>
      Category.namespaces.Same a b).map (Text.dropLeading '\\')

namespace Config

@[simp] theorem at?_singleton (value : Json) (name : String) :
    value.at? [name] = Record.get? (fieldsOf value) name := by
  cases value with
  | obj fields => simp [Json.at?, fieldsOf]
  | _ => rfl

@[simp] theorem section?_eq (value : Json) (name : String) :
    Config.section? value name = entriesAt value [name] := by
  simp [section?, entriesAt]

@[simp] theorem at?_pair (value : Json) (first second : String) :
    value.at? [first, second] = Record.get? (entriesAt value [first]) second := by
  have hcons : value.at? [first, second] =
      (value.at? [first]).bind fun entry => entry.at? [second] := by
    cases value with
    | obj fields => simp [Json.at?]
    | _ => rfl
  rw [hcons, entriesAt]
  cases value.at? [first] with
  | none => rfl
  | some entry => exact at?_singleton entry second

private theorem readDefinitions_eq (value : Json) :
    readDefinitions (entriesAt value ["definitions"]) =
      { functions := namesAt value ["definitions", "functions"]
        magicConsts := namesAt value ["definitions", "magic_constants"]
        classes := readClasses (entriesAt value ["definitions", "classes"])
        namespaces := namesAt value ["definitions", "namespaces"]
        aliases := readAliases (entriesAt value ["definitions", "aliases"]) } := by
  have hnames : ∀ found : Option Json, (found.map textsOf).getD [] = textsOf (found.getD .null) := by
    rintro (_ | _) <;> rfl
  have hentries : ∀ found : Option Json,
      (found.map fieldsOf).getD [] = fieldsOf (found.getD .null) := by
    rintro (_ | _) <;> rfl
  have hpair : ∀ name, entriesAt value ["definitions", name] =
      fieldsOf ((Record.get? (entriesAt value ["definitions"]) name).getD .null) := by
    intro name
    simp [entriesAt]
  simp [readDefinitions, namesAt, hnames, hentries, hpair]

@[simp] theorem ofName?_eq_some_iff {name : String} {category : Category} :
    Category.ofName? name = some category ↔ category.name = name := by
  constructor
  · intro h
    rw [Category.ofName?] at h
    simpa using List.find?_some h
  · rintro rfl
    exact Category.ofName?_name category

private theorem mem_pairsOf_readLists {fields : Record Json} {category : Category} {name : String} :
    (category, name) ∈ Store.pairsOf (readLists fields) ↔
      ∃ entry ∈ fields, entry.1 = category.name ∧ name ∈ textsOf entry.2 := by
  simp only [Store.mem_pairsOf, readLists, List.mem_filterMap, Option.map_eq_some_iff,
    ofName?_eq_some_iff, Prod.mk.injEq]
  constructor
  · rintro ⟨_, ⟨entry, hentry, _, hcategory, rfl, rfl⟩, hname⟩
    exact ⟨entry, hentry, hcategory.symm, hname⟩
  · rintro ⟨entry, hentry, hcategory, hname⟩
    exact ⟨_, ⟨entry, hentry, category, hcategory.symm, rfl, rfl⟩, hname⟩

private theorem readAliases_eq (fields : Record Json) :
    readAliases fields = fields.map fun entry => (entry.1, entry.2.text?) := by
  refine List.map_congr_left fun entry _ => ?_
  obtain ⟨name, value⟩ := entry
  cases value with
  | scalar scalar => cases scalar <;> rfl
  | _ => rfl

theorem IsRecord.part {parts : List (String × (Json → Prop))} {value entry : Json}
    {part : Json → Prop} (h : IsRecord parts value) (name : String)
    (hpart : (name, part) ∈ parts) (hentry : value.at? [name] = some entry) : part entry := by
  obtain ⟨fields, rfl, _, hparts⟩ := h
  rw [at?_singleton] at hentry
  exact hparts (name, part) hpart entry hentry

private theorem forall_mem_entriesAt {value : Json} {path : List String} {key : String → Prop}
    {item : Json → Prop} (h : ∀ entry, value.at? path = some entry → IsMap key item entry) :
    ∀ entry ∈ entriesAt value path, key entry.1 ∧ item entry.2 := by
  rw [entriesAt]
  cases hat : value.at? path with
  | none => exact fun _ hentry => by cases hentry
  | some found =>
      obtain ⟨fields, rfl, hfields⟩ := h found hat
      exact hfields

theorem IsConfig.lists {value : Json} (h : IsConfig value) {sectionName : String}
    (hsection : sectionName ∈ ["whitelist", "blacklist"]) :
    ∀ entry ∈ entriesAt value [sectionName], IsCategoryName entry.1 ∧ IsNameList entry.2 := by
  refine forall_mem_entriesAt fun entry hentry => h.part sectionName ?_ hentry
  simp only [List.mem_cons, List.not_mem_nil, or_false] at hsection
  rcases hsection with rfl | rfl <;> simp [IsNameLists]

theorem IsConfig.classes {value : Json} (h : IsConfig value) :
    ∀ entry ∈ entriesAt value ["definitions", "classes"], IsName entry.2 := by
  have hclasses : ∀ entry, value.at? ["definitions", "classes"] = some entry →
      IsClasses entry := by
    intro entry hentry
    rw [at?_pair, entriesAt] at hentry
    cases hat : value.at? ["definitions"] with
    | none => rw [hat] at hentry; cases hentry
    | some found =>
        have hfound : IsDefinitions found := h.part "definitions" (by simp) hat
        rw [hat, Option.getD_some, ← at?_singleton] at hentry
        exact hfound.part "classes" (by simp) hentry
  exact fun entry hentry => (forall_mem_entriesAt hclasses entry hentry).2

private theorem get?_eq_find? {α : Type} (record : Record α) (name : String) :
    Record.get? record name = (record.find? fun entry => entry.1 = name).map Prod.snd := by
  induction record with
  | nil => rfl
  | cons entry rest ih =>
      rw [Record.get?, List.find?_cons]
      by_cases h : entry.1 = name <;> simp [h, ih]

private theorem find?_classKeys {fields : Record Json} (h : ∀ entry ∈ fields, IsName entry.2)
    (name : String) :
    ((Store.classKeys (readClasses fields)).find? fun entry =>
        entry.1 = Category.classes.normalize name).map Prod.snd =
      (fields.find? fun entry => Category.classes.Same entry.1 name).bind fun entry =>
        entry.2.text?.map (Text.dropLeading '\\') := by
  induction fields with
  | nil => rfl
  | cons entry rest ih =>
      obtain ⟨⟨substitute, hvalue, _⟩, hrest⟩ := List.forall_mem_cons.mp h
      obtain ⟨key, value⟩ := entry
      subst hvalue
      have hcons : Store.classKeys (readClasses ((key, .str substitute) :: rest)) =
          (Category.classes.normalize key, Text.dropLeading '\\' substitute) ::
            Store.classKeys (readClasses rest) := rfl
      rw [hcons, List.find?_cons, List.find?_cons]
      by_cases hsame : Category.classes.Same key name
      · rw [decide_eq_true hsame]
        rfl
      · rw [decide_eq_false hsame]
        exact ih hrest

private theorem classKeys_reverse (fields : Record Json) :
    (Store.classKeys (readClasses fields)).reverse =
      Store.classKeys (readClasses fields.reverse) := by
  rw [Store.classKeys, Store.classKeys, readClasses, readClasses, List.filterMap_reverse,
    List.map_reverse]

end Config

namespace Store

open Config (isConfig_iff)

variable {value : Json} {config : Config}

theorem mem_listed_iff {sectionName : String} {category : Category} {key : String} :
    (category, key) ∈ insertAll []
        (listedKeys (pairsOf (Config.readLists (entriesAt value [sectionName])))) ↔
      key ≠ "" ∧ ∃ listed, IsListed value sectionName category listed ∧
        category.normalize listed = key := by
  rw [mem_insertAll, mem_listedKeys]
  simp only [List.not_mem_nil, false_or, Config.mem_pairsOf_readLists]
  exact Iff.rfl

theorem mem_defined_iff {category : Category} {names : List String} {key : String} :
    key ∈ insertAll [] (names.map category.normalize) ↔
      ∃ listed ∈ names, category.normalize listed = key := by
  rw [mem_insertAll, List.mem_map]
  simp

private theorem get?_aliases (fields : Record Json) (name : String) :
    Record.get? ((Config.readAliases fields).foldl setNew []) (Category.aliases.normalize name) =
      (fields.find? fun entry => Category.aliases.Same entry.1 name).map fun entry =>
        entry.2.text? := by
  rw [get?_foldl_setNew, Config.readAliases_eq, List.find?_map, Option.map_map]
  simp only [Function.comp_def, Record.get?, Option.none_or]

theorem ofConfig_read_eq (value : Json) (audited : Bool) :
    ∃ log, ofConfig (Config.read value) audited =
      { empty (Config.read value).options audited with
        log
        allowed :=
          insertAll [] (listedKeys (pairsOf (Config.readLists (entriesAt value ["whitelist"]))))
        denied :=
          insertAll [] (listedKeys (pairsOf (Config.readLists (entriesAt value ["blacklist"]))))
        overrides :=
          insertAll []
            ((namesAt value ["definitions", "functions"]).map Category.functions.normalize)
        magicConsts :=
          insertAll []
            ((namesAt value ["definitions", "magic_constants"]).map
              Category.magicConstants.normalize)
        classes :=
          Record.ofEntries
            (classKeys (Config.readClasses (entriesAt value ["definitions", "classes"])))
        namespaces := firstSpellings (namesAt value ["definitions", "namespaces"])
        aliases :=
          (Config.readAliases (entriesAt value ["definitions", "aliases"])).foldl setNew [] } := by
  obtain ⟨log, hstore⟩ := ofConfig_eq (Config.read value) audited
  refine ⟨log, ?_⟩
  rw [hstore]
  simp [Config.read, Config.readDefinitions_eq]

theorem config_eq_of_ofJson (h : Config.ofJson value = .ok config) :
    Config.IsConfig value ∧ config = Config.read value := by
  rw [Config.ofJson] at h
  split at h
  case h_1 herrors => exact ⟨isConfig_iff.mp herrors, (Except.ok.inj h).symm⟩
  case h_2 => cases h

theorem follows_of_isConfig (h : Config.IsConfig value) (audited : Bool) :
    (ofConfig (Config.read value) audited).Follows value := by
  obtain ⟨log, hstore⟩ := ofConfig_read_eq value audited
  rw [hstore]
  constructor
  case categories =>
    intro sectionName hsection entry hentry
    obtain ⟨category, hcategory⟩ := (h.lists hsection entry hentry).1
    exact ⟨category, Config.ofName?_eq_some_iff.mpr hcategory⟩
  case whitelisted =>
    intro category name
    rw [isWhitelisted, decide_eq_true_eq]
    exact mem_listed_iff
  case blacklisted =>
    intro category name
    rw [isBlacklisted, decide_eq_true_eq]
    exact mem_listed_iff
  case overridden =>
    intro name
    rw [isOverridden, decide_eq_true_eq]
    exact mem_defined_iff
  case magicConst =>
    intro name
    rw [isDefinedMagicConst, decide_eq_true_eq]
    exact mem_defined_iff
  case substitute =>
    intro name
    rw [substitute?, Record.get?_ofEntries, Config.classKeys_reverse, Config.get?_eq_find?]
    exact Config.find?_classKeys
      (fun entry hentry => h.classes entry (List.mem_reverse.mp hentry)) name
  case aliased =>
    intro name
    rw [isDefinedAlias, Record.has, get?_aliases, Option.isSome_map, List.isSome_find?]
  case aliasOf =>
    intro name
    rw [aliasOf?, get?_aliases]
    cases List.find? _ (entriesAt value ["definitions", "aliases"]) <;> rfl
  case namespaces => rfl

end Store

end ScriptSandbox
