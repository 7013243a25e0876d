import ScriptSandbox.Proofs.Config.Contents

/-!
# Configurations up to order

Moving entries and items of a configuration about leaves it a configuration, and the lists
and override tables of its store hold the same names.
-/

namespace ScriptSandbox

open Config.Form (fieldsOf itemsOf)

namespace Json

variable {value other : Json}

theorem Reordered.fields (h : Reordered value other) :
    FieldsReordered (fieldsOf value) (fieldsOf other) := by
  cases h with
  | obj hfields => exact hfields
  | scalar => exact .nil
  | arr => exact .nil

theorem Reordered.items (h : Reordered value other) :
    ItemsReordered (itemsOf value) (itemsOf other) := by
  cases h with
  | arr hitems => exact hitems
  | scalar => exact .nil
  | obj => exact .nil

end Json

namespace Config

open Json (Reordered FieldsReordered)

@[simp]
theorem textsOf_eq (value : Json) : textsOf value = (itemsOf value).filterMap Json.text? := by
  refine List.filterMap_congr fun item _ => ?_
  cases item with
  | scalar scalar => cases scalar <;> rfl
  | _ => rfl

variable {value other : Json}

private theorem perm_textsOf (h : Reordered value other) : (textsOf value).Perm (textsOf other) :=
    by
  rw [textsOf_eq, textsOf_eq]
  exact h.items.perm_texts

private theorem reordered_getD {found otherFound : Option Json}
    (h : Option.Rel Reordered found otherFound) :
    Reordered (found.getD .null) (otherFound.getD .null) := by
  cases h with
  | some hsame => exact hsame
  | none => exact .scalar .null

private theorem entriesAt_reordered (h : Reordered value other) (hvalue : value.wellFormed = true)
    (path : List String) : FieldsReordered (entriesAt value path) (entriesAt other path) :=
  (reordered_getD (h.at? hvalue path)).fields

private theorem perm_namesAt (h : Reordered value other) (hvalue : value.wellFormed = true)
    (path : List String) : (namesAt value path).Perm (namesAt other path) :=
  perm_textsOf (reordered_getD (h.at? hvalue path))

private theorem isListed_iff (h : Reordered value other) (hvalue : value.wellFormed = true)
    {sectionName : String} {category : Category} {name : String} :
    IsListed value sectionName category name ↔ IsListed other sectionName category name := by
  have hentries := entriesAt_reordered h hvalue [sectionName]
  constructor
  · rintro ⟨entry, hentry, hcategory, hname⟩
    obtain ⟨moved, hmoved, hsame⟩ := hentries.exists_of_mem_left hentry
    exact ⟨(entry.1, moved), hmoved, hcategory, (perm_textsOf hsame).mem_iff.mp hname⟩
  · rintro ⟨entry, hentry, hcategory, hname⟩
    obtain ⟨source, hsource, hsame⟩ := hentries.exists_of_mem_right hentry
    exact ⟨(entry.1, source), hsource, hcategory, (perm_textsOf hsame).mem_iff.mpr hname⟩

private theorem IsText.reordered (hvalue : IsText value) (h : Reordered value other) :
    IsText other := by
  obtain ⟨text, rfl⟩ := hvalue
  cases h
  exact ⟨text, rfl⟩

private theorem IsTruthValue.reordered (hvalue : IsTruthValue value) (h : Reordered value other) :
    IsTruthValue other := by
  obtain ⟨b, rfl⟩ := hvalue
  cases h
  exact ⟨b, rfl⟩

private theorem IsName.reordered (hvalue : IsName value) (h : Reordered value other) :
    IsName other := by
  obtain ⟨name, rfl, hname⟩ := hvalue
  cases h
  exact ⟨name, rfl, hname⟩

private theorem IsNameList.reordered (hvalue : IsNameList value) (h : Reordered value other) :
    IsNameList other := by
  obtain ⟨names, rfl, hempty, hnodup⟩ := hvalue
  cases h with
  | @arr _ others hitems =>
      have htexts : ∀ names : List String, (names.map Json.str).filterMap Json.text? = names := by
        intro names
        rw [List.filterMap_map]
        exact List.filterMap_some
      have hothers : ∀ item ∈ others, IsName item := by
        intro item hitem
        obtain ⟨source, hsource, hsame⟩ := hitems.exists_of_mem hitem
        exact (Form.exists_names_iff.mpr ⟨names, rfl, hempty⟩ source hsource).reordered hsame
      obtain ⟨moved, rfl, hmoved⟩ := Form.exists_names_iff.mp hothers
      have hperm := hitems.perm_texts
      rw [htexts, htexts] at hperm
      exact ⟨moved, rfl, hmoved, hperm.nodup_iff.mp hnodup⟩

private theorem IsMap.reordered {key : String → Prop} {item : Json → Prop}
    (hitem : ∀ {value other : Json}, item value → Reordered value other → item other)
    (hvalue : IsMap key item value) (h : Reordered value other) : IsMap key item other := by
  obtain ⟨fields, rfl, hentries⟩ := hvalue
  cases h with
  | @obj _ others hfields =>
      refine ⟨others, rfl, fun entry hentry => ?_⟩
      obtain ⟨source, hsource, hsame⟩ := hfields.exists_of_mem_right hentry
      exact ⟨(hentries _ hsource).1, hitem (hentries _ hsource).2 hsame⟩

private theorem IsRecord.reordered {parts : List (String × (Json → Prop))}
    (hparts : ∀ part ∈ parts, ∀ value other : Json, value.wellFormed = true →
      part.2 value → Reordered value other → part.2 other)
    (hvalue : IsRecord parts value) (hformed : value.wellFormed = true)
    (h : Reordered value other) : IsRecord parts other := by
  obtain ⟨fields, rfl, hnames, hentries⟩ := hvalue
  have hnodup : (Record.names fields).Nodup := (Json.wellFormed_obj_iff.mp hformed).1
  cases h with
  | @obj _ others hfields =>
      refine ⟨others, rfl, fun name hname => ?_, fun part hpart entry hentry => ?_⟩
      · exact hnames name (hfields.perm_names.mem_iff.mpr hname)
      · obtain ⟨source, hsource, hsame⟩ := hfields.exists_of_get? hnodup hentry
        exact hparts part hpart source entry (Json.wellFormed_of_get? hformed hsource)
          (hentries part hpart source hsource) hsame

private theorem IsOptions.reordered (hvalue : IsOptions value) (hformed : value.wellFormed = true)
    (h : Reordered value other) : IsOptions other := by
  obtain ⟨fields, rfl, hname, hoptions⟩ := hvalue
  have hnodup : (Record.names fields).Nodup := (Json.wellFormed_obj_iff.mp hformed).1
  cases h with
  | @obj _ others hfields =>
      refine ⟨others, rfl, fun entry hentry => ?_, fun option hoption => ?_⟩
      · obtain ⟨source, hsource, hsame⟩ := hfields.exists_of_get? hnodup hentry
        obtain ⟨text, rfl, htext⟩ := hname source hsource
        cases hsame
        exact ⟨text, rfl, htext⟩
      · obtain ⟨source, hsource, hsame⟩ := hfields.exists_of_mem_right hoption
        exact (hoptions _ hsource).imp_right (And.imp_right (·.reordered hsame))

private theorem IsDefinitions.reordered (hvalue : IsDefinitions value)
    (hformed : value.wellFormed = true)
    (h : Reordered value other) : IsDefinitions other := by
  have hlist : ∀ value other : Json, value.wellFormed = true → IsNameList value →
      Reordered value other → IsNameList other := fun _ _ _ => IsNameList.reordered
  have hclasses : ∀ value other : Json, value.wellFormed = true → IsClasses value →
      Reordered value other → IsClasses other := fun _ _ _ => IsMap.reordered IsName.reordered
  have haliases : ∀ value other : Json, value.wellFormed = true → IsAliases value →
      Reordered value other → IsAliases other := by
    refine fun _ _ _ => IsMap.reordered fun hitem hsame => ?_
    rcases hitem with hitem | rfl
    · exact .inl (hitem.reordered hsame)
    · cases hsame
      exact .inr rfl
  refine IsRecord.reordered ?_ hvalue hformed h
  simp only [List.forall_mem_cons, List.not_mem_nil, false_implies, implies_true, and_true]
  exact ⟨hlist, hlist, hlist, hclasses, haliases⟩

private theorem IsConfig.reordered (hvalue : IsConfig value) (hformed : value.wellFormed = true)
    (h : Reordered value other) : IsConfig other := by
  have hlists : ∀ value other : Json, value.wellFormed = true → IsNameLists value →
      Reordered value other → IsNameLists other :=
    fun _ _ _ => IsMap.reordered IsNameList.reordered
  refine IsRecord.reordered ?_ hvalue hformed h
  simp only [List.forall_mem_cons, List.not_mem_nil, false_implies, implies_true, and_true]
  exact ⟨fun _ _ hformed hvalue => hvalue.reordered hformed, hlists, hlists,
    fun _ _ hformed hvalue => hvalue.reordered hformed⟩

end Config

namespace Store

/-- The stores list and override the same names. -/
structure SameLists (store other : Store) : Prop where
  allowed : store.allowed.Perm other.allowed
  denied : store.denied.Perm other.denied
  overrides : store.overrides.Perm other.overrides
  magicConsts : store.magicConsts.Perm other.magicConsts

variable {value other : Json} (h : Json.Reordered value other)
  (hformed : value.wellFormed = true)

include h hformed

private theorem perm_listed (sectionName : String) :
    (insertAll [] (listedKeys (pairsOf (Config.readLists
        (Config.entriesAt value [sectionName]))))).Perm
      (insertAll [] (listedKeys (pairsOf (Config.readLists
        (Config.entriesAt other [sectionName]))))) := by
  refine (List.perm_ext_iff_of_nodup (nodup_insertAll .nil) (nodup_insertAll .nil)).mpr ?_
  rintro ⟨category, key⟩
  simp only [mem_listed_iff, Config.isListed_iff h hformed]

private theorem perm_defined (category : Category) (path : List String) :
    (insertAll [] ((Config.namesAt value path).map category.normalize)).Perm
      (insertAll [] ((Config.namesAt other path).map category.normalize)) := by
  refine (List.perm_ext_iff_of_nodup (nodup_insertAll .nil) (nodup_insertAll .nil)).mpr ?_
  intro key
  simp only [mem_defined_iff, (Config.perm_namesAt h hformed path).mem_iff]

private theorem sameLists_of_reordered (audited : Bool) :
    (ofConfig (Config.read value) audited).SameLists (ofConfig (Config.read other) audited) := by
  obtain ⟨log, hstore⟩ := ofConfig_read_eq value audited
  obtain ⟨otherLog, hother⟩ := ofConfig_read_eq other audited
  rw [hstore, hother]
  exact
    { allowed := perm_listed h hformed "whitelist"
      denied := perm_listed h hformed "blacklist"
      overrides := perm_defined h hformed .functions ["definitions", "functions"]
      magicConsts := perm_defined h hformed .magicConstants ["definitions", "magic_constants"] }

omit h hformed

/--
The store of an accepted configuration permits and defines exactly what the configuration
says.  In another order the configuration is accepted too, and lists and overrides the same.
-/
theorem ofConfig_follows {value : Json} {config : Config} (h : Config.ofJson value = .ok config)
    (audited : Bool) :
    (ofConfig config audited).Follows value ∧
      ∀ other, value.wellFormed = true → value.Reordered other →
        ∃ otherConfig, Config.ofJson other = .ok otherConfig ∧
          (ofConfig config audited).SameLists (ofConfig otherConfig audited) := by
  obtain ⟨hconfig, rfl⟩ := config_eq_of_ofJson h
  refine ⟨follows_of_isConfig hconfig audited, fun other hformed hother => ?_⟩
  refine ⟨Config.read other, ?_, sameLists_of_reordered hother hformed audited⟩
  rw [Config.ofJson, Config.isConfig_iff.mpr (hconfig.reordered hformed hother)]

namespace Sample

def names : Json := .arr [.str "Exec", .str "exec"]

def movedNames : Json := .arr [.str "exec", .str "Exec"]

def classes : Json := .obj [("A", .str "\\B"), ("\\a", .str "C")]

def config : Json :=
  .obj [("blacklist", .obj [("functions", names)]), ("definitions", .obj [("classes", classes)])]

def movedConfig : Json :=
  .obj [("definitions", .obj [("classes", classes)]), ("blacklist", .obj [("functions", movedNames)])]

private theorem isNameList_names : Config.IsNameList names :=
    ⟨["Exec", "exec"], rfl, by decide, by decide⟩

private theorem isConfig_config : Config.IsConfig config := by
  have hlists : Config.IsNameLists (.obj [("functions", names)]) :=
    ⟨_, rfl, List.forall_mem_singleton.mpr ⟨⟨.functions, rfl⟩, isNameList_names⟩⟩
  have hclasses : Config.IsClasses classes := by
    refine ⟨_, rfl, ?_⟩
    simp [Config.IsName]
  have hdefinitions : Config.IsDefinitions (.obj [("classes", classes)]) := by
    refine ⟨_, rfl, by decide, ?_⟩
    simp [Record.get?, hclasses]
  refine ⟨_, rfl, by decide, ?_⟩
  simp [Record.get?, hlists, hdefinitions]

private theorem config_reordered : config.Reordered movedConfig := by
  have hsame : ∀ text : String, (Json.str text).Reordered (.str text) := fun text => .scalar _
  have hnames : names.Reordered movedNames :=
    .arr (@Json.ItemsReordered.cons _ _ _ [_] [] (hsame "Exec") (.single (hsame "exec")))
  have hclasses : classes.Reordered classes :=
    .obj (@Json.FieldsReordered.cons _ _ _ _ [] _ (hsame "\\B") (.single (hsame "C")))
  exact .obj (@Json.FieldsReordered.cons _ _ _ _ [_] [] (.obj (.single hnames))
    (.single (.obj (.single hclasses))))

private theorem ofJson_config : Config.ofJson config = .ok (Config.read config) := by
  rw [Config.ofJson, Config.isConfig_iff.mpr isConfig_config]

end Sample

theorem ofConfig_follows_of_spellings :
    Config.ofJson Sample.config = .ok (Config.read Sample.config) ∧
      (ofConfig (Config.read Sample.config) false).Follows Sample.config ∧
      ∃ otherConfig, Config.ofJson Sample.movedConfig = .ok otherConfig ∧
        (ofConfig (Config.read Sample.config) false).SameLists (ofConfig otherConfig false) :=
  have hfollows := ofConfig_follows Sample.ofJson_config false
  ⟨Sample.ofJson_config, hfollows.1, hfollows.2 _ (by decide) Sample.config_reordered⟩

end Store

end ScriptSandbox
