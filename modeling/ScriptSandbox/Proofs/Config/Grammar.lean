import ScriptSandbox.Config.Basic
import ScriptSandbox.Proofs.Config.Places

/-!
# The grammar of configurations

What a configuration is, said without the order in which its faults are looked for: an
object of four known entries, each with a form of its own.  A value has no errors exactly
when it is one.
-/

namespace ScriptSandbox.Config

def IsHandle (text : String) : Prop :=
  ∃ first rest, text.toList = first :: rest ∧ (first.isAlpha ∨ first = '_') ∧
    ∀ c ∈ rest, c.isAlphanum ∨ c = '_'

def IsFlagName (name : String) : Prop := ∃ flag : Flag, flag.name = name

def IsCategoryName (name : String) : Prop := ∃ category : Category, category.name = name

def IsText (value : Json) : Prop := ∃ text, value = .str text

def IsTruthValue (value : Json) : Prop := ∃ b, value = .bool b

def IsName (value : Json) : Prop := ∃ name, value = .str name ∧ name ≠ ""

def IsNameList (value : Json) : Prop :=
  ∃ names : List String, value = .arr (names.map .str) ∧ "" ∉ names ∧ names.Nodup

def IsMap (key : String → Prop) (item : Json → Prop) (value : Json) : Prop :=
  ∃ fields, value = .obj fields ∧ ∀ entry ∈ fields, key entry.1 ∧ item entry.2

def IsRecord (parts : List (String × (Json → Prop))) (value : Json) : Prop :=
  ∃ fields, value = .obj fields ∧ (∀ name ∈ Record.names fields, name ∈ Record.names parts) ∧
    ∀ part ∈ parts, ∀ entry, Record.get? fields part.1 = some entry → part.2 entry

def IsOptions (value : Json) : Prop :=
  ∃ fields, value = .obj fields ∧
    (∀ entry, Record.get? fields "name" = some entry →
      ∃ text, entry = .str text ∧ IsHandle text) ∧
    ∀ entry ∈ fields, entry.1 = "name" ∨ IsFlagName entry.1 ∧ IsTruthValue entry.2

def IsNameLists : Json → Prop := IsMap IsCategoryName IsNameList

def IsClasses : Json → Prop := IsMap (fun _ => True) IsName

def IsAliases : Json → Prop := IsMap (fun _ => True) fun value => IsText value ∨ value = .null

def IsDefinitions : Json → Prop :=
  IsRecord [("functions", IsNameList), ("magic_constants", IsNameList),
    ("namespaces", IsNameList), ("classes", IsClasses), ("aliases", IsAliases)]

def IsConfig : Json → Prop :=
  IsRecord [("options", IsOptions), ("whitelist", IsNameLists), ("blacklist", IsNameLists),
    ("definitions", IsDefinitions)]

@[simp] theorem isLetter_eq (c : Char) : Pattern.isLetter c = c.isAlpha := by
  simp only [Pattern.isLetter, Pattern.isSmall, Char.le_def]
  delta Char.isAlpha Char.isUpper Char.isLower
  grind

@[simp] theorem isDigit_eq (c : Char) : Pattern.isDigit c = c.isDigit := by
  simp only [Pattern.isDigit, Char.isDigit, Char.le_def]

@[simp] theorem isHandle_iff {text : String} :
    Pattern.isHandle text.toList = true ↔ IsHandle text := by
  unfold IsHandle
  cases text.toList with
  | nil => simp [Pattern.isHandle]
  | cons first rest =>
      have hrest : (rest.all fun c => Pattern.isLetter c || Pattern.isDigit c || c = '_') = true ↔
          ∀ c ∈ rest, c.isAlphanum ∨ c = '_' := by
        simp [Char.isAlphanum]
      rw [Pattern.isHandle, Bool.and_eq_true, hrest, isLetter_eq, Bool.or_eq_true,
        decide_eq_true_eq]
      refine ⟨fun h => ⟨first, rest, rfl, h⟩, ?_⟩
      rintro ⟨_, _, heq, h⟩
      cases heq
      exact h

/-- A name that fits as a whole does not end in a line feed. -/
@[simp] theorem withoutLineFeed_of_isHandle {text : List Char} (h : Pattern.isHandle text = true) :
    Pattern.withoutLineFeed text = text := by
  cases text with
  | nil => rfl
  | cons first rest =>
      have hall : ∀ c ∈ first :: rest,
          Pattern.isLetter c || Pattern.isDigit c || c = '_' := by
        obtain ⟨hfirst, hrest⟩ := Bool.and_eq_true_iff.mp h
        refine List.forall_mem_cons.mpr ⟨?_, List.all_eq_true.mp hrest⟩
        rcases Bool.or_eq_true_iff.mp hfirst with hfirst | hfirst
        · rw [hfirst, Bool.true_or, Bool.true_or]
        · rw [hfirst, Bool.or_true]
      rw [Pattern.withoutLineFeed, if_neg]
      intro hlast
      exact absurd (hall '\n' (List.mem_of_getLast? hlast)) (by decide)

@[simp] theorem mem_allFlags (flag : Flag) : flag ∈ Flag.all := by
  rcases flag with feature | interception | definable
  · cases feature <;> decide
  · cases interception <;> decide
  · cases definable <;> decide

@[simp] theorem isKnownOption_iff {name : String} :
    isKnownOption name = true ↔ name = "name" ∨ IsFlagName name := by
  have hflag : (Flag.ofName? name).isSome = true ↔ IsFlagName name := by
    simp [Flag.ofName?, IsFlagName]
  rw [isKnownOption, Bool.or_eq_true, decide_eq_true_eq, hflag]

/-- The looser pattern by which the form knows a flag admits every flag there is. -/
@[simp] theorem fitsFlag_of_isFlagName {name : String} (h : IsFlagName name) :
    Pattern.fitsFlag name = true := by
  obtain ⟨flag, rfl⟩ := h
  have hall : Flag.all.all fun flag => Pattern.fitsFlag flag.name := by decide
  exact List.all_eq_true.mp hall flag (mem_allFlags flag)

@[simp] theorem isCategory_iff {name : String} :
    Form.isCategory name = true ↔ IsCategoryName name := by
  simp [Form.isCategory, Category.ofName?, IsCategoryName, Category.mem_all]

@[simp] theorem allOrdered_map_str (names : List String) :
    Json.allOrdered (names.map .str) = true := by
  induction names with
  | nil => rfl
  | cons name rest ih =>
      rw [List.map_cons, Json.allOrdered, ih, Bool.and_true, List.all_map, List.all_eq_true]
      exact fun _ _ => rfl

@[simp] theorem compare_ne_gt_iff (a b : String) : compare a b ≠ .gt ↔ a ≤ b := by
  rw [Std.le_iff_lt_or_eq]
  change compareOfLessAndEq a b ≠ .gt ↔ _
  rw [compareOfLessAndEq]
  split
  case isTrue hlt => simp [hlt]
  case isFalse hlt => split <;> simp_all

private theorem sortItems_map_str (names : List String) :
    Json.sortItems (names.map .str) = (names.mergeSort fun a b => a ≤ b).map .str := by
  refine (List.map_mergeSort fun a _ b _ => ?_).symm
  rw [decide_eq_decide, ← compare_ne_gt_iff]
  simp [Json.itemOrder?, Json.compare?, Scalar.compare?]

private theorem equalNeighbours_map_str_iff {names : List String}
    (hsorted : names.Pairwise (· ≤ ·)) :
    Json.equalNeighbours (names.map .str) = false ↔ names.Nodup := by
  induction names with
  | nil => simp [Json.equalNeighbours]
  | cons name rest ih =>
      cases rest with
      | nil => simp [Json.equalNeighbours]
      | cons next rest =>
          obtain ⟨hname, hrest⟩ := List.pairwise_cons.mp hsorted
          have hnext : ∀ other ∈ rest, next ≤ other := (List.pairwise_cons.mp hrest).1
          have hpair : Json.eqStrict (.str name) (.str next) = decide (name = next) := by
            simp [Json.eqStrict, Json.eqBy, Scalar.eqStrict]
          -- a name below the next one is below all that follow
          have hfresh : name ≠ next → name ∉ next :: rest := by
            intro hne hmem
            rcases List.mem_cons.mp hmem with heq | hmem
            · exact hne heq
            · exact hne (Std.le_antisymm (hname next List.mem_cons_self) (hnext name hmem))
          rw [List.map_cons, List.map_cons, Json.equalNeighbours, Bool.or_eq_false_iff, hpair,
            List.nodup_cons, ← List.map_cons, ih hrest, decide_eq_false_iff_not]
          exact and_congr_left fun _ =>
            ⟨hfresh, fun hmem heq => hmem (heq ▸ List.mem_cons_self)⟩

@[simp] theorem hasRepetition_map_str_iff (names : List String) :
    Json.hasRepetition (names.map .str) = false ↔ names.Nodup := by
  have hsorted : (names.mergeSort fun a b => a ≤ b).Pairwise (· ≤ ·) := by
    refine (List.pairwise_mergeSort (fun a b c hab hbc => ?_) (fun a b => ?_) names).imp
      of_decide_eq_true
    · exact decide_eq_true (Std.le_trans (of_decide_eq_true hab) (of_decide_eq_true hbc))
    · simpa using Std.le_total (a := a) (b := b)
  rw [Json.hasRepetition, if_pos (allOrdered_map_str names), sortItems_map_str,
    equalNeighbours_map_str_iff hsorted, (List.mergeSort_perm names _).nodup_iff]

namespace Form

@[simp] theorem at?_eq_nil_iff {place : Place} {fault : Fault} {found : Bool} :
    at? place fault found = [] ↔ found = false := by
  cases found <;> simp [at?]

private theorem typeFindings_eq_nil_iff {types : List JsonType} {value : Json} :
    typeFindings types value = [] ↔ ∃ type ∈ types, type.holds value = true := by
  simp [typeFindings, at?_eq_nil_iff]

@[simp] theorem object_iff {value : Json} :
    typeFindings [.object] value = [] ↔ ∃ fields, value = .obj fields := by
  rw [typeFindings_eq_nil_iff]
  cases value <;> simp [JsonType.holds]

@[simp] theorem array_iff {value : Json} :
    typeFindings [.array] value = [] ↔ ∃ items, value = .arr items := by
  rw [typeFindings_eq_nil_iff]
  cases value <;> simp [JsonType.holds]

@[simp] theorem text_iff {value : Json} : typeFindings [.string] value = [] ↔ IsText value := by
  rw [typeFindings_eq_nil_iff]
  unfold IsText
  cases value with
  | scalar scalar => cases scalar <;> simp [JsonType.holds]
  | _ => simp [JsonType.holds]

@[simp] theorem truthValue_iff {value : Json} :
    typeFindings [.boolean] value = [] ↔ IsTruthValue value := by
  rw [typeFindings_eq_nil_iff]
  unfold IsTruthValue
  cases value with
  | scalar scalar => cases scalar <;> simp [JsonType.holds]
  | _ => simp [JsonType.holds]

@[simp] theorem textOrNull_iff {value : Json} :
    typeFindings [.string, .null] value = [] ↔ IsText value ∨ value = .null := by
  rw [typeFindings_eq_nil_iff]
  unfold IsText
  cases value with
  | scalar scalar => cases scalar <;> simp [JsonType.holds]
  | _ => simp [JsonType.holds]

@[simp] theorem entryFindings_eq_nil_iff {findings : Json → List Finding} {name : String}
    {fields : Record Json} :
    entryFindings findings name fields = [] ↔
      ∀ entry, Record.get? fields name = some entry → findings entry = [] := by
  rw [entryFindings]
  cases Record.get? fields name <;> simp [findingsUnder]

@[simp]
theorem allEntryFindings_eq_nil_iff {findings : Json → List Finding} {fields : Record Json} :
    allEntryFindings findings fields = [] ↔ ∀ entry ∈ fields, findings entry.2 = [] := by
  simp [allEntryFindings, findingsUnder]

@[simp] theorem itemFindings_eq_nil_iff {findings : Json → List Finding} {position : Nat}
    {items : List Json} :
    itemFindings findings position items = [] ↔ ∀ item ∈ items, findings item = [] := by
  induction items generalizing position with
  | nil => simp [itemFindings]
  | cons item rest ih => simp [itemFindings, ih]

@[simp] theorem unexpectedFindings_eq_nil_iff {known : List String} {fields : Record Json} :
    unexpectedFindings known fields = [] ↔ ∀ name ∈ Record.names fields, name ∈ known := by
  have hsorted : unexpectedNames known fields = [] ↔
      ((Record.names fields).filter fun name => name ∉ known) = [] := by
    rw [unexpectedNames, ← List.perm_nil, (List.mergeSort_perm _ _).congr_left, List.perm_nil]
  rw [unexpectedFindings, at?_eq_nil_iff, Bool.not_eq_false', List.isEmpty_iff, hsorted]
  simp

@[simp] theorem refusedNames_eq_nil_iff {fault : String → Fault} {refused : String → Bool}
    {fields : Record Json} :
    ((Record.names fields).flatMap fun name => at? [] (fault name) (refused name)) = [] ↔
      ∀ entry ∈ fields, refused entry.1 = false := by
  simp [Record.names, at?_eq_nil_iff]

@[simp]
theorem nonEmptyText_eq_nil_iff {value : Json} : nonEmptyText value = [] ↔ IsName value := by
  rw [nonEmptyText, List.append_eq_nil_iff, text_iff, at?_eq_nil_iff]
  constructor
  · rintro ⟨⟨text, rfl⟩, htext⟩
    exact ⟨text, rfl, by simpa [Json.eqStrict, Json.eqBy, Scalar.eqStrict] using htext⟩
  · rintro ⟨text, rfl, htext⟩
    exact ⟨⟨text, rfl⟩, by simpa [Json.eqStrict, Json.eqBy, Scalar.eqStrict] using htext⟩

theorem exists_names_iff {items : List Json} :
    (∀ item ∈ items, IsName item) ↔
      ∃ names : List String, items = names.map .str ∧ "" ∉ names := by
  constructor
  · intro h
    induction items with
    | nil => exact ⟨[], rfl, List.not_mem_nil⟩
    | cons item rest ih =>
        obtain ⟨⟨name, rfl, hname⟩, hrest⟩ := List.forall_mem_cons.mp h
        obtain ⟨names, rfl, hnames⟩ := ih hrest
        exact ⟨name :: names, rfl, by simp [Ne.symm hname, hnames]⟩
  · rintro ⟨names, rfl, hnames⟩ item hitem
    obtain ⟨name, hname, rfl⟩ := List.mem_map.mp hitem
    exact ⟨name, rfl, fun heq => hnames (heq ▸ hname)⟩

@[simp] theorem nameList_eq_nil_iff {value : Json} : nameList value = [] ↔ IsNameList value := by
  rw [nameList, List.append_eq_nil_iff, List.append_eq_nil_iff, array_iff,
    itemFindings_eq_nil_iff, at?_eq_nil_iff]
  simp only [nonEmptyText_eq_nil_iff, exists_names_iff]
  constructor
  · rintro ⟨⟨⟨items, rfl⟩, names, rfl, hnames⟩, hrepetition⟩
    exact ⟨names, rfl, hnames, (hasRepetition_map_str_iff names).mp hrepetition⟩
  · rintro ⟨names, rfl, hnames, hnodup⟩
    exact ⟨⟨⟨_, rfl⟩, names, rfl, hnames⟩, (hasRepetition_map_str_iff names).mpr hnodup⟩

private theorem isMap_iff {key : String → Prop} {item : Json → Prop} {value : Json} :
    IsMap key item value ↔ (∃ fields, value = .obj fields) ∧
      (∀ entry ∈ fieldsOf value, key entry.1) ∧ ∀ entry ∈ fieldsOf value, item entry.2 := by
  constructor
  · rintro ⟨fields, rfl, h⟩
    exact ⟨⟨fields, rfl⟩, fun entry hentry => (h entry hentry).1,
      fun entry hentry => (h entry hentry).2⟩
  · rintro ⟨⟨fields, rfl⟩, hkey, hitem⟩
    exact ⟨fields, rfl, fun entry hentry => ⟨hkey entry hentry, hitem entry hentry⟩⟩

@[simp] theorem nameLists_eq_nil_iff {value : Json} : nameLists value = [] ↔ IsNameLists value := by
  rw [nameLists, List.append_eq_nil_iff, List.append_eq_nil_iff, object_iff,
    refusedNames_eq_nil_iff, allEntryFindings_eq_nil_iff, IsNameLists, isMap_iff]
  simp only [Bool.not_eq_false', isCategory_iff, nameList_eq_nil_iff, and_assoc]

@[simp] theorem classes_eq_nil_iff {value : Json} : classes value = [] ↔ IsClasses value := by
  rw [classes, List.append_eq_nil_iff, object_iff, allEntryFindings_eq_nil_iff, IsClasses,
    isMap_iff]
  simp [nonEmptyText_eq_nil_iff]

@[simp] theorem aliases_eq_nil_iff {value : Json} : aliases value = [] ↔ IsAliases value := by
  rw [aliases, List.append_eq_nil_iff, object_iff, allEntryFindings_eq_nil_iff, IsAliases,
    isMap_iff]
  simp [textOrNull_iff]

private theorem isRecord_iff {parts : List (String × (Json → Prop))} {value : Json} :
    IsRecord parts value ↔ typeFindings [.object] value = [] ∧
      unexpectedFindings (Record.names parts) (fieldsOf value) = [] ∧
        ∀ part ∈ parts, ∀ entry, Record.get? (fieldsOf value) part.1 = some entry →
          part.2 entry := by
  rw [object_iff, unexpectedFindings_eq_nil_iff]
  constructor
  · rintro ⟨fields, rfl, hknown, hparts⟩
    exact ⟨⟨fields, rfl⟩, hknown, hparts⟩
  · rintro ⟨⟨fields, rfl⟩, hknown, hparts⟩
    exact ⟨fields, rfl, hknown, hparts⟩

@[simp] theorem definitions_eq_nil_iff {value : Json} :
    definitions value = [] ↔ IsDefinitions value := by
  rw [IsDefinitions, isRecord_iff]
  simp only [definitions, List.append_eq_nil_iff, entryFindings_eq_nil_iff,
    nameList_eq_nil_iff, classes_eq_nil_iff, aliases_eq_nil_iff, List.forall_mem_cons,
    List.not_mem_nil, false_implies, implies_true, and_true, and_assoc]
  rfl

private theorem findings_eq_nil_iff {value : Json} :
    findings value = [] ↔
      IsRecord [("options", fun entry => options entry = []), ("whitelist", IsNameLists),
        ("blacklist", IsNameLists), ("definitions", IsDefinitions)] value := by
  rw [isRecord_iff]
  simp only [findings, List.append_eq_nil_iff, entryFindings_eq_nil_iff,
    nameLists_eq_nil_iff, definitions_eq_nil_iff, List.forall_mem_cons, List.not_mem_nil,
    false_implies, implies_true, and_true, and_assoc]
  rfl

@[simp] theorem sortedFindings_eq_nil_iff {value : Json} :
    sortedFindings value = [] ↔ findings value = [] := by
  rw [sortedFindings, ← List.perm_nil, (List.mergeSort_perm _ _).congr_left, List.perm_nil]

@[simp] theorem handleName_eq_nil_iff {value : Json} :
    handleName value = [] ↔
      ∃ text, value = .str text ∧ Pattern.fitsHandle text = true := by
  unfold handleName
  rw [List.append_eq_nil_iff, text_iff]
  constructor
  · rintro ⟨⟨text, rfl⟩, hfits⟩
    exact ⟨text, rfl, by simpa [at?_eq_nil_iff] using hfits⟩
  · rintro ⟨text, rfl, hfits⟩
    exact ⟨⟨text, rfl⟩, by simpa [at?_eq_nil_iff] using hfits⟩

private theorem options_eq_nil_iff {value : Json} :
    options value = [] ↔ (∃ fields, value = .obj fields) ∧
      (∀ entry, Record.get? (fieldsOf value) "name" = some entry →
        ∃ text, entry = .str text ∧ Pattern.fitsHandle text = true) ∧
      (∀ entry ∈ fieldsOf value, isOptionName entry.1 = true) ∧
      ∀ entry ∈ fieldsOf value, Pattern.fitsFlag entry.1 = true → IsTruthValue entry.2 := by
  rw [options, List.append_eq_nil_iff, List.append_eq_nil_iff, List.append_eq_nil_iff,
    object_iff, entryFindings_eq_nil_iff, refusedNames_eq_nil_iff, allEntryFindings_eq_nil_iff]
  simp only [handleName_eq_nil_iff, Bool.not_eq_false', truthValue_iff, flags,
    List.mem_filter, and_imp, and_assoc]

end Form

open Form (fieldsOf)

private theorem optionFaults_eq_nil_iff {value entry : Json}
    (h : (Record.get? (fieldsOf value) "options").getD .null = entry) :
    optionFaults value = [] ↔
      (∀ text, Record.get? (fieldsOf entry) "name" = some (.str text) → IsHandle text) ∧
        ∀ option ∈ fieldsOf entry, option.1 = "name" ∨ IsFlagName option.1 := by
  rw [optionFaults, h, List.append_eq_nil_iff]
  refine and_congr ?_ (by simp [Record.names, isKnownOption_iff])
  split
  case h_1 text hfound => simp [hfound, ← isHandle_iff]
  case h_2 hfound => exact ⟨fun _ text htext => absurd htext (hfound text), fun _ => rfl⟩

private theorem isOptions_iff {value : Json} :
    IsOptions value ↔ Form.options value = [] ∧
      (∀ text, Record.get? (fieldsOf value) "name" = some (.str text) → IsHandle text) ∧
      ∀ option ∈ fieldsOf value, option.1 = "name" ∨ IsFlagName option.1 := by
  rw [Form.options_eq_nil_iff]
  constructor
  · rintro ⟨fields, rfl, hname, hoptions⟩
    refine ⟨⟨⟨fields, rfl⟩, fun entry hentry => ?_, fun option hoption => ?_,
      fun option hoption hflag => ?_⟩, fun text htext => ?_, fun option hoption => ?_⟩
    · obtain ⟨text, rfl, htext⟩ := hname entry hentry
      have hwhole : Pattern.isHandle text.toList = true := isHandle_iff.mpr htext
      exact ⟨text, rfl, by rwa [Pattern.fitsHandle, withoutLineFeed_of_isHandle hwhole]⟩
    · rcases hoptions option hoption with hhandle | ⟨hflag, _⟩
      · simp [Form.isOptionName, hhandle]
      · simp [Form.isOptionName, fitsFlag_of_isFlagName hflag]
    · rcases hoptions option hoption with hhandle | ⟨_, htruth⟩
      · rw [hhandle] at hflag
        exact absurd hflag (by decide)
      · exact htruth
    · obtain ⟨other, heq, hother⟩ := hname _ htext
      cases heq
      exact hother
    · exact (hoptions option hoption).imp_right And.left
  · rintro ⟨⟨⟨fields, rfl⟩, hfits, _, htruth⟩, hname, hknown⟩
    refine ⟨fields, rfl, fun entry hentry => ?_, fun option hoption => ?_⟩
    · obtain ⟨text, rfl, _⟩ := hfits entry hentry
      exact ⟨text, rfl, hname text hentry⟩
    · exact (hknown option hoption).imp_right fun hflag =>
        ⟨hflag, htruth option hoption (fitsFlag_of_isFlagName hflag)⟩

private theorem errors_eq_nil_iff {value : Json} :
    errors value = [] ↔ Form.findings value = [] ∧ optionFaults value = [] := by
  rw [← Form.sortedFindings_eq_nil_iff, errors]
  split
  case h_1 hsorted => simp [hsorted]
  case h_2 found hsorted =>
    simp only [List.map_eq_nil_iff]
    exact ⟨fun h => absurd h hsorted, fun h => absurd h.1 hsorted⟩

theorem isConfig_iff {value : Json} : errors value = [] ↔ IsConfig value := by
  rw [errors_eq_nil_iff, Form.findings_eq_nil_iff, optionFaults_eq_nil_iff rfl]
  constructor
  · rintro ⟨⟨fields, rfl, hnames, hparts⟩, hname, hknown⟩
    refine ⟨fields, rfl, hnames, ?_⟩
    simp only [List.forall_mem_cons] at hparts ⊢
    refine ⟨fun entry hentry => ?_, hparts.2⟩
    rw [fieldsOf, hentry] at hname hknown
    exact isOptions_iff.mpr ⟨hparts.1 entry hentry, hname, hknown⟩
  · rintro ⟨fields, rfl, hnames, hparts⟩
    have hoptions : ∀ entry, Record.get? fields "options" = some entry → IsOptions entry :=
      hparts _ List.mem_cons_self
    have hform : ∀ entry, Record.get? fields "options" = some entry → Form.options entry = [] :=
      fun entry hentry => (isOptions_iff.mp (hoptions entry hentry)).1
    refine ⟨⟨fields, rfl, hnames, ?_⟩, ?_⟩
    · simp only [List.forall_mem_cons] at hparts ⊢
      exact ⟨hform, hparts.2⟩
    · rw [fieldsOf]
      cases hentry : Record.get? fields "options" with
      | none => simp [fieldsOf, Record.get?]
      | some entry => exact (isOptions_iff.mp (hoptions entry hentry)).2

/--
A value is accepted exactly when it is a configuration.  Its faults can always be sorted:
every two have an order, the one by which they are sorted.
-/
theorem accepts_grammar (value : Json) :
    (errors value = [] ↔ IsConfig value) ∧
      ∀ a ∈ Form.findings value, ∀ b ∈ Form.findings value,
        lessPlace? a.place b.place = some (!placeLe b.place a.place) :=
  ⟨isConfig_iff, fun _ ha _ hb => Form.lessPlace?_of_mem_findings ha hb⟩

end ScriptSandbox.Config
