import Mathlib.Data.List.TakeWhile
import ScriptSandbox.Proofs.Policy.AuditFile

/-!
# Reading the fields of an entry back

A value that is empty or holds a blank stands between quotes, and a quote inside a value is
written as it is.  So a reader has to take a value that begins with a quote up to the next
quote, and any other value up to the next blank.  It finds the fields of an entry exactly
when every value that holds a quote neither begins with one nor holds a blank.  Entries of
such values tell their fields; another value may be read as a value and further fields.
-/

namespace ScriptSandbox

namespace AuditEntry

/-- A value on its line, between quotes where it needs them. -/
def shown (value : List Char) : List Char :=
  if value = [] ∨ ' ' ∈ value then '"' :: (value ++ ['"']) else value

/-- The value at the head of a text, and what comes after it. -/
def readValue : List Char → List Char × List Char
  | '"' :: text => (text.takeWhile (· ≠ '"'), (text.dropWhile (· ≠ '"')).tail)
  | text => (text.takeWhile (· ≠ ' '), text.dropWhile (· ≠ ' '))

/-- No quote of the value can be taken for one that was put around it. -/
def Delimited (value : List Char) : Prop :=
  '"' ∈ value → ' ' ∉ value ∧ value.head? ≠ some '"'

instance (value : List Char) : Decidable (Delimited value) :=
  inferInstanceAs (Decidable (_ → _))

variable {value rest : List Char}

@[simp] theorem toList_valueText {value : String} (h : '\n' ∉ value.toList) :
    (valueText (.str value)).toList = shown value.toList := by
  have hkept : value.map (fun c => if c = '\n' then ' ' else c) = value := by
    rw [← String.toList_inj, String.toList_map,
      List.map_congr_left fun c hc => if_neg (ne_of_mem_of_not_mem hc h), List.map_id']
  have htext : (Json.str value).text = value := rfl
  simp only [valueText, htext, hkept, shown]
  by_cases hquoted : value.toList = [] ∨ ' ' ∈ value.toList
  · rw [if_pos (by simpa using hquoted), if_pos hquoted]
    simp
  · rw [if_neg (by simpa using hquoted), if_neg hquoted]

private theorem length_readValue_le (text : List Char) : (readValue text).2.length ≤ text.length :=
    by
  unfold readValue
  split
  case h_1 text =>
    have hdrop := List.length_dropWhile_le (· ≠ '"') text
    simp only [List.length_tail, List.length_cons]
    omega
  case h_2 => exact List.length_dropWhile_le _ _

private theorem readValue_of_head?_ne {text : List Char} (h : text.head? ≠ some '"') :
    readValue text = (text.takeWhile (· ≠ ' '), text.dropWhile (· ≠ ' ')) := by
  unfold readValue
  split
  case h_1 => exact absurd rfl h
  case h_2 => rfl

private theorem cut_append {mark : Char} (h : mark ∉ value) {rest : List Char}
    (hrest : ∀ c ∈ rest.head?, c = mark) :
    (value ++ rest).takeWhile (· ≠ mark) = value ∧
      (value ++ rest).dropWhile (· ≠ mark) = rest := by
  have hvalue : ∀ c ∈ value, decide (c ≠ mark) = true :=
    fun c hc => decide_eq_true (ne_of_mem_of_not_mem hc h)
  rw [List.takeWhile_append_of_pos hvalue, List.dropWhile_append_of_pos hvalue]
  cases rest with
  | nil => simp
  | cons c rest =>
      obtain rfl := hrest c rfl
      simp

private theorem readValue_shown (h : Delimited value) (hrest : ∀ c ∈ rest.head?, c = ' ') :
    readValue (shown value ++ rest) = (value, rest) := by
  unfold shown
  split
  case isTrue hquoted =>
    have hquote : '"' ∉ value := by
      rintro hmem
      rcases hquoted with rfl | hblank
      · exact absurd hmem List.not_mem_nil
      · exact (h hmem).1 hblank
    have hclose : ∀ c ∈ ('"' :: rest).head?, c = '"' := by simp
    obtain ⟨htake, hdrop⟩ := cut_append hquote hclose
    rw [List.cons_append, List.append_assoc, List.singleton_append, readValue, htake, hdrop,
      List.tail_cons]
  case isFalse hbare =>
    obtain ⟨hne, hblank⟩ := not_or.mp hbare
    have hhead : (value ++ rest).head? ≠ some '"' := by
      rw [List.head?_append_of_ne_nil _ hne]
      exact fun hfirst => (h (List.mem_of_head? hfirst)).2 hfirst
    obtain ⟨htake, hdrop⟩ := cut_append hblank hrest
    rw [readValue_of_head?_ne hhead, htake, hdrop]

private theorem delimited_of_readValue (h : (readValue (shown value ++ rest)).1 = value) :
    Delimited value := by
  intro hquote
  have hopen : ∀ text, shown value ++ rest ≠ '"' :: text := by
    intro text htext
    rw [htext] at h
    have hread : text.takeWhile (· ≠ '"') = value := h
    rw [← hread] at hquote
    have hne := List.mem_takeWhile_imp hquote
    exact absurd rfl (of_decide_eq_true hne)
  unfold shown at hopen
  split at hopen
  case isTrue => exact absurd rfl (hopen _)
  case isFalse hbare =>
    refine ⟨(not_or.mp hbare).2, fun hfirst => ?_⟩
    obtain ⟨text, rfl⟩ := List.head?_eq_some_iff.mp hfirst
    exact hopen _ rfl

def fieldChars (field : String × String) : List Char :=
  ' ' :: (field.1.toList ++ '=' :: shown field.2.toList)

/-- Reads fields, each a blank, a key up to the equals sign and a value. -/
def readFields : List Char → Record String
  | [] => []
  | _ :: text =>
      let found := readValue (text.dropWhile (· ≠ '=')).tail
      (String.ofList (text.takeWhile (· ≠ '=')), String.ofList found.1) :: readFields found.2
  termination_by text => text.length
  decreasing_by
    have hvalue := length_readValue_le (text.dropWhile (· ≠ '=')).tail
    have hkey := List.length_dropWhile_le (· ≠ '=') text
    rw [List.length_tail] at hvalue
    rw [List.length_cons]
    omega

private theorem readFields_cons {field : String × String} (h : '=' ∉ field.1.toList) :
    readFields (fieldChars field ++ rest) =
      (field.1, String.ofList (readValue (shown field.2.toList ++ rest)).1) ::
        readFields (readValue (shown field.2.toList ++ rest)).2 := by
  have hequals : ∀ c ∈ ('=' :: (shown field.2.toList ++ rest)).head?, c = '=' := by simp
  obtain ⟨htake, hdrop⟩ := cut_append h hequals
  rw [fieldChars, List.cons_append, List.append_assoc, List.cons_append, readFields]
  simp only [htake, hdrop, List.tail_cons, String.ofList_toList]

private theorem head?_flatMap_fieldChars {fields : Record String} :
    ∀ c ∈ (fields.flatMap fieldChars).head?, c = ' ' := by
  cases fields with
  | nil => simp
  | cons field fields => simp [fieldChars]

private theorem readFields_flatMap_iff {fields : Record String}
    (h : ∀ field ∈ fields, '=' ∉ field.1.toList) :
    readFields (fields.flatMap fieldChars) = fields ↔
      ∀ field ∈ fields, Delimited field.2.toList := by
  induction fields with
  | nil => simp [readFields]
  | cons field fields ih =>
      obtain ⟨hkey, hkeys⟩ := List.forall_mem_cons.mp h
      have hrest : ∀ c ∈ (fields.flatMap fieldChars).head?, c = ' ' := head?_flatMap_fieldChars
      rw [List.flatMap_cons, readFields_cons hkey, List.forall_mem_cons, ← ih hkeys]
      constructor
      · intro hread
        obtain ⟨hfield, hfields⟩ := List.cons.inj hread
        have hvalue : Delimited field.2.toList := by
          have hsecond := congrArg (String.toList ∘ Prod.snd) hfield
          exact delimited_of_readValue (by simpa using hsecond)
        rw [readValue_shown hvalue hrest] at hfields
        exact ⟨hvalue, hfields⟩
      · rintro ⟨hvalue, hfields⟩
        rw [readValue_shown hvalue hrest, hfields, String.ofList_toList]

/-- The entry of a call whose values are all texts. -/
def ofTexts (operation : String) (fields : Record String) : AuditEntry :=
  ⟨operation, fields.map fun field => (field.1, .str field.2)⟩

/-- A key without an equals sign, as every identifier is, and a value without a line break. -/
def IsField (field : String × String) : Prop :=
  '=' ∉ field.1.toList ∧ '\n' ∉ field.2.toList

instance (field : String × String) : Decidable (IsField field) :=
  inferInstanceAs (Decidable (_ ∧ _))

def readEntry (operation text : String) : Record String :=
  readFields (text.toList.drop (tag operation).length)

variable {operation : String} {fields others : Record String}

private theorem toList_intercalate_blank (first : List Char) (pieces : List (List Char)) :
    [' '].intercalate (first :: pieces) = first ++ pieces.flatMap fun piece => ' ' :: piece := by
  induction pieces generalizing first with
  | nil => simp [List.intercalate_singleton]
  | cons piece pieces ih =>
      rw [List.intercalate_cons_cons, ih, List.flatMap_cons, List.append_assoc]
      rfl

private theorem toList_text_ofTexts (h : ∀ field ∈ fields, '\n' ∉ field.2.toList) :
    (ofTexts operation fields).text.toList =
      (tag operation).toList ++ fields.flatMap fieldChars := by
  have hfields : (ofTexts operation fields).fields.filterMap fieldText? =
      fields.map fun field => field.1 ++ "=" ++ valueText (.str field.2) := by
    rw [ofTexts, List.filterMap_map, ← List.filterMap_eq_map]
    rfl
  have hblank : (" " : String).toList = [' '] := rfl
  rw [text, hfields, String.toList_intercalate, hblank, List.map_cons, toList_intercalate_blank,
    List.map_map, List.flatMap_map]
  refine congrArg (_ ++ ·) (List.flatMap_congr fun field hfield => ?_)
  simp [fieldChars, toList_valueText (h field hfield)]

private theorem readEntry_text_iff (h : ∀ field ∈ fields, IsField field) :
    readEntry operation (ofTexts operation fields).text = fields ↔
      ∀ field ∈ fields, Delimited field.2.toList := by
  rw [readEntry, toList_text_ofTexts fun field hfield => (h field hfield).2, ← String.length_toList,
    List.drop_left]
  exact readFields_flatMap_iff fun field hfield => (h field hfield).1

/--
Entries of the same text have the same fields if each value with a quote in it neither
begins with one nor holds a blank.
-/
theorem text_ofTexts_eq_iff (h : ∀ field ∈ fields ++ others, IsField field)
    (hvalues : ∀ field ∈ fields ++ others, Delimited field.2.toList) :
    (ofTexts operation fields).text = (ofTexts operation others).text ↔ fields = others := by
  have hread : ∀ {given : Record String}, given ⊆ fields ++ others →
      readEntry operation (ofTexts operation given).text = given :=
    fun hsub => (readEntry_text_iff fun field hfield => h field (hsub hfield)).mpr
      fun field hfield => hvalues field (hsub hfield)
  constructor
  · intro htext
    rw [← hread (List.subset_append_left fields others), htext,
      hread (List.subset_append_right fields others)]
  · rintro rfl
    rfl

end AuditEntry

namespace Sample

def quotedName : Record String := [("category", "functions"), ("name", "str\x22len"), ("alias", "")]

def blankName : Record String := [("category", "functions"), ("name", "str len")]

/-- A name that closes its quotes and goes on as the field of a short name. -/
def forgedAlias : Record String := [("name", "x y\x22 alias=\x22u v")]

def writtenAlias : Record String := [("name", "x y"), ("alias", "u v")]

end Sample

namespace AuditEntry

theorem text_ofTexts_eq_of_quoted :
    (∀ field ∈ Sample.quotedName ++ Sample.blankName, IsField field) ∧
      (∀ field ∈ Sample.quotedName ++ Sample.blankName, Delimited field.2.toList) ∧
      ((ofTexts "WHITELIST" Sample.quotedName).text =
          (ofTexts "WHITELIST" Sample.blankName).text ↔
        Sample.quotedName = Sample.blankName) := by
  have hfields : ∀ field ∈ Sample.quotedName ++ Sample.blankName, IsField field := by decide
  have hvalues : ∀ field ∈ Sample.quotedName ++ Sample.blankName,
      Delimited field.2.toList := by decide
  exact ⟨hfields, hvalues, text_ofTexts_eq_iff hfields hvalues⟩

/-- The name of an alias is read as another name and a short name. -/
theorem name_forges_alias :
    (∀ field ∈ Sample.forgedAlias ++ Sample.writtenAlias, IsField field) ∧
      (ofTexts "ALIAS" Sample.forgedAlias).text = (ofTexts "ALIAS" Sample.writtenAlias).text ∧
      (ofTexts "ALIAS" Sample.forgedAlias).text = "[ALIAS] name=\x22x y\x22 alias=\x22u v\x22" ∧
      Sample.forgedAlias ≠ Sample.writtenAlias := by
  have hfields : ∀ field ∈ Sample.forgedAlias ++ Sample.writtenAlias, '\n' ∉ field.2.toList := by
    decide
  obtain ⟨hforged, hwritten⟩ := List.forall_mem_append.mp hfields
  simp only [← String.toList_inj, toList_text_ofTexts hforged, toList_text_ofTexts hwritten]
  decide

end AuditEntry

end ScriptSandbox
