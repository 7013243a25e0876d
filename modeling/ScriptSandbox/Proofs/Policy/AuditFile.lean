import ScriptSandbox.Policy.Audit
import ScriptSandbox.Policy.Stamp
import ScriptSandbox.Proofs.Text.Lines

/-!
# Reading a log back

A log is written one entry a line, and read back by lines and by operations.  Of the line
boundaries, only the line feed is taken out of values, and the lines of an operation are
those that name it in brackets anywhere.  So the file tells which entries were made as long
as no field brings a line boundary or the bracketed name of another operation with it, and
no longer.
-/

namespace ScriptSandbox

/-! ## Time stamps -/

def isStampChar (c : Char) : Bool :=
  c.isDigit || c = '-' || c = 'T' || c = ':' || c = 'Z'

private theorem not_isLineBoundary_of_isStampChar {c : Char} (h : isStampChar c = true) :
    Text.isLineBoundary c = false := by
  simp only [isStampChar, Bool.or_eq_true, decide_eq_true_eq] at h
  rcases h with (((hdigit | rfl) | rfl) | rfl) | rfl
  · simp only [Char.isDigit, Bool.and_eq_true, decide_eq_true_eq, UInt32.le_iff_toNat_le] at hdigit
    simp only [Text.isLineBoundary, decide_eq_false_iff_not, List.mem_cons, List.not_mem_nil,
      or_false]
    change 48 ≤ c.toNat ∧ c.toNat ≤ 57 at hdigit
    omega
  all_goals rfl

def StampText (text : String) : Prop := ∀ c ∈ text.toList, isStampChar c = true

theorem StampText.append {text other : String} (h : StampText text) (h' : StampText other) :
    StampText (text ++ other) := by
  intro c hc
  rw [String.toList_append, List.mem_append] at hc
  exact hc.elim (h c) (h' c)

private theorem stampText_padded (width n : Nat) : StampText (padded width n) := by
  intro c hc
  have hdigit : c.isDigit = true := by
    rw [padded, String.toList_ofList, List.mem_append] at hc
    rcases hc with hc | hc
    · rw [List.eq_of_mem_replicate hc]
      decide
    · rw [Nat.repr, String.toList_ofList] at hc
      exact Nat.isDigit_of_mem_toDigits (by decide) (by decide) hc
  simp [isStampChar, hdigit]

private theorem stampText_stampOfSeconds (seconds : Nat) : StampText (stampOfSeconds seconds) := by
  have hnext : ∀ {text mark : String} (n : Nat), StampText text → StampText mark →
      StampText (text ++ mark ++ padded 2 n) :=
    fun n htext hmark => (htext.append hmark).append (stampText_padded 2 n)
  have hmarks : StampText "-" ∧ StampText "T" ∧ StampText ":" ∧ StampText "Z" := by
    simp [StampText, isStampChar]
  obtain ⟨hdash, hday, hcolon, hzone⟩ := hmarks
  unfold stampOfSeconds
  rcases calendarDate (seconds / 86400) with ⟨year, month, day⟩
  have hdate := hnext day (hnext month (stampText_padded 4 year) hdash) hdash
  exact (hnext _ (hnext _ (hnext _ hdate hday) hcolon) hcolon).append hzone

/-! ## What an entry shows -/

/-- A part that no separator of an entry runs through. -/
structure Unsplit (part : List Char) : Prop where
  ne_nil : part ≠ []
  blank : ' ' ∉ part
  equals : '=' ∉ part
  quote : '"' ∉ part

namespace AuditEntry

def operations : List String := ["WHITELIST", "NAMESPACE", "ALIAS", "VIOLATION", "VALIDATE"]

def tag (operation : String) : String := "[" ++ operation ++ "]"

def Carries (entry : AuditEntry) (part : List Char) : Prop :=
  ∃ field ∈ entry.fields, field.2 ≠ .null ∧
    (part <:+: field.1.toList ∨ '\n' ∉ part ∧ part <:+: field.2.text.toList)

/--
No field that is written brings the end of a line with it, other than as a line feed in its
value, or the name of another operation in brackets.
-/
structure Unmistakable (entry : AuditEntry) : Prop where
  singleLine : ∀ field ∈ entry.fields, field.2 ≠ .null →
    Text.SingleLine field.1 ∧
      ∀ c ∈ field.2.text.toList, c ≠ '\n' → Text.isLineBoundary c = false
  sole : ∀ operation ∈ operations, operation ≠ entry.operation →
    ∀ field ∈ entry.fields, field.2 ≠ .null →
      Text.contains field.1 (tag operation) = false ∧
        Text.contains field.2.text (tag operation) = false

instance (value : Json) : Decidable (value = .null) :=
  match value with
  | .null => .isTrue rfl
  | .scalar (.bool _) | .scalar (.num _) | .scalar (.str _) | .arr _ | .obj _ => .isFalse nofun

-- Spelled out, since a search may try all characters instead of those of the text.
instance (text : String) : Decidable (Text.SingleLine text) :=
  List.decidableBAll _ text.toList

instance (text : String) :
    Decidable (∀ c ∈ text.toList, c ≠ '\n' → Text.isLineBoundary c = false) :=
  List.decidableBAll _ text.toList

instance (entry : AuditEntry) : Decidable entry.Unmistakable :=
  decidable_of_iff (_ ∧ _) ⟨fun h => ⟨h.1, h.2⟩, fun h => ⟨h.singleLine, h.sole⟩⟩

variable {part : List Char}

@[simp] theorem infix_valueText_iff (h : Unsplit part) (value : Json) :
    part <:+: (valueText value).toList ↔ '\n' ∉ part ∧ part <:+: value.text.toList := by
  rw [← Text.infix_replace_iff (by decide) h.blank, ← String.toList_map]
  unfold valueText
  generalize value.text.map _ = text
  simp only
  split
  case isFalse => exact Iff.rfl
  case isTrue =>
    have hquoted : ("\x22" ++ text ++ "\x22").toList = [] ++ '"' :: (text.toList ++ '"' :: []) := by
      simp
    rw [hquoted, Text.infix_append_cons_iff h.quote, Text.infix_append_cons_iff h.quote]
    simp [h.ne_nil]

private theorem infix_text_iff (h : Unsplit part) (entry : AuditEntry) :
    part <:+: entry.text.toList ↔
      part <:+: (tag entry.operation).toList ∨ entry.Carries part := by
  have hfield : ∀ field : String × Json,
      (∃ text, fieldText? field = some text ∧ part <:+: text.toList) ↔
        field.2 ≠ .null ∧
          (part <:+: field.1.toList ∨ '\n' ∉ part ∧ part <:+: field.2.text.toList) := by
    rintro ⟨key, value⟩
    by_cases hnull : value = .null
    · subst hnull
      simp [fieldText?]
    · have hshown : fieldText? (key, value) = some (key ++ "=" ++ valueText value) := by
        unfold fieldText?
        split
        case h_1 hvalue => exact absurd hvalue hnull
        case h_2 => rfl
      have htext : (key ++ "=" ++ valueText value).toList =
          key.toList ++ '=' :: (valueText value).toList := by simp
      simp only [hshown, Option.some.injEq, exists_eq_left', htext,
        Text.infix_append_cons_iff h.equals, infix_valueText_iff h]
      simp [hnull]
  have hblank : (" " : String).toList = [' '] := rfl
  rw [text, String.toList_intercalate, hblank, Text.infix_intercalate_iff h.blank h.ne_nil]
  simp only [List.map_cons, List.exists_mem_cons_iff, List.mem_map, List.mem_filterMap]
  refine or_congr Iff.rfl ?_
  simp only [Carries, ← hfield]
  constructor
  · rintro ⟨_, ⟨text, ⟨field, hmem, hshown⟩, rfl⟩, hpart⟩
    exact ⟨field, hmem, text, hshown, hpart⟩
  · rintro ⟨field, hmem, text, hshown, hpart⟩
    exact ⟨text.toList, ⟨text, ⟨field, hmem, hshown⟩, rfl⟩, hpart⟩

private theorem tag_infix_tag_iff {operation other : String} (h : operation ∈ operations)
    (h' : other ∈ operations) :
    (tag other).toList <:+: (tag operation).toList ↔ other = operation := by
  have hall : ∀ operation ∈ operations, ∀ other ∈ operations,
      (Text.contains (tag operation) (tag other) = true ↔ other = operation) := by decide
  rw [← Text.contains_iff]
  exact hall operation h other h'

private theorem unsplit_tag {operation : String} (h : operation ∈ operations) :
    Unsplit (tag operation).toList := by
  have hall : ∀ operation ∈ operations, (tag operation).toList ≠ [] ∧
      ' ' ∉ (tag operation).toList ∧ '=' ∉ (tag operation).toList ∧
        '"' ∉ (tag operation).toList := by decide
  obtain ⟨hne, hblank, hequals, hquote⟩ := hall operation h
  exact ⟨hne, hblank, hequals, hquote⟩

private theorem singleLine_tag {operation : String} (h : operation ∈ operations) :
    Text.SingleLine (tag operation) := by
  have hall : ∀ operation ∈ operations, Text.SingleLine (tag operation) := by decide
  exact hall operation h

private theorem unmistakable_iff {entry : AuditEntry} :
    entry.Unmistakable ↔
      (∀ c, Text.isLineBoundary c = true → ¬ entry.Carries [c]) ∧
        ∀ operation ∈ operations, operation ≠ entry.operation →
          ¬ entry.Carries (tag operation).toList := by
  have hfeed : ∀ operation ∈ operations, '\n' ∉ (tag operation).toList := by decide
  constructor
  · rintro ⟨hsingle, hsole⟩
    constructor
    · rintro c hc ⟨field, hmem, hnull, hpart⟩
      obtain ⟨hkey, hvalue⟩ := hsingle field hmem hnull
      rw [List.singleton_infix_iff, List.singleton_infix_iff, List.mem_singleton] at hpart
      rcases hpart with hpart | ⟨hne, hpart⟩
      · exact Bool.false_ne_true ((hkey c hpart).symm.trans hc)
      · exact Bool.false_ne_true ((hvalue c hpart (Ne.symm hne)).symm.trans hc)
    · rintro operation hoperation hne ⟨field, hmem, hnull, hpart⟩
      obtain ⟨hkey, hvalue⟩ := hsole operation hoperation hne field hmem hnull
      rw [← Text.contains_iff, ← Text.contains_iff] at hpart
      rcases hpart with hpart | ⟨_, hpart⟩
      · exact Bool.false_ne_true (hkey.symm.trans hpart)
      · exact Bool.false_ne_true (hvalue.symm.trans hpart)
  · rintro ⟨hsingle, hsole⟩
    constructor
    · intro field hmem hnull
      refine ⟨fun c hc => Bool.eq_false_iff.mpr fun hboundary => ?_,
        fun c hc hne => Bool.eq_false_iff.mpr fun hboundary => ?_⟩
      · refine hsingle c hboundary ⟨field, hmem, hnull, .inl ?_⟩
        exact (List.singleton_infix_iff _ _).mpr hc
      · refine hsingle c hboundary ⟨field, hmem, hnull, .inr ⟨?_, ?_⟩⟩
        · exact fun hnewline => hne (List.mem_singleton.mp hnewline).symm
        · exact (List.singleton_infix_iff _ _).mpr hc
    · intro operation hoperation hne field hmem hnull
      refine ⟨Bool.eq_false_iff.mpr fun hpart => ?_, Bool.eq_false_iff.mpr fun hpart => ?_⟩
      · exact hsole operation hoperation hne
          ⟨field, hmem, hnull, .inl (Text.contains_iff.mp hpart)⟩
      · exact hsole operation hoperation hne
          ⟨field, hmem, hnull, .inr ⟨hfeed operation hoperation, Text.contains_iff.mp hpart⟩⟩

end AuditEntry

private theorem unsplit_of_isLineBoundary {c : Char} (h : Text.isLineBoundary c = true) :
    Unsplit [c] := by
  refine ⟨List.cons_ne_nil _ _, ?_, ?_, ?_⟩ <;>
    · rw [List.mem_singleton]
      rintro rfl
      cases h

/-! ## What a line shows -/

open AuditEntry (Carries Unmistakable operations tag)

/-- The calls as they stand in the file, each under the stamp of its second. -/
def fileOf (calls : List (Nat × AuditEntry)) : List StampedEntry :=
  calls.map fun call => ⟨stampOfSeconds call.1, call.2⟩

variable {seconds : Nat} {entry : AuditEntry}

private theorem infix_line_iff {part : List Char} (h : Unsplit part) (stamped : StampedEntry) :
    part <:+: stamped.line.toList ↔
      part <:+: stamped.stamp.toList ∨ part <:+: (tag stamped.entry.operation).toList ∨
        stamped.entry.Carries part := by
  have hline : stamped.line.toList = stamped.stamp.toList ++ ' ' :: stamped.entry.text.toList := by
    simp [StampedEntry.line]
  rw [hline, Text.infix_append_cons_iff h.blank, AuditEntry.infix_text_iff h]

private theorem singleLine_line_iff (hoperation : entry.operation ∈ operations) :
    Text.SingleLine (StampedEntry.line ⟨stampOfSeconds seconds, entry⟩) ↔
      ∀ c, Text.isLineBoundary c = true → ¬ entry.Carries [c] := by
  have hcarries : ∀ c, Text.isLineBoundary c = true →
      (c ∈ (StampedEntry.line ⟨stampOfSeconds seconds, entry⟩).toList ↔ entry.Carries [c]) := by
    intro c hc
    have hstamp : ¬ [c] <:+: (stampOfSeconds seconds).toList := by
      rw [List.singleton_infix_iff]
      intro hmem
      have hnone := not_isLineBoundary_of_isStampChar (stampText_stampOfSeconds seconds c hmem)
      exact Bool.false_ne_true (hnone.symm.trans hc)
    have htag : ¬ [c] <:+: (tag entry.operation).toList := by
      rw [List.singleton_infix_iff]
      intro hmem
      have hnone := AuditEntry.singleLine_tag hoperation c hmem
      exact Bool.false_ne_true (hnone.symm.trans hc)
    rw [← List.singleton_infix_iff, infix_line_iff (unsplit_of_isLineBoundary hc),
      or_iff_right hstamp, or_iff_right htag]
  constructor
  · intro h c hc hmem
    exact Bool.false_ne_true ((h c ((hcarries c hc).mpr hmem)).symm.trans hc)
  · intro h c hmem
    exact Bool.eq_false_iff.mpr fun hc => h c hc ((hcarries c hc).mp hmem)

private theorem contains_line_iff (hoperation : entry.operation ∈ operations) {operation : String}
    (h : operation ∈ operations) :
    Text.contains (StampedEntry.line ⟨stampOfSeconds seconds, entry⟩) (tag operation) = true ↔
      operation = entry.operation ∨ entry.Carries (tag operation).toList := by
  have hstamp : ¬ (tag operation).toList <:+: (stampOfSeconds seconds).toList := by
    intro hshown
    have hbracket : '[' ∈ (tag operation).toList := by simp [tag]
    exact absurd (stampText_stampOfSeconds seconds _ (hshown.subset hbracket)) (by decide)
  rw [Text.contains_iff, infix_line_iff (AuditEntry.unsplit_tag h), or_iff_right hstamp,
    AuditEntry.tag_infix_tag_iff hoperation h]

/-! ## What a file shows -/

private theorem filter_map_eq_iff {α β : Type} {view : α → β} {found : β → Bool} {chosen : α → Bool}
    {items : List α} (h : ∀ item ∈ items, chosen item = true → found (view item) = true) :
    (items.map view).filter found = (items.filter chosen).map view ↔
      ∀ item ∈ items, found (view item) = true → chosen item = true := by
  have hnested : items.filter chosen = (items.filter (found ∘ view)).filter chosen := by
    rw [List.filter_filter]
    refine List.filter_congr fun item hitem => ?_
    rw [Bool.eq_iff_iff, Bool.and_eq_true]
    exact ⟨fun hchosen => ⟨hchosen, h item hitem hchosen⟩, And.left⟩
  rw [List.filter_map]
  constructor
  · intro heq item hitem hfound
    have hlength := congrArg List.length heq
    rw [List.length_map, List.length_map, hnested] at hlength
    have hall := (List.filter_sublist (p := chosen)).eq_of_length hlength.symm
    have hmem : item ∈ (items.filter (found ∘ view)).filter chosen :=
      hall.symm ▸ List.mem_filter.mpr ⟨hitem, hfound⟩
    exact (List.mem_filter.mp hmem).2
  · intro himp
    have hall : (items.filter (found ∘ view)).filter chosen = items.filter (found ∘ view) := by
      refine List.filter_eq_self.mpr fun item hitem => ?_
      obtain ⟨hitem, hfound⟩ := List.mem_filter.mp hitem
      exact himp item hitem hfound
    rw [hnested, hall]

variable {calls : List (Nat × AuditEntry)}

private theorem logLines_eq_iff (hoperations : ∀ call ∈ calls, call.2.operation ∈ operations) :
    logLines (fileOf calls) = (fileOf calls).map StampedEntry.line ↔
      ∀ call ∈ calls, ∀ c, Text.isLineBoundary c = true → ¬ call.2.Carries [c] := by
  have hjoined : logText (fileOf calls) =
      String.join (((fileOf calls).map StampedEntry.line).map fun text => text ++ "\n") := by
    rw [logText, List.map_map]
    rfl
  rw [logLines, hjoined, Text.lines_join_eq_iff, List.forall_mem_map, fileOf, List.forall_mem_map]
  exact forall₂_congr fun call hcall => singleLine_line_iff (hoperations call hcall)

private theorem filter_lines_eq_iff (hoperations : ∀ call ∈ calls, call.2.operation ∈ operations)
    {operation : String} (h : operation ∈ operations) :
    linesOf (some operation) ((fileOf calls).map StampedEntry.line) =
        ((fileOf calls).filter fun stamped => stamped.entry.operation = operation).map
          StampedEntry.line ↔
      ∀ call ∈ calls, operation ≠ call.2.operation → ¬ call.2.Carries (tag operation).toList := by
  have hcontains : ∀ call ∈ calls,
      (Text.contains (StampedEntry.line ⟨stampOfSeconds call.1, call.2⟩) (tag operation) = true ↔
        operation = call.2.operation ∨ call.2.Carries (tag operation).toList) :=
    fun call hcall => contains_line_iff (hoperations call hcall) h
  change List.filter (Text.contains · (tag operation)) _ = _ ↔ _
  rw [filter_map_eq_iff]
  · rw [fileOf, List.forall_mem_map]
    refine forall₂_congr fun call hcall => ?_
    rw [hcontains call hcall, decide_eq_true_eq, eq_comm (a := call.2.operation)]
    tauto
  · rw [fileOf, List.forall_mem_map]
    intro call hcall hchosen
    exact (hcontains call hcall).mpr (.inl (of_decide_eq_true hchosen).symm)

/--
Of calls of the documented operations, all lines of the file are those of the calls, and the
lines of each operation those of its calls, exactly when no key and no value brings a line
boundary or the name of another operation with it; only line feeds in values do no harm.
-/
theorem file_tells_calls_iff (hoperations : ∀ call ∈ calls, call.2.operation ∈ operations) :
    (linesOf none (logLines (fileOf calls)) = (fileOf calls).map StampedEntry.line ∧
      ∀ operation ∈ operations, linesOf (some operation) (logLines (fileOf calls)) =
        ((fileOf calls).filter fun stamped => stamped.entry.operation = operation).map
          StampedEntry.line) ↔
      ∀ call ∈ calls, call.2.Unmistakable := by
  have hlines := logLines_eq_iff hoperations
  simp only [AuditEntry.unmistakable_iff]
  constructor
  · rintro ⟨hall, hsome⟩ call hcall
    have hall : logLines (fileOf calls) = (fileOf calls).map StampedEntry.line := hall
    refine ⟨hlines.mp hall call hcall, fun operation h hne => ?_⟩
    have hfound := hsome operation h
    rw [hall] at hfound
    exact (filter_lines_eq_iff hoperations h).mp hfound call hcall hne
  · intro h
    have hall := hlines.mpr fun call hcall => (h call hcall).1
    refine ⟨hall, fun operation hoperation => ?_⟩
    rw [hall]
    exact (filter_lines_eq_iff hoperations hoperation).mpr fun call hcall =>
      (h call hcall).2 operation hoperation

namespace Sample

def plainCalls : List (Nat × AuditEntry) :=
  [(0, .aliasName "App\nUser" (some "U")),
    (86461, .violation "aliasing" "Alias is not allowed!" (some "[App]") .null)]

/-- Aliases of the names of a script, with a line separator and with brackets in them. -/
def forgingCalls : List (Nat × AuditEntry) :=
  [(0, .aliasName "x\u2028y" none), (1, .aliasName "[VIOLATION]" none)]

end Sample

theorem file_tells_calls_of_plain :
    (∀ call ∈ Sample.plainCalls, call.2.operation ∈ operations) ∧
      (∀ call ∈ Sample.plainCalls, call.2.Unmistakable) ∧
      logLines (fileOf Sample.plainCalls) =
        (fileOf Sample.plainCalls).map StampedEntry.line ∧
      linesOf (some "VIOLATION") (logLines (fileOf Sample.plainCalls)) =
        [StampedEntry.line ⟨stampOfSeconds 86461, .violation "aliasing" "Alias is not allowed!"
          (some "[App]") .null⟩] := by
  have hoperations : ∀ call ∈ Sample.plainCalls, call.2.operation ∈ operations := by decide
  have hplain : ∀ call ∈ Sample.plainCalls, call.2.Unmistakable := by decide
  obtain ⟨hall, hsome⟩ := (file_tells_calls_iff hoperations).mpr hplain
  exact ⟨hoperations, hplain, hall, hsome "VIOLATION" (by decide)⟩

/-- The first alias is read as two lines, and the second one as a violation. -/
theorem aliases_forge_lines :
    (∀ call ∈ Sample.forgingCalls, call.2.operation ∈ operations) ∧
      (∀ call ∈ Sample.forgingCalls, call.2.operation ≠ "VIOLATION") ∧
      logLines (fileOf Sample.forgingCalls) =
        ["1970-01-01T00:00:00Z [ALIAS] name=x", "y",
          "1970-01-01T00:00:01Z [ALIAS] name=[VIOLATION]"] ∧
      logLines (fileOf Sample.forgingCalls) ≠
        (fileOf Sample.forgingCalls).map StampedEntry.line ∧
      linesOf (some "VIOLATION") (logLines (fileOf Sample.forgingCalls)) =
        ["1970-01-01T00:00:01Z [ALIAS] name=[VIOLATION]"] := by
  have hlines : logLines (fileOf Sample.forgingCalls) =
      ["1970-01-01T00:00:00Z [ALIAS] name=x", "y",
        "1970-01-01T00:00:01Z [ALIAS] name=[VIOLATION]"] := by decide +kernel
  rw [hlines]
  refine ⟨by decide, by decide, rfl, fun hall => ?_, by decide +kernel⟩
  have hlength := congrArg List.length hall
  simp [fileOf, Sample.forgingCalls] at hlength

end ScriptSandbox
