import Mathlib.Data.List.Basic
import ScriptSandbox.Text.Case
import ScriptSandbox.Text.Lines

/-!
# Letter case is settled at once

The small form of a text is its own small form, and the capital form its own capital form:
no run maps a code point to one that a run or an expansion maps on.  No backslash comes
about in either form, so a text without a leading backslash has none afterwards.
-/

namespace ScriptSandbox.Text

/-! ## Runs -/

namespace CaseRun

def point (code : Nat) : CaseRun := ⟨code, code, 1, code⟩

def top (run : CaseRun) : Nat := run.image + (run.last - run.first)

-- These are evaluated on whole tables, hence the operations that are fast to evaluate.
def avoids (run other : CaseRun) : Bool :=
  Nat.blt run.top other.first || Nat.blt other.last run.image ||
    other.step == 2 && (run.step == 2 || run.first == run.last) &&
      (run.image + other.first) % 2 == 1

def beyond (run : CaseRun) : Bool :=
  Nat.ble 0x80 run.image &&
    (Nat.blt run.top 0xD800 || Nat.blt 0xDFFF run.image && Nat.blt run.top 0x110000)

variable {run other : CaseRun} {code target : Nat}

private theorem image?_eq_some (h : run.image? code = some target) :
    run.first ≤ code ∧ code ≤ run.last ∧ (code - run.first) % run.step = 0 ∧
      target = run.image + (code - run.first) := by
  unfold image? at h
  split at h
  case isTrue hrun =>
    obtain ⟨hfirst, hlast, hstep⟩ := hrun
    exact ⟨hfirst, hlast, hstep, (Option.some.inj h).symm⟩
  case isFalse => cases h

private theorem image?_eq_none_of_avoids (h : run.avoids other = true)
    (himage : run.image? code = some target) : other.image? target = none := by
  obtain ⟨hfirst, hlast, hstep, rfl⟩ := image?_eq_some himage
  refine if_neg ?_
  rintro ⟨hfirst', hlast', hstep'⟩
  simp only [avoids, top, Bool.or_eq_true, Bool.and_eq_true, Nat.blt_eq, beq_iff_eq] at h
  obtain (hbefore | hbehind) | ⟨⟨hother, hrun⟩, hodd⟩ := h
  · omega
  · omega
  · rw [hother] at hstep'
    have heven : (code - run.first) % 2 = 0 := by
      obtain hrun | hrun := hrun
      · rwa [hrun] at hstep
      · omega
    omega

private theorem ne_of_avoids_point {source : Nat} (h : run.avoids (point code) = true)
    (himage : run.image? source = some target) : target ≠ code := by
  rintro rfl
  have hnone := image?_eq_none_of_avoids h himage
  simp [image?, point] at hnone

private theorem isValidChar_of_beyond (h : run.beyond = true)
    (himage : run.image? code = some target) :
    0x80 ≤ target ∧ target.isValidChar := by
  obtain ⟨hfirst, hlast, -, rfl⟩ := image?_eq_some himage
  simp only [beyond, top, Bool.or_eq_true, Bool.and_eq_true, Nat.blt_eq, Nat.ble_eq] at h
  unfold Nat.isValidChar
  omega

end CaseRun

private theorem toNat_ofNat {code : Nat} (h : code.isValidChar) : (Char.ofNat code).toNat = code :=
    by
  rw [Char.ofNat, dif_pos h]
  rfl

/-! ## Forms of a character -/

structure SettlesAt (form : Char → List Char) (c : Char) : Prop where
  ne_nil : form c ≠ []
  again : ∀ d ∈ form c, form d = [d]
  backslash : '\\' ∈ form c → c = '\\'

private theorem SettlesAt.of_singleton {form : Char → List Char} {c d : Char} (hform : form c = [d])
    (hagain : form d = [d]) (hbackslash : d = '\\' → c = '\\') : SettlesAt form c where
  ne_nil := hform ▸ List.cons_ne_nil _ _
  again := hform ▸ List.forall_mem_singleton.mpr hagain
  backslash := fun hmem => hbackslash (List.mem_singleton.mp (hform ▸ hmem)).symm

def Settled (form : Char → List Char) : Prop := ∀ c, SettlesAt form c

structure CaseRules where
  ascii : Char → Char
  expansions : List (Nat × List Nat)
  runs : List CaseRun

namespace CaseRules

def lower : CaseRules := ⟨Char.toLower, [(0x130, [0x69, 0x307])], lowerRuns⟩

def upper : CaseRules := ⟨Char.toUpper, upperExpansions, upperRuns⟩

def form (rules : CaseRules) (c : Char) : List Char :=
  if c.toNat < 0x80 then [rules.ascii c]
  else
    match rules.expansions.lookup c.toNat with
    | some codes => codes.map Char.ofNat
    | none => [mapRuns rules.runs c]

def keeps (rules : CaseRules) (c : Char) : Bool :=
  rules.form c == [c] && c != '\\'

structure Sound (rules : CaseRules) : Prop where
  ascii : ∀ code < 0x80, (rules.ascii (Char.ofNat code)).toNat < 0x80 ∧
    rules.ascii (rules.ascii (Char.ofNat code)) = rules.ascii (Char.ofNat code) ∧
    (rules.ascii (Char.ofNat code) = '\\' → Char.ofNat code = '\\')
  expansions : (rules.expansions.all fun entry =>
    !entry.2.isEmpty && entry.2.all fun code => rules.keeps (Char.ofNat code)) = true
  runs : (rules.runs.all fun run =>
    if run.beyond then
      (rules.expansions.all fun entry => run.avoids (.point entry.1)) &&
        rules.runs.all run.avoids
    else run.first == run.last && rules.keeps (Char.ofNat run.image)) = true

private theorem lower_sound : lower.Sound where
  ascii := by decide +kernel
  expansions := by decide +kernel
  runs := by decide +kernel

private theorem upper_sound : upper.Sound where
  ascii := by decide +kernel
  expansions := by decide +kernel
  runs := by decide +kernel

variable {rules : CaseRules}

private theorem keeps_iff {c : Char} : rules.keeps c = true ↔ rules.form c = [c] ∧ c ≠ '\\' := by
  rw [keeps, Bool.and_eq_true, beq_iff_eq, bne_iff_ne]

@[simp] theorem form_of_ascii {c : Char} (h : c.toNat < 0x80) : rules.form c = [rules.ascii c] :=
  if_pos h

private theorem form_of_expansion {c : Char} {codes : List Nat} (h : ¬ c.toNat < 0x80)
    (hlookup : rules.expansions.lookup c.toNat = some codes) :
    rules.form c = codes.map Char.ofNat := by
  rw [form, if_neg h, hlookup]

private theorem form_of_runs {c : Char} (h : ¬ c.toNat < 0x80)
    (hlookup : rules.expansions.lookup c.toNat = none) :
    rules.form c = [mapRuns rules.runs c] := by
  rw [form, if_neg h, hlookup]

private theorem Sound.mapRuns_keeps (h : rules.Sound) (c : Char) :
    mapRuns rules.runs c = c ∨ rules.keeps (mapRuns rules.runs c) = true := by
  unfold mapRuns
  split
  case h_2 => exact .inl rfl
  case h_1 target hfound =>
    right
    obtain ⟨run, hrun, himage⟩ := List.exists_of_findSome?_eq_some hfound
    have hsound := List.all_eq_true.mp h.runs run hrun
    split at hsound
    case isTrue hbeyond =>
      rw [Bool.and_eq_true] at hsound
      obtain ⟨hexpansions, hruns⟩ := hsound
      obtain ⟨hascii, hvalid⟩ := CaseRun.isValidChar_of_beyond hbeyond himage
      have htarget : (Char.ofNat target).toNat = target := toNat_ofNat hvalid
      have hnone : rules.expansions.lookup target = none := by
        refine List.lookup_eq_none_iff.mpr fun entry hentry => bne_iff_ne.mpr ?_
        exact CaseRun.ne_of_avoids_point (List.all_eq_true.mp hexpansions entry hentry) himage
      have hkept : rules.runs.findSome? (·.image? target) = none :=
        List.findSome?_eq_none_iff.mpr fun other hother =>
          CaseRun.image?_eq_none_of_avoids (List.all_eq_true.mp hruns other hother) himage
      refine keeps_iff.mpr ⟨?_, ?_⟩
      · rw [form_of_runs (by omega) (by rw [htarget, hnone]), mapRuns, htarget, hkept]
      · intro heq
        rw [heq] at htarget
        rw [← htarget] at hascii
        exact absurd hascii (by decide)
    case isFalse =>
      rw [Bool.and_eq_true, beq_iff_eq] at hsound
      obtain ⟨hfirst, hlast, -, rfl⟩ := CaseRun.image?_eq_some himage
      have hsame : c.toNat - run.first = 0 := by omega
      rw [hsame, Nat.add_zero]
      exact hsound.2

variable {c : Char}

private theorem Sound.settlesAt_ascii (h : rules.Sound) (hc : c.toNat < 0x80) :
    SettlesAt rules.form c := by
  obtain ⟨hascii, hagain, hbackslash⟩ := h.ascii c.toNat hc
  rw [Char.ofNat_toNat] at hascii hagain hbackslash
  refine .of_singleton (form_of_ascii hc) ?_ hbackslash
  rw [form_of_ascii hascii, hagain]

private theorem Sound.settlesAt_expansion (h : rules.Sound) (hc : ¬ c.toNat < 0x80)
    {codes : List Nat}
    (hlookup : rules.expansions.lookup c.toNat = some codes) : SettlesAt rules.form c := by
  obtain ⟨before, after, hsplit, -⟩ := List.lookup_eq_some_iff.mp hlookup
  have hentry : (c.toNat, codes) ∈ rules.expansions := by simp [hsplit]
  have hsound := List.all_eq_true.mp h.expansions _ hentry
  rw [Bool.and_eq_true, Bool.not_eq_true', List.isEmpty_eq_false_iff] at hsound
  obtain ⟨hne, hcodes⟩ := hsound
  have hkept : ∀ d ∈ codes.map Char.ofNat, rules.form d = [d] ∧ d ≠ '\\' :=
    List.forall_mem_map.mpr fun code hcode =>
      keeps_iff.mp (List.all_eq_true.mp hcodes code hcode)
  have hform := form_of_expansion hc hlookup
  constructor
  · rw [hform]
    exact fun hnil => hne (List.map_eq_nil_iff.mp hnil)
  · rw [hform]
    exact fun d hd => (hkept d hd).1
  · rw [hform]
    exact fun hmem => absurd rfl (hkept _ hmem).2

private theorem Sound.settlesAt_runs (h : rules.Sound) (hc : ¬ c.toNat < 0x80)
    (hlookup : rules.expansions.lookup c.toNat = none) : SettlesAt rules.form c := by
  have hform := form_of_runs hc hlookup
  obtain hsame | hkept := h.mapRuns_keeps c
  · rw [hsame] at hform
    exact .of_singleton hform hform id
  · obtain ⟨hagain, hne⟩ := keeps_iff.mp hkept
    exact .of_singleton hform hagain fun heq => absurd heq hne

theorem Sound.settled (h : rules.Sound) : Settled rules.form := by
  intro c
  by_cases hc : c.toNat < 0x80
  · exact h.settlesAt_ascii hc
  · cases hlookup : rules.expansions.lookup c.toNat with
    | some codes => exact h.settlesAt_expansion hc hlookup
    | none => exact h.settlesAt_runs hc hlookup

end CaseRules

private theorem lowerChar_settled : Settled lowerChar := by
  have hform : CaseRules.lower.form = lowerChar := by
    funext c
    unfold CaseRules.form lowerChar
    by_cases hdotted : c.toNat = 0x130
    · simp [hdotted, CaseRules.lower]
    · have hnone : CaseRules.lower.expansions.lookup c.toNat = none :=
        List.lookup_eq_none_iff.mpr (by simpa [CaseRules.lower] using hdotted)
      rw [hnone, if_neg hdotted]
      rfl
  exact hform ▸ CaseRules.lower_sound.settled

private theorem upperChar_settled : Settled upperChar := CaseRules.upper_sound.settled

/-! ## Forms of a text -/

@[simp] theorem flatMap_of_settled {form : Char → List Char} {chars : List Char}
    (h : ∀ c ∈ chars, form c = [c]) : chars.flatMap form = chars := by
  rw [List.flatMap_congr h, List.flatMap_singleton']

@[simp]
theorem Settled.flatMap_again {form : Char → List Char} (h : Settled form) (chars : List Char) :
    (chars.flatMap form).flatMap form = chars.flatMap form := by
  refine flatMap_of_settled fun d hd => ?_
  obtain ⟨c, -, hform⟩ := List.mem_flatMap.mp hd
  exact (h c).again d hform

@[simp] theorem upper_upper (text : String) : upper (upper text) = upper text := by
  rw [upper, upper, String.toList_ofList, upperChar_settled.flatMap_again]

private theorem lowerFrom_settled (cased : Bool) (chars : List Char) :
    ∀ d ∈ lowerFrom cased chars, lowerChar d = [d] := by
  induction chars generalizing cased with
  | nil => simp [lowerFrom]
  | cons c rest ih =>
      have hsigma : lowerChar finalSigma = [finalSigma] ∧ lowerChar smallSigma = [smallSigma] := by
        decide +kernel
      intro d hd
      rw [lowerFrom, List.mem_append] at hd
      obtain hd | hd := hd
      · split at hd
        · rw [List.mem_singleton] at hd
          subst hd
          split
          · exact hsigma.1
          · exact hsigma.2
        · exact (lowerChar_settled c).again d hd
      · exact ih _ d hd

@[simp] theorem lowerFrom_of_settled {chars : List Char} (h : ∀ c ∈ chars, lowerChar c = [c])
    (cased : Bool) : lowerFrom cased chars = chars := by
  induction chars generalizing cased with
  | nil => rfl
  | cons c rest ih =>
      obtain ⟨hc, hrest⟩ := List.forall_mem_cons.mp h
      have hsigma : c ≠ capitalSigma := by
        rintro rfl
        exact absurd hc (by decide +kernel)
      rw [lowerFrom, if_neg hsigma, hc, ih hrest, List.singleton_append]

@[simp] theorem lower_lower (text : String) : lower (lower text) = lower text := by
  rw [lower, lower, String.toList_ofList, lowerFrom_of_settled (lowerFrom_settled _ _)]

/-! ## Leading characters -/

def leads (c : Char) (text : String) : Bool := text.toList.head? = some c

@[simp] theorem dropLeading_of_not_leads {c : Char} {text : String} (h : leads c text = false) :
    dropLeading c text = text := by
  have hdrop : text.toList.dropWhile (· = c) = text.toList := by
    cases hchars : text.toList with
    | nil => rfl
    | cons first rest =>
        rw [leads, hchars] at h
        have hne : first ≠ c := by simpa using h
        simp [hne]
  rw [dropLeading, hdrop, String.ofList_toList]

@[simp] theorem not_leads_dropLeading (c : Char) (text : String) :
    leads c (dropLeading c text) = false := by
  have hhead := List.head?_dropWhile_not (fun d => decide (d = c)) text.toList
  rw [leads, dropLeading, String.toList_ofList, decide_eq_false_iff_not]
  intro hfirst
  rw [hfirst] at hhead
  simp at hhead

private theorem Settled.head?_append_ne {form : Char → List Char} (h : Settled form) {c : Char}
    (hc : c ≠ '\\') (rest : List Char) : (form c ++ rest).head? ≠ some '\\' := by
  rw [List.head?_append_of_ne_nil _ (h c).ne_nil]
  exact fun hhead => hc ((h c).backslash (List.mem_of_head? hhead))

@[simp] theorem not_leads_upper {text : String} (h : leads '\\' text = false) :
    leads '\\' (upper text) = false := by
  rw [leads, decide_eq_false_iff_not] at h ⊢
  rw [upper, String.toList_ofList]
  cases hchars : text.toList with
  | nil => simp
  | cons c rest =>
      rw [hchars] at h
      exact upperChar_settled.head?_append_ne (fun hc => h (congrArg some hc)) _

@[simp] theorem not_leads_lower {text : String} (h : leads '\\' text = false) :
    leads '\\' (lower text) = false := by
  rw [leads, decide_eq_false_iff_not] at h ⊢
  rw [lower, String.toList_ofList]
  cases hchars : text.toList with
  | nil => simp [lowerFrom]
  | cons c rest =>
      rw [hchars] at h
      have hsigma : finalSigma ≠ '\\' ∧ smallSigma ≠ '\\' := by decide
      rw [lowerFrom]
      split
      · simp only [List.singleton_append, List.head?_cons, ne_eq, Option.some.injEq]
        split
        · exact hsigma.1
        · exact hsigma.2
      · exact lowerChar_settled.head?_append_ne (fun hc => h (congrArg some hc)) _

end ScriptSandbox.Text
