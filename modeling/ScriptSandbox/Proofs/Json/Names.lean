import ScriptSandbox.Json.Parser
import ScriptSandbox.Proofs.Runs

/-!
# Names in objects

A JSON value is well-formed when no object in it repeats a name.  Every text that can be
read gives a well-formed value, since a repeated name keeps its first place and takes its
last value.
-/

namespace ScriptSandbox

/-! ## Records without repeated names -/

namespace Record

variable {α : Type}

@[simp] theorem get?_append (record other : Record α) (name : String) :
    get? (record ++ other) name = (get? record name).or (get? other name) := by
  induction record with
  | nil => rfl
  | cons entry rest ih =>
      by_cases h : entry.1 = name <;> simp [get?, h, ih]

@[simp] theorem get?_eq_none_iff {record : Record α} {name : String} :
    get? record name = none ↔ name ∉ names record := by
  induction record with
  | nil => simp [get?, names]
  | cons entry rest ih =>
      by_cases h : entry.1 = name
      · simp [get?, names, h]
      · simp only [get?, if_neg h, ih]
        simp [names, Ne.symm h]

@[simp] theorem has_eq_false_iff {record : Record α} {name : String} :
    has record name = false ↔ name ∉ names record := by
  simp [has]

theorem set_of_not_mem {record : Record α} {name : String} (value : α)
    (h : name ∉ names record) : set record name value = record ++ [(name, value)] := by
  induction record with
  | nil => rfl
  | cons entry rest ih =>
      simp only [names, List.map_cons, List.mem_cons, not_or] at h
      rw [set, if_neg (Ne.symm h.1), ih h.2, List.cons_append]

@[simp] theorem names_append (first second : Record α) :
    names (first ++ second) = names first ++ names second :=
  List.map_append

@[simp] theorem names_set (record : Record α) (name : String) (value : α) :
    names (set record name value) =
      if name ∈ names record then names record else names record ++ [name] := by
  induction record with
  | nil => simp [set, names]
  | cons entry rest ih =>
      by_cases h : entry.1 = name
      · simp [set, names, h]
      · simp only [names, List.map_cons] at ih ⊢
        rw [set, if_neg h, List.map_cons, ih]
        by_cases hrest : name ∈ rest.map Prod.fst <;> simp [hrest, Ne.symm h]

private theorem mem_of_mem_set {record : Record α} {name : String} {value : α} {entry : String × α}
    (h : entry ∈ set record name value) : entry ∈ record ∨ entry = (name, value) := by
  induction record with
  | nil => exact .inr (List.mem_singleton.mp h)
  | cons first rest ih =>
      rw [set] at h
      split at h
      case isTrue hname =>
        rcases List.mem_cons.mp h with rfl | h
        · exact .inr (by rw [hname])
        · exact .inl (List.mem_cons_of_mem first h)
      case isFalse =>
        rcases List.mem_cons.mp h with rfl | h
        · exact .inl List.mem_cons_self
        · exact (ih h).imp_left (List.mem_cons_of_mem first)

theorem get?_ofEntries (entries : List (String × α)) (name : String) :
    get? (ofEntries entries) name = get? entries.reverse name := by
  have hfold : ∀ record : Record α,
      get? (entries.foldl (fun record entry => set record entry.1 entry.2) record) name =
        (get? entries.reverse name).or (get? record name) := by
    induction entries with
    | nil => exact fun record => rfl
    | cons entry rest ih =>
        intro record
        rw [List.foldl_cons, ih, List.reverse_cons, get?_append, Option.or_assoc]
        congr 1
        by_cases h : entry.1 = name
        · subst h
          simp [get?]
        · rw [get?_set_ne _ _ (Ne.symm h)]
          simp [get?, h]
  rw [ofEntries, hfold]
  exact Option.or_none

theorem get?_reverse_of_nodup {record : Record α} (h : (names record).Nodup) (name : String) :
    get? record.reverse name = get? record name := by
  induction record with
  | nil => rfl
  | cons entry rest ih =>
      obtain ⟨hentry, hrest⟩ := List.nodup_cons.mp h
      rw [List.reverse_cons, get?_append, ih hrest]
      by_cases hname : entry.1 = name
      · subst hname
        rw [get?_eq_none_iff.mpr hentry]
        simp [get?]
      · simp [get?, hname]

@[simp] theorem ofEntries_of_nodup {entries : List (String × α)} (h : (names entries).Nodup) :
    ofEntries entries = entries := by
  have hfold : ∀ record : Record α, (names (record ++ entries)).Nodup →
      entries.foldl (fun record entry => set record entry.1 entry.2) record =
        record ++ entries := by
    induction entries with
    | nil => exact fun record _ => (List.append_nil record).symm
    | cons entry rest ih =>
        intro record hnames
        have hfresh : entry.1 ∉ names record := by
          rw [names, List.map_append, List.map_cons] at hnames
          intro hmem
          exact (List.nodup_append.mp hnames).2.2 _ hmem _ List.mem_cons_self rfl
        rw [List.foldl_cons, set_of_not_mem _ hfresh, ih (List.nodup_cons.mp h).2]
        · rw [List.append_assoc, List.singleton_append]
        · rwa [List.append_assoc, List.singleton_append]
  exact hfold [] h

theorem nodup_names_set {record : Record α} (name : String) (value : α)
    (h : (names record).Nodup) : (names (set record name value)).Nodup := by
  rw [names_set]
  by_cases hname : name ∈ names record
  · rwa [if_pos hname]
  · rw [if_neg hname, List.nodup_append]
    refine ⟨h, by simp, ?_⟩
    rintro other hother _ hname' rfl
    rw [List.mem_singleton] at hname'
    exact hname (hname' ▸ hother)

@[simp] theorem nodup_names_ofEntries (entries : List (String × α)) :
    (names (ofEntries entries)).Nodup := by
  have hfold : ∀ record : Record α, (names record).Nodup →
      (names (entries.foldl (fun record entry => set record entry.1 entry.2) record)).Nodup := by
    induction entries with
    | nil => exact fun record h => h
    | cons entry rest ih => exact fun record h => ih _ (nodup_names_set entry.1 entry.2 h)
  exact hfold [] List.nodup_nil

private theorem mem_of_mem_ofEntries {entries : List (String × α)} {entry : String × α}
    (h : entry ∈ ofEntries entries) : entry ∈ entries := by
  have hfold : ∀ record : Record α,
      entry ∈ entries.foldl (fun record entry => set record entry.1 entry.2) record →
        entry ∈ record ∨ entry ∈ entries := by
    clear h
    induction entries with
    | nil => exact fun record h => .inl h
    | cons first rest ih =>
        intro record h
        rcases ih _ h with h | h
        · rcases mem_of_mem_set h with h | rfl
          · exact .inl h
          · exact .inr List.mem_cons_self
        · exact .inr (List.mem_cons_of_mem first h)
  exact (hfold [] h).resolve_left (by simp)

end Record

/-! ## Well-formed values -/

namespace Json

mutual

/-- Whether no object in the value repeats a name. -/
def wellFormed : Json → Bool
  | .scalar _ => true
  | .arr items => itemsWellFormed items
  | .obj fields => decide (Record.names fields).Nodup && fieldsWellFormed fields
  termination_by structural value => value

def itemsWellFormed : List Json → Bool
  | [] => true
  | item :: rest => item.wellFormed && itemsWellFormed rest
  termination_by structural items => items

def fieldsWellFormed : List (String × Json) → Bool
  | [] => true
  | (_, value) :: rest => value.wellFormed && fieldsWellFormed rest
  termination_by structural fields => fields

end

@[simp] theorem itemsWellFormed_iff {items : List Json} :
    itemsWellFormed items = true ↔ ∀ item ∈ items, item.wellFormed = true := by
  induction items with
  | nil => simp [itemsWellFormed]
  | cons item rest ih =>
      simp only [itemsWellFormed, Bool.and_eq_true, ih, List.forall_mem_cons]

@[simp] theorem fieldsWellFormed_iff {fields : List (String × Json)} :
    fieldsWellFormed fields = true ↔ ∀ entry ∈ fields, entry.2.wellFormed = true := by
  induction fields with
  | nil => simp [fieldsWellFormed]
  | cons entry rest ih =>
      simp only [fieldsWellFormed, Bool.and_eq_true, ih, List.forall_mem_cons]

@[simp] theorem wellFormed_obj_iff {fields : List (String × Json)} :
    (Json.obj fields).wellFormed = true ↔
      (Record.names fields).Nodup ∧ ∀ entry ∈ fields, entry.2.wellFormed = true := by
  simp [wellFormed]

private theorem wellFormed_ofEntries {entries : List (String × Json)}
    (h : ∀ entry ∈ entries, entry.2.wellFormed = true) :
    (Json.obj (Record.ofEntries entries)).wellFormed = true :=
  wellFormed_obj_iff.mpr ⟨Record.nodup_names_ofEntries entries,
    fun entry hentry => h entry (Record.mem_of_mem_ofEntries hentry)⟩

/-! ## Reading -/

/-- All values that an open array or object holds so far are well-formed. -/
def Frame.Sound : Frame → Prop
  | .items done => ∀ item ∈ done, item.wellFormed = true
  | .entries done => ∀ entry ∈ done, entry.2.wellFormed = true
  | .member done _ => ∀ entry ∈ done, entry.2.wellFormed = true

structure Reader.Sound (reader : Reader) : Prop where
  frames : ∀ frame ∈ reader.frames, frame.Sound
  result : ∀ value, reader.expected = .nothing value → value.wellFormed = true

namespace Reader

private theorem Sound.of_frames {frames : List Frame} {expected : Expected}
    (h : ∀ frame ∈ frames, frame.Sound) (hexpected : ∀ value, expected ≠ .nothing value) :
    Sound ⟨frames, expected⟩ :=
  ⟨h, fun value hvalue => absurd hvalue (hexpected value)⟩

private theorem complete_sound {value : Json} {frames : List Frame} {reader : Reader}
    (hvalue : value.wellFormed = true) (hframes : ∀ frame ∈ frames, frame.Sound)
    (h : complete value frames = some reader) : reader.Sound := by
  cases frames with
  | nil =>
      cases h
      refine ⟨by simp, fun other hother => ?_⟩
      cases hother
      exact hvalue
  | cons frame rest =>
      obtain ⟨hframe, hrest⟩ := List.forall_mem_cons.mp hframes
      cases frame with
      | items done =>
          cases h
          have hdone : (Frame.items (value :: done)).Sound :=
            List.forall_mem_cons.mpr ⟨hvalue, hframe⟩
          exact .of_frames (List.forall_mem_cons.mpr ⟨hdone, hrest⟩) (by simp)
      | entries done => cases h
      | member done name =>
          cases h
          have hdone : (Frame.entries ((name, value) :: done)).Sound :=
            List.forall_mem_cons.mpr ⟨hvalue, hframe⟩
          exact .of_frames (List.forall_mem_cons.mpr ⟨hdone, hrest⟩) (by simp)

private theorem openOrScalar_sound {frames : List Frame} {token : Token} {reader : Reader}
    (hframes : ∀ frame ∈ frames, frame.Sound) (h : openOrScalar frames token = some reader) :
    reader.Sound := by
  have hopen : ∀ frame : Frame, frame.Sound → ∀ other ∈ frame :: frames, other.Sound :=
    fun frame hframe => List.forall_mem_cons.mpr ⟨hframe, hframes⟩
  cases token with
  | scalar value => exact complete_sound rfl hframes h
  | openArr =>
      cases h
      exact .of_frames (hopen (.items []) (by simp [Frame.Sound])) (by simp)
  | openObj =>
      cases h
      exact .of_frames (hopen (.entries []) (by simp [Frame.Sound])) (by simp)
  | _ => cases h

private theorem close_sound {frames : List Frame} {token : Token} {reader : Reader}
    (hframes : ∀ frame ∈ frames, frame.Sound) (h : close frames token = some reader) :
    reader.Sound := by
  unfold close at h
  split at h
  · split at h
    next done rest =>
      obtain ⟨hdone, hrest⟩ := List.forall_mem_cons.mp hframes
      refine complete_sound ?_ hrest h
      rw [wellFormed, itemsWellFormed_iff]
      exact fun item hitem => hdone item (List.mem_reverse.mp hitem)
    next => cases h
  · split at h
    next done rest =>
      obtain ⟨hdone, hrest⟩ := List.forall_mem_cons.mp hframes
      refine complete_sound (wellFormed_ofEntries ?_) hrest h
      exact fun entry hentry => hdone entry (List.mem_reverse.mp hentry)
    next => cases h
  · cases h

private theorem step_sound {reader next : Reader} {token : Token} (hreader : reader.Sound)
    (h : reader.step token = some next) : next.Sound := by
  obtain ⟨hframes, _⟩ := hreader
  unfold step at h
  split at h
  · exact openOrScalar_sound hframes h
  · exact close_sound hframes h
  · exact openOrScalar_sound hframes h
  · cases h
    exact .of_frames hframes (by simp)
  · cases h
    exact .of_frames hframes (by simp)
  · exact close_sound hframes h
  next name _ =>
    split at h
    next done rest hdone =>
      cases h
      rw [hdone] at hframes
      obtain ⟨hframe, hrest⟩ := List.forall_mem_cons.mp hframes
      have hmember : (Frame.member done name).Sound := hframe
      exact .of_frames (List.forall_mem_cons.mpr ⟨hmember, hrest⟩) (by simp)
    next => cases h
  · split at h
    · cases h
      exact .of_frames hframes (by simp)
    · cases h
      exact .of_frames hframes (by simp)
    · cases h
  · exact close_sound hframes h
  · cases h

private theorem foldlM_sound {tokens : List Token} {reader last : Reader} (hreader : reader.Sound)
    (h : tokens.foldlM step reader = some last) : last.Sound := by
  induction tokens generalizing reader with
  | nil =>
      cases h
      exact hreader
  | cons token rest ih =>
      rw [List.foldlM_cons, Option.bind_eq_bind, Option.bind_eq_some_iff] at h
      obtain ⟨next, hnext, h⟩ := h
      exact ih (step_sound hreader hnext) h

end Reader

theorem wellFormed_of_parse? {text : String} {value : Json} (h : parse? text = some value) :
    value.wellFormed = true := by
  rw [parse?, Option.bind_eq_bind, Option.bind_eq_some_iff] at h
  obtain ⟨tokens, _, h⟩ := h
  rw [ofTokens?, Option.bind_eq_bind, Option.bind_eq_some_iff] at h
  obtain ⟨last, hlast, h⟩ := h
  have hstart : Reader.start.Sound := .of_frames (by simp) (by simp)
  have hsound := Reader.foldlM_sound hstart hlast
  unfold Reader.result? at h
  split at h
  next result hresult =>
    cases h
    exact hsound.result value hresult
  next => cases h

end Json

end ScriptSandbox
