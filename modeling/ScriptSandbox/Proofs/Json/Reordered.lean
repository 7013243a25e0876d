import ScriptSandbox.Proofs.Json.Names

/-!
# Reordered values

Two values are alike up to order when one comes from the other by moving entries of objects
and items of arrays, at any depth.  A path of entries leads to values that are alike.
-/

namespace ScriptSandbox

namespace Json

def text? : Json → Option String
  | .str text => some text
  | _ => none

def at? : Json → List String → Option Json
  | value, [] => some value
  | .obj fields, name :: path => (Record.get? fields name).bind (at? · path)
  | _, _ :: _ => none

mutual

inductive Reordered : Json → Json → Prop
  | scalar (value : Scalar) : Reordered (.scalar value) (.scalar value)
  | arr {items others : List Json} (h : ItemsReordered items others) :
      Reordered (.arr items) (.arr others)
  | obj {fields others : List (String × Json)} (h : FieldsReordered fields others) :
      Reordered (.obj fields) (.obj others)

inductive ItemsReordered : List Json → List Json → Prop
  | nil : ItemsReordered [] []
  | cons {item other : Json} {rest before after : List Json} (hitem : Reordered item other)
      (hrest : ItemsReordered rest (before ++ after)) :
      ItemsReordered (item :: rest) (before ++ other :: after)

inductive FieldsReordered : List (String × Json) → List (String × Json) → Prop
  | nil : FieldsReordered [] []
  | cons {name : String} {value other : Json} {rest before after : List (String × Json)}
      (hvalue : Reordered value other) (hrest : FieldsReordered rest (before ++ after)) :
      FieldsReordered ((name, value) :: rest) (before ++ (name, other) :: after)

end

theorem ItemsReordered.single {item other : Json} (h : Reordered item other) :
    ItemsReordered [item] [other] :=
  @ItemsReordered.cons _ _ _ [] [] h .nil

theorem ItemsReordered.perm_texts {items others : List Json} :
    ItemsReordered items others → (items.filterMap text?).Perm (others.filterMap text?)
  | .nil => .nil
  | @ItemsReordered.cons item other _ before after hitem hrest => by
      have hrest := hrest.perm_texts
      rw [List.filterMap_append] at hrest
      have htext : item.text? = other.text? := by cases hitem <;> rfl
      rw [List.filterMap_append, List.filterMap_cons, List.filterMap_cons, htext]
      cases other.text? with
      | none => exact hrest
      | some text => exact (hrest.cons text).trans List.perm_middle.symm

theorem ItemsReordered.exists_of_mem {items others : List Json} {other : Json} :
    ItemsReordered items others → other ∈ others → ∃ item ∈ items, Reordered item other
  | @ItemsReordered.cons item _ _ _ _ hitem hrest, hother => by
      rcases List.mem_cons.mp (List.perm_middle.mem_iff.mp hother) with rfl | hother
      · exact ⟨item, List.mem_cons_self, hitem⟩
      · obtain ⟨found, hfound, hsame⟩ := hrest.exists_of_mem hother
        exact ⟨found, List.mem_cons_of_mem item hfound, hsame⟩

theorem FieldsReordered.single {name : String} {value other : Json} (h : Reordered value other) :
    FieldsReordered [(name, value)] [(name, other)] :=
  @FieldsReordered.cons _ _ _ _ [] [] h .nil

theorem FieldsReordered.perm_names {fields others : List (String × Json)} :
    FieldsReordered fields others → (Record.names fields).Perm (Record.names others)
  | .nil => .nil
  | @FieldsReordered.cons name _ _ _ _ _ hvalue hrest => by
      have hrest := hrest.perm_names
      rw [Record.names_append] at hrest
      rw [Record.names_append]
      exact (hrest.cons name).trans List.perm_middle.symm

theorem FieldsReordered.exists_of_mem_left {fields others : List (String × Json)}
    {entry : String × Json} : FieldsReordered fields others → entry ∈ fields →
      ∃ other, (entry.1, other) ∈ others ∧ Reordered entry.2 other
  | .cons hvalue hrest, hentry => by
      rcases List.mem_cons.mp hentry with rfl | hentry
      · exact ⟨_, List.mem_append_right _ List.mem_cons_self, hvalue⟩
      · obtain ⟨other, hother, hsame⟩ := hrest.exists_of_mem_left hentry
        exact ⟨other, List.perm_middle.mem_iff.mpr (List.mem_cons_of_mem _ hother), hsame⟩

theorem FieldsReordered.exists_of_mem_right {fields others : List (String × Json)}
    {other : String × Json} : FieldsReordered fields others → other ∈ others →
      ∃ value, (other.1, value) ∈ fields ∧ Reordered value other.2
  | .cons hvalue hrest, hother => by
      rcases List.mem_cons.mp (List.perm_middle.mem_iff.mp hother) with rfl | hother
      · exact ⟨_, List.mem_cons_self, hvalue⟩
      · obtain ⟨value, hmem, hsame⟩ := hrest.exists_of_mem_right hother
        exact ⟨value, List.mem_cons_of_mem _ hmem, hsame⟩

end Json

private theorem Record.get?_eq_some_iff {α : Type} {record : Record α} (h : (names record).Nodup)
    {name : String} {value : α} : get? record name = some value ↔ (name, value) ∈ record := by
  induction record with
  | nil => simp [get?]
  | cons entry rest ih =>
      obtain ⟨hentry, hrest⟩ := List.nodup_cons.mp h
      rw [get?, List.mem_cons, Prod.ext_iff]
      by_cases hname : entry.1 = name
      · subst hname
        have hfresh : (entry.1, value) ∉ rest := fun hmem =>
          hentry (List.mem_map.mpr ⟨_, hmem, rfl⟩)
        simp [hfresh, eq_comm]
      · simp [hname, Ne.symm hname, ih hrest]

namespace Json

theorem FieldsReordered.get? {fields others : List (String × Json)}
    (h : FieldsReordered fields others) (hnames : (Record.names fields).Nodup) (name : String) :
    Option.Rel Reordered (Record.get? fields name) (Record.get? others name) := by
  have hothers : (Record.names others).Nodup := h.perm_names.nodup_iff.mp hnames
  cases hget : Record.get? fields name with
  | none =>
      rw [Record.get?_eq_none_iff, h.perm_names.mem_iff, ← Record.get?_eq_none_iff] at hget
      rw [hget]
      exact .none
  | some value =>
      rw [Record.get?_eq_some_iff hnames] at hget
      obtain ⟨other, hother, hsame⟩ := h.exists_of_mem_left hget
      rw [(Record.get?_eq_some_iff hothers).mpr hother]
      exact .some hsame

theorem FieldsReordered.exists_of_get? {fields others : List (String × Json)}
    (h : FieldsReordered fields others) (hnames : (Record.names fields).Nodup) {name : String}
    {other : Json} (hother : Record.get? others name = some other) :
    ∃ value, Record.get? fields name = some value ∧ Reordered value other := by
  have hget := h.get? hnames name
  rw [hother] at hget
  generalize Record.get? fields name = found at hget
  cases hget with
  | some hsame => exact ⟨_, rfl, hsame⟩

theorem wellFormed_of_get? {fields : List (String × Json)} {name : String} {entry : Json}
    (hfields : (obj fields).wellFormed = true) (h : Record.get? fields name = some entry) :
    entry.wellFormed = true := by
  obtain ⟨found, hmem, rfl⟩ := Record.exists_of_get?_eq_some h
  exact (wellFormed_obj_iff.mp hfields).2 found hmem

theorem Reordered.at? {value other : Json} (h : Reordered value other)
    (hvalue : value.wellFormed = true) (path : List String) :
    Option.Rel Reordered (value.at? path) (other.at? path) := by
  induction path generalizing value other with
  | nil => exact .some h
  | cons name path ih =>
      cases h with
      | scalar => exact .none
      | arr => exact .none
      | @obj fields others hfields =>
          have hfound : ∀ entry, Record.get? fields name = some entry →
              entry.wellFormed = true := fun _ => wellFormed_of_get? hvalue
          have hget := hfields.get? (wellFormed_obj_iff.mp hvalue).1 name
          rw [Json.at?, Json.at?]
          revert hget hfound
          generalize Record.get? fields name = found
          generalize Record.get? others name = otherFound
          rintro hfound (hsame | _)
          · exact ih hsame (hfound _ rfl)
          · exact .none

end Json

end ScriptSandbox
