import ScriptSandbox.Config.Form

/-!
# Places of faults

Two places have an order only where the first steps in which they differ are two names or
two positions: a name and a position cannot be compared.  All places inside one value are
reached through the same kind of step, so the faults of a configuration can be sorted.
-/

namespace ScriptSandbox.Config

def PlaceStep.less? : PlaceStep → PlaceStep → Option Bool
  | .name a, .name b => some (a < b)
  | .index a, .index b => some (a < b)
  | _, _ => none

/-- Decided by the first steps that differ, else by the length. -/
def lessPlace? : Place → Place → Option Bool
  | [], [] => some false
  | [], _ :: _ => some true
  | _ :: _, [] => some false
  | a :: as, b :: bs => if a = b then lessPlace? as bs else a.less? b

private theorem PlaceStep.less?_of_ne {a b : PlaceStep} {answer : Bool} (hne : a ≠ b)
    (h : a.less? b = some answer) : answer = !b.lt a := by
  have hflip : ∀ x y : Bool, (x = true ↔ ¬ y = true) → x = !y := by decide
  cases a with
  | name a =>
      cases b with
      | name b =>
          cases h
          have hab : a ≠ b := fun heq => hne (heq ▸ rfl)
          refine hflip _ _ ?_
          simp only [PlaceStep.lt, decide_eq_true_eq, String.not_lt]
          exact ⟨Std.le_of_lt, fun hle => Std.lt_of_le_of_ne hle hab⟩
      | index b => cases h
  | index a =>
      cases b with
      | name b => cases h
      | index b =>
          cases h
          have hab : a ≠ b := fun heq => hne (heq ▸ rfl)
          refine hflip _ _ ?_
          simp only [PlaceStep.lt, decide_eq_true_eq]
          omega

private theorem lessPlace?_eq {a b : Place} (h : (lessPlace? a b).isSome) :
    lessPlace? a b = some (!placeLe b a) := by
  induction a generalizing b with
  | nil => cases b <;> rfl
  | cons a as ih =>
      cases b with
      | nil => rfl
      | cons b bs =>
          rw [lessPlace?] at h ⊢
          rw [placeLe]
          by_cases hab : a = b
          · subst hab
            have hirrefl : a.lt a = false := by cases a <;> simp [PlaceStep.lt]
            rw [if_pos rfl] at h ⊢
            rw [ih h, hirrefl]
            simp
          · rw [if_neg hab] at h ⊢
            obtain ⟨answer, hanswer⟩ := Option.isSome_iff_exists.mp h
            rw [hanswer, PlaceStep.less?_of_ne hab hanswer]
            simp [Ne.symm hab]

def Comparable (places : Place → Prop) : Prop :=
  ∀ a b, places a → places b → (lessPlace? a b).isSome

def Here (place : Place) : Prop := place = []

def InEntries (inner : String → Place → Prop) : Place → Prop
  | [] => True
  | .name name :: rest => inner name rest
  | .index _ :: _ => False

def InItems (inner : Place → Prop) : Place → Prop
  | [] => True
  | .index _ :: rest => inner rest
  | .name _ :: _ => False

private theorem here_nil : Here [] := rfl

private theorem comparable_here : Comparable Here := by
  rintro a b rfl rfl
  rfl

private theorem Comparable.inEntries {inner : String → Place → Prop}
    (h : ∀ name, Comparable (inner name)) : Comparable (InEntries inner)
  | [], [], _, _ | [], _ :: _, _, _ | _ :: _, [], _, _ => rfl
  | .name a :: as, .name b :: bs, ha, hb => by
      rw [lessPlace?]
      by_cases hab : a = b
      · subst hab
        rw [if_pos rfl]
        exact h a as bs ha hb
      · rw [if_neg (fun heq => hab (PlaceStep.name.inj heq))]
        rfl
  | .index _ :: _, _ :: _, ha, _ => ha.elim
  | .name _ :: _, .index _ :: _, _, hb => hb.elim

private theorem Comparable.inItems {inner : Place → Prop} (h : Comparable inner) :
    Comparable (InItems inner)
  | [], [], _, _ | [], _ :: _, _, _ | _ :: _, [], _, _ => rfl
  | .index a :: as, .index b :: bs, ha, hb => by
      rw [lessPlace?]
      by_cases hab : a = b
      · subst hab
        rw [if_pos rfl]
        exact h as bs ha hb
      · rw [if_neg (fun heq => hab (PlaceStep.index.inj heq))]
        rfl
  | .name _ :: _, _ :: _, ha, _ => ha.elim
  | .index _ :: _, .name _ :: _, _, hb => hb.elim

def AllAt (places : Place → Prop) (findings : List Finding) : Prop :=
  ∀ finding ∈ findings, places finding.place

theorem AllAt.append {places : Place → Prop} {first second : List Finding}
    (hfirst : AllAt places first) (hsecond : AllAt places second) :
    AllAt places (first ++ second) :=
  List.forall_mem_append.mpr ⟨hfirst, hsecond⟩

namespace Form

private theorem at?_places {places : Place → Prop} {fault : Fault} {found : Bool} (h : places []) :
    AllAt places (at? [] fault found) := by
  intro finding hfinding
  rw [at?] at hfinding
  split at hfinding
  · rw [List.mem_singleton.mp hfinding]
    exact h
  · cases hfinding

private theorem entryFindings_places {inner : String → Place → Prop}
    {findings : Json → List Finding}
    {name : String} (h : ∀ value, AllAt (inner name) (findings value)) (fields : Record Json) :
    AllAt (InEntries inner) (entryFindings findings name fields) := by
  intro finding hfinding
  rw [entryFindings] at hfinding
  split at hfinding
  case h_1 value _ =>
    obtain ⟨found, hfound, rfl⟩ := List.mem_map.mp hfinding
    exact h value found hfound
  case h_2 => cases hfinding

private theorem allEntryFindings_places {inner : String → Place → Prop}
    {findings : Json → List Finding}
    (h : ∀ name value, AllAt (inner name) (findings value)) (fields : Record Json) :
    AllAt (InEntries inner) (allEntryFindings findings fields) := by
  intro finding hfinding
  obtain ⟨entry, _, hentry⟩ := List.mem_flatMap.mp hfinding
  obtain ⟨found, hfound, rfl⟩ := List.mem_map.mp hentry
  exact h entry.1 entry.2 found hfound

private theorem itemFindings_places {inner : Place → Prop} {findings : Json → List Finding}
    (h : ∀ value, AllAt inner (findings value)) (position : Nat) (items : List Json) :
    AllAt (InItems inner) (itemFindings findings position items) := by
  induction items generalizing position with
  | nil => exact fun _ hfinding => by cases hfinding
  | cons item rest ih =>
      refine .append (fun finding hfinding => ?_) (ih (position + 1))
      obtain ⟨found, hfound, rfl⟩ := List.mem_map.mp hfinding
      exact h item found hfound

private theorem nonEmptyText_places (value : Json) : AllAt Here (nonEmptyText value) :=
  (at?_places here_nil).append (at?_places here_nil)

private theorem nameList_places (value : Json) : AllAt (InItems Here) (nameList value) :=
  ((at?_places trivial).append (itemFindings_places nonEmptyText_places 0 _)).append
    (at?_places trivial)

private theorem refusedNames_places {inner : String → Place → Prop} (fault : String → Fault)
    (refused : String → Bool) (fields : Record Json) :
    AllAt (InEntries inner)
      ((Record.names fields).flatMap fun name => at? [] (fault name) (refused name)) := by
  intro finding hfinding
  obtain ⟨name, _, hname⟩ := List.mem_flatMap.mp hfinding
  exact at?_places trivial finding hname

private theorem nameLists_places (value : Json) :
    AllAt (InEntries fun _ => InItems Here) (nameLists value) :=
  ((at?_places trivial).append (refusedNames_places _ _ _)).append
    (allEntryFindings_places (fun _ => nameList_places) _)

private theorem handleName_places (value : Json) : AllAt Here (handleName value) := by
  refine .append (at?_places here_nil) ?_
  split
  · exact at?_places here_nil
  · exact fun _ hfinding => by cases hfinding

private theorem options_places (value : Json) : AllAt (InEntries fun _ => Here) (options value) :=
  (((at?_places trivial).append (entryFindings_places handleName_places _)).append
    (refusedNames_places _ _ _)).append
      (allEntryFindings_places (fun _ _ => at?_places here_nil) _)

private theorem classes_places (value : Json) : AllAt (InEntries fun _ => Here) (classes value) :=
  (at?_places trivial).append (allEntryFindings_places (fun _ => nonEmptyText_places) _)

private theorem aliases_places (value : Json) : AllAt (InEntries fun _ => Here) (aliases value) :=
  (at?_places trivial).append (allEntryFindings_places (fun _ _ => at?_places here_nil) _)

def InDefinition : String → Place → Prop
  | "classes" => InEntries fun _ => Here
  | "aliases" => InEntries fun _ => Here
  | _ => InItems Here

def InSection : String → Place → Prop
  | "options" => InEntries fun _ => Here
  | "definitions" => InEntries InDefinition
  | _ => InEntries fun _ => InItems Here

private theorem definitions_places (value : Json) :
    AllAt (InEntries InDefinition) (definitions value) := by
  have hentry : ∀ {findings : Json → List Finding} {name : String},
      (∀ value, AllAt (InDefinition name) (findings value)) →
        AllAt (InEntries InDefinition) (entryFindings findings name (fieldsOf value)) :=
    fun h => entryFindings_places h _
  refine .append (.append (.append (.append (.append (.append ?_ ?_) ?_) ?_) ?_) ?_) ?_
  · exact at?_places trivial
  · exact at?_places trivial
  · exact hentry nameList_places
  · exact hentry nameList_places
  · exact hentry nameList_places
  · exact hentry classes_places
  · exact hentry aliases_places

private theorem findings_places (value : Json) : AllAt (InEntries InSection) (findings value) := by
  have hentry : ∀ {findings : Json → List Finding} {name : String},
      (∀ value, AllAt (InSection name) (findings value)) →
        AllAt (InEntries InSection) (entryFindings findings name (fieldsOf value)) :=
    fun h => entryFindings_places h _
  refine .append (.append (.append (.append (.append ?_ ?_) ?_) ?_) ?_) ?_
  · exact at?_places trivial
  · exact at?_places trivial
  · exact hentry options_places
  · exact hentry nameLists_places
  · exact hentry nameLists_places
  · exact hentry definitions_places

private theorem comparable_inDefinition (name : String) : Comparable (InDefinition name) := by
  unfold InDefinition
  split
  · exact .inEntries fun _ => comparable_here
  · exact .inEntries fun _ => comparable_here
  · exact comparable_here.inItems

private theorem comparable_inSection (name : String) : Comparable (InSection name) := by
  unfold InSection
  split
  · exact .inEntries fun _ => comparable_here
  · exact .inEntries comparable_inDefinition
  · exact .inEntries fun _ => comparable_here.inItems

theorem lessPlace?_of_mem_findings {value : Json} {a b : Finding} (ha : a ∈ findings value)
    (hb : b ∈ findings value) :
    lessPlace? a.place b.place = some (!placeLe b.place a.place) := by
  have hcomparable : Comparable (InEntries InSection) := .inEntries comparable_inSection
  exact lessPlace?_eq (hcomparable a.place b.place (findings_places value a ha)
    (findings_places value b hb))

end Form

end ScriptSandbox.Config
