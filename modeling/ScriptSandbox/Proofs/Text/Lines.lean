import Mathlib.Data.List.Infix
import ScriptSandbox.Text.Lines

/-!
# Lines and parts of a text

Texts that are written on lines of their own are read back as they are exactly when none
of them holds a line boundary.  A part that lacks a separator is a part of one of the
pieces between separators.
-/

namespace ScriptSandbox.Text

def SingleLine (text : String) : Prop :=
  ∀ c ∈ text.toList, isLineBoundary c = false

private theorem singleLine_of_mem_linesFrom {line rest : List Char} {text : String}
    (hline : ∀ c ∈ line, isLineBoundary c = false) (h : text ∈ linesFrom line rest) :
    SingleLine text := by
  have hcurrent : ∀ {line : List Char}, (∀ c ∈ line, isLineBoundary c = false) →
      SingleLine (String.ofList line.reverse) := by
    intro line hline c hc
    rw [String.toList_ofList, List.mem_reverse] at hc
    exact hline c hc
  induction line, rest using linesFrom.induct with
  | case1 line hempty => simp [linesFrom, hempty] at h
  | case2 line hline' =>
      rw [linesFrom, if_neg hline', List.mem_singleton] at h
      exact h ▸ hcurrent hline
  | case3 line rest ih =>
      rw [linesFrom, List.mem_cons] at h
      rcases h with rfl | h
      · exact hcurrent hline
      · exact ih (by simp) h
  | case4 line c rest hreturn hboundary ih =>
      rw [linesFrom, if_pos hboundary, List.mem_cons] at h
      · rcases h with rfl | h
        · exact hcurrent hline
        · exact ih (by simp) h
      · exact hreturn
  | case5 line c rest hreturn hboundary ih =>
      rw [linesFrom, if_neg hboundary] at h
      · refine ih ?_ h
        exact List.forall_mem_cons.mpr ⟨Bool.eq_false_iff.mpr hboundary, hline⟩
      · exact hreturn

private theorem linesFrom_append {text : List Char} (h : ∀ c ∈ text, isLineBoundary c = false)
    (line rest : List Char) :
    linesFrom line (text ++ '\n' :: rest) =
      String.ofList (line.reverse ++ text) :: linesFrom [] rest := by
  induction text generalizing line with
  | nil =>
      rw [List.nil_append, List.append_nil, linesFrom, if_pos (by decide)]
      simp
  | cons c text ih =>
      obtain ⟨hc, htext⟩ := List.forall_mem_cons.mp h
      rw [List.cons_append, linesFrom, if_neg (by simp [hc]), ih htext]
      · simp
      · rintro _ rfl
        cases hc

@[simp] theorem lines_join_eq_iff {texts : List String} :
    lines (String.join (texts.map fun text => text ++ "\n")) = texts ↔
      ∀ text ∈ texts, SingleLine text := by
  constructor
  · intro h text htext
    rw [← h] at htext
    exact singleLine_of_mem_linesFrom (by simp) htext
  · intro h
    rw [lines, String.toList_join]
    induction texts with
    | nil => rfl
    | cons text rest ih =>
        obtain ⟨htext, hrest⟩ := List.forall_mem_cons.mp h
        have hnewline : (text ++ "\n").toList = text.toList ++ ['\n'] := String.toList_append
        rw [List.map_cons, List.flatMap_cons, hnewline, List.append_assoc, List.singleton_append,
          linesFrom_append htext, ih hrest]
        simp

@[simp] theorem contains_iff {text part : String} :
    contains text part = true ↔ part.toList <:+: text.toList := by
  have hchars : ∀ part chars : List Char, containsAt part chars = true ↔ part <:+: chars := by
    intro part chars
    induction chars with
    | nil => simp [containsAt]
    | cons c rest ih =>
        rw [containsAt, Bool.or_eq_true, List.isPrefixOf_iff_prefix, ih, List.infix_cons_iff]
  exact hchars part.toList text.toList

variable {part : List Char} {separator : Char}

@[simp] theorem infix_append_cons_iff (h : separator ∉ part) {first second : List Char} :
    part <:+: first ++ separator :: second ↔ part <:+: first ∨ part <:+: second := by
  have hhead : ∀ {piece : List Char}, separator ∉ piece → piece <+: separator :: second →
      piece = [] := by
    rintro (_ | ⟨c, piece⟩) hmem hpiece
    · rfl
    · obtain ⟨rfl, _⟩ := List.cons_prefix_cons.mp hpiece
      exact absurd List.mem_cons_self hmem
  constructor
  · intro hpart
    rcases List.infix_append_iff.mp hpart with hfirst | hsecond | ⟨piece, rest, rfl, hfirst, hrest⟩
    · exact .inl hfirst
    · rcases List.infix_cons_iff.mp hsecond with hsecond | hsecond
      · exact .inl (hhead h hsecond ▸ List.nil_infix)
      · exact .inr hsecond
    · have hnone := hhead (fun hmem => h (List.mem_append_right _ hmem)) hrest
      rw [hnone, List.append_nil]
      exact .inl hfirst.isInfix
  · rintro (hfirst | hsecond)
    · exact hfirst.trans (List.prefix_append _ _).isInfix
    · exact hsecond.trans ((List.suffix_cons _ _).trans (List.suffix_append _ _)).isInfix

theorem infix_intercalate_iff (h : separator ∉ part) (hne : part ≠ []) (pieces : List (List Char)) :
    part <:+: [separator].intercalate pieces ↔ ∃ piece ∈ pieces, part <:+: piece := by
  induction pieces with
  | nil => simp [List.intercalate_nil, hne]
  | cons piece rest ih =>
      cases rest with
      | nil => simp [List.intercalate_singleton]
      | cons next others =>
          rw [List.intercalate_cons_cons, List.append_assoc, List.singleton_append,
            infix_append_cons_iff h, ih]
          simp

theorem infix_replace_iff {old new : Char} (hne : old ≠ new) (hnew : new ∉ part)
    {text : List Char} :
    part <:+: text.map (fun c => if c = old then new else c) ↔ old ∉ part ∧ part <:+: text := by
  constructor
  · rintro ⟨before, after, h⟩
    obtain ⟨front, afterText, rfl, hfront, _⟩ := List.map_eq_append_iff.mp h.symm
    obtain ⟨beforeText, original, rfl, _, horiginal⟩ := List.map_eq_append_iff.mp hfront
    have hkept : ∀ c ∈ original, c ≠ old := by
      rintro c hc rfl
      refine hnew (horiginal ▸ List.mem_map.mpr ⟨c, hc, if_pos rfl⟩)
    have hsame : original = part := by
      rw [← horiginal, List.map_congr_left fun c hc => if_neg (hkept c hc), List.map_id']
    subst hsame
    exact ⟨fun hold => hkept old hold rfl, List.infix_append _ _ _⟩
  · rintro ⟨hold, before, after, rfl⟩
    have hsame : part.map (fun c => if c = old then new else c) = part := by
      rw [List.map_congr_left fun c hc => if_neg (ne_of_mem_of_not_mem hc hold), List.map_id']
    rw [List.map_append, List.map_append, hsame]
    exact List.infix_append _ _ _

end ScriptSandbox.Text
