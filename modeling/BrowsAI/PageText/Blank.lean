import BrowsAI.PageText.Spans

/-!
# Cells that print nothing

A table cell prints its own text when the visits below it print nothing but white space. Whether
they do is read off the walk: `blank_iff` says that the output of a visit is blank exactly when the
visit and all visits below it print blanks themselves, so that `FallsBack` does not mention the
output at all.
-/

namespace BrowsAI.PageText

open Utf8 AgentTree Fragment Relation

/-- Nothing but white space. -/
def Blank (t : Text) : Prop := ∀ c ∈ t, isWhitespace c

@[simp] theorem blank_nil : Blank [] := by simp [Blank]

@[simp] theorem blank_append {s t : Text} : Blank (s ++ t) ↔ Blank s ∧ Blank t := by
  simp [Blank, or_imp, forall_and]

@[simp] theorem blank_newline : Blank ['\n'] := by
  intro c hc
  rw [List.mem_singleton.mp hc]
  decide

/-- One line is blank if the text is. -/
theorem blank_one_line {t : Text} : Blank (oneLine t) ↔ Blank t := by
  induction t with
  | nil => rfl
  | cons c t ih =>
      have hsplit : oneLine (c :: t) = [if c = '\n' then ' ' else c] ++ oneLine t :=
        one_line_cons c t
      have hfold : isWhitespace (if c = '\n' then ' ' else c) = isWhitespace c := by
        split_ifs with hc
        · rw [hc]
          decide
        · rfl
      have hhead : Blank [if c = '\n' then ' ' else c] ↔ Blank [c] := by simp [Blank, hfold]
      rw [hsplit, blank_append, hhead, ih, ← blank_append, List.singleton_append]

theorem collapse_eq_nil_iff {t : Text} : collapse t = [] ↔ Blank t := by
  rw [← blank_one_line]
  exact trim_eq_nil_iff

theorem blank_collapse {t : Text} : Blank (collapse t) ↔ Blank t := by
  constructor
  · intro h
    obtain ⟨v, w, hs, hv, hw⟩ := exists_trim (oneLine t)
    rw [← blank_one_line, hs, blank_append, blank_append]
    exact ⟨hv, h, hw⟩
  · intro h
    rw [collapse_eq_nil_iff.mpr h]
    exact blank_nil

/-- Escaping leaves blank texts blank. -/
theorem blank_escape_pipes {t : Text} : Blank (escapePipes t) ↔ Blank t := by
  induction t with
  | nil => rfl
  | cons c t ih =>
      have hsplit : escapePipes (c :: t) = escapePipes [c] ++ escapePipes t :=
        replace_append '|' "\\|" [c] t
      have hhead : Blank (escapePipes [c]) ↔ Blank [c] := by
        by_cases hc : c = '|'
        · subst hc
          have hbar : ¬ Blank ['|'] := fun h => absurd (h '|' (by simp)) (by decide)
          have hpair : ¬ Blank ("\\|" : Text) := fun h => absurd (h '|' (by decide)) (by decide)
          exact iff_of_false hpair hbar
        · rw [escapePipes, replace_of_not_mem (by simpa using Ne.symm hc)]
      rw [hsplit, blank_append, hhead, ih, ← blank_append, List.singleton_append]

section Own

variable [F64Display] (tree : AgentRenderTree) (opts : MarkdownOptions)

/-- The text of a frame itself; for a cell with the text that it falls back to. -/
def Frame.own : Frame → Text
  | .skip => []
  | .around _ before after trail => textOf before ++ (textOf after ++ textOf trail)
  | .item depth => bullet depth
  | .row lead trail => lead ++ trail
  | .cell sep fallback => sep ++ fallback.getD []

/-- Nothing below the visit prints anything but white space. -/
def BlankBelow (v : Visit) : Prop :=
  ∀ u ∈ next tree opts v, ∀ w, Reaches tree opts u w → Blank (frame tree opts w).own

/-- The visit and everything below it print nothing but white space. -/
def BlankFrom (v : Visit) : Prop := ∀ w, Reaches tree opts v w → Blank (frame tree opts w).own

/-- The visit is a cell that prints the text `t` of its node. -/
def FallsBack (v : Visit) (t : Text) : Prop :=
  ∃ sep, frame tree opts v = .cell sep (some t) ∧ BlankBelow tree opts v

end Own

section Blank

variable [F64Display] {tree : AgentRenderTree} {opts : MarkdownOptions}

theorem blank_from_iff {v : Visit} :
    BlankFrom tree opts v ↔ Blank (frame tree opts v).own ∧ BlankBelow tree opts v := by
  constructor
  · exact fun h => ⟨h v .refl, fun u hu w hw => h w (.head hu hw)⟩
  · rintro ⟨hv, hbelow⟩ w hw
    rcases hw.cases_head with rfl | ⟨u, hu, huw⟩
    · exact hv
    · exact hbelow u hu w huw

omit [F64Display] in
theorem blank_concat {fs : List Fragment} :
    Blank (concat fs).text ↔ ∀ f ∈ fs, Blank f.text := by
  induction fs with
  | nil => simp
  | cons f fs ih => simp [ih]

omit [F64Display] in
/-- A cell is blank exactly if its fallback and its text are. -/
theorem blank_cell_text {fallback : Option Text} {raw : Text}
    (hnone : fallback = none → Blank raw) :
    Blank (cellText fallback raw) ↔ Blank (fallback.getD []) ∧ Blank raw := by
  cases fallback with
  | none => simp [cellText, hnone rfl]
  | some text =>
      simp only [cellText, blank_escape_pipes, Option.getD_some]
      split_ifs with hraw
      · have := collapse_eq_nil_iff.mp hraw
        simp [this]
      · have hne : ¬ Blank raw := fun h => hraw (collapse_eq_nil_iff.mpr h)
        simp [blank_collapse, hne]

/-- The fragments below a visit are blank when the visits below it print blanks. -/
theorem blank_below {v : Visit} {fs : List Fragment}
    (hfs : List.Forall₂ (fun u f => Blank f.text ↔ BlankFrom tree opts u) (next tree opts v) fs) :
    Blank (concat fs).text ↔ BlankBelow tree opts v := by
  rw [blank_concat]
  constructor
  · intro h u hu
    obtain ⟨f, hf, hblank⟩ := Unfold.exists_of_mem_left hfs hu
    exact hblank.mp (h f hf)
  · intro h f hf
    obtain ⟨u, hu, hblank⟩ := Unfold.exists_of_mem_right hfs hf
    exact hblank.mpr (h u hu)

/-- A visit prints a blank text exactly if nothing below prints any other. -/
theorem blank_step : StepRule tree opts fun v f => Blank f.text ↔ BlankFrom tree opts v := by
  intro v fs hfs
  rw [blank_from_iff, ← blank_below hfs]
  rcases frame_cases tree opts v with ⟨hframe, hnext⟩ | ⟨-, mark, before, after, trail, hframe⟩ |
    ⟨-, depth, hframe⟩ | ⟨-, lead, trail, hframe⟩ | ⟨-, first, fallback, hframe, hnone⟩
  · rw [hnext, List.forall₂_nil_left_iff] at hfs
    simp [hframe, hfs, Frame.lay, Frame.own]
  · rw [hframe]
    simp only [Frame.lay, Frame.own, append_text, Mark.wrap_text, ofText, blank_append]
    tauto
  · rw [hframe]
    simp [Frame.lay, Frame.own, blank_collapse]
  · rw [hframe]
    simp only [Frame.lay, Frame.own, blank_append, ← concat_text]
    tauto
  · have hraw : fallback = none → Blank (concat fs).text := by
      intro h
      rw [hnone h, List.forall₂_nil_left_iff] at hfs
      simp [hfs]
    rw [hframe]
    simp only [Frame.lay, Frame.own, blank_append, blank_cell_text hraw]
    tauto

end Blank

end BrowsAI.PageText
