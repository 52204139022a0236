import BrowsAI.Library.TextLines

/-!
# Markup

A document as a list of tags, each with the text behind it. `read_write`: where the texts are escaped,
a document is read as it was written, whatever its texts are.
-/

namespace Markup

open Utf8

/-- A tag, and the text up to the next one. -/
structure Element where
  tag : Text
  text : Text
  deriving DecidableEq

/-- The characters that mean something in markup, by name. -/
def escapeChar (c : Char) : Text :=
  if c = '&' then "&amp;"
  else if c = '<' then "&lt;"
  else if c = '>' then "&gt;"
  else if c = '"' then "&quot;"
  else [c]

/-- A text with its characters escaped. -/
def escape (s : Text) : Text := s.flatMap escapeChar

/-- The text that was escaped. -/
def unescape : Text → Text
  | '&' :: 'a' :: 'm' :: 'p' :: ';' :: rest => '&' :: unescape rest
  | '&' :: 'l' :: 't' :: ';' :: rest => '<' :: unescape rest
  | '&' :: 'g' :: 't' :: ';' :: rest => '>' :: unescape rest
  | '&' :: 'q' :: 'u' :: 'o' :: 't' :: ';' :: rest => '"' :: unescape rest
  | c :: rest => c :: unescape rest
  | [] => []

/-- A tag, and the text behind it. -/
def Element.write (e : Element) : Text := '<' :: (e.tag ++ '>' :: escape e.text)

/-- The tags one after the other. -/
def write (document : List Element) : Text := document.flatMap Element.write

/-- The element behind an opening bracket. -/
def readPiece (piece : Text) : Element :=
  match splitOnce '>' piece with
  | some (tag, text) => ⟨tag, unescape text⟩
  | none => ⟨piece, []⟩

/-- The document, without what is before its first tag. -/
def read (s : Text) : List Element := (split '<' s).tail.map readPiece

/-! ## Escaping -/

/-- An escaped character is read as itself. -/
theorem unescape_escape_char (c : Char) (rest : Text) :
    unescape (escapeChar c ++ rest) = c :: unescape rest := by
  rw [escapeChar]
  split_ifs with hamp hlt hgt hquot
  · rw [hamp]
    exact unescape.eq_1 rest
  · rw [hlt]
    exact unescape.eq_2 rest
  · rw [hgt]
    exact unescape.eq_3 rest
  · rw [hquot]
    exact unescape.eq_4 rest
  · rw [List.singleton_append, unescape]
    all_goals
      rintro _ rfl
      exact absurd rfl hamp

theorem unescape_escape (s : Text) : unescape (escape s) = s := by
  induction s with
  | nil => rfl
  | cons c s ih =>
      show unescape (escapeChar c ++ escape s) = c :: s
      rw [unescape_escape_char, ih]

theorem escape_append (s t : Text) : escape (s ++ t) = escape s ++ escape t := List.flatMap_append

/-- A text without the four characters is written as it is. -/
theorem escape_of_forall {s : Text} (h : ∀ c ∈ s, c ≠ '&' ∧ c ≠ '<' ∧ c ≠ '>' ∧ c ≠ '"') :
    escape s = s := by
  induction s with
  | nil => rfl
  | cons c s ih =>
      obtain ⟨hamp, hlt, hgt, hquot⟩ := h c List.mem_cons_self
      show escapeChar c ++ escape s = c :: s
      rw [ih fun d hd => h d (List.mem_cons_of_mem _ hd), escapeChar, if_neg hamp, if_neg hlt,
        if_neg hgt, if_neg hquot]
      rfl

theorem lt_not_mem_escape (s : Text) : '<' ∉ escape s := by
  intro h
  obtain ⟨c, -, hc⟩ := List.mem_flatMap.mp h
  rw [escapeChar] at hc
  split_ifs at hc with hamp hlt hgt hquot
  · exact absurd hc (by decide)
  · exact absurd hc (by decide)
  · exact absurd hc (by decide)
  · exact absurd hc (by decide)
  · exact hlt (List.mem_singleton.mp hc).symm

/-! ## Reading -/

/-- Neither bracket is in the tag. -/
def Element.named (e : Element) : Bool := e.tag.all fun c => c != '<' && c != '>'

theorem Element.not_mem_of_named {e : Element} (h : e.named) : '<' ∉ e.tag ∧ '>' ∉ e.tag := by
  have hall := List.all_eq_true.mp h
  exact ⟨fun hmem => absurd (hall _ hmem) (by decide), fun hmem => absurd (hall _ hmem) (by decide)⟩

theorem read_piece_write {e : Element} (h : e.named) :
    readPiece (e.tag ++ '>' :: escape e.text) = e := by
  rw [readPiece, splitOnce_append (Element.not_mem_of_named h).2]
  dsimp only
  rw [unescape_escape]

/-- A written document is taken apart at the opening brackets. -/
theorem split_write {before : Text} (hbefore : '<' ∉ before) {document : List Element}
    (h : document.all Element.named) :
    split '<' (before ++ write document) =
      before :: document.map fun e => e.tag ++ '>' :: escape e.text := by
  induction document generalizing before with
  | nil => exact (congrArg (split '<') (List.append_nil before)).trans (split_of_not_mem hbefore)
  | cons e document ih =>
      rw [List.all_cons, Bool.and_eq_true] at h
      have hpiece : '<' ∉ e.tag ++ '>' :: escape e.text := by
        rw [List.mem_append, List.mem_cons]
        rintro (htag | hgt | htext)
        · exact (Element.not_mem_of_named h.1).1 htag
        · exact absurd hgt (by decide)
        · exact lt_not_mem_escape _ htext
      show split '<' (before ++ '<' :: ((e.tag ++ '>' :: escape e.text) ++ write document)) = _
      rw [split_append_cons hbefore, ih hpiece h.2]
      rfl

/-- A document is read as it was written. -/
theorem read_write {document : List Element} (h : document.all Element.named) :
    read (write document) = document := by
  have hsplit := split_write (List.not_mem_nil (a := '<')) h
  rw [List.nil_append] at hsplit
  rw [read, hsplit, List.tail_cons, List.map_map]
  refine (List.map_congr_left fun e he => ?_).trans (List.map_id document)
  exact read_piece_write (List.all_eq_true.mp h e he)

end Markup
