import BrowsAI.Library.Utf8

/-!
# Lines, words, and fields

`lines` and `splitWhitespace` follow the string library of Rust; words joined with single blanks are
split into the same words. `fields` is what a reader gets of a line of comma-separated values that
knows no quotes. What was read has none of the characters it was cut at, and lines that have none are
read back.
-/

namespace Utf8

/-! ## Pieces -/

theorem split_of_not_mem {c : Char} {s : Text} (h : c ∉ s) : split c s = [s] :=
  List.splitOn_eq_singleton h

theorem split_append_cons {c : Char} {s : Text} (h : c ∉ s) (t : Text) :
    split c (s ++ c :: t) = s :: split c t :=
  List.splitOn_append_cons_self_of_not_mem h t

/-- A piece is a part of the text without the separator. By the number of pieces. -/
theorem not_mem_and_subset_of_mem_split {c : Char} {s piece : Text} (h : piece ∈ split c s) :
    c ∉ piece ∧ piece ⊆ s := by
  induction hlength : s.length using Nat.strongRecOn generalizing s with
  | ind n ih =>
      by_cases hc : c ∈ s
      · obtain ⟨before, after, rfl, hbefore⟩ := List.eq_append_cons_of_mem hc
        rw [split_append_cons hbefore] at h
        rw [List.length_append, List.length_cons] at hlength
        rcases List.mem_cons.mp h with rfl | h
        · exact ⟨hbefore, List.subset_append_left _ _⟩
        · obtain ⟨hnot, hsubset⟩ := ih after.length (by omega) h rfl
          exact ⟨hnot, fun d hd =>
            List.mem_append_right _ (List.mem_cons_of_mem _ (hsubset hd))⟩
      · rw [split_of_not_mem hc] at h
        obtain rfl := List.mem_singleton.mp h
        exact ⟨hc, List.Subset.refl _⟩

theorem split_append_cons_self (c : Char) (s t : Text) :
    split c (s ++ c :: t) = split c s ++ split c t :=
  List.splitOn_append_cons_self s t

theorem split_inj {c : Char} {s t : Text} (h : split c s = split c t) : s = t := by
  calc s = [c].intercalate (split c s) := (List.intercalate_splitOn c).symm
    _ = [c].intercalate (split c t) := by rw [h]
    _ = t := List.intercalate_splitOn c

theorem length_split (c : Char) (s : Text) : (split c s).length = s.count c + 1 := by
  induction s with
  | nil => rfl
  | cons d s ih =>
      rw [split] at ih
      rw [split, List.splitOn_cons_eq_if_modifyHead, List.count_cons]
      split_ifs with hd
      · rw [List.length_cons, ih]
      · rw [List.length_modifyHead, ih]

/-- The pieces of some texts, one text after the other, and the numbers of separators in them give
the texts back. -/
theorem eq_of_flatMap_split {c : Char} {texts texts' : List Text}
    (hpieces : texts.flatMap (split c) = texts'.flatMap (split c))
    (hcounts : texts.map (List.count c) = texts'.map (List.count c)) : texts = texts' := by
  induction texts generalizing texts' with
  | nil => exact (List.map_eq_nil_iff.mp hcounts.symm).symm
  | cons t texts ih =>
      cases texts' with
      | nil => cases hcounts
      | cons t' texts' =>
          obtain ⟨hcount, hcounts⟩ := List.cons.inj hcounts
          have hlength : (split c t).length = (split c t').length := by
            rw [length_split, length_split, hcount]
          rw [List.flatMap_cons, List.flatMap_cons] at hpieces
          obtain ⟨hfirst, hrest⟩ := List.append_inj hpieces hlength
          rw [split_inj hfirst, ih hrest hcounts]

/-! ## Words -/

/-- `s.split_whitespace()`. -/
def splitWhitespace (s : Text) : List Text :=
  (s.splitOnP isWhitespace).filter fun word => !word.isEmpty

/-- `join` with a blank between the words. -/
def joinWords (words : List Text) : Text := [' '].intercalate words

/-- A word as `splitWhitespace` gives it. -/
structure IsWord (word : Text) : Prop where
  nonempty : word ≠ []
  unspaced : ∀ c ∈ word, isWhitespace c = false

/-- The pieces between white space have none. -/
theorem unspaced_of_mem_split {s piece : Text} (h : piece ∈ s.splitOnP isWhitespace) :
    ∀ c ∈ piece, isWhitespace c = false := by
  induction s generalizing piece with
  | nil =>
      rw [List.splitOnP_nil, List.mem_singleton] at h
      rw [h]
      exact fun _ hc => absurd hc List.not_mem_nil
  | cons d s ih =>
      rw [List.splitOnP_cons_eq_if_modifyHead] at h
      split_ifs at h with hd
      · rcases List.mem_cons.mp h with rfl | h
        · exact fun _ hc => absurd hc List.not_mem_nil
        · exact ih h
      · obtain ⟨first, rest, hsplit⟩ := List.exists_cons_of_ne_nil (s.splitOnP_ne_nil isWhitespace)
        rw [hsplit, List.modifyHead_cons] at h
        rcases List.mem_cons.mp h with rfl | h
        · intro c hc
          rcases List.mem_cons.mp hc with rfl | hc
          · exact Bool.not_eq_true _ ▸ hd
          · exact ih (hsplit ▸ List.mem_cons_self) c hc
        · exact ih (hsplit ▸ List.mem_cons_of_mem first h)

theorem is_word_of_mem_split {s word : Text} (h : word ∈ splitWhitespace s) : IsWord word := by
  obtain ⟨hpiece, hfilled⟩ := List.mem_filter.mp h
  refine ⟨fun hempty => ?_, unspaced_of_mem_split hpiece⟩
  rw [hempty] at hfilled
  cases hfilled

/-- The words of words with blanks between them. -/
theorem split_whitespace_join {words : List Text} (h : ∀ word ∈ words, IsWord word) :
    splitWhitespace (joinWords words) = words := by
  induction words with
  | nil => rfl
  | cons word words ih =>
      have hword := h word List.mem_cons_self
      have hkept : ∀ rest : List Text, ((word :: rest).filter fun other => !other.isEmpty) =
          word :: rest.filter fun other => !other.isEmpty := by
        intro rest
        refine List.filter_cons_of_pos ?_
        rw [Bool.not_eq_true', List.isEmpty_eq_false_iff]
        exact hword.nonempty
      cases words with
      | nil =>
          rw [splitWhitespace, joinWords, List.intercalate_singleton,
            List.splitOnP_eq_singleton hword.unspaced, hkept]
          rfl
      | cons next words =>
          have hrest := ih fun other hother => h other (List.mem_cons_of_mem word hother)
          rw [splitWhitespace, joinWords] at hrest
          rw [splitWhitespace, joinWords, List.intercalate_cons_cons, List.append_assoc,
            List.singleton_append,
            List.splitOnP_append_cons_of_forall_mem hword.unspaced ' ' rfl,
            hkept, hrest]

/-- A text with single blanks between its words is read as these words. -/
theorem split_join_split (s : Text) :
    splitWhitespace (joinWords (splitWhitespace s)) = splitWhitespace s :=
  split_whitespace_join fun _ => is_word_of_mem_split

theorem join_words_eq_nil_iff {words : List Text} (h : ∀ word ∈ words, IsWord word) :
    joinWords words = [] ↔ words = [] := by
  constructor
  · intro hnil
    rw [← split_whitespace_join h, hnil]
    rfl
  · rintro rfl
    rfl

/-! ## Lines -/

/-- The line without the carriage return before its line feed. -/
def stripCr (line : Text) : Text :=
  if line.getLast? = some '\r' then line.dropLast else line

/-- `s.lines()`. The text behind the last line feed is a line if there is any. -/
def lines (s : Text) : List Text :=
  let pieces := split '\n' s
  pieces.dropLast.map stripCr ++ (pieces.getLast?.toList.filter fun line => !line.isEmpty)

theorem lines_append_cons {line : Text} (h : '\n' ∉ line) (rest : Text) :
    lines (line ++ '\n' :: rest) = stripCr line :: lines rest := by
  obtain ⟨first, others, hpieces⟩ := List.exists_cons_of_ne_nil (List.splitOn_ne_nil '\n' rest)
  rw [lines, lines, split_append_cons h, split, hpieces]
  rfl

/-- A line has no line feed in it. -/
theorem not_mem_of_mem_lines {line s : Text} (h : line ∈ lines s) : '\n' ∉ line := by
  have hpiece {piece : Text} (hmem : piece ∈ split '\n' s) : '\n' ∉ piece :=
    (not_mem_and_subset_of_mem_split hmem).1
  rcases List.mem_append.mp h with h | h
  · obtain ⟨piece, hmem, rfl⟩ := List.mem_map.mp h
    have hnot := hpiece (List.dropLast_subset _ hmem)
    rw [stripCr]
    split_ifs
    · exact fun hline => hnot (List.dropLast_subset _ hline)
    · exact hnot
  · have hlast := List.mem_of_mem_filter h
    rw [Option.mem_toList] at hlast
    exact hpiece (List.mem_of_getLast? hlast)

/-! ## Trimmed fields -/

theorem mem_of_mem_trim {c : Char} {s : Text} (h : c ∈ trim s) : c ∈ s := by
  obtain ⟨v, w, hs, -, -⟩ := exists_trim s
  rw [hs]
  exact List.mem_append_right _ (List.mem_append_left _ h)

/-- A text is trimmed once. -/
theorem trim_trim (s : Text) : trim (trim s) = trim s := by
  have hstart : trimStart (trim s) = trim s := by
    refine trimStart_eq_self fun c hc => ?_
    obtain ⟨w, hw, -⟩ := exists_trimEnd (trimStart s)
    have hhead : c ∈ (trimStart s).head? := by
      have hfirst : (trimEnd (trimStart s)).head? = some c := hc
      rw [hw, List.head?_append, hfirst]
      rfl
    have hnot := List.head?_dropWhile_not isWhitespace s
    rw [← trimStart, Option.mem_def.mp hhead] at hnot
    simpa using hnot
  rw [trim, hstart, trim, trimEnd, trimEnd, List.rdropWhile_idempotent]

theorem trim_eq_self {s : Text} (h : ∀ c ∈ s, ¬ isWhitespace c) : trim s = s := by
  rw [trim, trimStart_eq_self fun c hc => h c (List.mem_of_head? hc), trimEnd]
  exact List.rdropWhile_eq_self_iff.mpr fun hne => h _ (List.getLast_mem hne)

/-- The values of a line, cut at commas and trimmed. -/
def fields (line : Text) : List Text := (split ',' line).map trim

/-- The text can stand between two commas of a line. -/
structure IsField (text : Text) : Prop where
  comma : ',' ∉ text
  lineFeed : '\n' ∉ text
  trimmed : trim text = text

theorem is_field_of_mem_fields {line field : Text} (hline : '\n' ∉ line) (h : field ∈ fields line) :
    IsField field := by
  obtain ⟨piece, hpiece, rfl⟩ := List.mem_map.mp h
  obtain ⟨hnot, hsubset⟩ := not_mem_and_subset_of_mem_split hpiece
  exact ⟨fun hc => hnot (mem_of_mem_trim hc), fun hc => hline (hsubset (mem_of_mem_trim hc)),
    trim_trim piece⟩

theorem fields_append_cons {field : Text} (h : IsField field) (rest : Text) :
    fields (field ++ ',' :: rest) = field :: fields rest := by
  rw [fields, split_append_cons h.comma, List.map_cons, h.trimmed]
  rfl

theorem fields_of_is_field {field : Text} (h : IsField field) : fields field = [field] := by
  rw [fields, split_of_not_mem h.comma, List.map_singleton, h.trimmed]

end Utf8
