import BrowsAI.Library.Utf8Lossy

/-!
# Lines of bytes

`fromUtf8` reads bytes as the text that they encode, if there is one. `rawLines` cuts bytes behind each
line feed, as a reader does that asks for one line after the other. A text without a line feed that is
encoded before one is a line of its own.
-/

namespace Utf8

/-! ## Strict reading -/

/-- `std::str::from_utf8`. -/
def fromUtf8 (bytes : List UInt8) : Option Text :=
  if toBytes (fromUtf8Lossy bytes) = bytes then some (fromUtf8Lossy bytes) else none

theorem from_utf8_eq_some_iff {bytes : List UInt8} {t : Text} :
    fromUtf8 bytes = some t ↔ toBytes t = bytes := by
  rw [fromUtf8]
  constructor
  · intro h
    split_ifs at h with hbytes
    cases h
    exact hbytes
  · rintro rfl
    rw [from_utf8_lossy_to_bytes, if_pos rfl]

theorem from_utf8_to_bytes (t : Text) : fromUtf8 (toBytes t) = some t :=
  from_utf8_eq_some_iff.mpr rfl

@[simp] theorem to_bytes_append (s t : Text) : toBytes (s ++ t) = toBytes s ++ toBytes t :=
  List.flatMap_append

/-- The bytes of a character beyond the ASCII range are beyond it. -/
theorem not_mem_utf8_encode_char {c : Char} (hc : 0x7F < c.toNat) {byte : UInt8}
    (hbyte : byte.toNat ≤ 0x7F) : byte ∉ String.utf8EncodeChar c := by
  intro hmem
  have hrange := char_range c
  rw [encode_char_eq] at hmem
  rw [if_neg (by omega)] at hmem
  have hlarge : ∀ n : Nat, 0x7F < n % 256 → byte ≠ UInt8.ofNat n := fun n hn heq => by
    rw [heq, UInt8.toNat_ofNat'] at hbyte
    omega
  split_ifs at hmem with h2 h3
  · rcases List.mem_pair.mp hmem with h | h
    · exact hlarge _ (by omega) h
    · exact hlarge _ (by omega) h
  · simp only [List.mem_cons, List.not_mem_nil, or_false] at hmem
    rcases hmem with h | h | h
    · exact hlarge _ (by omega) h
    · exact hlarge _ (by omega) h
    · exact hlarge _ (by omega) h
  · simp only [List.mem_cons, List.not_mem_nil, or_false] at hmem
    rcases hmem with h | h | h | h
    · exact hlarge _ (by omega) h
    · exact hlarge _ (by omega) h
    · exact hlarge _ (by omega) h
    · exact hlarge _ (by omega) h

/-- The encoding has a line feed only where the text has one. -/
theorem not_mem_to_bytes {t : Text} (h : '\n' ∉ t) : (10 : UInt8) ∉ toBytes t := by
  intro hmem
  obtain ⟨c, hc, hbyte⟩ := List.mem_flatMap.mp hmem
  by_cases hascii : c.toNat ≤ 0x7F
  · rw [utf8_encode_char_of_le hascii, List.mem_singleton] at hbyte
    have hcode : c.toNat = 10 := by
      have hnat := congrArg UInt8.toNat hbyte
      rw [UInt8.toNat_ofNat'] at hnat
      have hten : (10 : UInt8).toNat = 10 := rfl
      omega
    have heq : c = '\n' := by
      rw [← Char.ofNat_toNat c, hcode]
    exact h (heq ▸ hc)
  · exact not_mem_utf8_encode_char (Nat.lt_of_not_le hascii) (by decide) hbyte

/-! ## Lines -/

/-- The lines of some bytes, each with its line feed; the last one may have none. -/
def rawLines : List UInt8 → List (List UInt8)
  | [] => []
  | byte :: rest =>
      if byte = 10 then [byte] :: rawLines rest
      else
        match rawLines rest with
        | [] => [[byte]]
        | line :: lines => (byte :: line) :: lines

theorem raw_lines_append {line : List UInt8} (h : (10 : UInt8) ∉ line) (rest : List UInt8) :
    rawLines (line ++ 10 :: rest) = (line ++ [10]) :: rawLines rest := by
  induction line with
  | nil => rw [List.nil_append, rawLines, if_pos rfl, List.nil_append]
  | cons byte line ih =>
      have hne : byte ≠ 10 := fun heq => h (heq ▸ List.mem_cons_self)
      rw [List.cons_append, rawLines, if_neg hne, ih fun hmem => h (List.mem_cons_of_mem _ hmem)]
      rfl

/-- The lines one after the other are the bytes. -/
theorem flatten_raw_lines (bytes : List UInt8) : (rawLines bytes).flatten = bytes := by
  induction bytes with
  | nil => rfl
  | cons byte rest ih =>
      rw [rawLines]
      split_ifs
      · rw [List.flatten_cons, ih, List.singleton_append]
      · cases hlines : rawLines rest with
        | nil =>
            rw [hlines] at ih
            rw [← ih]
            rfl
        | cons line lines =>
            rw [hlines] at ih
            rw [← ih]
            rfl

/-- A text behind which a line feed stands is the first line. -/
theorem raw_lines_to_bytes {t : Text} (h : '\n' ∉ t) (rest : List UInt8) :
    rawLines (toBytes (t ++ ['\n']) ++ rest) = toBytes (t ++ ['\n']) :: rawLines rest := by
  have hfeed : toBytes ['\n'] = [10] := rfl
  rw [to_bytes_append, hfeed, List.append_assoc, List.singleton_append,
    raw_lines_append (not_mem_to_bytes h)]

/-! ## Trimming -/

/-- White space at the end is trimmed. -/
theorem trim_end_append {w : Text} (hw : ∀ c ∈ w, isWhitespace c) (s : Text) :
    trimEnd (s ++ w) = trimEnd s := by
  induction w using List.reverseRecOn with
  | nil => rw [List.append_nil]
  | append_singleton w c ih =>
      rw [← List.append_assoc, trimEnd, List.rdropWhile_concat_pos _ _ _ (hw c (by simp)), ← trimEnd]
      exact ih fun d hd => hw d (List.mem_append_left _ hd)

/-- A text that does not end with white space keeps its end. -/
theorem trim_end_eq_self {s : Text} (h : ∀ c ∈ s.getLast?, ¬ isWhitespace c) : trimEnd s = s := by
  induction s using List.reverseRecOn with
  | nil => rfl
  | append_singleton s c _ => exact List.rdropWhile_concat_neg _ _ _ (h c (by simp))

/-- Trimming at the end first changes nothing. -/
theorem trim_trim_end (s : Text) : trim (trimEnd s) = trim s := by
  obtain ⟨w, hs, hw⟩ := exists_trimEnd s
  by_cases hall : ∀ c ∈ trimEnd s, isWhitespace c
  · rw [trim_eq_nil_iff.mpr hall, eq_comm, trim_eq_nil_iff, hs]
    intro c hc
    exact (List.mem_append.mp hc).elim (hall c) (hw c)
  · have hstart : trimStart (trimEnd s ++ w) = trimStart (trimEnd s) ++ w := by
      rw [trimStart, trimStart, List.dropWhile_append, if_neg]
      intro hnil
      exact hall (List.dropWhile_eq_nil_iff.mp (List.isEmpty_iff.mp hnil))
    calc trim (trimEnd s) = trimEnd (trimStart (trimEnd s) ++ w) := (trim_end_append hw _).symm
      _ = trim (trimEnd s ++ w) := by rw [← hstart, trim]
      _ = trim s := by rw [← hs]

/-- There is no white space around the digits of a number. -/
theorem trim_of_nat (n : Nat) : trim (ofNat n) = ofNat n := by
  have hdigit : ∀ c ∈ ofNat n, ¬ isWhitespace c := by
    intro c hc hspace
    have hrange := is_digit_of_nat n c hc
    rw [Char.isDigit, Bool.and_eq_true, decide_eq_true_eq, decide_eq_true_eq] at hrange
    have hlow : 48 ≤ c.toNat := UInt32.le_iff_toNat_le.mp hrange.1
    have hhigh : c.toNat ≤ 57 := UInt32.le_iff_toNat_le.mp hrange.2
    simp only [isWhitespace, Bool.or_eq_true, Bool.and_eq_true, decide_eq_true_eq, beq_iff_eq]
      at hspace
    omega
  rw [trim, trimStart_eq_self fun c hc => hdigit c (List.mem_of_head? hc),
    trim_end_eq_self fun c hc => hdigit c (List.mem_of_getLast? hc)]

end Utf8
