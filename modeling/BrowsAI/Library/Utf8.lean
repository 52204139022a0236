import BrowsAI.Library.OrdMap
import Mathlib.Algebra.Group.Int.Defs
import Mathlib.Algebra.GroupWithZero.Nat
import Mathlib.Data.List.DropRight

/-!
# Text with byte offsets

A text is a list of Unicode scalar values, and an offset into it counts the bytes of its UTF-8
encoding. `dropBytes` and `takeBytes` cut at a byte offset, `slice` reads the text between two
offsets, and `IsCharBoundary` says that an offset falls between two characters. The lemmas say
that offsets recorded as lengths of a prefix always cut where they were recorded.
Trimming, character replacement and the ASCII helpers follow the string library of Rust.
-/

namespace Utf8

/-- A string: a sequence of Unicode scalar values. -/
abbrev Text := List Char

/-- A literal is the list of its characters. -/
instance : Coe String Text := ⟨String.toList⟩

/-- Pairs of texts are keys. -/
instance instTransOrdTextPair : Std.TransOrd (Text × Text) := instTransOrdPair

/-! ## Byte lengths and cuts -/

/-- Number of bytes in the UTF-8 encoding. -/
def len : Text → Nat
  | [] => 0
  | c :: s => c.utf8Size + len s

@[simp] theorem len_nil : len [] = 0 := rfl

@[simp] theorem len_cons (c : Char) (s : Text) : len (c :: s) = c.utf8Size + len s := rfl

@[simp] theorem len_append (s t : Text) : len (s ++ t) = len s + len t := by
  induction s with
  | nil => simp
  | cons c s ih => simp [ih, Nat.add_assoc]

/-- The text from byte offset `n` on. -/
def dropBytes : Nat → Text → Text
  | 0, s => s
  | _ + 1, [] => []
  | n + 1, c :: s => dropBytes (n + 1 - c.utf8Size) s

/-- The longest prefix that takes at most `n` bytes. -/
def takeBytes : Nat → Text → Text
  | _, [] => []
  | n, c :: s => if c.utf8Size ≤ n then c :: takeBytes (n - c.utf8Size) s else []

/-- Byte offset `n` falls between two characters, at the start, or at the end. -/
def isCharBoundary : Text → Nat → Bool
  | _, 0 => true
  | [], _ + 1 => false
  | c :: s, n + 1 => c.utf8Size ≤ n + 1 && isCharBoundary s (n + 1 - c.utf8Size)

/-- The text between two byte offsets. -/
def slice (s : Text) (start stop : Nat) : Text :=
  takeBytes (stop - start) (dropBytes start s)

@[simp] theorem dropBytes_zero (s : Text) : dropBytes 0 s = s := by
  cases s <;> rfl

theorem dropBytes_cons (n : Nat) (c : Char) (s : Text) :
    dropBytes (c.utf8Size + n) (c :: s) = dropBytes n s := by
  have hpos := c.utf8Size_pos
  obtain ⟨k, hk⟩ : ∃ k, c.utf8Size + n = k + 1 := ⟨c.utf8Size + n - 1, by omega⟩
  rw [hk, dropBytes]
  congr 1
  omega

/-- Dropping the bytes of a prefix leaves the rest. -/
@[simp] theorem dropBytes_append (p s : Text) : dropBytes (len p) (p ++ s) = s := by
  induction p with
  | nil => simp
  | cons c p ih => rw [len_cons, List.cons_append, dropBytes_cons, ih]

/-- Taking the bytes of a prefix gives the prefix. -/
@[simp] theorem takeBytes_append (p s : Text) : takeBytes (len p) (p ++ s) = p := by
  induction p with
  | nil =>
      cases s with
      | nil => rfl
      | cons c s =>
          have := c.utf8Size_pos
          simp only [len_nil, List.nil_append, takeBytes, if_neg (show ¬ c.utf8Size ≤ 0 by omega)]
  | cons c p ih => simp [takeBytes, ih]

/-- A prefix ends at a character boundary. -/
@[simp] theorem isCharBoundary_append (p s : Text) : isCharBoundary (p ++ s) (len p) = true := by
  induction p with
  | nil => cases s <;> rfl
  | cons c p ih =>
      have hpos := c.utf8Size_pos
      obtain ⟨k, hk⟩ : ∃ k, len (c :: p) = k + 1 := ⟨len (c :: p) - 1, by simp; omega⟩
      rw [hk, List.cons_append, isCharBoundary, ← hk]
      simp [ih]

/-- A text slices back out of the place it was put in. -/
theorem slice_append (p t q : Text) : slice (p ++ (t ++ q)) (len p) (len p + len t) = t := by
  simp [slice]

/-! ## Trimming and replacing -/

/-- The Unicode `White_Space` property. -/
def isWhitespace (c : Char) : Bool :=
  let n := c.toNat
  (9 ≤ n && n ≤ 13) || n == 0x20 || n == 0x85 || n == 0xA0 || n == 0x1680 ||
    (0x2000 ≤ n && n ≤ 0x200A) || n == 0x2028 || n == 0x2029 || n == 0x202F || n == 0x205F ||
    n == 0x3000

/-- White space among the ASCII characters, as `u8::is_ascii_whitespace` has it. -/
def isAsciiWhitespace (c : Char) : Bool :=
  c == '\t' || c == '\n' || c == '\x0C' || c == '\r' || c == ' '

/-- Without the white space at the start. -/
def trimStart (s : Text) : Text := s.dropWhile isWhitespace

/-- Without the white space at the end. -/
def trimEnd (s : Text) : Text := s.rdropWhile isWhitespace

/-- The text without the white space at its two ends. -/
def trim (s : Text) : Text := trimEnd (trimStart s)

/-- Every occurrence of the character `c` replaced by the text `t`. -/
def replace (c : Char) (t s : Text) : Text :=
  s.flatMap fun d => if d = c then t else [d]

@[simp] theorem replace_nil (c : Char) (t : Text) : replace c t [] = [] := rfl

@[simp] theorem replace_append (c : Char) (t s s' : Text) :
    replace c t (s ++ s') = replace c t s ++ replace c t s' := by
  simp [replace]

theorem replace_of_not_mem {c : Char} {t s : Text} (h : c ∉ s) : replace c t s = s := by
  induction s with
  | nil => rfl
  | cons d s ih =>
      simp only [List.mem_cons, not_or] at h
      have hd : d ≠ c := fun hd => h.1 hd.symm
      rw [show d :: s = [d] ++ s from rfl, replace_append, ih h.2]
      simp [replace, hd]

/-- What `trimEnd` cuts off is white space. -/
theorem exists_trimEnd (s : Text) : ∃ w, s = trimEnd s ++ w ∧ ∀ c ∈ w, isWhitespace c := by
  induction s using List.reverseRecOn with
  | nil => exact ⟨[], by simp [trimEnd], by simp⟩
  | append_singleton s c ih =>
      by_cases hc : isWhitespace c
      · obtain ⟨w, hs, hw⟩ := ih
        refine ⟨w ++ [c], ?_, ?_⟩
        · rw [trimEnd, List.rdropWhile_concat_pos _ _ _ hc, ← trimEnd, ← List.append_assoc, ← hs]
        · intro d hd
          rcases List.mem_append.mp hd with hd | hd
          · exact hw d hd
          · rwa [List.mem_singleton.mp hd]
      · exact ⟨[], by simp [trimEnd, List.rdropWhile_concat_neg _ _ _ hc], by simp⟩

/-- `trimEnd` does not look past a character that stays. -/
theorem trimEnd_append_cons (s : Text) {c : Char} (hc : ¬ isWhitespace c) (t : Text) :
    trimEnd (s ++ c :: t) = s ++ c :: trimEnd t := by
  induction t using List.reverseRecOn with
  | nil =>
      have hlast : trimEnd (s ++ [c]) = s ++ [c] := List.rdropWhile_concat_neg _ _ _ hc
      simpa [trimEnd] using hlast
  | append_singleton t d ih =>
      have hassoc : s ++ c :: (t ++ [d]) = (s ++ c :: t) ++ [d] := by simp
      by_cases hd : isWhitespace d
      · rw [trimEnd, hassoc, List.rdropWhile_concat_pos _ _ _ hd, ← trimEnd, ih, trimEnd, trimEnd,
          List.rdropWhile_concat_pos _ _ _ hd]
      · rw [trimEnd, hassoc, List.rdropWhile_concat_neg _ _ _ hd, trimEnd,
          List.rdropWhile_concat_neg _ _ _ hd]
        simp

/-- What `trimStart` cuts off is white space. -/
theorem exists_trimStart (s : Text) : ∃ w, s = w ++ trimStart s ∧ ∀ c ∈ w, isWhitespace c :=
  ⟨s.takeWhile isWhitespace, by simp [trimStart], fun _ h => List.mem_takeWhile_imp h⟩

/-- The white space that `trim` cuts off the two ends. -/
theorem exists_trim (s : Text) :
    ∃ v w, s = v ++ (trim s ++ w) ∧ (∀ c ∈ v, isWhitespace c) ∧ ∀ c ∈ w, isWhitespace c := by
  obtain ⟨v, hv, hvw⟩ := exists_trimStart s
  obtain ⟨w, hw, hww⟩ := exists_trimEnd (trimStart s)
  exact ⟨v, w, by rw [trim, ← hw, ← hv], hvw, hww⟩

/-- A text that does not start with white space keeps its start under `trim`. -/
theorem trimStart_eq_self {s : Text} (h : ∀ c ∈ s.head?, ¬ isWhitespace c) : trimStart s = s := by
  cases s with
  | nil => rfl
  | cons c s => simp [trimStart, h c (by simp)]

/-- `trim` leaves nothing exactly when there is only white space. -/
theorem trim_eq_nil_iff {s : Text} : trim s = [] ↔ ∀ c ∈ s, isWhitespace c := by
  constructor
  · intro h c hc
    obtain ⟨v, w, hs, hv, hw⟩ := exists_trim s
    rw [hs, h] at hc
    rcases List.mem_append.mp hc with hc | hc
    · exact hv c hc
    · exact hw c (by simpa using hc)
  · intro h
    have hstart : trimStart s = [] := List.dropWhile_eq_nil_iff.mpr h
    simp [trim, hstart, trimEnd]

/-! ## ASCII helpers -/

/-- With small letters. -/
def asciiLower (s : Text) : Text := s.map Char.toLower

/-- With capital letters. -/
def asciiUpper (s : Text) : Text := s.map Char.toUpper

/-- The texts differ in case only. -/
def eqIgnoreAsciiCase (s t : Text) : Bool := asciiLower s == asciiLower t

/-- `s.contains(p)`. -/
def contains (p s : Text) : Bool := s.tails.any p.isPrefixOf

/-- `s.split_once(c)`: the text before the first `c` and the text after it. -/
def splitOnce (c : Char) : Text → Option (Text × Text)
  | [] => none
  | d :: s =>
      if d = c then some ([], s)
      else (splitOnce c s).map fun (before, after) => (d :: before, after)

theorem splitOnce_append {c : Char} {s : Text} (h : c ∉ s) (t : Text) :
    splitOnce c (s ++ c :: t) = some (s, t) := by
  induction s with
  | nil => simp [splitOnce]
  | cons d s ih =>
      simp only [List.mem_cons, not_or] at h
      have hd : d ≠ c := fun hd => h.1 hd.symm
      simp [splitOnce, hd, ih h.2]

/-- The text is split at the first occurrence. -/
theorem splitOnce_eq_some_iff {c : Char} {s before after : Text} :
    splitOnce c s = some (before, after) ↔ s = before ++ c :: after ∧ c ∉ before := by
  constructor
  · intro h
    induction s generalizing before with
    | nil => simp [splitOnce] at h
    | cons d s ih =>
        rw [splitOnce] at h
        split_ifs at h with hd
        · cases h
          simp [hd]
        · obtain ⟨⟨rest, after'⟩, hrest, hpair⟩ := Option.map_eq_some_iff.mp h
          cases hpair
          obtain ⟨rfl, hc⟩ := ih hrest
          exact ⟨rfl, by simp [hc, Ne.symm hd]⟩
  · rintro ⟨rfl, hc⟩
    exact splitOnce_append hc after

/-- A property of the characters of a text, checked one by one. -/
theorem forall_mem_of_all {p : Char → Prop} [DecidablePred p] {s : Text}
    (h : s.all (fun c => decide (p c)) = true) : ∀ c ∈ s, p c := by
  simpa using h

/-- The text before the first `c` and the text after it are unique. -/
theorem append_cons_inj {c : Char} {s s' t t' : Text} (hs : c ∉ s) (hs' : c ∉ s')
    (h : s ++ c :: t = s' ++ c :: t') : s = s' ∧ t = t' := by
  have hsplit := splitOnce_append hs t
  rw [h, splitOnce_append hs' t'] at hsplit
  simpa [eq_comm] using hsplit

/-- What stands behind the last occurrence of a character. -/
theorem append_cons_inj_right {c : Char} {s s' t t' : Text} (ht : c ∉ t) (ht' : c ∉ t')
    (h : s ++ c :: t = s' ++ c :: t') : s = s' ∧ t = t' := by
  have hreverse : t.reverse ++ c :: s.reverse = t'.reverse ++ c :: s'.reverse := by
    simpa using congrArg List.reverse h
  have hsplit := append_cons_inj (mt List.mem_reverse.mp ht) (mt List.mem_reverse.mp ht') hreverse
  exact ⟨List.reverse_inj.mp hsplit.2, List.reverse_inj.mp hsplit.1⟩

/-- `s.split(c)`: the pieces between the occurrences of `c`, at least one. -/
def split (c : Char) (s : Text) : List Text := s.splitOn c

/-- `s.strip_prefix(p)`. -/
def stripPrefix (p s : Text) : Option Text :=
  if p.isPrefixOf s then some (s.drop p.length) else none

/-- The non-overlapping occurrences of `p` from the left, each as the text before it and the text
from it on. -/
def matchIndices (p s : Text) : List (Text × Text) :=
  go s.length [] s
where
  /-- `before` holds the characters already passed. -/
  go : Nat → Text → Text → List (Text × Text)
    | 0, _, _ => []
    | _ + 1, _, [] => []
    | n + 1, before, c :: s =>
        if p.isPrefixOf (c :: s) then
          (before, c :: s) :: go n (before ++ (c :: s).take p.length) ((c :: s).drop p.length)
        else go n (before ++ [c]) s

/-- The value of a text of decimal digits, if it has any. -/
def parseDigits (s : Text) : Option Nat :=
  if s ≠ [] ∧ s.all Char.isDigit then
    some (s.foldl (fun n c => 10 * n + (c.toNat - '0'.toNat)) 0)
  else none

/-- `s.parse()` for an unsigned number below a bound: an optional plus sign and decimal digits. -/
def parseUnsigned (bound : Nat) (s : Text) : Option Nat :=
  let digits := match s with
    | '+' :: digits => digits
    | digits => digits
  (parseDigits digits).filter fun n => n < bound

/-- `s.parse::<i64>()`: an optional sign and decimal digits. -/
def parseI64 (s : Text) : Option Int :=
  let value : Option Int := match s with
    | '+' :: digits => (parseDigits digits).map Int.ofNat
    | '-' :: digits => (parseDigits digits).map fun n => -Int.ofNat n
    | digits => (parseDigits digits).map Int.ofNat
  value.filter fun n => -2 ^ 63 ≤ n ∧ n < 2 ^ 63

/-- The decimal digits of a number. -/
def ofNat (n : Nat) : Text := Nat.toDigits 10 n

theorem of_nat_inj {n n' : Nat} (h : ofNat n = ofNat n') : n = n' := by
  have hdigits := congrArg (Nat.ofDigitChars 10 · 0) h
  simp only [ofNat, Nat.ofDigitChars_ten_toDigits] at hdigits
  exact hdigits

theorem is_digit_of_nat (n : Nat) : ∀ c ∈ ofNat n, c.isDigit := fun _ h =>
  Nat.isDigit_of_mem_toDigits (by decide) (by decide) h

theorem not_mem_of_nat {c : Char} (hc : c.isDigit = false) (n : Nat) : c ∉ ofNat n := by
  intro h
  have hdigit := is_digit_of_nat n c h
  rw [hc] at hdigit
  cases hdigit

/-- The decimal digits of a number are read back. -/
theorem parse_digits_of_nat (n : Nat) : parseDigits (ofNat n) = some n := by
  have hne : ofNat n ≠ [] := Nat.toDigits_ne_nil
  have hdigits : (ofNat n).all Char.isDigit := List.all_eq_true.mpr (is_digit_of_nat n)
  rw [parseDigits, if_pos ⟨hne, hdigits⟩, ← Nat.ofDigitChars_eq_foldl, ofNat,
    Nat.ofDigitChars_ten_toDigits]

/-- The digits of a number below the bound are read as that number. -/
theorem parse_unsigned_of_nat {n bound : Nat} (h : n < bound) :
    parseUnsigned bound (ofNat n) = some n := by
  have hdigits : parseUnsigned bound (ofNat n) =
      (parseDigits (ofNat n)).filter fun n => n < bound := by
    unfold parseUnsigned
    split
    · next rest hplus =>
      have hmem : '+' ∈ ofNat n := hplus ▸ List.mem_cons_self
      exact absurd hmem (not_mem_of_nat (by decide) n)
    · rfl
  rw [hdigits, parse_digits_of_nat, Option.filter_some, if_pos (decide_eq_true h)]

end Utf8
