import BrowsAI.Library.Utf8
import BrowsAI.Library.Utf8Lossy

/-!
# Character boundaries

The character boundaries of a text are the byte lengths of its prefixes, and a prefix is known by
its byte length. `LongestWithin s n p` says that `p` is the longest prefix of `s` that takes at most
`n` bytes.
-/

namespace Utf8

variable {p q s : Text} {n : Nat}

theorem len_eq_zero_iff : len s = 0 ↔ s = [] := by
  cases s with
  | nil => simp
  | cons c s =>
      have := c.utf8Size_pos
      simp only [len_cons, reduceCtorEq, iff_false]
      omega

/-- A boundary is the length of a start of the text. -/
theorem is_char_boundary_iff : isCharBoundary s n = true ↔ ∃ p, p <+: s ∧ len p = n := by
  constructor
  · intro h
    induction s generalizing n with
    | nil =>
        cases n with
        | zero => exact ⟨[], List.nil_prefix, rfl⟩
        | succ n => cases h
    | cons c s ih =>
        cases n with
        | zero => exact ⟨[], List.nil_prefix, rfl⟩
        | succ n =>
            simp only [isCharBoundary, Bool.and_eq_true, decide_eq_true_eq] at h
            obtain ⟨p, hp, hlen⟩ := ih h.2
            refine ⟨c :: p, List.prefix_cons_inj c |>.mpr hp, ?_⟩
            rw [len_cons, hlen]
            omega
  · rintro ⟨p, ⟨rest, rfl⟩, rfl⟩
    exact isCharBoundary_append p rest

/-- Prefixes of one text are told apart by their lengths. -/
theorem eq_of_prefix_of_len (hp : p <+: s) (hq : q <+: s) (h : len p = len q) : p = q := by
  have heq : ∀ {p q : Text}, p <+: q → len p = len q → p = q := by
    rintro p q ⟨rest, rfl⟩ hlen
    rw [len_append] at hlen
    have hrest : rest = [] := len_eq_zero_iff.mp (by omega)
    rw [hrest, List.append_nil]
  rcases List.prefix_or_prefix_of_prefix hp hq with hpq | hqp
  · exact heq hpq h
  · exact (heq hqp h.symm).symm

/-- The longest prefix within so many bytes. -/
structure LongestWithin (s : Text) (n : Nat) (p : Text) : Prop where
  start : p <+: s
  within : len p ≤ n
  longest : ∀ q, q <+: s → len q ≤ n → len q ≤ len p

theorem LongestWithin.unique (hp : LongestWithin s n p) (hq : LongestWithin s n q) : p = q :=
  eq_of_prefix_of_len hp.start hq.start
    (Nat.le_antisymm (hq.longest p hp.start hp.within) (hp.longest q hq.start hq.within))

/-- A prefix that takes all the bytes there are is the longest one. -/
theorem longest_within_of_len (hp : p <+: s) : LongestWithin s (len p) p :=
  ⟨hp, le_rfl, fun _ _ hq => hq⟩

end Utf8

/-!
## Slices that may fail

Rust panics at a slice that starts or ends outside of the text or within a character, and at a byte
index beyond the end. Here these have no result. The lemmas say that cuts at recorded prefixes, and
the byte before one, are always there, and what byte that is.
-/

namespace Utf8

variable {p q s t : Text}

/-- `&s[start..]`. -/
def sliceFrom (s : Text) (start : Nat) : Option Text :=
  if isCharBoundary s start then some (dropBytes start s) else none

/-- `&s[..stop]`. -/
def sliceTo (s : Text) (stop : Nat) : Option Text :=
  if isCharBoundary s stop then some (takeBytes stop s) else none

/-- `&s[start..stop]`. -/
def sliceRange (s : Text) (start stop : Nat) : Option Text :=
  if start ≤ stop ∧ isCharBoundary s start ∧ isCharBoundary s stop then some (slice s start stop)
  else none

/-- `s.as_bytes()[index]`. -/
def byteAt (s : Text) (index : Nat) : Option UInt8 := (toBytes s)[index]?

/-- `s.find(p)`: the offset of the first character with the property. -/
def find (p : Char → Bool) : Text → Option Nat
  | [] => none
  | c :: s => if p c then some 0 else (find p s).map (c.utf8Size + ·)

theorem slice_from_append (p s : Text) : sliceFrom (p ++ s) (len p) = some s := by
  rw [sliceFrom, if_pos (isCharBoundary_append p s), dropBytes_append]

theorem slice_to_append (p s : Text) : sliceTo (p ++ s) (len p) = some p := by
  rw [sliceTo, if_pos (isCharBoundary_append p s), takeBytes_append]

theorem slice_range_append (p t q : Text) :
    sliceRange (p ++ (t ++ q)) (len p) (len p + len t) = some t := by
  have hstop : isCharBoundary (p ++ (t ++ q)) (len p + len t) = true := by
    rw [← len_append, ← List.append_assoc]
    exact isCharBoundary_append (p ++ t) q
  rw [sliceRange, if_pos ⟨Nat.le_add_right _ _, isCharBoundary_append _ _, hstop⟩, slice_append]

/-- The text up to the first character with a property, or all of it. -/
theorem find_get_d (p : Char → Bool) (s : Text) :
    (find p s).getD (len s) = len (s.takeWhile fun c => !p c) := by
  induction s with
  | nil => rfl
  | cons c s ih =>
      rw [find]
      by_cases hc : p c = true
      · simp [hc]
      · rw [if_neg hc]
        cases hfind : find p s with
        | none =>
            rw [hfind, Option.getD_none] at ih
            simp [hc, ih]
        | some n =>
            rw [hfind, Option.getD_some] at ih
            simp [hc, ih]

theorem strip_prefix_eq_some {rest : Text} (h : stripPrefix p s = some rest) :
    s = p ++ rest := by
  rw [stripPrefix] at h
  split_ifs at h with hprefix
  obtain ⟨after, rfl⟩ := List.isPrefixOf_iff_prefix.mp hprefix
  rw [List.drop_left] at h
  rw [Option.some.inj h]

/-! ## The byte before an offset -/

theorem length_to_bytes (t : Text) : (toBytes t).length = len t := by
  induction t with
  | nil => rfl
  | cons c t ih =>
      rw [toBytes, List.flatMap_cons, List.length_append, String.length_utf8EncodeChar, len_cons]
      exact congrArg (c.utf8Size + ·) ih

/-- The last byte of a character: the character itself in ASCII, and else none of ASCII. -/
theorem exists_last_byte (c : Char) :
    ∃ byte, (String.utf8EncodeChar c).getLast? = some byte ∧
      (c.toNat < 128 → byte = UInt8.ofNat c.toNat) ∧ (128 ≤ c.toNat → 128 ≤ byte.toNat) := by
  have htail : 128 ≤ (UInt8.ofNat (c.toNat % 0x40 + 0x80)).toNat := by
    rw [UInt8.toNat_ofNat']
    omega
  rw [encode_char_eq]
  split_ifs with hone
  · exact ⟨_, rfl, fun _ => rfl, fun hle => by omega⟩
  · exact ⟨_, rfl, fun hlt => by omega, fun _ => htail⟩
  · exact ⟨_, rfl, fun hlt => by omega, fun _ => htail⟩
  · exact ⟨_, rfl, fun hlt => by omega, fun _ => htail⟩

/-- The byte before an offset is the last one of the character before it. -/
theorem byte_at_before (init : Text) (c : Char) (rest : Text) :
    byteAt ((init ++ [c]) ++ rest) (len (init ++ [c]) - 1) =
      (String.utf8EncodeChar c).getLast? := by
  have hencode : toBytes ((init ++ [c]) ++ rest) =
      (toBytes init ++ String.utf8EncodeChar c) ++ toBytes rest := by
    simp [toBytes]
  have hlength : (toBytes init ++ String.utf8EncodeChar c).length = len (init ++ [c]) := by
    rw [List.length_append, length_to_bytes, String.length_utf8EncodeChar]
    simp
  have hpos : 0 < len (init ++ [c]) := by
    have := c.utf8Size_pos
    simp
    omega
  rw [byteAt, hencode, List.getElem?_append_left (by omega), ← hlength,
    ← List.getLast?_eq_getElem?, List.getLast?_append_of_ne_nil _ String.utf8EncodeChar_ne_nil]

/-! ## Occurrences -/

/-- What is found splits the text before the pattern. -/
theorem match_indices_go_spec {n : Nat} {done rest before after : Text}
    (h : (before, after) ∈ matchIndices.go p n done rest) :
    done ++ rest = before ++ after ∧ p <+: after := by
  induction n generalizing done rest with
  | zero => cases h
  | succ n ih =>
      cases rest with
      | nil => cases h
      | cons c rest =>
          rw [matchIndices.go] at h
          split_ifs at h with hprefix
          · rcases List.mem_cons.mp h with heq | h
            · obtain ⟨rfl, rfl⟩ := Prod.mk.inj heq
              exact ⟨rfl, List.isPrefixOf_iff_prefix.mp hprefix⟩
            · obtain ⟨hsplit, hafter⟩ := ih h
              rw [List.append_assoc, List.take_append_drop] at hsplit
              exact ⟨hsplit, hafter⟩
          · obtain ⟨hsplit, hafter⟩ := ih h
            exact ⟨by rw [← hsplit, List.append_assoc, List.singleton_append], hafter⟩

/-- An occurrence splits the text, and what stands behind the cut begins with the pattern. -/
theorem match_indices_spec {before after : Text} (h : (before, after) ∈ matchIndices p s) :
    s = before ++ after ∧ p <+: after :=
  match_indices_go_spec h

end Utf8
