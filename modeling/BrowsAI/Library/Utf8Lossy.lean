import BrowsAI.Library.Utf8

/-!
# Text from bytes

`toBytes` is the UTF-8 encoding of a text, and `fromUtf8Lossy` reads bytes as text the way the
string library of Rust does: the longest part of an ill-formed sequence that could have been
continued becomes one replacement character. What encodes a text is read as that text,
`from_utf8_lossy_to_bytes`.
-/

namespace Utf8

/-- The bytes of a text. -/
def toBytes (t : Text) : List UInt8 := t.flatMap String.utf8EncodeChar

/-! ## Reading a character -/

/-- What may follow the first byte of a character: the number of bytes, the range of the first of
these, and the bits of the character that the first byte has. -/
structure Lead where
  count : Nat
  least : Nat
  greatest : Nat
  bits : Nat

/-- What a first byte says of the bytes behind it. -/
def lead (byte : Nat) : Option Lead :=
  if byte < 0x80 then some ⟨0, 0x80, 0xBF, byte⟩
  else if byte < 0xC2 then none
  else if byte < 0xE0 then some ⟨1, 0x80, 0xBF, byte - 0xC0⟩
  else if byte < 0xF0 then
    some ⟨2, if byte = 0xE0 then 0xA0 else 0x80, if byte = 0xED then 0x9F else 0xBF, byte - 0xE0⟩
  else if byte < 0xF5 then
    some ⟨3, if byte = 0xF0 then 0x90 else 0x80, if byte = 0xF4 then 0x8F else 0xBF, byte - 0xF0⟩
  else none

/-- The value of a character whose first bits are known, and the bytes behind what was read of
it. -/
def readTail : Nat → Nat → Nat → Nat → List UInt8 → Option Nat × List UInt8
  | 0, _, _, value, rest => (some value, rest)
  | _ + 1, _, _, _, [] => (none, [])
  | count + 1, least, greatest, value, byte :: rest =>
      if least ≤ byte.toNat ∧ byte.toNat ≤ greatest then
        readTail count 0x80 0xBF (value * 64 + byte.toNat % 64) rest
      else (none, byte :: rest)

/-- What stands for bytes that are no character. -/
def replacement : Char := '\uFFFD'

/-- The first character, and the bytes behind it. -/
def readChar (byte : UInt8) (rest : List UInt8) : Char × List UInt8 :=
  match lead byte.toNat with
  | none => (replacement, rest)
  | some ⟨count, least, greatest, bits⟩ =>
      match readTail count least greatest bits rest with
      | (some value, rest) => (Char.ofNat value, rest)
      | (none, rest) => (replacement, rest)

/-- At most so many characters of the bytes. -/
def readChars : Nat → List UInt8 → Text
  | 0, _ => []
  | _ + 1, [] => []
  | fuel + 1, byte :: rest =>
      let (c, rest) := readChar byte rest
      c :: readChars fuel rest

/-- `String::from_utf8_lossy`. A character takes at least one byte. -/
def fromUtf8Lossy (bytes : List UInt8) : Text := readChars bytes.length bytes

/-! ## Well-formed bytes -/

/-- A byte in its range adds six bits. -/
theorem read_tail_cons {count least greatest value n : Nat} {rest : List UInt8} (hn : n < 256)
    (h : least ≤ n ∧ n ≤ greatest) :
    readTail (count + 1) least greatest value (UInt8.ofNat n :: rest) =
      readTail count 0x80 0xBF (value * 64 + n % 64) rest := by
  have hbyte : (UInt8.ofNat n).toNat = n := UInt8.toNat_ofNat_of_lt hn
  rw [readTail, hbyte, if_pos h]

/-- A character is read from its first byte and those behind. -/
theorem read_char_of_lead {n count least greatest bits value : Nat} {tail rest : List UInt8}
    (hn : n < 256) (hlead : lead n = some ⟨count, least, greatest, bits⟩)
    (htail : readTail count least greatest bits tail = (some value, rest)) :
    readChar (UInt8.ofNat n) tail = (Char.ofNat value, rest) := by
  have hbyte : (UInt8.ofNat n).toNat = n := UInt8.toNat_ofNat_of_lt hn
  rw [readChar, hbyte, hlead]
  simp only [htail]

theorem lead_two {n : Nat} (h : n < 0x80 * 0x10) (hmin : 0x80 ≤ n) :
    lead (n / 64 % 0x20 + 0xC0) = some ⟨1, 0x80, 0xBF, n / 64⟩ := by
  rw [lead, if_neg (by omega), if_neg (by omega), if_pos (by omega)]
  have hbits : n / 64 % 0x20 + 0xC0 - 0xC0 = n / 64 := by omega
  rw [hbits]

/-- The first of three bytes. -/
theorem lead_three {n : Nat} (h : n < 0x10000) (hmin : 0x800 ≤ n) :
    lead (n / 4096 % 0x10 + 0xE0) =
      some ⟨2, if n / 4096 = 0 then 0xA0 else 0x80, if n / 4096 = 0xD then 0x9F else 0xBF,
        n / 4096⟩ := by
  rw [lead, if_neg (by omega), if_neg (by omega), if_neg (by omega), if_pos (by omega)]
  have hbits : n / 4096 % 0x10 + 0xE0 - 0xE0 = n / 4096 := by omega
  have hleast : n / 4096 % 0x10 + 0xE0 = 0xE0 ↔ n / 4096 = 0 := by omega
  have hgreatest : n / 4096 % 0x10 + 0xE0 = 0xED ↔ n / 4096 = 0xD := by omega
  simp only [hbits, hleast, hgreatest]

/-- The first of four bytes. -/
theorem lead_four {n : Nat} (h : n < 0x110000) (hmin : 0x10000 ≤ n) :
    lead (n / 262144 % 0x08 + 0xF0) =
      some ⟨3, if n / 262144 = 0 then 0x90 else 0x80, if n / 262144 = 4 then 0x8F else 0xBF,
        n / 262144⟩ := by
  rw [lead, if_neg (by omega), if_neg (by omega), if_neg (by omega), if_neg (by omega),
    if_pos (by omega)]
  have hbits : n / 262144 % 0x08 + 0xF0 - 0xF0 = n / 262144 := by omega
  have hleast : n / 262144 % 0x08 + 0xF0 = 0xF0 ↔ n / 262144 = 0 := by omega
  have hgreatest : n / 262144 % 0x08 + 0xF0 = 0xF4 ↔ n / 262144 = 4 := by omega
  simp only [hbits, hleast, hgreatest]

theorem char_range (c : Char) :
    c.toNat < 0xD800 ∨ 0xDFFF < c.toNat ∧ c.toNat < 0x110000 := c.valid

/-- The bytes of a character by its size. -/
theorem encode_char_eq (c : Char) : String.utf8EncodeChar c =
    if c.toNat ≤ 0x7F then [UInt8.ofNat c.toNat]
    else if c.toNat ≤ 0x7FF then
      [UInt8.ofNat (c.toNat / 64 % 0x20 + 0xC0), UInt8.ofNat (c.toNat % 0x40 + 0x80)]
    else if c.toNat ≤ 0xFFFF then
      [UInt8.ofNat (c.toNat / 4096 % 0x10 + 0xE0), UInt8.ofNat (c.toNat / 64 % 0x40 + 0x80),
        UInt8.ofNat (c.toNat % 0x40 + 0x80)]
    else
      [UInt8.ofNat (c.toNat / 262144 % 0x08 + 0xF0), UInt8.ofNat (c.toNat / 4096 % 0x40 + 0x80),
        UInt8.ofNat (c.toNat / 64 % 0x40 + 0x80), UInt8.ofNat (c.toNat % 0x40 + 0x80)] := rfl

/-- The encoding of a character is read as this character, whatever follows. -/
theorem read_char_encode (c : Char) (rest : List UInt8) :
    ∃ byte tail, String.utf8EncodeChar c = byte :: tail ∧
      readChar byte (tail ++ rest) = (c, rest) := by
  have hrange := char_range c
  have hself : Char.ofNat c.toNat = c := Char.ofNat_toNat c
  rw [encode_char_eq]
  generalize c.toNat = n at hrange hself
  rw [← hself]
  -- by the number of bytes
  split_ifs with hone htwo hthree
  · have hlead : lead n = some ⟨0, 0x80, 0xBF, n⟩ := by rw [lead, if_pos (by omega)]
    exact ⟨_, _, rfl, read_char_of_lead (by omega) hlead rfl⟩
  · refine ⟨_, _, rfl, read_char_of_lead (by omega) (lead_two (by omega) (by omega)) ?_⟩
    rw [List.singleton_append, read_tail_cons (by omega) (by omega), readTail]
    have hvalue : n / 64 * 64 + (n % 0x40 + 0x80) % 64 = n := by omega
    rw [hvalue]
  · refine ⟨_, _, rfl, read_char_of_lead (by omega) (lead_three (by omega) (by omega)) ?_⟩
    have hrange : (if n / 4096 = 0 then 0xA0 else 0x80) ≤ n / 64 % 0x40 + 0x80 ∧
        n / 64 % 0x40 + 0x80 ≤ if n / 4096 = 0xD then 0x9F else 0xBF := by
      constructor <;> split_ifs <;> omega
    rw [List.cons_append, List.singleton_append, read_tail_cons (by omega) hrange,
      read_tail_cons (by omega) (by omega), readTail]
    have hvalue : (n / 4096 * 64 + (n / 64 % 0x40 + 0x80) % 64) * 64 +
        (n % 0x40 + 0x80) % 64 = n := by omega
    rw [hvalue]
  · refine ⟨_, _, rfl, read_char_of_lead (by omega) (lead_four (by omega) (by omega)) ?_⟩
    have hrange : (if n / 262144 = 0 then 0x90 else 0x80) ≤ n / 4096 % 0x40 + 0x80 ∧
        n / 4096 % 0x40 + 0x80 ≤ if n / 262144 = 4 then 0x8F else 0xBF := by
      constructor <;> split_ifs <;> omega
    rw [List.cons_append, List.cons_append, List.singleton_append,
      read_tail_cons (by omega) hrange, read_tail_cons (by omega) (by omega),
      read_tail_cons (by omega) (by omega), readTail]
    have hvalue : ((n / 262144 * 64 + (n / 4096 % 0x40 + 0x80) % 64) * 64 +
        (n / 64 % 0x40 + 0x80) % 64) * 64 + (n % 0x40 + 0x80) % 64 = n := by omega
    rw [hvalue]

/-- The bytes of a text are read as the text. -/
theorem read_chars_to_bytes (t : Text) (fuel : Nat) (h : (toBytes t).length ≤ fuel) :
    readChars fuel (toBytes t) = t := by
  induction t generalizing fuel with
  | nil => cases fuel <;> rfl
  | cons c t ih =>
      obtain ⟨byte, tail, hbytes, hread⟩ := read_char_encode c (toBytes t)
      have hcons : toBytes (c :: t) = byte :: (tail ++ toBytes t) := by
        rw [toBytes, List.flatMap_cons, hbytes]
        rfl
      rw [hcons, List.length_cons, List.length_append] at h
      cases fuel with
      | zero => omega
      | succ fuel =>
          rw [hcons, readChars, hread]
          exact congrArg (c :: ·) (ih fuel (by omega))

/-- An ASCII character is its own byte. -/
theorem utf8_encode_char_of_le {c : Char} (hc : c.toNat ≤ 0x7F) :
    String.utf8EncodeChar c = [UInt8.ofNat c.toNat] := by
  rw [encode_char_eq, if_pos hc]

/-- So is one in front of a text. -/
theorem to_bytes_cons_of_le {c : Char} (hc : c.toNat ≤ 0x7F) (t : Text) :
    toBytes (c :: t) = c.toUInt8 :: toBytes t := by
  rw [toBytes, List.flatMap_cons, utf8_encode_char_of_le hc]
  rfl

theorem from_utf8_lossy_to_bytes (t : Text) : fromUtf8Lossy (toBytes t) = t :=
  read_chars_to_bytes t _ (Nat.le_refl _)

end Utf8
