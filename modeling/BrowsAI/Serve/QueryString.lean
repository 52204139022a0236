import BrowsAI.Library.OrdMap
import BrowsAI.Library.Utf8Lossy

/-!
# Query strings of the server

`parse_query` of the `serve` command of `browsai-cli`, with `percent_decode` as the loop over an
index that it is: an access past the end of the bytes is `none`. `percent_decode_eq` gives the
result for every input, and `parse_query_of_written` reads a map back from its pairs however they
were escaped.
-/

namespace BrowsAI.Serve

open Utf8

/-- The value of a hexadecimal digit. -/
def hexValue (byte : UInt8) : Option UInt8 :=
  if '0'.toUInt8 ≤ byte ∧ byte ≤ '9'.toUInt8 then some (byte - '0'.toUInt8)
  else if 'a'.toUInt8 ≤ byte ∧ byte ≤ 'f'.toUInt8 then some (byte - 'a'.toUInt8 + 10)
  else if 'A'.toUInt8 ≤ byte ∧ byte ≤ 'F'.toUInt8 then some (byte - 'A'.toUInt8 + 10)
  else none

/-- The byte of an escape, from the two bytes behind its `%`. -/
def escaped (high low : UInt8) : Option UInt8 :=
  match hexValue high, hexValue low with
  | some high, some low => some (high <<< 4 ||| low)
  | _, _ => none

/-- A plus stands for a space. -/
def unescaped (byte : UInt8) : UInt8 := if byte = '+'.toUInt8 then ' '.toUInt8 else byte

/-- So many turns of the loop of `percent_decode` at most. -/
def percentDecodeLoop (bytes : List UInt8) : Nat → Nat → List UInt8 → Option (List UInt8)
  | 0, _, _ => none
  | fuel + 1, index, out =>
      if index < bytes.length then do
        let byte ← bytes[index]?
        let value ←
          if byte = '%'.toUInt8 ∧ index + 2 < bytes.length then do
            let high ← bytes[index + 1]?
            let low ← bytes[index + 2]?
            pure (escaped high low)
          else pure none
        match value with
        | some value => percentDecodeLoop bytes fuel (index + 3) (out ++ [value])
        | none => percentDecodeLoop bytes fuel (index + 1) (out ++ [unescaped byte])
      else some out

/-- The index moves on by at least one in a turn. -/
def percentDecode (input : Text) : Option Text :=
  (percentDecodeLoop (toBytes input) ((toBytes input).length + 1) 0 []).map fromUtf8Lossy

/-- The body of the loop of `parse_query`. -/
def insertPair (map : OrdMap Text Text) (pair : Text) : Option (OrdMap Text Text) :=
  if pair.isEmpty then some map
  else do
    let (k, v) := (splitOnce '=' pair).getD (pair, [])
    let key ← percentDecode k
    let value ← percentDecode v
    some (map.insert key value)

/-- The pairs of a query, the last value of each key. -/
def parseQuery (query : Text) : Option (OrdMap Text Text) :=
  (split '&' query).foldlM insertPair ∅

/-! ## What the loop computes -/

/-- The bytes that the loop makes of the rest of its input. -/
def decoded : List UInt8 → List UInt8
  | [] => []
  | [byte] => [unescaped byte]
  | [byte, other] => [unescaped byte, unescaped other]
  | byte :: high :: low :: rest =>
      match if byte = '%'.toUInt8 then escaped high low else none with
      | some value => value :: decoded rest
      | none => unescaped byte :: decoded (high :: low :: rest)

theorem decoded_cons_of_ne {byte : UInt8} (h : byte ≠ '%'.toUInt8) (rest : List UInt8) :
    decoded (byte :: rest) = unescaped byte :: decoded rest := by
  match rest with
  | [] => rfl
  | [_] => rfl
  | _ :: _ :: _ => rw [decoded, if_neg h]

theorem decoded_escape {high low value : UInt8} (h : escaped high low = some value)
    (rest : List UInt8) :
    decoded ('%'.toUInt8 :: high :: low :: rest) = value :: decoded rest := by
  rw [decoded, if_pos rfl, h]

/-- By the bytes that are left from `index` on. -/
theorem percent_decode_loop_eq (bytes : List UInt8) (fuel index : Nat) (out : List UInt8)
    (hfuel : bytes.length - index < fuel) :
    percentDecodeLoop bytes fuel index out = some (out ++ decoded (bytes.drop index)) := by
  induction fuel generalizing index out with
  | zero => omega
  | succ fuel ih =>
      rw [percentDecodeLoop]
      split_ifs with hindex
      · have hget (i : Nat) : bytes[index + i]? = (bytes.drop index)[i]? := List.getElem?_drop.symm
        have hfirst : bytes[index]? = (bytes.drop index)[0]? := hget 0
        have hdrop (i : Nat) : bytes.drop (index + i) = (bytes.drop index).drop i :=
          List.drop_drop.symm
        have hlength : bytes.length = index + (bytes.drop index).length := by
          rw [List.length_drop]
          omega
        have hnext (out : List UInt8) := ih (index + 1) out (by omega)
        have hthird (out : List UInt8) := ih (index + 3) out (by omega)
        simp only [hnext, hthird, hget, hfirst, hdrop]
        generalize bytes.drop index = left at hlength
        match left with
        | [] =>
            rw [List.length_nil] at hlength
            omega
        | [byte] =>
            have hshort : ¬ index + 2 < bytes.length := by
              rw [hlength, List.length_singleton]
              omega
            simp [hshort, decoded]
        | [byte, other] =>
            have hshort : ¬ index + 2 < bytes.length := by
              rw [hlength, List.length_cons, List.length_singleton]
              omega
            simp [hshort, decoded]
        | byte :: high :: low :: rest =>
            have hlong : index + 2 < bytes.length := by
              rw [hlength, List.length_cons, List.length_cons, List.length_cons]
              omega
            rw [decoded]
            by_cases hbyte : byte = '%'.toUInt8
            · cases hescaped : escaped high low <;> simp [hlong, hbyte, hescaped]
            · simp [hlong, hbyte]
      · rw [List.drop_eq_nil_of_le (by omega), decoded, List.append_nil]

theorem percent_decode_eq (input : Text) :
    percentDecode input = some (fromUtf8Lossy (decoded (toBytes input))) := by
  rw [percentDecode, percent_decode_loop_eq _ _ 0 [] (by omega)]
  rfl

/-! ## Reading a map back -/

/-- The ASCII characters that need no escape in a URL. -/
def isUnreserved (c : Char) : Bool :=
  c.isAlphanum || c == '-' || c == '.' || c == '_' || c == '~'

/-- A hexadecimal digit. -/
def hexDigit (upper : Bool) (n : Nat) : Char :=
  if n < 10 then Char.ofNat ('0'.toNat + n)
  else Char.ofNat ((if upper then 'A' else 'a').toNat + (n - 10))

/-- A text that stands for bytes: any byte may be escaped, with digits of either case, and an
unreserved character may stand for itself. -/
inductive Written : List UInt8 → Text → Prop
  | nil : Written [] []
  | literal {c : Char} {bytes : List UInt8} {text : Text} (h : isUnreserved c)
      (rest : Written bytes text) : Written (c.toUInt8 :: bytes) (c :: text)
  | escape (byte : UInt8) (upper upper' : Bool) {bytes : List UInt8} {text : Text}
      (rest : Written bytes text) :
      Written (byte :: bytes)
        ('%' :: hexDigit upper (byte.toNat / 16) :: hexDigit upper' (byte.toNat % 16) :: text)

/-- The text is an encoding of the pair. -/
def WrittenPair (pair : Text × Text) (text : Text) : Prop :=
  ∃ k v, text = k ++ '=' :: v ∧ Written (toBytes pair.1) k ∧ Written (toBytes pair.2) v

/-- The pairs in their order, joined by `&`. -/
def WrittenQuery (pairs : List (Text × Text)) (query : Text) : Prop :=
  ∃ texts, List.Forall₂ WrittenPair pairs texts ∧ query = ['&'].intercalate texts

theorem is_unreserved_of_hex_digit (upper : Bool) {n : Nat} (h : n < 16) :
    isUnreserved (hexDigit upper n) := by
  have hall : ∀ (upper : Bool) (n : Fin 16), isUnreserved (hexDigit upper n) := by decide
  exact hall upper ⟨n, h⟩

theorem hex_value_hex_digit (upper : Bool) {n : Nat} (h : n < 16) :
    hexValue (hexDigit upper n).toUInt8 = some (UInt8.ofNat n) := by
  have hall : ∀ (upper : Bool) (n : Fin 16),
      hexValue (hexDigit upper n).toUInt8 = some (UInt8.ofNat n) := by decide
  exact hall upper ⟨n, h⟩

theorem shift_or_eq {high low : Nat} (hhigh : high < 16) (hlow : low < 16) :
    UInt8.ofNat high <<< 4 ||| UInt8.ofNat low = UInt8.ofNat (high * 16 + low) := by
  have hall : ∀ high low : Fin 16,
      UInt8.ofNat high <<< 4 ||| UInt8.ofNat low = UInt8.ofNat (high * 16 + low) := by decide
  exact hall ⟨high, hhigh⟩ ⟨low, hlow⟩

theorem escaped_hex_digits (byte : UInt8) (upper upper' : Bool) :
    escaped (hexDigit upper (byte.toNat / 16)).toUInt8 (hexDigit upper' (byte.toNat % 16)).toUInt8 =
      some byte := by
  have hbyte : byte.toNat < 256 := byte.toNat_lt
  rw [escaped, hex_value_hex_digit upper (by omega), hex_value_hex_digit upper' (by omega)]
  have hvalue : byte.toNat / 16 * 16 + byte.toNat % 16 = byte.toNat := by omega
  show some _ = _
  rw [shift_or_eq (by omega) (by omega), hvalue, UInt8.ofNat_toNat]

/-- Unreserved characters are ASCII. -/
theorem to_nat_lt_of_is_unreserved {c : Char} (h : isUnreserved c) : c.toNat < 128 := by
  replace h : (decide (c.val ≥ 65 ∧ c.val ≤ 90) || (c.val ≥ 97 && c.val ≤ 122) ||
    (c.val ≥ 48 && c.val ≤ 57) || c == '-' || c == '.' || c == '_' || c == '~') = true := h
  simp only [Bool.or_eq_true, Bool.and_eq_true, decide_eq_true_eq, beq_iff_eq,
    UInt32.le_iff_toNat_le, ge_iff_le] at h
  have hval : c.toNat = c.val.toNat := rfl
  rcases h with ((((((⟨-, h⟩ | ⟨-, h⟩) | ⟨-, h⟩) | rfl) | rfl) | rfl) | rfl)
  · exact hval ▸ Nat.lt_of_le_of_lt h (by decide)
  · exact hval ▸ Nat.lt_of_le_of_lt h (by decide)
  · exact hval ▸ Nat.lt_of_le_of_lt h (by decide)
  all_goals decide

theorem to_uint8_ne {c d : Char} (hc : isUnreserved c) (hd : d.toNat < 128)
    (hreserved : isUnreserved d = false) : c.toUInt8 ≠ d.toUInt8 := by
  intro heq
  have hlt := to_nat_lt_of_is_unreserved hc
  have hmod : c.toNat % 256 = d.toNat % 256 := congrArg UInt8.toNat heq
  have hchar : c = d := Char.toNat_inj.mp (by omega)
  rw [hchar, hreserved] at hc
  cases hc

/-- An encoding has percent signs and unreserved characters only. -/
theorem Written.eq_or_is_unreserved {bytes : List UInt8} {text : Text} (h : Written bytes text) :
    ∀ c ∈ text, c = '%' ∨ isUnreserved c := by
  induction h with
  | nil => exact fun c hc => nomatch hc
  | literal h rest ih => exact List.forall_mem_cons.mpr ⟨.inr h, ih⟩
  | escape byte upper upper' rest ih =>
      have hbyte : byte.toNat < 256 := byte.toNat_lt
      refine List.forall_mem_cons.mpr ⟨.inl rfl, List.forall_mem_cons.mpr ⟨.inr ?_,
        List.forall_mem_cons.mpr ⟨.inr ?_, ih⟩⟩⟩
      · exact is_unreserved_of_hex_digit upper (by omega)
      · exact is_unreserved_of_hex_digit upper' (by omega)

theorem Written.not_mem {bytes : List UInt8} {text : Text} (h : Written bytes text) {c : Char}
    (hc : c ≠ '%') (hreserved : isUnreserved c = false) : c ∉ text := by
  intro hmem
  rcases h.eq_or_is_unreserved c hmem with heq | hunreserved
  · exact hc heq
  · rw [hreserved] at hunreserved
    cases hunreserved

/-- An encoding is decoded to its bytes. -/
theorem Written.decoded_eq {bytes : List UInt8} {text : Text} (h : Written bytes text) :
    decoded (toBytes text) = bytes := by
  induction h with
  | nil => rfl
  | @literal c bytes text h rest ih =>
      have hpercent : c.toUInt8 ≠ '%'.toUInt8 := to_uint8_ne h (by decide) rfl
      have hplus : c.toUInt8 ≠ '+'.toUInt8 := to_uint8_ne h (by decide) rfl
      rw [to_bytes_cons_of_le (Nat.le_of_lt_succ (to_nat_lt_of_is_unreserved h)), decoded_cons_of_ne hpercent, ih,
        unescaped, if_neg hplus]
  | escape byte upper upper' rest ih =>
      have hbyte : byte.toNat < 256 := byte.toNat_lt
      have hhigh := is_unreserved_of_hex_digit upper (n := byte.toNat / 16) (by omega)
      have hlow := is_unreserved_of_hex_digit upper' (n := byte.toNat % 16) (by omega)
      rw [to_bytes_cons_of_le (by decide), to_bytes_cons_of_le (Nat.le_of_lt_succ (to_nat_lt_of_is_unreserved hhigh)),
        to_bytes_cons_of_le (Nat.le_of_lt_succ (to_nat_lt_of_is_unreserved hlow)),
        decoded_escape (escaped_hex_digits byte upper upper'), ih]

theorem percent_decode_of_written {t text : Text} (h : Written (toBytes t) text) :
    percentDecode text = some t := by
  rw [percent_decode_eq, h.decoded_eq, from_utf8_lossy_to_bytes]

/-- A written pair is inserted. -/
theorem insert_pair_of_written (map : OrdMap Text Text) {pair : Text × Text} {text : Text}
    (h : WrittenPair pair text) : insertPair map text = some (map.insert pair.1 pair.2) := by
  obtain ⟨k, v, rfl, hk, hv⟩ := h
  have hnonempty : (k ++ '=' :: v).isEmpty = false := by
    cases k <;> rfl
  rw [insertPair, hnonempty, splitOnce_append (hk.not_mem (by decide) (by decide))]
  show (do
    let key ← percentDecode k
    let value ← percentDecode v
    some (map.insert key value)) = _
  rw [percent_decode_of_written hk, percent_decode_of_written hv]
  rfl

/-- Written pairs are inserted one after the other. -/
theorem foldlM_insert_pair {pairs : List (Text × Text)} {texts : List Text}
    (h : List.Forall₂ WrittenPair pairs texts) (map : OrdMap Text Text) :
    texts.foldlM insertPair map =
      some (pairs.foldl (fun map pair => map.insert pair.1 pair.2) map) := by
  induction h generalizing map with
  | nil => rfl
  | cons hpair hrest ih =>
      rw [List.foldlM_cons, insert_pair_of_written map hpair]
      exact ih _

theorem not_mem_of_written_pairs {pairs : List (Text × Text)} {texts : List Text}
    (h : List.Forall₂ WrittenPair pairs texts) : ∀ text ∈ texts, '&' ∉ text := by
  induction h with
  | nil => exact fun text htext => nomatch htext
  | cons hpair hrest ih =>
      obtain ⟨k, v, rfl, hk, hv⟩ := hpair
      refine List.forall_mem_cons.mpr ⟨?_, ih⟩
      rw [List.mem_append, List.mem_cons, not_or, not_or]
      exact ⟨hk.not_mem (by decide) (by decide), by decide, hv.not_mem (by decide) (by decide)⟩

/-- A query in which the pairs of a map stand in any order, escaped in any way, is read as this
map. Every text can be decoded. -/
theorem parse_query_of_written {map : OrdMap Text Text} {pairs : List (Text × Text)}
    {query : Text} (hpairs : pairs.Perm map.toList) (hquery : WrittenQuery pairs query) :
    parseQuery query = some map ∧ ∀ input, ∃ t, percentDecode input = some t := by
  refine ⟨?_, fun input => ⟨_, percent_decode_eq input⟩⟩
  obtain ⟨texts, htexts, rfl⟩ := hquery
  cases htexts with
  | nil =>
      rw [← OrdMap.foldl_insert_of_perm hpairs]
      rfl
  | @cons pair text pairs texts hpair hrest =>
      have hall : List.Forall₂ WrittenPair (pair :: pairs) (text :: texts) := .cons hpair hrest
      rw [parseQuery, split, List.splitOn_intercalate '&' (not_mem_of_written_pairs hall)
        (List.cons_ne_nil _ _), foldlM_insert_pair hall, OrdMap.foldl_insert_of_perm hpairs]

/-- A pair written with escapes of both cases and literal bytes. -/
theorem parse_query_of_written_pair :
    parseQuery "%c3%A9=a%2e" = some ((∅ : OrdMap Text Text).insert ("é" : String) ("a." : String)) ∧
      ∀ input, ∃ t, percentDecode input = some t := by
  have hpairs : [(("é" : String).toList, ("a." : String).toList)].Perm
      ((∅ : OrdMap Text Text).insert ("é" : String) ("a." : String)).toList := by
    decide
  refine parse_query_of_written hpairs ?_
  refine ⟨["%c3%A9=a%2e".toList], .cons ⟨"%c3%A9".toList, "a%2e".toList, by decide, ?_, ?_⟩ .nil,
    by decide⟩
  · exact .escape 0xC3 false false (.escape 0xA9 true true .nil)
  · exact .literal (by decide) (.escape 0x2E false false .nil)

end BrowsAI.Serve
