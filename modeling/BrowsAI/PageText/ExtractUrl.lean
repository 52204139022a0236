import BrowsAI.Library.Boundaries
import BrowsAI.PageText.NodeText

/-!
# The slices of URL extraction

`extract_url` on byte offsets: it looks at the byte before an occurrence and cuts the text at
offsets that it adds up, and a cut that is not there is a panic. `extractUrlSliced` is that
function, with no result where it panics; read `extract_url_safe` first.
-/

namespace BrowsAI.PageText

open Utf8

/-! ## The passes over the text -/

/-- `u8::is_ascii_alphanumeric`. -/
def isAsciiAlphanumeric (byte : UInt8) : Bool :=
  (48 ≤ byte && byte ≤ 57) || (65 ≤ byte && byte ≤ 90) || (97 ≤ byte && byte ≤ 122)

/-- An `http` behind this byte is the middle of a word. -/
def continuesWord (byte : UInt8) : Bool := isAsciiAlphanumeric byte || byte == 95 || byte == 45

/-- `u8::is_ascii_whitespace`. -/
def isAsciiWhitespaceByte (byte : UInt8) : Bool :=
  byte == 9 || byte == 10 || byte == 12 || byte == 13 || byte == 32

/-- A test of the byte before an offset, which is not passed at the start of the text. -/
def byteBefore (p : UInt8 → Bool) (s : Text) (index : Nat) : Option Bool :=
  if index = 0 then some false else (byteAt s (index - 1)).map p

/-- The URL at an occurrence of `http`, if there is one. -/
def httpAt (trimmed : Text) (index : Nat) : Option (Option Text) := do
  let inWord ← byteBefore continuesWord trimmed index
  if inWord then some none
  else
    let rest ← sliceFrom trimmed index
    match stripPrefix "https://" rest <|> stripPrefix "http://" rest with
    | none => some none
    | some afterScheme =>
        let stop := (find endsUrl afterScheme).getD (len afterScheme)
        let candidate ← sliceTo afterScheme stop
        if candidate = [] then some none
        else
          let schemeLen := len rest - len afterScheme
          (sliceRange trimmed index (index + schemeLen + stop)).map some

/-- The URL at an occurrence of `//`, if there is one. -/
def relativeAt (trimmed : Text) (index : Nat) : Option (Option Text) := do
  let afterSpace ← byteBefore isAsciiWhitespaceByte trimmed index
  if !afterSpace then some none
  else
    let rest ← sliceFrom trimmed (index + 2)
    let stop := (find endsUrl rest).getD (len rest)
    let candidate ← sliceTo rest stop
    if candidate = [] then some none else some (some ("//" ++ candidate))

/-- The loop over occurrences, which returns at the first URL. -/
def firstUrl (urlAt : Nat → Option (Option Text)) : List Nat → Option (Option Text)
  | [] => some none
  | index :: indices => do
      match ← urlAt index with
      | some url => some (some url)
      | none => firstUrl urlAt indices

/-- The first URL of a text, with every slice checked; `none` is a panic. -/
def extractUrlSliced (text : Text) : Option (Option Text) :=
  let trimmed := trim text
  if trimmed = [] then some none
  else do
    match ← firstUrl (httpAt trimmed) ((matchIndices "http" trimmed).map fun m => len m.1) with
    | some url => some (some url)
    | none =>
        match ← firstUrl (relativeAt trimmed)
            ((matchIndices "//" trimmed).map fun m => len m.1) with
        | some url => some (some url)
        | none =>
            if trimmed.head? = some '/' ∧ !trimmed.any isWhitespace ∧ 1 < len trimmed then
              some (some trimmed)
            else some none

/-! ## The byte before an occurrence -/

/-- A test of the last byte of a character is one of the character, if both pass in ASCII only. -/
theorem last_byte_agrees (f : UInt8 → Bool) (g : Char → Bool)
    (hascii : ∀ n : Fin 128, f (UInt8.ofNat n) = g (Char.ofNat n))
    (hbyte : ∀ byte, f byte = true → byte.toNat < 128)
    (hchar : ∀ c, g c = true → c.toNat < 128) (c : Char) :
    ∃ byte, (String.utf8EncodeChar c).getLast? = some byte ∧ f byte = g c := by
  obtain ⟨byte, hlast, hsmall, hlarge⟩ := exists_last_byte c
  refine ⟨byte, hlast, ?_⟩
  by_cases hc : c.toNat < 128
  · rw [hsmall hc, ← Char.ofNat_toNat c, Char.ofNat_toNat c]
    exact (hascii ⟨c.toNat, hc⟩).trans (by rw [Char.ofNat_toNat])
  · have hle := hlarge (Nat.le_of_not_lt hc)
    rw [Bool.eq_false_iff.mpr fun h => absurd (hbyte byte h) (Nat.not_lt_of_le hle),
      Bool.eq_false_iff.mpr fun h => hc (hchar c h)]

/-- The last byte of a character tells whether it continues a word. -/
theorem continues_word_agrees (c : Char) :
    ∃ byte, (String.utf8EncodeChar c).getLast? = some byte ∧
      continuesWord byte = (c.isAlphanum || c == '_' || c == '-') := by
  refine last_byte_agrees continuesWord (fun c => c.isAlphanum || c == '_' || c == '-')
    (by decide) (fun byte h => ?_) (fun c h => ?_) c
  · simp only [continuesWord, isAsciiAlphanumeric, Bool.or_eq_true, Bool.and_eq_true,
      decide_eq_true_eq, beq_iff_eq, UInt8.le_iff_toNat_le, ← UInt8.toNat_inj] at h
    rcases h with (((h | h) | h) | h) | h
    all_goals simp at h; omega
  · replace h : ((decide (c.val ≥ 'A'.val ∧ c.val ≤ 'Z'.val) ||
        decide (c.val ≥ 'a'.val) && decide (c.val ≤ 'z'.val)) ||
        decide (c.val ≥ '0'.val) && decide (c.val ≤ '9'.val) || c == '_' || c == '-') = true := h
    have hlt : ∀ d : Char, d.toNat < 128 → c.val ≤ d.val → c.toNat < 128 := fun d hd hle =>
      Nat.lt_of_le_of_lt (UInt32.le_iff_toNat_le.mp hle) hd
    simp only [Bool.or_eq_true, Bool.and_eq_true, decide_eq_true_eq, beq_iff_eq] at h
    rcases h with (((h | h) | h) | rfl) | rfl
    · exact hlt 'Z' (by decide) h.2
    · exact hlt 'z' (by decide) h.2
    · exact hlt '9' (by decide) h.2
    · decide
    · decide

theorem is_ascii_whitespace_agrees (c : Char) :
    ∃ byte, (String.utf8EncodeChar c).getLast? = some byte ∧
      isAsciiWhitespaceByte byte = isAsciiWhitespace c := by
  refine last_byte_agrees isAsciiWhitespaceByte isAsciiWhitespace
    (by decide) (fun byte h => ?_) (fun c h => ?_) c
  · simp only [isAsciiWhitespaceByte, Bool.or_eq_true, beq_iff_eq] at h
    rcases h with (((rfl | rfl) | rfl) | rfl) | rfl <;> decide
  · simp only [isAsciiWhitespace, Bool.or_eq_true, beq_iff_eq] at h
    rcases h with (((rfl | rfl) | rfl) | rfl) | rfl <;> decide

/-- A test of the byte before an offset is one of the character before it. -/
theorem byte_before_eq {f : UInt8 → Bool} {g : Char → Bool}
    (h : ∀ c, ∃ byte, (String.utf8EncodeChar c).getLast? = some byte ∧ f byte = g c)
    (before rest : Text) :
    byteBefore f (before ++ rest) (len before) = some (before.getLast?.any g) := by
  rcases List.eq_nil_or_concat' before with rfl | ⟨init, c, rfl⟩
  · rfl
  · obtain ⟨byte, hlast, hagrees⟩ := h c
    have hpos : len (init ++ [c]) ≠ 0 := mt len_eq_zero_iff.mp (List.append_ne_nil_of_right_ne_nil
      init (List.cons_ne_nil c []))
    rw [byteBefore, if_neg hpos, byte_at_before, hlast, Option.map_some, hagrees,
      List.getLast?_concat, Option.any_some]

/-! ## Every slice is there -/

/-- No slice fails at the occurrences of the pattern. -/
theorem first_url_eq (urlAt : Nat → Option (Option Text)) (found : Text × Text → Option Text)
    {occurrences : List (Text × Text)}
    (h : ∀ m ∈ occurrences, urlAt (len m.1) = some (found m)) :
    firstUrl urlAt (occurrences.map fun m => len m.1) = some (occurrences.findSome? found) := by
  induction occurrences with
  | nil => rfl
  | cons m occurrences ih =>
      have ih := ih fun m hm => h m (List.mem_cons_of_mem _ hm)
      rw [List.map_cons, firstUrl, h m List.mem_cons_self, List.findSome?_cons]
      cases hfound : found m with
      | some url => rfl
      | none => exact ih

/-- What is left behind the scheme. -/
theorem exists_scheme {rest afterScheme : Text}
    (h : (stripPrefix "https://" rest <|> stripPrefix "http://" rest) = some afterScheme) :
    ∃ scheme : Text, (scheme = "https://" ∨ scheme = "http://") ∧ rest = scheme ++ afterScheme := by
  cases hsecure : stripPrefix "https://" rest with
  | some after =>
      rw [hsecure] at h
      cases h
      exact ⟨_, .inl rfl, strip_prefix_eq_some hsecure⟩
  | none =>
      rw [hsecure] at h
      exact ⟨_, .inr rfl, strip_prefix_eq_some h⟩

/-- Nor behind `http`. -/
theorem http_at_eq (before after : Text) :
    httpAt (before ++ after) (len before) = some (httpUrlAt before after) := by
  rw [httpAt, byte_before_eq continues_word_agrees, httpUrlAt, slice_from_append]
  simp only [Option.bind_eq_bind, Option.bind_some]
  split_ifs with hword
  · rfl
  cases hscheme : stripPrefix "https://" after <|> stripPrefix "http://" after with
  | none => rfl
  | some afterScheme =>
      obtain ⟨scheme, -, rfl⟩ := exists_scheme hscheme
      obtain ⟨rest, hrest⟩ : ∃ rest, afterScheme =
          (afterScheme.takeWhile fun c => !endsUrl c) ++ rest :=
        ⟨_, List.takeWhile_append_dropWhile.symm⟩
      dsimp only
      rw [find_get_d]
      generalize (afterScheme.takeWhile fun c => !endsUrl c) = candidate at hrest
      subst hrest
      rw [slice_to_append, Option.bind_some]
      split_ifs with hcandidate
      · rfl
      · have hscheme :
            len (scheme ++ (candidate ++ rest)) - len (candidate ++ rest) = len scheme := by
          rw [len_append, Nat.add_sub_cancel]
        have htake : (scheme ++ (candidate ++ rest)).take
            ((scheme ++ (candidate ++ rest)).length - (candidate ++ rest).length) = scheme := by
          rw [List.length_append, Nat.add_sub_cancel, List.take_left]
        have hurl := slice_range_append before (scheme ++ candidate) rest
        rw [len_append, ← Nat.add_assoc, List.append_assoc] at hurl
        rw [hscheme, htake, hurl]
        rfl

/-- Nor behind two slashes. -/
theorem relative_at_eq {before after : Text} (h : ("//" : Text) <+: after) :
    relativeAt (before ++ after) (len before) = some (relativeUrlAt before after) := by
  obtain ⟨rest, rfl⟩ := h
  rw [relativeAt, byte_before_eq is_ascii_whitespace_agrees, relativeUrlAt]
  simp only [Option.bind_eq_bind, Option.bind_some]
  cases hspace : before.getLast?.any isAsciiWhitespace with
  | false => rfl
  | true =>
      have hcut : sliceFrom (before ++ (("//" : Text) ++ rest)) (len before + 2) = some rest := by
        have hslashes : len before + 2 = len (before ++ ("//" : Text)) := by
          rw [len_append]
          rfl
        rw [hslashes, ← List.append_assoc, slice_from_append]
      obtain ⟨tail, htail⟩ : ∃ tail, rest = (rest.takeWhile fun c => !endsUrl c) ++ tail :=
        ⟨_, List.takeWhile_append_dropWhile.symm⟩
      have hto : sliceTo rest ((find endsUrl rest).getD (len rest)) =
          some (rest.takeWhile fun c => !endsUrl c) := by
        rw [find_get_d]
        nth_rewrite 1 [htail]
        exact slice_to_append _ _
      have hdrop : (("//" : Text) ++ rest).drop 2 = rest := rfl
      rw [if_neg (by decide), hcut, Option.bind_some, hto, Option.bind_some, if_pos rfl, hdrop]
      split_ifs
      · rfl
      · rfl

/-- The function never panics, and gives what the passes over the text give. -/
theorem extract_url_sliced_eq (text : Text) : extractUrlSliced text = some (extractUrl text) := by
  have hhttp : firstUrl (httpAt (trim text)) ((matchIndices "http" (trim text)).map
      fun m => len m.1) = some ((matchIndices "http" (trim text)).findSome?
        fun m => httpUrlAt m.1 m.2) :=
    first_url_eq _ (fun m => httpUrlAt m.1 m.2) fun m hm => by
      nth_rewrite 1 [(match_indices_spec hm).1]
      exact http_at_eq m.1 m.2
  have hrelative : firstUrl (relativeAt (trim text)) ((matchIndices "//" (trim text)).map
      fun m => len m.1) = some ((matchIndices "//" (trim text)).findSome?
        fun m => relativeUrlAt m.1 m.2) :=
    first_url_eq _ (fun m => relativeUrlAt m.1 m.2) fun m hm => by
      nth_rewrite 1 [(match_indices_spec hm).1]
      exact relative_at_eq (match_indices_spec hm).2
  simp only [extractUrlSliced, extractUrl, hhttp, hrelative, Option.bind_eq_bind, Option.bind_some]
  by_cases hempty : trim text = []
  · rw [if_pos hempty, if_pos hempty]
  · rw [if_neg hempty, if_neg hempty]
    cases (matchIndices "http" (trim text)).findSome? fun m => httpUrlAt m.1 m.2 with
    | some url => rfl
    | none =>
        cases (matchIndices "//" (trim text)).findSome? fun m => relativeUrlAt m.1 m.2 with
        | some url => rfl
        | none =>
            dsimp only
            split_ifs with hpath
            · rfl
            · rfl

/-! ## What a URL looks like -/

/-- A part of the text without white space that begins as a URL does. -/
structure IsUrlIn (url text : Text) : Prop where
  ne_nil : url ≠ []
  contiguous : url <:+: text
  unspaced : ∀ c ∈ url, isWhitespace c = false
  start : ("http://" : Text) <+: url ∨ ("https://" : Text) <+: url ∨ ("/" : Text) <+: url

theorem unspaced_of_take_while {s : Text} :
    ∀ c ∈ s.takeWhile fun c => !endsUrl c, isWhitespace c = false := by
  intro c hc
  have hends := List.mem_takeWhile_imp hc
  simp only [Bool.not_eq_true', endsUrl, Bool.or_eq_false_iff] at hends
  exact hends.1.1.1.1

theorem trim_infix_self (text : Text) : trim text <:+: text := by
  obtain ⟨before, after, htext, -, -⟩ := exists_trim text
  exact ⟨before, after, by rw [List.append_assoc, ← htext]⟩

/-- What is found is a part of the text. -/
theorem is_url_in_of_http {before after url : Text} (h : httpUrlAt before after = some url) :
    IsUrlIn url (before ++ after) := by
  rw [httpUrlAt] at h
  split_ifs at h
  cases hscheme : stripPrefix "https://" after <|> stripPrefix "http://" after with
  | none =>
      rw [hscheme] at h
      cases h
  | some afterScheme =>
      rw [hscheme] at h
      obtain ⟨scheme, hknown, rfl⟩ := exists_scheme hscheme
      dsimp only at h
      split_ifs at h with hcandidate
      rw [List.length_append, Nat.add_sub_cancel, List.take_left] at h
      obtain rfl := Option.some.inj h
      refine ⟨List.append_ne_nil_of_right_ne_nil _ hcandidate, ?_, fun c hc => ?_, ?_⟩
      · refine ⟨before, afterScheme.dropWhile fun c => !endsUrl c, ?_⟩
        rw [List.append_assoc, List.append_assoc, List.takeWhile_append_dropWhile]
      · rcases List.mem_append.mp hc with hc | hc
        · have hplain : scheme.all (fun c => !isWhitespace c) = true := by
            rcases hknown with rfl | rfl <;> decide
          simpa using List.all_eq_true.mp hplain c hc
        · exact unspaced_of_take_while c hc
      · rcases hknown with rfl | rfl
        · exact .inr (.inl (List.prefix_append _ _))
        · exact .inl (List.prefix_append _ _)

/-- So it is behind two slashes. -/
theorem is_url_in_of_relative {before after url : Text} (hslashes : ("//" : Text) <+: after)
    (h : relativeUrlAt before after = some url) : IsUrlIn url (before ++ after) := by
  obtain ⟨rest, rfl⟩ := hslashes
  rw [relativeUrlAt, show (("//" : Text) ++ rest).drop 2 = rest from rfl] at h
  dsimp only at h
  split_ifs at h with hspace hcandidate
  obtain rfl := Option.some.inj h
  refine ⟨List.cons_ne_nil _ _, ?_, fun c hc => ?_, .inr (.inr ⟨_, rfl⟩)⟩
  · refine ⟨before, rest.dropWhile fun c => !endsUrl c, ?_⟩
    rw [List.append_assoc, List.append_assoc, List.takeWhile_append_dropWhile]
  · rcases List.mem_append.mp hc with hc | hc
    · have hplain : ("//" : Text).all (fun c => !isWhitespace c) = true := by decide
      simpa using List.all_eq_true.mp hplain c hc
    · exact unspaced_of_take_while c hc

/-- Whichever pass finds it. -/
theorem is_url_in_of_extract_url {text url : Text} (h : extractUrl text = some url) :
    IsUrlIn url (trim text) := by
  simp only [extractUrl] at h
  by_cases hempty : trim text = []
  · rw [if_pos hempty] at h
    cases h
  rw [if_neg hempty] at h
  cases hhttp : (matchIndices "http" (trim text)).findSome? fun m => httpUrlAt m.1 m.2 with
  | some found =>
      rw [hhttp] at h
      obtain rfl : found = url := Option.some.inj h
      obtain ⟨m, hm, hfound⟩ := List.exists_of_findSome?_eq_some hhttp
      rw [(match_indices_spec hm).1]
      exact is_url_in_of_http hfound
  | none =>
      rw [hhttp] at h
      cases hrelative : (matchIndices "//" (trim text)).findSome?
          fun m => relativeUrlAt m.1 m.2 with
      | some found =>
          rw [hrelative] at h
          obtain rfl : found = url := Option.some.inj h
          obtain ⟨m, hm, hfound⟩ := List.exists_of_findSome?_eq_some hrelative
          obtain ⟨hsplit, hslashes⟩ := match_indices_spec hm
          rw [hsplit]
          exact is_url_in_of_relative hslashes hfound
      | none =>
          rw [hrelative] at h
          change (if _ then _ else _) = _ at h
          split_ifs at h with hpath
          obtain rfl := Option.some.inj h
          obtain ⟨hslash, hplain, -⟩ := hpath
          obtain ⟨rest, hrest⟩ := List.head?_eq_some_iff.mp hslash
          refine ⟨hempty, List.infix_refl _, ?_, .inr (.inr ⟨rest, hrest.symm⟩)⟩
          simpa using hplain

/-- No slice of the function is out of the text or within a character, and what it returns is a
part of the text that looks like a URL. -/
theorem extract_url_safe (text : Text) :
    extractUrlSliced text = some (extractUrl text) ∧
      ∀ url, extractUrl text = some url → IsUrlIn url text := by
  refine ⟨extract_url_sliced_eq text, fun url h => ?_⟩
  have hurl := is_url_in_of_extract_url h
  exact ⟨hurl.ne_nil, hurl.contiguous.trans (trim_infix_self text), hurl.unspaced, hurl.start⟩

end BrowsAI.PageText
