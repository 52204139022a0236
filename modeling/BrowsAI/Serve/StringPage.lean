import BrowsAI.Library.Pages
import BrowsAI.Library.Saturating
import BrowsAI.Library.Utf8

/-!
# Pages of strings

`bounded_string_page` of the `serve` command of `browsai-cli`, which cuts the links of a page under
limits on their number, their bytes and the time. The clock may show anything, `clock` has what it
shows at each reading in a call. `string_pages_cover` is what a client gets who follows
`next_cursor`.
-/

namespace BrowsAI.Serve

open Utf8 Saturating

/-- A `Vec<String>`: no allocation is larger than `isize::MAX`. -/
structure StringVec where
  strings : List Text
  length_lt : strings.length < 2 ^ 63
  len_lt : ∀ s ∈ strings, len s < 2 ^ 63

/-- Some of the values, and where the next ones start. -/
structure BoundedStringPage where
  items : List Text
  truncated : Bool
  nextCursor : Option Text
  bytesUsed : Nat
  durationMs : Nat

/-- The variables of the loop, and how often it has read the clock. -/
structure Filling where
  items : List Text
  bytesUsed : Nat
  nextIndex : Nat
  readings : Nat

/-- What a string takes of the limit on bytes. -/
def itemBytes (value : Text) : Nat := saturatingAddUsize (len value) 3

/-- The loop over the strings with their indices. -/
def fillPage (maxBytes maxDurationMs : Nat) (clock : Nat → Nat) :
    List (Text × Nat) → Filling → Filling
  | [], page => page
  | (value, index) :: rest, page =>
      let elapsed := clock page.readings
      let page := { page with readings := page.readings + 1 }
      if maxDurationMs ≤ elapsed ∧ page.items ≠ [] then page
      else if maxBytes < saturatingAddUsize page.bytesUsed (itemBytes value) ∧ page.items ≠ [] then page
      else if maxBytes < itemBytes value ∧ page.items = [] then
        { page with nextIndex := saturatingAddUsize index 1 }
      else
        fillPage maxBytes maxDurationMs clock rest
          { page with
            items := page.items ++ [value]
            bytesUsed := saturatingAddUsize page.bytesUsed (itemBytes value)
            nextIndex := saturatingAddUsize index 1 }

/-- The values from a cursor on, up to the limit, the bytes and the time. -/
def boundedStringPage (values : StringVec) (cursor limit maxBytes maxDurationMs : Nat)
    (clock : Nat → Nat) : BoundedStringPage :=
  let start := min cursor values.strings.length
  let page := fillPage maxBytes maxDurationMs clock
    ((values.strings.zipIdx.drop start).take (max limit 1)) ⟨[], 0, start, 0⟩
  let truncated := page.nextIndex < values.strings.length
  { items := page.items
    truncated
    nextCursor := if truncated then some (ofNat page.nextIndex) else none
    bytesUsed := page.bytesUsed
    durationMs := clock page.readings }

/-! ## One page -/

/-- The string has room in a page of its own. -/
def fits (maxBytes : Nat) (value : Text) : Bool := len value + 3 ≤ maxBytes

theorem item_bytes_eq {value : Text} (h : len value < 2 ^ 63) :
    itemBytes value = len value + 3 := by
  rw [itemBytes, saturatingAddUsize]
  omega

/-- A page after the loop has passed the first `n` strings and taken those of them that fit. -/
structure Filled (maxBytes : Nat) (values : List Text) (page page' : Filling) (n : Nat) : Prop where
  items : page'.items = page.items ++ (values.take n).filter (fits maxBytes)
  nextIndex : page'.nextIndex = page.nextIndex + n
  bytesUsed : page'.bytesUsed ≤ maxBytes

section Filled

variable {maxBytes n : Nat} {value : Text} {values : List Text} {page page' : Filling}

theorem Filled.stop (hused : page.bytesUsed ≤ maxBytes) (values : List Text) (readings : Nat) :
    Filled maxBytes values page { page with readings } 0 where
  items := by rw [List.take_zero, List.filter_nil, List.append_nil]
  nextIndex := rfl
  bytesUsed := hused

/-- A string that does not fit is passed over. -/
theorem Filled.pass (hfits : fits maxBytes value = false) (hused : page.bytesUsed ≤ maxBytes)
    (values : List Text) (readings : Nat) :
    Filled maxBytes (value :: values) page
      { page with readings, nextIndex := page.nextIndex + 1 } 1 where
  items := by
    rw [List.take_succ_cons, List.take_zero, List.filter_cons_of_neg (by rw [hfits]; decide),
      List.filter_nil, List.append_nil]
  nextIndex := rfl
  bytesUsed := hused

/-- A value that fits is on the page. -/
theorem Filled.cons (hfits : fits maxBytes value = true) {used readings : Nat}
    (h : Filled maxBytes values ⟨page.items ++ [value], used, page.nextIndex + 1, readings⟩
      page' n) : Filled maxBytes (value :: values) page page' (n + 1) where
  items := by
    rw [h.items, List.take_succ_cons, List.filter_cons_of_pos hfits]
    exact List.append_assoc _ _ _
  nextIndex := by
    rw [h.nextIndex]
    exact Nat.add_right_comm _ 1 n
  bytesUsed := h.bytesUsed

/-- A string is taken if it fits, beside the others in the page. -/
theorem room_of_taken (hlen : len value < 2 ^ 63) (hempty : page.items = [] → page.bytesUsed = 0)
    (hbytes : ¬ (maxBytes < saturatingAddUsize page.bytesUsed (itemBytes value) ∧ page.items ≠ []))
    (hlarge : ¬ (maxBytes < itemBytes value ∧ page.items = [])) :
    len value + 3 ≤ maxBytes ∧ saturatingAddUsize page.bytesUsed (itemBytes value) ≤ maxBytes := by
  rw [item_bytes_eq hlen] at hbytes hlarge ⊢
  rw [saturatingAddUsize] at hbytes ⊢
  rcases Decidable.em (page.items = []) with hnil | hne
  · have hzero := hempty hnil
    have hfirst : len value + 3 ≤ maxBytes := Nat.le_of_not_lt fun h => hlarge ⟨h, hnil⟩
    omega
  · have hsum := Nat.le_of_not_lt fun h => hbytes ⟨h, hne⟩
    omega

end Filled

/-- The loop passes some strings, one at least if the page is empty and there is one, and takes
those of them that fit. -/
theorem fill_page_spec (maxBytes maxDurationMs : Nat) (clock : Nat → Nat) (values : List Text)
    (page : Filling) (hlength : page.nextIndex + values.length < 2 ^ 63)
    (hlen : ∀ value ∈ values, len value < 2 ^ 63) (hused : page.bytesUsed ≤ maxBytes)
    (hempty : page.items = [] → page.bytesUsed = 0) :
    ∃ n ≤ values.length, (page.items = [] → values ≠ [] → 0 < n) ∧
      Filled maxBytes values page
        (fillPage maxBytes maxDurationMs clock (values.zipIdx page.nextIndex) page) n := by
  induction values generalizing page with
  | nil => exact ⟨0, Nat.le_refl 0, fun _ hne => absurd rfl hne, .stop hused [] page.readings⟩
  | cons value values ih =>
      rw [List.forall_mem_cons] at hlen
      rw [List.length_cons] at hlength
      have hnext : saturatingAddUsize page.nextIndex 1 = page.nextIndex + 1 := by
        rw [saturatingAddUsize]
        omega
      rw [List.zipIdx_cons, fillPage]
      dsimp only
      split_ifs with htime hbytes hlarge
      · exact ⟨0, Nat.zero_le _, fun hnil => absurd hnil htime.2, .stop hused _ _⟩
      · exact ⟨0, Nat.zero_le _, fun hnil => absurd hnil hbytes.2, .stop hused _ _⟩
      · have hfits : fits maxBytes value = false := by
          rw [fits, decide_eq_false_iff_not, ← item_bytes_eq hlen.1]
          omega
        rw [hnext]
        exact ⟨1, Nat.succ_le_succ (Nat.zero_le _), fun _ _ => Nat.one_pos, .pass hfits hused _ _⟩
      · have hroom := room_of_taken hlen.1 hempty hbytes hlarge
        obtain ⟨n, hn, -, hfilled⟩ :=
          ih ⟨page.items ++ [value], saturatingAddUsize page.bytesUsed (itemBytes value),
            page.nextIndex + 1, page.readings + 1⟩ (by dsimp only; omega) hlen.2 hroom.2
            (fun hnil => absurd hnil (List.append_ne_nil_of_right_ne_nil _ (List.cons_ne_nil _ _)))
        rw [hnext]
        exact ⟨n + 1, Nat.succ_le_succ hn, fun _ _ => Nat.succ_pos n,
          hfilled.cons (decide_eq_true hroom.1)⟩

theorem drop_zip_idx {α : Type} (xs : List α) (n : Nat) :
    xs.zipIdx.drop n = (xs.drop n).zipIdx n := by
  refine List.ext_getElem? fun i => ?_
  rw [List.getElem?_drop, List.getElem?_zipIdx, List.getElem?_zipIdx, List.getElem?_drop,
    Nat.zero_add]

theorem take_zip_idx {α : Type} (xs : List α) (start n : Nat) :
    (xs.zipIdx start).take n = (xs.take n).zipIdx start := by
  refine List.ext_getElem? fun i => ?_
  rw [List.getElem?_take, List.getElem?_zipIdx, List.getElem?_zipIdx, List.getElem?_take]
  split_ifs <;> rfl

/-- The number that a client reads in `next_cursor`. -/
def BoundedStringPage.nextIndex (page : BoundedStringPage) : Option Nat :=
  page.nextCursor.bind parseDigits

/-- A page cuts the values, and has no more bytes than are allowed. -/
theorem bounded_string_page_cuts (values : StringVec) (limit maxBytes maxDurationMs : Nat)
    (clock : Nat → Nat) {cursor : Nat} (hcursor : cursor ≤ values.strings.length) :
    Pages.CutsKept (fits maxBytes) BoundedStringPage.items BoundedStringPage.nextIndex
        values.strings cursor
        (boundedStringPage values cursor limit maxBytes maxDurationMs clock) ∧
      (boundedStringPage values cursor limit maxBytes maxDurationMs clock).bytesUsed ≤
        maxBytes := by
  have hlength := values.length_lt
  obtain ⟨n, hn, hpos, hfilled⟩ := fill_page_spec maxBytes maxDurationMs clock
    ((values.strings.drop cursor).take (max limit 1)) ⟨[], 0, cursor, 0⟩
    (by dsimp only; rw [List.length_take, List.length_drop]; omega)
    (fun value hvalue => values.len_lt value (List.mem_of_mem_drop (List.mem_of_mem_take hvalue)))
    (Nat.zero_le _) (fun _ => rfl)
  rw [List.length_take, List.length_drop] at hn
  generalize hfill : fillPage maxBytes maxDurationMs clock _ _ = page at hfilled
  obtain ⟨hitems, hindex, hused⟩ := hfilled
  have hpage : boundedStringPage values cursor limit maxBytes maxDurationMs clock =
      { items := page.items
        truncated := page.nextIndex < values.strings.length
        nextCursor :=
          if page.nextIndex < values.strings.length then some (ofNat page.nextIndex) else none
        bytesUsed := page.bytesUsed
        durationMs := clock page.readings } := by
    rw [boundedStringPage, Nat.min_eq_left hcursor, drop_zip_idx, take_zip_idx, hfill]
  rw [hpage]
  refine ⟨⟨n, ?_, ?_, ?_, ?_⟩, hused⟩
  · rw [hitems, List.take_take, Nat.min_eq_left (by omega)]
    rfl
  · intro hmore
    refine hpos rfl (List.ne_nil_of_length_pos ?_)
    rw [List.length_take, List.length_drop]
    omega
  · omega
  · rw [BoundedStringPage.nextIndex, hindex]
    dsimp only
    split_ifs
    · exact parse_digits_of_nat _
    · rfl

/-! ## All pages -/

/-- The pages of a client who follows `next_cursor` and may ask for another limit and duration in
each call. -/
def followStrings (values : StringVec) (maxBytes : Nat) (limits durations : Nat → Nat)
    (clocks : Nat → Nat → Nat) : Nat → Nat → Nat → Option (List BoundedStringPage) :=
  Pages.follow (fun call cursor => some
      (boundedStringPage values cursor (limits call) maxBytes (durations call) (clocks call)))
    BoundedStringPage.nextIndex

/-- The pages end, and have the strings that fit into a page, in order, whatever cuts the pages. -/
theorem string_pages_cover (values : StringVec) (maxBytes : Nat) (limits durations : Nat → Nat)
    (clocks : Nat → Nat → Nat) :
    ∃ pages, followStrings values maxBytes limits durations clocks (values.strings.length + 1) 0 0 =
        some pages ∧
      (pages.map BoundedStringPage.items).flatten =
        values.strings.filter (fun value => len value + 3 ≤ maxBytes) ∧
      ∀ page ∈ pages, page.bytesUsed ≤ maxBytes := by
  have hask : ∀ call cursor, cursor ≤ values.strings.length →
      ∃ page, some (boundedStringPage values cursor (limits call) maxBytes (durations call)
          (clocks call)) = some page ∧
        Pages.CutsKept (fits maxBytes) BoundedStringPage.items BoundedStringPage.nextIndex
          values.strings cursor page ∧
        page.bytesUsed ≤ maxBytes := by
    intro call cursor hcursor
    exact ⟨_, rfl, bounded_string_page_cuts values (limits call) maxBytes (durations call)
      (clocks call) hcursor⟩
  obtain ⟨pages, hpages, hflatten, hused⟩ :=
    Pages.follow_kept_spec (Q := fun _ (page : BoundedStringPage) => page.bytesUsed ≤ maxBytes)
      hask 0 (Nat.zero_le _) (Nat.lt_succ_self _)
  refine ⟨pages, hpages, hflatten, fun page hpage => ?_⟩
  obtain ⟨i, hi⟩ := List.mem_iff_getElem?.mp hpage
  exact hused i page hi

end BrowsAI.Serve
