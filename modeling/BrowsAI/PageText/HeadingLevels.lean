import BrowsAI.PageText.NodeText

/-!
# The range of heading levels

`heading_level` takes the level from the description, or from the geometry through a cast, an
addition, and a second cast that cuts off what does not fit a `u8`. `headingLevelChecked` is the
same with no result where one of these wraps around. Read `in_range_iff` first.
-/

namespace BrowsAI.PageText

open Utf8 AgentTree

/-! ## Checked conversions -/

/-- `i32::checked_add`. -/
def checkedAddI32 (a b : Int) : Option Int :=
  if -2 ^ 31 ≤ a + b ∧ a + b < 2 ^ 31 then some (a + b) else none

/-- `u8::try_from`. -/
def u8TryFrom (n : Int) : Option Nat := if 0 ≤ n ∧ n < 256 then some n.toNat else none

/-- The level that the description states. -/
def namedLevel (node : AgentNode) : Option Nat :=
  node.description.bind fun desc => (stripPrefix "H" desc <|> stripPrefix "h" desc).bind parseU8

/-- `heading_level`, as long as nothing wraps around. -/
def headingLevelChecked (node : AgentNode) (max : Nat) : Option Nat :=
  match namedLevel node with
  | some n => some (min (Nat.max n 1) (Nat.max max 1))
  | none =>
      match node.geometry with
      | some geom => do
          let row ← checkedAddI32 (floorDiv64 geom.y) 1
          let approx ← u8TryFrom (Max.max row 1)
          pure (min approx (Nat.max max 1))
      | none => some 2

theorem checked_add_spec {a b c : Int} (h : checkedAddI32 a b = some c) :
    c = a + b ∧ wrappingAddI32 a b = c := by
  rw [checkedAddI32] at h
  split_ifs at h with hrange
  obtain rfl := Option.some.inj h
  refine ⟨rfl, ?_⟩
  rw [wrappingAddI32]
  omega

theorem u8_try_from_spec {n : Int} {m : Nat} (h : u8TryFrom n = some m) : n.toNat % 256 = m := by
  rw [u8TryFrom] at h
  split_ifs at h with hrange
  rw [← Option.some.inj h]
  omega

/-- Where nothing wraps around, the level is that of the checked function. -/
theorem heading_level_of_checked {node : AgentNode} {max level : Nat}
    (h : headingLevelChecked node max = some level) : headingLevel node max = level := by
  rw [headingLevelChecked] at h
  rw [headingLevel]
  change (match namedLevel node with | some n => _ | none => _) = level
  cases hnamed : namedLevel node with
  | some n =>
      rw [hnamed] at h
      exact Option.some.inj h
  | none =>
      rw [hnamed] at h
      cases hgeometry : node.geometry with
      | none =>
          rw [hgeometry] at h
          exact Option.some.inj h
      | some geom =>
          rw [hgeometry] at h
          obtain ⟨row, hrow, h⟩ := Option.bind_eq_some_iff.mp h
          obtain ⟨approx, happrox, h⟩ := Option.bind_eq_some_iff.mp h
          dsimp only
          rw [(checked_add_spec hrow).2, u8_try_from_spec happrox]
          exact Option.some.inj h

/-! ## Rows of the page -/

/-- The row is one of the first 255, or the position is no number. -/
def IsLowRow : F64 → Prop
  | .nan | .negativeZero => True
  | .infinity negative => negative = true
  | .finite y => y < 16320

theorem floor_div_64_le_iff (y : F64) : floorDiv64 y ≤ 254 ↔ IsLowRow y := by
  cases y with
  | nan | negativeZero => exact iff_of_true (by decide) trivial
  | infinity negative => cases negative <;> simp [floorDiv64, IsLowRow]
  | finite y =>
      have hfloor : ⌊y / 64⌋ ≤ 254 ↔ y < 16320 := by
        rw [← Int.lt_add_one_iff, Int.floor_lt, div_lt_iff₀ (by norm_num)]
        norm_num
      rw [floorDiv64, IsLowRow, ← hfloor]
      omega

theorem le_floor_div_64 (y : F64) : -2 ^ 31 ≤ floorDiv64 y := by
  cases y with
  | nan | negativeZero => decide
  | infinity negative => cases negative <;> decide
  | finite y => exact le_max_left _ _

/-- The casts and the addition keep the row exactly on the first 255 rows. -/
theorem checked_row_iff (y : F64) :
    (∃ row approx, checkedAddI32 (floorDiv64 y) 1 = some row ∧
      u8TryFrom (Max.max row 1) = some approx) ↔ IsLowRow y := by
  have hle := le_floor_div_64 y
  rw [← floor_div_64_le_iff, checkedAddI32]
  constructor
  · rintro ⟨row, approx, hrow, happrox⟩
    split_ifs at hrow with hadd
    rw [← Option.some.inj hrow, u8TryFrom] at happrox
    split_ifs at happrox with hcast
    omega
  · intro hlow
    have hadd : -2 ^ 31 ≤ floorDiv64 y + 1 ∧ floorDiv64 y + 1 < 2 ^ 31 := by omega
    have hcast : 0 ≤ Max.max (floorDiv64 y + 1) 1 ∧ Max.max (floorDiv64 y + 1) 1 < 256 := by omega
    exact ⟨_, _, if_pos hadd, if_pos hcast⟩

/-- A row that the cast keeps is at least one. -/
theorem one_le_of_u8_try_from {row : Int} {approx : Nat}
    (h : u8TryFrom (Max.max row 1) = some approx) : 1 ≤ approx := by
  rw [u8TryFrom] at h
  split_ifs at h
  have := Option.some.inj h
  omega

/-! ## The level -/

/-- Nothing wraps around, and the level is one that the options allow. -/
def InRange (node : AgentNode) (max : Nat) : Prop :=
  ∃ level, headingLevelChecked node max = some level ∧ headingLevel node max = level ∧
    1 ≤ level ∧ level ≤ Nat.max 1 max

/-- The description is an `H` with a number behind it. -/
def NamesLevel (node : AgentNode) : Prop :=
  ∃ desc digits n, node.description = some desc ∧
    (desc = 'H' :: digits ∨ desc = 'h' :: digits) ∧ parseU8 digits = some n

/-- The description names the level, or the heading stands on one of the first rows, or the level
for a heading without a place is allowed. -/
def HasLevel (node : AgentNode) (max : Nat) : Prop :=
  NamesLevel node ∨ ¬ NamesLevel node ∧
    match node.geometry with
    | some geom => IsLowRow geom.y
    | none => 2 ≤ max

/-- The description names a level exactly if one is read from it. -/
theorem names_level_iff (node : AgentNode) : NamesLevel node ↔ ∃ n, namedLevel node = some n := by
  rw [namedLevel, NamesLevel]
  cases node.description with
  | none => simp
  | some desc =>
      cases desc with
      | nil => simp [stripPrefix]
      | cons c rest =>
          by_cases hupper : c = 'H'
          · subst hupper
            simp [stripPrefix]
          · by_cases hlower : c = 'h'
            · subst hlower
              simp [stripPrefix]
            · simp [stripPrefix, hupper, hlower, Ne.symm hupper, Ne.symm hlower]

/-- The level of a heading is between one and the largest one, and nothing on the way to it wraps
around, exactly if the description names it, or the heading stands on one of the first 255 rows, or
it has no place and the largest level is at least two. -/
theorem in_range_iff (node : AgentNode) (max : Nat) : InRange node max ↔ HasLevel node max := by
  have hchecked : InRange node max ↔
      ∃ level, headingLevelChecked node max = some level ∧ 1 ≤ level ∧ level ≤ Nat.max 1 max := by
    refine exists_congr fun level => and_congr_right fun hlevel => ?_
    exact and_iff_right (heading_level_of_checked hlevel)
  rw [hchecked, HasLevel, names_level_iff, headingLevelChecked]
  cases hnamed : namedLevel node with
  | some n =>
      refine iff_of_true ⟨_, rfl, ?_, ?_⟩ (.inl ⟨n, rfl⟩)
      · exact le_min (Nat.le_max_right _ _) (Nat.le_max_right _ _)
      · exact le_trans (min_le_right _ _) (le_of_eq (Nat.max_comm _ _))
  | none =>
      cases node.geometry with
      | none => simp
      | some geom =>
          simp only [reduceCtorEq, exists_false, not_false_eq_true, true_and, false_or]
          rw [← checked_row_iff]
          constructor
          · rintro ⟨level, hlevel, -⟩
            obtain ⟨row, hrow, hlevel⟩ := Option.bind_eq_some_iff.mp hlevel
            obtain ⟨approx, happrox, -⟩ := Option.bind_eq_some_iff.mp hlevel
            exact ⟨row, approx, hrow, happrox⟩
          · rintro ⟨row, approx, hrow, happrox⟩
            refine ⟨min approx (Nat.max max 1), by simp [hrow, happrox], ?_, ?_⟩
            · exact le_min (one_le_of_u8_try_from happrox) (Nat.le_max_right _ _)
            · exact le_trans (min_le_right _ _) (le_of_eq (Nat.max_comm _ _))

/-- A heading at the top of row 256. -/
def farHeading : AgentNode :=
  { AgentNode.plain "heading" .heading (some "Chapter") [] with
    geometry := some ⟨.finite 0, .finite 16320, .finite 100, .finite 20⟩ }

/-- Its row is cut down to zero. -/
theorem far_heading_has_level_zero : ¬ ∀ node max, InRange node max := by
  intro h
  obtain ⟨level, -, hlevel, hone, -⟩ := h farHeading 6
  have hrow : floorDiv64 (.finite 16320) = 255 := by
    rw [floorDiv64, show (16320 : ℚ) / 64 = (255 : ℤ) by norm_num, Int.floor_intCast]
    rfl
  have hzero : headingLevel farHeading 6 = 0 := by
    show min ((Max.max (wrappingAddI32 (floorDiv64 (.finite 16320)) 1) 1).toNat % 256) 6 = 0
    rw [hrow]
    rfl
  omega

end BrowsAI.PageText
