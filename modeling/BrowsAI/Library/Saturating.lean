import Mathlib.Algebra.Order.Ring.Nat

/-!
# Saturating arithmetic

Machine integers whose sums, differences and products stop at the ends of their range instead of
wrapping around. A `usize` is a natural number, and a signed integer an integer.
-/

namespace Saturating

/-! ## `u64` -/

/-- `u64::saturating_add`. -/
def saturatingAdd (a b : UInt64) : UInt64 := UInt64.ofNat (min (a.toNat + b.toNat) (2 ^ 64 - 1))

/-- `u64::saturating_sub`. -/
def saturatingSub (a b : UInt64) : UInt64 := UInt64.ofNat (a.toNat - b.toNat)

/-- The sum is exact below the end of the range. -/
theorem to_nat_saturating_add (a b : UInt64) :
    (saturatingAdd a b).toNat = min (a.toNat + b.toNat) (2 ^ 64 - 1) := by
  rw [saturatingAdd, UInt64.toNat_ofNat']
  exact Nat.mod_eq_of_lt (by omega)

/-- The difference is that of natural numbers. -/
theorem to_nat_saturating_sub (a b : UInt64) :
    (saturatingSub a b).toNat = a.toNat - b.toNat := by
  have := a.toNat_lt
  refine UInt64.toNat_ofNat_of_lt' ?_
  show _ < 2 ^ 64
  omega

/-- A sum is at least its first part. -/
theorem le_saturating_add (a b : UInt64) : a ≤ saturatingAdd a b := by
  have := a.toNat_lt
  rw [UInt64.le_iff_toNat_le, to_nat_saturating_add]
  omega

/-- The sum, also where it wraps around, is at most the saturated one. -/
theorem add_le_saturating_add (a b : UInt64) : a + b ≤ saturatingAdd a b := by
  rw [UInt64.le_iff_toNat_le, to_nat_saturating_add, UInt64.toNat_add]
  omega

/-- A difference is monotone in its first part. -/
theorem saturating_sub_le {a a' : UInt64} (h : a ≤ a') (b : UInt64) :
    saturatingSub a b ≤ saturatingSub a' b := by
  rw [UInt64.le_iff_toNat_le] at h ⊢
  rw [to_nat_saturating_sub, to_nat_saturating_sub]
  omega

/-! ## `usize` and signed integers -/

/-- `usize::saturating_add`, where a `usize` has 64 bits. -/
def saturatingAddUsize (a b : Nat) : Nat := min (a + b) (2 ^ 64 - 1)

/-- `usize::saturating_mul`. -/
def saturatingMulUsize (a b : Nat) : Nat := min (a * b) (2 ^ 64 - 1)

/-- `saturating_add` of signed integers with so many bits behind the sign. -/
def saturatingAddSigned (bits : Nat) (a b : Int) : Int := max (-2 ^ bits) (min (2 ^ bits - 1) (a + b))

end Saturating
