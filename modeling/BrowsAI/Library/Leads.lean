import Mathlib.Data.List.Infix

/-!
# What comes first in a list

One kind of entry leads another in a list when, up to any place in it, there are at least as many of
the first kind. A list that grows at its end keeps this exactly if the counts agree with it each time.
-/

variable {α : Type} {p q : α → Bool} {l : List α}

/-- Up to any place there are no more entries with `q` than with `p`. -/
def List.Leads (p q : α → Bool) (l : List α) : Prop := ∀ l', l' <+: l → l'.countP q ≤ l'.countP p

namespace List.Leads

theorem nil : Leads p q [] := by
  intro l' h
  rw [List.prefix_nil.mp h]
  exact Nat.le_refl _

theorem count_le (h : Leads p q l) : l.countP q ≤ l.countP p := h l (List.prefix_refl l)

theorem concat_iff (a : α) :
    Leads p q (l ++ [a]) ↔ Leads p q l ∧ (l ++ [a]).countP q ≤ (l ++ [a]).countP p := by
  constructor
  · intro h
    exact ⟨fun l' hpart => h l' (hpart.trans (List.prefix_append l [a])), h.count_le⟩
  · rintro ⟨h, hcount⟩ l' hpart
    rcases List.prefix_concat_iff.mp hpart with rfl | hpart
    · exact hcount
    · exact h l' hpart

/-- An entry without `q` may always follow. -/
theorem concat (h : Leads p q l) {a : α} (ha : q a = false) : Leads p q (l ++ [a]) := by
  refine (concat_iff a).mpr ⟨h, ?_⟩
  have hcount := h.count_le
  rw [List.countP_append, List.countP_append, List.countP_singleton, List.countP_singleton, ha]
  simp only [Bool.false_eq_true, if_false]
  omega

/-- An entry with `q` may follow where one more `p` is left. -/
theorem concat_of_lt (h : Leads p q l) (hlt : l.countP q < l.countP p) (a : α) :
    Leads p q (l ++ [a]) := by
  refine (concat_iff a).mpr ⟨h, ?_⟩
  rw [List.countP_append, List.countP_append, List.countP_singleton, List.countP_singleton]
  split_ifs <;> omega

end List.Leads
