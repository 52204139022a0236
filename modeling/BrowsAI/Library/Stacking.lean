import Mathlib.Data.List.Sort
import Mathlib.Order.Defs.LinearOrder

/-!
# Stacking

A list in the order of a key has the elements with the greatest keys last. The last element that fits
is one with the greatest key of all that fit: `topmost_eq_some_iff`.
-/

namespace Stacking

variable {α κ : Type*} [LinearOrder κ] {key : α → κ} {p : α → Bool} {l : List α} {a : α}

/-- `sort_by_key`. -/
def sortByKey (key : α → κ) (l : List α) : List α := l.mergeSort fun a b => decide (key a ≤ key b)

theorem sort_by_key_perm (key : α → κ) (l : List α) : (sortByKey key l).Perm l :=
  List.mergeSort_perm l _

theorem mem_sort_by_key : a ∈ sortByKey key l ↔ a ∈ l := (sort_by_key_perm key l).mem_iff

theorem pairwise_sort_by_key (key : α → κ) (l : List α) :
    (sortByKey key l).Pairwise fun a b => key a ≤ key b := by
  have h : (sortByKey key l).Pairwise fun a b => decide (key a ≤ key b) = true :=
    List.pairwise_mergeSort
      (fun a b c hab hbc => decide_eq_true ((of_decide_eq_true hab).trans (of_decide_eq_true hbc)))
      (fun a b => by simpa using le_total (key a) (key b)) l
  exact h.imp fun hab => of_decide_eq_true hab

/-- The last element that fits. -/
def topmost (p : α → Bool) (l : List α) : Option α := l.reverse.find? p

theorem topmost_eq_none_iff : topmost p l = none ↔ ∀ a ∈ l, ¬ p a := by
  rw [topmost, List.find?_eq_none]
  simp only [List.mem_reverse]

/-- The topmost element has the greatest key. -/
theorem le_topmost (hsorted : l.Pairwise fun a b => key a ≤ key b) (h : topmost p l = some a) :
    a ∈ l ∧ p a = true ∧ ∀ b ∈ l, p b → key b ≤ key a := by
  obtain ⟨hp, before, after, heq, hbefore⟩ := List.find?_eq_some_iff_append.mp h
  have hl : l = after.reverse ++ a :: before.reverse := by
    rw [← List.reverse_reverse l, heq]
    simp
  refine ⟨hl ▸ List.mem_append_right _ List.mem_cons_self, hp, fun b hb hpb => ?_⟩
  rw [hl] at hb hsorted
  rcases List.mem_append.mp hb with hb | hb
  · exact (List.pairwise_append.mp hsorted).2.2 b hb a List.mem_cons_self
  · rcases List.mem_cons.mp hb with rfl | hb
    · exact le_rfl
    · have hnot := hbefore b (List.mem_reverse.mp hb)
      rw [hpb] at hnot
      cases hnot

/-- Where keys tell elements apart, the topmost element is the one with the greatest key. -/
theorem topmost_eq_some_iff (hsorted : l.Pairwise fun a b => key a ≤ key b)
    (hkey : ∀ a ∈ l, ∀ b ∈ l, key a = key b → a = b) :
    topmost p l = some a ↔ a ∈ l ∧ p a = true ∧ ∀ b ∈ l, p b → key b ≤ key a := by
  refine ⟨le_topmost hsorted, fun ⟨hmem, hp, hle⟩ => ?_⟩
  cases h : topmost p l with
  | none => exact absurd hp (topmost_eq_none_iff.mp h a hmem)
  | some b =>
      obtain ⟨hb, hpb, hleb⟩ := le_topmost hsorted h
      rw [hkey b hb a hmem ((hle b hb hpb).antisymm (hleb a hmem hp))]

/-- The last element with a property. -/
theorem exists_last {P : α → Prop} (hmem : a ∈ l) (ha : P a) :
    ∃ before b after, l = before ++ b :: after ∧ P b ∧ ∀ c ∈ after, ¬ P c := by
  induction l generalizing a with
  | nil => cases hmem
  | cons first rest ih =>
      by_cases hlater : ∃ b ∈ rest, P b
      · obtain ⟨b, hb, hpb⟩ := hlater
        obtain ⟨before, c, after, rfl, hpc, hafter⟩ := ih hb hpb
        exact ⟨first :: before, c, after, rfl, hpc, hafter⟩
      · refine ⟨[], first, rest, rfl, ?_, fun c hc hpc => hlater ⟨c, hc, hpc⟩⟩
        rcases List.mem_cons.mp hmem with rfl | hmem
        · exact ha
        · exact absurd ⟨a, hmem, ha⟩ hlater

end Stacking
