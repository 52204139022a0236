import BrowsAI.Library.OrdMap
import Mathlib.Tactic.SplitIfs

/-!
# Last entries

`lastOf k` is the value of the last entry for `k` in a list of entries. It is what a map holds after
the entries are written to it in order, and a map lists one entry for each key, the last one.
-/

namespace LastOf

open Std

section Lists

variable {κ α : Type} [DecidableEq κ] {k : κ} {a : α} {l : List (κ × α)}

/-- The value of the last entry for a key. -/
def lastOf (k : κ) : List (κ × α) → Option α
  | [] => none
  | (j, a) :: rest => (lastOf k rest).or (if j = k then some a else none)

@[simp] theorem last_of_nil : lastOf k ([] : List (κ × α)) = none := rfl

theorem last_of_append (l l' : List (κ × α)) :
    lastOf k (l ++ l') = (lastOf k l').or (lastOf k l) := by
  induction l with
  | nil => simp
  | cons entry rest ih => rw [List.cons_append, lastOf, lastOf, ih, Option.or_assoc]

/-- One more entry is the last one for its key, and no other key's. -/
theorem last_of_concat (l : List (κ × α)) (j k : κ) (a : α) :
    lastOf k (l ++ [(j, a)]) = if j = k then some a else lastOf k l := by
  rw [last_of_append, lastOf, last_of_nil, Option.none_or]
  split_ifs
  · rfl
  · rw [Option.none_or]

/-- The last value of a key is one of its values. -/
theorem mem_of_last_of (h : lastOf k l = some a) : (k, a) ∈ l := by
  induction l with
  | nil => cases h
  | cons entry rest ih =>
      obtain ⟨j, b⟩ := entry
      rw [lastOf] at h
      cases hrest : lastOf k rest with
      | some c =>
          rw [hrest, Option.some_or] at h
          exact List.mem_cons_of_mem _ (ih (hrest.trans h))
      | none =>
          rw [hrest, Option.none_or] at h
          split_ifs at h with hj
          rw [hj, Option.some.inj h]
          exact List.mem_cons_self

/-- A key that occurs has a last value. -/
theorem exists_last_of (h : (k, a) ∈ l) : ∃ b, lastOf k l = some b := by
  induction l with
  | nil => cases h
  | cons entry rest ih =>
      obtain ⟨j, b⟩ := entry
      rw [lastOf]
      cases hrest : lastOf k rest with
      | some c => exact ⟨c, rfl⟩
      | none =>
          rcases List.mem_cons.mp h with heq | h
          · obtain ⟨rfl, rfl⟩ := Prod.mk.inj heq
            exact ⟨a, by simp⟩
          · obtain ⟨c, hc⟩ := ih h
            rw [hrest] at hc
            cases hc

end Lists

section Maps

variable {κ α : Type} [Ord κ] [TransOrd κ] [LawfulEqOrd κ] [DecidableEq κ]

/-- The entries of a map are the last ones for their keys. -/
theorem last_of_to_list (m : OrdMap κ α) (k : κ) : lastOf k m.toList = m[k]? := by
  cases hlast : lastOf k m.toList with
  | some a => exact (ExtTreeMap.mem_toList_iff_getElem?_eq_some.mp (mem_of_last_of hlast)).symm
  | none =>
      cases hk : m[k]? with
      | none => rfl
      | some a =>
          obtain ⟨b, hb⟩ := exists_last_of (ExtTreeMap.mem_toList_iff_getElem?_eq_some.mpr hk)
          rw [hlast] at hb
          cases hb

end Maps

end LastOf
