import BrowsAI.Library.OrdMap
import Mathlib.Algebra.GroupWithZero.Nat

/-!
# Groups

Entries collected under their keys, and keys counted. `get_group` and `get_tally` say what is found
under a key, `group_sizes` that the sizes of the groups are the counts, and `sum_tally` that the counts
add up to the number of keys.
-/

namespace OrdMap

open Std

variable {κ α : Type} [Ord κ] [TransOrd κ]

/-- One more value under a key. -/
def addTo (groups : OrdMap κ (List α)) (entry : κ × α) : OrdMap κ (List α) :=
  groups.insert entry.1 (groups[entry.1]?.getD [] ++ [entry.2])

/-- The values of each key in their order. -/
def group (entries : List (κ × α)) : OrdMap κ (List α) := entries.foldl addTo ∅

/-- One more of a key. -/
def bump (counts : OrdMap κ Nat) (k : κ) : OrdMap κ Nat :=
  counts.insert k (counts[k]?.getD 0 + 1)

/-- How often each key is in a list. -/
def tally (keys : List κ) : OrdMap κ Nat := keys.foldl bump ∅

variable [LawfulEqOrd κ] [DecidableEq κ]

/-- The values of a key. -/
def valuesOf (entries : List (κ × α)) (k : κ) : List α :=
  (entries.filter fun entry => entry.1 = k).map Prod.snd

omit [Ord κ] [TransOrd κ] [LawfulEqOrd κ] in
theorem values_of_cons (entry : κ × α) (entries : List (κ × α)) (k : κ) :
    valuesOf (entry :: entries) k =
      if entry.1 = k then entry.2 :: valuesOf entries k else valuesOf entries k := by
  rw [valuesOf, List.filter_cons]
  by_cases hk : entry.1 = k
  · rw [if_pos (decide_eq_true hk), if_pos hk]
    rfl
  · rw [if_neg (by simpa using hk), if_neg hk]
    rfl

/-- A group has the values of its key in their order. -/
theorem get_group (entries : List (κ × α)) (k : κ) :
    (group entries)[k]? =
      if valuesOf entries k = [] then none else some (valuesOf entries k) := by
  have hfold : ∀ groups : OrdMap κ (List α), (entries.foldl addTo groups)[k]? =
      if valuesOf entries k = [] then groups[k]?
      else some (groups[k]?.getD [] ++ valuesOf entries k) := by
    induction entries with
    | nil => exact fun _ => rfl
    | cons entry entries ih =>
        intro groups
        rw [List.foldl_cons, ih, addTo, get_insert, values_of_cons]
        by_cases hk : entry.1 = k
        · by_cases hrest : valuesOf entries k = []
          · simp [hk, hrest]
          · simp [hk, hrest]
        · simp [hk]
  rw [group, hfold, ExtTreeMap.getElem?_empty]
  rfl

/-- A tally counts how often a key occurs. -/
theorem get_tally (keys : List κ) (k : κ) :
    (tally keys)[k]? = if keys.count k = 0 then none else some (keys.count k) := by
  have hfold : ∀ counts : OrdMap κ Nat, (keys.foldl bump counts)[k]? =
      if keys.count k = 0 then counts[k]? else some (counts[k]?.getD 0 + keys.count k) := by
    induction keys with
    | nil => exact fun _ => rfl
    | cons j keys ih =>
        intro counts
        rw [List.foldl_cons, ih, bump, get_insert, List.count_cons]
        by_cases hjk : j = k
        · subst hjk
          by_cases hrest : keys.count j = 0
          · simp [hrest]
          · simp [hrest, Nat.add_assoc, Nat.add_comm 1]
        · simp [hjk]
  rw [tally, hfold, ExtTreeMap.getElem?_empty]
  simp

/-- The sizes of the groups are the counts of the keys. -/
theorem group_sizes (entries : List (κ × α)) :
    (group entries).map (fun _ values => values.length) = tally (entries.map Prod.fst) := by
  refine ExtTreeMap.ext_getElem? fun k => ?_
  have hlength : (valuesOf entries k).length = (entries.map Prod.fst).count k := by
    rw [valuesOf, List.length_map, List.count_eq_length_filter, List.filter_map, List.length_map]
    rfl
  rw [ExtTreeMap.getElem?_map, get_group, get_tally, ← hlength]
  by_cases hnone : valuesOf entries k = []
  · simp [hnone]
  · simp [hnone]

/-- A bump adds one to the sum. -/
theorem sum_to_list_bump (counts : OrdMap κ Nat) (k : κ) :
    ((bump counts k).toList.map Prod.snd).sum = (counts.toList.map Prod.snd).sum + 1 := by
  have hnew := ((to_list_insert_perm_erase counts k (counts[k]?.getD 0 + 1)).map Prod.snd).sum_nat
  rw [bump, hnew, List.map_cons, List.sum_cons]
  cases hk : counts[k]? with
  | none =>
      have hsame : counts.erase k = counts := erase_eq_self_iff.mpr hk
      rw [hsame, Option.getD_none]
      omega
  | some n =>
      have hold := ((to_list_insert_perm_erase counts k n).map Prod.snd).sum_nat
      rw [insert_eq_self hk, List.map_cons, List.sum_cons] at hold
      rw [hold, Option.getD_some]
      omega

/-- The counts add up to the number of keys. -/
theorem sum_tally (keys : List κ) : ((tally keys).toList.map Prod.snd).sum = keys.length := by
  have hfold : ∀ counts : OrdMap κ Nat, ((keys.foldl bump counts).toList.map Prod.snd).sum =
      (counts.toList.map Prod.snd).sum + keys.length := by
    induction keys with
    | nil => exact fun _ => rfl
    | cons k keys ih =>
        intro counts
        rw [List.foldl_cons, ih, sum_to_list_bump, List.length_cons]
        omega
  exact (hfold ∅).trans (Nat.zero_add _)

/-- A tally has the keys that occur. -/
theorem keys_tally (keys : List κ) : (tally keys).keys = keySet keys := by
  have hfold : ∀ counts : OrdMap κ Nat, (keys.foldl bump counts).map (fun _ _ => ()) =
      keys.foldl (fun set k => set.insert k ()) (counts.map fun _ _ => ()) := by
    induction keys with
    | nil => exact fun _ => rfl
    | cons k keys ih =>
        intro counts
        rw [List.foldl_cons, List.foldl_cons, ih, bump, map_insert]
  have hempty : (∅ : OrdMap κ Nat).map (fun _ _ => ()) = ∅ :=
    ExtTreeMap.ext_getElem? fun k => by simp
  have hkeys := hfold ∅
  rw [hempty] at hkeys
  rw [keySet, ← hkeys, ExtTreeMap.keys_map]
  rfl

/-- There are as many groups as different keys. -/
theorem size_group (entries : List (κ × α)) :
    (group entries).size = (keySet (entries.map Prod.fst)).length := by
  rw [← keys_tally, ← group_sizes, ExtTreeMap.keys_map, ExtTreeMap.length_keys]

end OrdMap
