import BrowsAI.Library.LastOf
import Mathlib.Data.List.Nodup

/-!
# Lists indexed by a key

`index key l` maps every key of a list to the last element that has it. The other elements are
`shadowed`: an index and what it shadows make up the list again, `index_perm`.

Two maps are compared entry by entry: `shared` joins the entries under the keys that both have, and
each map consists of its part of the shared entries and of the entries under its own keys.
-/

namespace Indexed

open Std LastOf

variable {κ α : Type}

/-- The last element for every key. -/
def index [Ord κ] [TransOrd κ] (key : α → κ) (l : List α) : OrdMap κ α :=
  l.foldl (fun m a => m.insert (key a) a) ∅

/-- The elements with a key that a later element has too. -/
def shadowed [DecidableEq κ] (key : α → κ) : List α → List α
  | [] => []
  | a :: rest => if key a ∈ rest.map key then a :: shadowed key rest else shadowed key rest

/-- The entries of two maps under the keys that both have. -/
def shared [Ord κ] [TransOrd κ] (m m' : OrdMap κ α) : List (κ × α × α) :=
  m'.toList.filterMap fun entry => m[entry.1]?.map fun a => (entry.1, a, entry.2)

/-- Elements with distinct keys do not shadow one another. -/
theorem shadowed_eq_nil [DecidableEq κ] {key : α → κ} {l : List α} (h : (l.map key).Nodup) :
    shadowed key l = [] := by
  induction l with
  | nil => rfl
  | cons a rest ih =>
      obtain ⟨hnew, hrest⟩ := List.nodup_cons.mp h
      rw [shadowed, if_neg hnew, ih hrest]

/-! ## The index of a list -/

section Index

variable [Ord κ] [TransOrd κ] [LawfulEqOrd κ] [DecidableEq κ] {key : α → κ}

/-- Elements inserted one after another leave the last one for each key. -/
theorem get_foldl_insert (l : List α) (m : OrdMap κ α) (k : κ) :
    (l.foldl (fun m a => m.insert (key a) a) m)[k]? =
      (lastOf k (l.map fun a => (key a, a))).or m[k]? := by
  induction l generalizing m with
  | nil => simp
  | cons a rest ih =>
      rw [List.foldl_cons, ih, OrdMap.get_insert, List.map_cons, lastOf, Option.or_assoc]
      by_cases hk : key a = k <;> simp [hk]

theorem get_index (l : List α) (k : κ) :
    (index key l)[k]? = lastOf k (l.map fun a => (key a, a)) := by
  rw [index, get_foldl_insert]
  simp

/-- The first element of a list is in the index unless a later one has its key. -/
theorem get_index_cons (a : α) (rest : List α) (k : κ) :
    (index key (a :: rest))[k]? = ((index key rest)[k]?).or (if key a = k then some a else none) := by
  rw [get_index, get_index, List.map_cons, lastOf]

theorem get_index_is_some {l : List α} {k : κ} : ((index key l)[k]?).isSome ↔ k ∈ l.map key := by
  induction l with
  | nil => simp [get_index]
  | cons a rest ih =>
      rw [get_index_cons, Option.isSome_or, Bool.or_eq_true, ih, List.map_cons, List.mem_cons]
      by_cases hk : key a = k
      · simp [hk]
      · simp [hk, Ne.symm hk]

/-- A list consists of the elements of its index and of the shadowed ones. -/
theorem index_perm (l : List α) :
    ((index key l).toList.map Prod.snd ++ shadowed key l).Perm l := by
  induction l with
  | nil => simp [index, shadowed]
  | cons a rest ih =>
      rw [shadowed]
      split_ifs with hkey
      · have hsame : index key (a :: rest) = index key rest := by
          refine ExtTreeMap.ext_getElem? fun k => ?_
          rw [get_index_cons]
          by_cases hk : key a = k
          · subst hk
            obtain ⟨b, hb⟩ := Option.isSome_iff_exists.mp (get_index_is_some.mpr hkey)
            simp [hb]
          · simp [hk]
        rw [hsame]
        exact List.perm_middle.trans (ih.cons a)
      · have hnone : (index key rest)[key a]? = none := by
          rw [← Option.not_isSome_iff_eq_none, get_index_is_some]
          exact hkey
        have hnew : index key (a :: rest) = (index key rest).insert (key a) a := by
          refine ExtTreeMap.ext_getElem? fun k => ?_
          rw [get_index_cons, OrdMap.get_insert]
          by_cases hk : key a = k
          · subst hk
            simp [hnone]
          · simp [hk]
        have hvalues := (OrdMap.to_list_insert_perm hnone a).map Prod.snd
        rw [hnew]
        exact (hvalues.append_right _).trans (ih.cons a)

theorem mem_of_mem_index {l : List α} {entry : κ × α} (h : entry ∈ (index key l).toList) :
    entry.2 ∈ l :=
  (index_perm l).subset (List.mem_append_left _ (List.mem_map_of_mem h))

theorem mem_of_get_index {l : List α} {k : κ} {a : α} (h : (index key l)[k]? = some a) :
    a ∈ l ∧ key a = k := by
  rw [get_index] at h
  obtain ⟨b, hb, heq⟩ := List.mem_map.mp (mem_of_last_of h)
  obtain ⟨rfl, rfl⟩ := Prod.mk.inj heq
  exact ⟨hb, rfl⟩

/-- Only the empty list has an empty index. -/
theorem index_to_list_eq_nil_iff {l : List α} : (index key l).toList = [] ↔ l = [] := by
  constructor
  · intro h
    cases l with
    | nil => rfl
    | cons a rest =>
        have hkey : key a ∈ (a :: rest).map key := List.mem_cons_self
        obtain ⟨last, hlast⟩ := Option.isSome_iff_exists.mp (get_index_is_some.mpr hkey)
        have hmem := ExtTreeMap.mem_toList_iff_getElem?_eq_some.mpr hlast
        rw [h] at hmem
        cases hmem
  · rintro rfl
    rfl

/-- A change of the elements that keeps their keys changes the elements of the index. -/
theorem index_map {β : Type} {key' : β → κ} {f : α → β} (hf : ∀ a, key' (f a) = key a)
    (l : List α) : index key' (l.map f) = (index key l).map fun _ => f := by
  refine ExtTreeMap.ext_getElem? fun k => ?_
  rw [ExtTreeMap.getElem?_map]
  induction l with
  | nil => simp [get_index]
  | cons a rest ih =>
      rw [List.map_cons, get_index_cons, get_index_cons, ih, hf]
      cases (index key rest)[k]? with
      | some b => rfl
      | none =>
          by_cases hk : key a = k <;> simp [hk]

end Index

/-! ## Two maps -/

section Shared

variable [Ord κ] [TransOrd κ] [LawfulEqOrd κ]

theorem mem_shared {m m' : OrdMap κ α} {k : κ} {a a' : α} :
    (k, a, a') ∈ shared m m' ↔ m[k]? = some a ∧ m'[k]? = some a' := by
  simp only [shared, List.mem_filterMap, Prod.exists, Option.map_eq_some_iff, Prod.mk.injEq,
    ExtTreeMap.mem_toList_iff_getElem?_eq_some]
  constructor
  · rintro ⟨j, b', hb', b, hb, rfl, rfl, rfl⟩
    exact ⟨hb, hb'⟩
  · rintro ⟨ha, ha'⟩
    exact ⟨k, a', ha', a, ha, rfl, rfl, rfl⟩

theorem nodup_shared (m m' : OrdMap κ α) : (shared m m').Nodup := by
  refine m'.distinct_keys_toList.filterMap _ ?_
  rintro ⟨k, a'⟩ ⟨j, b'⟩ hkj x hx y hy rfl
  obtain ⟨a, -, rfl⟩ := Option.map_eq_some_iff.mp hx
  obtain ⟨b, -, heq⟩ := Option.map_eq_some_iff.mp hy
  refine hkj ?_
  rw [(Prod.mk.inj heq).1]
  exact compare_self

/-- The entries of the first map under the keys of the second are its part of the shared ones. -/
theorem filter_contains_perm (m m' : OrdMap κ α) :
    (m.toList.filter fun entry => m'.contains entry.1).Perm
      ((shared m m').map fun entry => (entry.1, entry.2.1)) := by
  have hnodup : ((shared m m').map fun entry => (entry.1, entry.2.1)).Nodup := by
    refine List.Nodup.map_on ?_ (nodup_shared m m')
    rintro ⟨k, a, a'⟩ hmem ⟨j, b, b'⟩ hmem' heq
    obtain ⟨rfl, rfl⟩ := Prod.mk.inj heq
    have ha' := (mem_shared.mp hmem).2.symm.trans (mem_shared.mp hmem').2
    rw [Option.some.inj ha']
  refine (List.perm_ext_iff_of_nodup (m.nodup_to_list.filter _) hnodup).mpr ?_
  rintro ⟨k, a⟩
  simp only [List.mem_filter, ExtTreeMap.mem_toList_iff_getElem?_eq_some, List.mem_map,
    Prod.exists, Prod.mk.injEq, mem_shared, ExtTreeMap.contains_eq_isSome_getElem?,
    Option.isSome_iff_exists]
  constructor
  · rintro ⟨ha, a', ha'⟩
    exact ⟨k, a, a', ⟨ha, ha'⟩, rfl, rfl⟩
  · rintro ⟨_, _, a', ⟨ha, ha'⟩, rfl, rfl⟩
    exact ⟨ha, a', ha'⟩

omit [LawfulEqOrd κ] in
/-- The entries of the second map under the keys of the first are its part of the shared ones. -/
theorem filter_contains_eq (m m' : OrdMap κ α) :
    (m'.toList.filter fun entry => m.contains entry.1) =
      (shared m m').map fun entry => (entry.1, entry.2.2) := by
  rw [shared, List.map_filterMap]
  induction m'.toList with
  | nil => rfl
  | cons entry rest ih =>
      obtain ⟨k, a'⟩ := entry
      rw [List.filter_cons, List.filterMap_cons, ExtTreeMap.contains_eq_isSome_getElem?]
      cases m[k]? with
      | none => exact ih
      | some a => exact congrArg (List.cons (k, a')) ih

/-- The values of the first map: those under its own keys, and its part of the shared ones. -/
theorem values_perm_left (m m' : OrdMap κ α) :
    ((m.toList.filter fun entry => !m'.contains entry.1).map Prod.snd ++
      (shared m m').map fun entry => entry.2.1).Perm (m.toList.map Prod.snd) := by
  have hsplit := (List.filter_append_perm (fun entry => m'.contains entry.1) m.toList).map Prod.snd
  have hshared := (filter_contains_perm m m').map Prod.snd
  rw [List.map_append] at hsplit
  rw [List.map_map] at hshared
  exact (List.perm_append_comm.trans (hshared.symm.append_right _)).trans hsplit

omit [LawfulEqOrd κ] in
/-- The values of the second map: those under its own keys, and its part of the shared ones. -/
theorem values_perm_right (m m' : OrdMap κ α) :
    ((m'.toList.filter fun entry => !m.contains entry.1).map Prod.snd ++
      (shared m m').map fun entry => entry.2.2).Perm (m'.toList.map Prod.snd) := by
  have hsplit := (List.filter_append_perm (fun entry => m.contains entry.1) m'.toList).map Prod.snd
  rw [List.map_append, filter_contains_eq, List.map_map] at hsplit
  exact List.perm_append_comm.trans hsplit

end Shared

end Indexed
