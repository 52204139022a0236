import BrowsAI.Library.LastOf
import Mathlib.Data.List.Dedup
import Mathlib.Data.List.DropRight
import Mathlib.Data.List.Nodup

/-!
# Least recently used caches

An `Lru` lists its entries from the least to the most recently used. Its keys are the last ones that
a run used, `keys_run`, and each has the value that was inserted last, `mem_run`.
-/

open LastOf

section Lists

variable {κ : Type}

theorem rtake_append_of_le_length {l l' : List κ} {n : Nat} (h : n ≤ l'.length) :
    (l ++ l').rtake n = l'.rtake n := by
  rw [List.rtake, List.rtake, List.length_append, List.drop_append, List.drop_eq_nil_of_le,
    List.nil_append]
  · congr 1
    omega
  · omega

theorem rtake_of_length_le {l : List κ} {n : Nat} (h : l.length ≤ n) : l.rtake n = l := by
  rw [List.rtake, Nat.sub_eq_zero_of_le h, List.drop_zero]

variable [DecidableEq κ]

/-- The last use of a key counts. -/
theorem dedup_concat (l : List κ) (k : κ) : (l ++ [k]).dedup = l.dedup.filter (· ≠ k) ++ [k] := by
  induction l with
  | nil => simp
  | cons j l ih =>
      by_cases hjk : j = k
      · subst hjk
        rw [List.cons_append, List.dedup_cons_of_mem (by simp), ih]
        by_cases hmem : j ∈ l
        · rw [List.dedup_cons_of_mem hmem]
        · rw [List.dedup_cons_of_notMem hmem]
          simp
      · by_cases hmem : j ∈ l
        · rw [List.cons_append, List.dedup_cons_of_mem (by simp [hmem]), ih,
            List.dedup_cons_of_mem hmem]
        · rw [List.cons_append, List.dedup_cons_of_notMem (by simp [hmem, hjk]), ih,
            List.dedup_cons_of_notMem hmem]
          simp [hjk]

/-- What a list of different keys loses of its start, it has lost after one more use too. -/
theorem rtake_filter_concat {l : List κ} (h : l.Nodup) (k : κ) (n : Nat) :
    ((l.rtake n).filter (· ≠ k) ++ [k]).rtake n = (l.filter (· ≠ k) ++ [k]).rtake n := by
  cases n with
  | zero => simp
  | succ n =>
      rw [List.rtake_concat_succ, List.rtake_concat_succ]
      by_cases hlength : l.length ≤ n + 1
      · rw [rtake_of_length_le hlength]
      · have hsplit := List.take_append_drop (l.length - (n + 1)) l
        -- a use takes at most one key out of those that are kept
        have hkept : n ≤ ((l.rtake (n + 1)).filter (· ≠ k)).length := by
          have hnodup : (l.rtake (n + 1)).Nodup := h.sublist (List.drop_sublist _ _)
          have herase : (l.rtake (n + 1)).filter (· ≠ k) = (l.rtake (n + 1)).erase k := by
            rw [hnodup.erase_eq_filter]
            exact List.filter_congr fun j _ => by simp [bne, beq_eq_decide]
          rw [herase, List.length_erase, List.rtake, List.length_drop]
          split_ifs <;> omega
        conv_rhs => rw [← hsplit, List.filter_append]
        rw [← List.rtake, rtake_append_of_le_length hkept]

end Lists

/-- The entries, from the least to the most recently used one. -/
structure Lru (κ α : Type) (capacity : Nat) where
  entries : List (κ × α)
  nodup : (entries.map Prod.fst).Nodup
  bounded : entries.length ≤ capacity

namespace Lru

variable {κ α : Type} [DecidableEq κ] {capacity : Nat}

/-- The cache without entries. -/
def empty : Lru κ α capacity where
  entries := []
  nodup := List.nodup_nil
  bounded := Nat.zero_le _

/-- The keys, least recently used first. -/
def keys (c : Lru κ α capacity) : List κ := c.entries.map Prod.fst

/-- The entries of the other keys. -/
def without (k : κ) (entries : List (κ × α)) : List (κ × α) :=
  entries.filter fun entry => entry.1 ≠ k

theorem map_fst_without (k : κ) (entries : List (κ × α)) :
    (without k entries).map Prod.fst = (entries.map Prod.fst).filter (· ≠ k) := by
  rw [List.filter_map]
  rfl

omit [DecidableEq κ] in
theorem map_fst_rtake (entries : List (κ × α)) (n : Nat) :
    (entries.rtake n).map Prod.fst = (entries.map Prod.fst).rtake n := by
  rw [List.rtake, List.rtake, List.map_drop, List.length_map]

theorem nodup_used (c : Lru κ α capacity) (k : κ) : (c.keys.filter (· ≠ k) ++ [k]).Nodup := by
  refine List.Nodup.append (c.nodup.filter _) (List.nodup_singleton _) ?_
  intro j hj hk
  rw [List.mem_singleton.mp hk] at hj
  simpa using (List.mem_filter.mp hj).2

/-- The entry becomes the most recent one, and the least recent ones make room. -/
def insert (c : Lru κ α capacity) (k : κ) (a : α) : Lru κ α capacity where
  entries := (without k c.entries ++ [(k, a)]).rtake capacity
  nodup := by
    rw [map_fst_rtake, List.map_append, map_fst_without]
    exact (c.nodup_used k).sublist (List.drop_sublist _ _)
  bounded := by
    rw [List.rtake, List.length_drop]
    omega

/-- The value of a key. -/
def lookup (c : Lru κ α capacity) (k : κ) : Option α := lastOf k c.entries

theorem lookup_eq_some_iff (c : Lru κ α capacity) {k : κ} {a : α} :
    c.lookup k = some a ↔ (k, a) ∈ c.entries := by
  constructor
  · exact mem_of_last_of
  · intro hmem
    obtain ⟨b, hb⟩ := exists_last_of hmem
    have heq := List.inj_on_of_nodup_map c.nodup hmem (mem_of_last_of hb) rfl
    rw [lookup, hb, (Prod.mk.inj heq).2]

/-- A found entry becomes the most recent one. -/
def touch (c : Lru κ α capacity) (k : κ) : Lru κ α capacity :=
  match c.lookup k with
  | none => c
  | some a => c.insert k a

theorem keys_insert (c : Lru κ α capacity) (k : κ) (a : α) :
    (c.insert k a).keys = (c.keys.filter (· ≠ k) ++ [k]).rtake capacity := by
  rw [keys, insert, map_fst_rtake, List.map_append, map_fst_without]
  rfl

/-- A key that is in the cache already takes the place of no other. -/
theorem entries_insert_of_mem (c : Lru κ α capacity) {k : κ} (hk : k ∈ c.keys) (a : α) :
    (c.insert k a).entries = without k c.entries ++ [(k, a)] := by
  refine rtake_of_length_le ?_
  obtain ⟨entry, hentry, heq⟩ := List.mem_map.mp hk
  have hlength : (without k c.entries).length < c.entries.length :=
    List.length_filter_lt_length_iff_exists.mpr ⟨entry, hentry, by simp [heq]⟩
  have hbounded := c.bounded
  rw [List.length_append, List.length_singleton]
  omega

/-- What an insert leaves: the new entry, and the old ones of the keys that stay. -/
theorem mem_insert (c : Lru κ α capacity) {j k : κ} {a b : α} :
    (j, b) ∈ (c.insert k a).entries ↔
      j ∈ (c.insert k a).keys ∧ if k = j then a = b else (j, b) ∈ c.entries := by
  have hwhole : (j, b) ∈ without k c.entries ++ [(k, a)] ↔
      if k = j then a = b else (j, b) ∈ c.entries := by
    rw [List.mem_append, List.mem_singleton, Prod.mk.injEq, without, List.mem_filter]
    split_ifs with hkj
    · simp [hkj, eq_comm]
    · simp [Ne.symm hkj]
  rw [← hwhole]
  have hsublist : (c.insert k a).entries.Sublist (without k c.entries ++ [(k, a)]) :=
    List.drop_sublist _ _
  constructor
  · intro hmem
    exact ⟨List.mem_map.mpr ⟨_, hmem, rfl⟩, hsublist.subset hmem⟩
  · intro h
    obtain ⟨hkey, hmem⟩ := h
    obtain ⟨entry, hentry, rfl⟩ := List.mem_map.mp hkey
    -- the whole list has one entry for the key
    have hnodup : ((without k c.entries ++ [(k, a)]).map Prod.fst).Nodup := by
      rw [List.map_append, map_fst_without]
      exact c.nodup_used k
    rwa [List.inj_on_of_nodup_map hnodup hmem (hsublist.subset hentry) rfl]

theorem mem_keys_iff (c : Lru κ α capacity) {k : κ} : k ∈ c.keys ↔ ∃ a, c.lookup k = some a := by
  simp only [lookup_eq_some_iff]
  simp [keys]

/-- The value of a key behind an insert. -/
theorem lookup_insert (c : Lru κ α capacity) (j k : κ) (a : α) :
    (c.insert k a).lookup j =
      if j ∈ (c.insert k a).keys then if k = j then some a else c.lookup j else none := by
  refine Option.ext fun b => ?_
  rw [lookup_eq_some_iff, mem_insert]
  by_cases hkey : j ∈ (c.insert k a).keys
  · rw [if_pos hkey, and_iff_right hkey]
    by_cases hkj : k = j
    · rw [if_pos hkj, if_pos hkj, Option.some.injEq]
    · rw [if_neg hkj, if_neg hkj, lookup_eq_some_iff]
  · simp [hkey]

theorem touch_of_not_mem {c : Lru κ α capacity} {k : κ} (hk : k ∉ c.keys) : c.touch k = c := by
  rw [touch]
  cases hlookup : c.lookup k with
  | none => rfl
  | some a => exact absurd (c.mem_keys_iff.mpr ⟨a, hlookup⟩) hk

theorem keys_touch {c : Lru κ α capacity} {k : κ} (hk : k ∈ c.keys) :
    (c.touch k).keys = c.keys.filter (· ≠ k) ++ [k] := by
  obtain ⟨a, ha⟩ := c.mem_keys_iff.mp hk
  rw [touch, ha]
  show (c.insert k a).entries.map Prod.fst = _
  rw [c.entries_insert_of_mem hk, List.map_append, map_fst_without]
  rfl

/-- A use does not change what is found. -/
theorem lookup_touch (c : Lru κ α capacity) (j k : κ) : (c.touch k).lookup j = c.lookup j := by
  by_cases hk : k ∈ c.keys
  · obtain ⟨a, ha⟩ := c.mem_keys_iff.mp hk
    rw [touch, ha]
    refine Option.ext fun b => ?_
    rw [lookup_eq_some_iff, c.entries_insert_of_mem hk, List.mem_append, List.mem_singleton,
      without, List.mem_filter, Prod.mk.injEq, ← lookup_eq_some_iff]
    by_cases hjk : j = k
    · subst hjk
      simp [ha, eq_comm]
    · simp [hjk]
  · rw [touch_of_not_mem hk]

/-! ## Runs -/

/-- A call on the cache. -/
inductive Call (κ α : Type)
  | insert (k : κ) (a : α)
  | get (k : κ)

/-- What a call does. -/
def step (c : Lru κ α capacity) : Call κ α → Lru κ α capacity
  | .insert k a => c.insert k a
  | .get k => c.touch k

/-- What calls do one after the other. -/
def run (c : Lru κ α capacity) : List (Call κ α) → Lru κ α capacity
  | [] => c
  | call :: calls => run (c.step call) calls

/-- The key that a call uses: one that is inserted or found. -/
def used (c : Lru κ α capacity) : Call κ α → List κ
  | .insert k _ => [k]
  | .get k => if k ∈ c.keys then [k] else []

/-- The keys that a run uses, in order. -/
def uses (c : Lru κ α capacity) : List (Call κ α) → List κ
  | [] => []
  | call :: calls => c.used call ++ uses (c.step call) calls

/-- The entries that are inserted, in order. -/
def inserts (calls : List (Call κ α)) : List (κ × α) :=
  calls.filterMap fun
    | .insert k a => some (k, a)
    | .get _ => none

/-- One call keeps the last of the keys used. -/
theorem keys_step {c : Lru κ α capacity} {uses : List κ} (h : c.keys = uses.dedup.rtake capacity)
    (call : Call κ α) : (c.step call).keys = (uses ++ c.used call).dedup.rtake capacity := by
  have huse : ∀ k a, (c.insert k a).keys = (uses ++ [k]).dedup.rtake capacity := by
    intro k a
    rw [keys_insert, h, rtake_filter_concat (List.nodup_dedup uses), dedup_concat]
  cases call with
  | insert k a => exact huse k a
  | get k =>
      show (c.touch k).keys = (uses ++ if k ∈ c.keys then [k] else []).dedup.rtake capacity
      rw [touch]
      cases hlookup : c.lookup k with
      | none =>
          have hmiss : k ∉ c.keys := by
            rw [mem_keys_iff, hlookup]
            simp
          rw [if_neg hmiss, List.append_nil]
          exact h
      | some a =>
          rw [if_pos (c.mem_keys_iff.mpr ⟨a, hlookup⟩)]
          exact huse k a

/-- The keys are the last ones that a run used. -/
theorem keys_run_from {c : Lru κ α capacity} {before : List κ}
    (h : c.keys = before.dedup.rtake capacity) (calls : List (Call κ α)) :
    (c.run calls).keys = (before ++ c.uses calls).dedup.rtake capacity := by
  induction calls generalizing c before with
  | nil => rw [uses, List.append_nil]; exact h
  | cons call calls ih =>
      rw [uses, ← List.append_assoc]
      exact ih (keys_step h call)

theorem keys_run (calls : List (Call κ α)) :
    ((empty : Lru κ α capacity).run calls).keys =
      ((empty : Lru κ α capacity).uses calls).dedup.rtake capacity := by
  have hempty : (empty : Lru κ α capacity).keys = ([] : List κ).dedup.rtake capacity :=
    (List.rtake_nil _).symm
  exact keys_run_from hempty calls

/-- The value of an entry is the one inserted last. -/
def Latest (c : Lru κ α capacity) (inserted : List (κ × α)) : Prop :=
  ∀ k a, (k, a) ∈ c.entries → lastOf k inserted = some a

theorem Latest.insert {c : Lru κ α capacity} {inserted : List (κ × α)} (h : c.Latest inserted)
    (k : κ) (a : α) : (c.insert k a).Latest (inserted ++ [(k, a)]) := by
  intro j b hmem
  rw [mem_insert] at hmem
  rw [last_of_concat]
  obtain ⟨-, hmem⟩ := hmem
  split_ifs at hmem ⊢ with hkj
  · rw [hmem]
  · exact h j b hmem

/-- A use leaves the last values. -/
theorem Latest.touch {c : Lru κ α capacity} {inserted : List (κ × α)} (h : c.Latest inserted)
    (k : κ) : (c.touch k).Latest inserted := by
  intro j b hmem
  rw [Lru.touch] at hmem
  cases hlookup : c.lookup k with
  | none =>
      rw [hlookup] at hmem
      exact h j b hmem
  | some a =>
      simp only [hlookup, mem_insert] at hmem
      obtain ⟨-, hmem⟩ := hmem
      split_ifs at hmem with hkj
      · rw [← hkj, ← hmem]
        exact h k a (c.lookup_eq_some_iff.mp hlookup)
      · exact h j b hmem

/-- So does every run. -/
theorem Latest.run {c : Lru κ α capacity} {inserted : List (κ × α)} (h : c.Latest inserted)
    (calls : List (Call κ α)) : (c.run calls).Latest (inserted ++ inserts calls) := by
  induction calls generalizing c inserted with
  | nil =>
      rw [inserts, List.filterMap_nil, List.append_nil]
      exact h
  | cons call calls ih =>
      cases call with
      | insert k a =>
          have hrest := ih (h.insert k a)
          rwa [List.append_assoc] at hrest
      | get k => exact ih (h.touch k)

/-- A lookup finds the keys of the cache, with the value inserted last. -/
theorem lookup_run_eq_some_iff (calls : List (Call κ α)) {k : κ} {a : α} :
    ((empty : Lru κ α capacity).run calls).lookup k = some a ↔
      k ∈ ((empty : Lru κ α capacity).run calls).keys ∧ lastOf k (inserts calls) = some a := by
  have hempty : (empty : Lru κ α capacity).Latest [] :=
    fun _ _ hmem => absurd hmem List.not_mem_nil
  have hlatest : ((empty : Lru κ α capacity).run calls).Latest (inserts calls) := hempty.run calls
  constructor
  · intro hlookup
    exact ⟨mem_keys_iff _ |>.mpr ⟨a, hlookup⟩, hlatest k a ((lookup_eq_some_iff _).mp hlookup)⟩
  · intro h
    obtain ⟨b, hb⟩ := (mem_keys_iff _).mp h.1
    rw [hb, ← h.2, hlatest k b ((lookup_eq_some_iff _).mp hb)]

end Lru
