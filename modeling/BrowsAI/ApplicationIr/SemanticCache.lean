import BrowsAI.AgentTree.Basic
import BrowsAI.Library.Lru

/-!
# The semantic cache

`SemanticCache` of `crates/application-ir`: a map and, beside it, the list of its keys in the order
of their last use. The two refine one `Lru`, `refines_run`, so that the cache behaves as one after
any calls: `behaves_as_lru`.
-/

namespace BrowsAI.ApplicationIr

open Std Utf8 AgentTree LastOf

/-- Trees by key, and the keys with the least recent one first. -/
structure SemanticCache where
  maxEntries : Nat
  order : List Text
  entries : OrdMap Text AgentRenderTree

namespace SemanticCache

/-- `SemanticCache::default()`. -/
instance : Inhabited SemanticCache := ⟨⟨128, [], ∅⟩⟩

/-- An empty cache with room for one entry at least. -/
def withCapacity (maxEntries : Nat) : SemanticCache :=
  { (default : SemanticCache) with maxEntries := max maxEntries 1 }

/-- The loop of `insert`: the oldest key goes while there are too many. -/
def evict (maxEntries : Nat) :
    List Text → OrdMap Text AgentRenderTree → List Text × OrdMap Text AgentRenderTree
  | [], entries => ([], entries)
  | oldest :: order, entries =>
      if maxEntries < (oldest :: order).length then evict maxEntries order (entries.erase oldest)
      else (oldest :: order, entries)

/-- Stores a tree as the most recent one, and evicts the least recent ones that are too many. -/
def insert (cache : SemanticCache) (key : Text) (tree : AgentRenderTree) : SemanticCache :=
  let order :=
    if cache.entries.contains key then cache.order.filter (· ≠ key) else cache.order
  let (order, entries) := evict cache.maxEntries (order ++ [key]) (cache.entries.insert key tree)
  { cache with order, entries }

/-- The tree of a key, which becomes the most recent one. -/
def get (cache : SemanticCache) (key : Text) : Option AgentRenderTree × SemanticCache :=
  match cache.order.idxOf? key with
  | none => (none, cache)
  | some position =>
      match cache.order[position]? with
      | none => (none, cache)
      | some key =>
          (cache.entries[key]?, { cache with order := cache.order.eraseIdx position ++ [key] })

/-- A call of `insert` or of `get`. -/
abbrev Call := Lru.Call Text AgentRenderTree

/-- What a call does. -/
def step (cache : SemanticCache) : Call → SemanticCache
  | .insert key tree => cache.insert key tree
  | .get key => (cache.get key).2

/-- What calls do one after the other. -/
def run (cache : SemanticCache) : List Call → SemanticCache
  | [] => cache
  | call :: calls => run (cache.step call) calls

/-- The keys that calls insert or find, in order. -/
def usedKeys (cache : SemanticCache) : List Call → List Text
  | [] => []
  | .insert key tree :: calls => key :: usedKeys (cache.insert key tree) calls
  | .get key :: calls =>
      (if (cache.get key).1.isSome then [key] else []) ++ usedKeys (cache.get key).2 calls

/-! ## Operations -/

/-- Of the keys the most recent ones stay, up to the capacity. -/
theorem evict_order (maxEntries : Nat) (order : List Text)
    (entries : OrdMap Text AgentRenderTree) :
    (evict maxEntries order entries).1 = order.rtake maxEntries := by
  induction order generalizing entries with
  | nil => simp [evict]
  | cons oldest order ih =>
      rw [evict]
      split_ifs with hfull
      · have hdrop : (oldest :: order).length - maxEntries = order.length - maxEntries + 1 := by
          simp only [List.length_cons] at hfull ⊢
          omega
        rw [ih, List.rtake, List.rtake, hdrop, List.drop_succ_cons]
      · rw [rtake_of_length_le (Nat.le_of_not_lt hfull)]

/-- The keys that do not stay in the order leave the map. -/
theorem evict_entries (maxEntries : Nat) (order : List Text)
    (entries : OrdMap Text AgentRenderTree) (key : Text) :
    (evict maxEntries order entries).2[key]? =
      if key ∈ order.take (order.length - maxEntries) then none else entries[key]? := by
  induction order generalizing entries with
  | nil => simp [evict]
  | cons oldest order ih =>
      rw [evict]
      by_cases hfull : maxEntries < (oldest :: order).length
      · have htake : (oldest :: order).length - maxEntries = order.length - maxEntries + 1 := by
          simp only [List.length_cons] at hfull ⊢
          omega
        rw [if_pos hfull, ih, OrdMap.get_erase, htake, List.take_succ_cons]
        by_cases hkey : oldest = key
        · simp [hkey]
        · simp [hkey, Ne.symm hkey]
      · have htake : (oldest :: order).length - maxEntries = 0 := by omega
        rw [if_neg hfull, htake]
        simp

/-- A key in the order is found, and goes to the end. -/
theorem get_of_mem {cache : SemanticCache} {key : Text} (hnodup : cache.order.Nodup)
    (h : key ∈ cache.order) :
    cache.get key = (cache.entries[key]?,
      { cache with order := cache.order.filter (· ≠ key) ++ [key] }) := by
  obtain ⟨position, hposition⟩ := Option.isSome_iff_exists.mp (List.isSome_idxOf?.mpr h)
  have hindex : cache.order.idxOf key = position := by
    rw [List.idxOf_eq_getD_idxOf?, hposition, Option.getD_some]
  have hat : cache.order[position]? = some key := hindex ▸ List.getElem?_idxOf h
  have herase : cache.order.eraseIdx position = cache.order.filter (· ≠ key) := by
    rw [← hindex, List.eraseIdx_idxOf_eq_erase, hnodup.erase_eq_filter]
    exact List.filter_congr fun other _ => by simp [bne, beq_eq_decide]
  rw [get, hposition]
  simp only [hat, herase]

theorem get_of_not_mem {cache : SemanticCache} {key : Text} (h : key ∉ cache.order) :
    cache.get key = (none, cache) := by
  rw [get, List.idxOf?_eq_none_iff.mpr h]

/-! ## Refinement -/

/-- The order lists the keys of the abstract cache, and the map its entries. -/
structure Refines {capacity : Nat} (cache : SemanticCache)
    (lru : Lru Text AgentRenderTree capacity) : Prop where
  capacity_eq : cache.maxEntries = capacity
  order_eq : cache.order = lru.keys
  entries_eq : ∀ key : Text, cache.entries[key]? = lru.lookup key

section Refines

variable {capacity : Nat} {cache : SemanticCache} {lru : Lru Text AgentRenderTree capacity}

theorem Refines.contains_iff (h : cache.Refines lru) (key : Text) :
    cache.entries.contains key = true ↔ key ∈ cache.order := by
  rw [ExtTreeMap.contains_iff_mem, ← ExtTreeMap.isSome_getElem?_iff_mem, h.entries_eq, h.order_eq,
    Lru.mem_keys_iff, Option.isSome_iff_exists]

/-- Whether the key was there or not, it is the last one of the order. -/
theorem Refines.insert_eq (h : cache.Refines lru) (key : Text) (tree : AgentRenderTree) :
    cache.insert key tree =
      let order := cache.order.filter (· ≠ key) ++ [key]
      let (order, entries) := evict cache.maxEntries order (cache.entries.insert key tree)
      { cache with order, entries } := by
  rw [insert]
  split_ifs with hkey
  · rfl
  · have hfilter : cache.order.filter (· ≠ key) = cache.order := by
      refine List.filter_eq_self.mpr fun other hother => decide_eq_true fun heq => ?_
      exact hkey ((h.contains_iff key).mpr (heq ▸ hother))
    rw [hfilter]

/-- An insert is that of the abstract cache. -/
theorem Refines.insert (h : cache.Refines lru) (key : Text) (tree : AgentRenderTree) :
    (cache.insert key tree).Refines (lru.insert key tree) := by
  have hnodup := lru.nodup_used key
  have hkeys := lru.keys_insert key tree
  rw [h.insert_eq, h.order_eq, h.capacity_eq]
  refine ⟨rfl, (evict_order _ _ _).trans hkeys.symm, fun other => ?_⟩
  generalize hused : lru.keys.filter (· ≠ key) ++ [key] = used at hnodup hkeys ⊢
  show (evict capacity used (cache.entries.insert key tree)).2[other]? = _
  rw [evict_entries, OrdMap.get_insert, Lru.lookup_insert, hkeys, h.entries_eq]
  have hsplit := List.take_append_drop (used.length - capacity) used
  by_cases hevicted : other ∈ used.take (used.length - capacity)
  · have hgone : other ∉ used.rtake capacity :=
      fun hkept => List.disjoint_take_drop hnodup (Nat.le_refl _) hevicted hkept
    rw [if_pos hevicted, if_neg hgone]
  · rw [if_neg hevicted]
    by_cases hkept : other ∈ used.rtake capacity
    · rw [if_pos hkept]
    · -- a key that was neither kept nor evicted was not there
      have hother : other ∉ used := by
        rw [← hsplit, List.mem_append, not_or]
        exact ⟨hevicted, hkept⟩
      rw [← hused, List.mem_append, List.mem_filter, List.mem_singleton, not_or] at hother
      have hne : key ≠ other := fun heq => hother.2 heq.symm
      have hmiss : other ∉ lru.keys := fun hmem => hother.1 ⟨hmem, decide_eq_true hne.symm⟩
      rw [if_neg hkept, if_neg hne, ← Option.not_isSome_iff_eq_none]
      exact fun hsome => hmiss (lru.mem_keys_iff.mpr (Option.isSome_iff_exists.mp hsome))

theorem Refines.nodup (h : cache.Refines lru) : cache.order.Nodup := by
  rw [h.order_eq]
  exact lru.nodup

/-- A lookup gives what the abstract cache holds. -/
theorem Refines.get_fst (h : cache.Refines lru) (key : Text) :
    (cache.get key).1 = lru.lookup key := by
  by_cases hkey : key ∈ cache.order
  · rw [get_of_mem h.nodup hkey]
    exact h.entries_eq key
  · rw [get_of_not_mem hkey]
    rw [h.order_eq, Lru.mem_keys_iff] at hkey
    cases hlookup : lru.lookup key with
    | none => rfl
    | some tree => exact absurd ⟨tree, hlookup⟩ hkey

/-- A hit touches the key there. -/
theorem Refines.get_snd (h : cache.Refines lru) (key : Text) :
    (cache.get key).2.Refines (lru.touch key) := by
  by_cases hkey : key ∈ cache.order
  · rw [get_of_mem h.nodup hkey]
    rw [h.order_eq] at hkey ⊢
    refine ⟨h.capacity_eq, (Lru.keys_touch hkey).symm, fun other => ?_⟩
    rw [Lru.lookup_touch]
    exact h.entries_eq other
  · rw [get_of_not_mem hkey]
    rw [h.order_eq] at hkey
    rw [Lru.touch_of_not_mem hkey]
    exact h

theorem Refines.step (h : cache.Refines lru) (call : Call) :
    (cache.step call).Refines (lru.step call) := by
  cases call with
  | insert key tree => exact h.insert key tree
  | get key => exact h.get_snd key

/-- Any calls leave the two caches related. -/
theorem Refines.run (h : cache.Refines lru) (calls : List Call) :
    (cache.run calls).Refines (lru.run calls) := by
  induction calls generalizing cache lru with
  | nil => exact h
  | cons call calls ih => exact ih (h.step call)

/-- Both caches use the same keys. -/
theorem Refines.used_keys (h : cache.Refines lru) (calls : List Call) :
    cache.usedKeys calls = lru.uses calls := by
  induction calls generalizing cache lru with
  | nil => rfl
  | cons call calls ih =>
      rw [Lru.uses, ← ih (h.step call)]
      cases call with
      | insert key tree => rfl
      | get key =>
          have hfound : (lru.lookup key).isSome = true ↔ key ∈ lru.keys := by
            rw [Lru.mem_keys_iff, Option.isSome_iff_exists]
          rw [usedKeys, h.get_fst, Lru.used]
          by_cases hkey : key ∈ lru.keys
          · rw [if_pos (hfound.mpr hkey), if_pos hkey]
            rfl
          · rw [if_neg fun hsome => hkey (hfound.mp hsome), if_neg hkey]
            rfl

end Refines

theorem refines_empty (maxEntries : Nat) :
    (withCapacity maxEntries).Refines
      (Lru.empty : Lru Text AgentRenderTree (max maxEntries 1)) := by
  refine ⟨rfl, rfl, fun key => ?_⟩
  show (∅ : OrdMap Text AgentRenderTree)[key]? = none
  simp

/-- What makes the cache one of the least recently used kind, after calls of `insert` and `get`. -/
structure BehavesAsLru (maxEntries : Nat) (calls : List Call) (cache : SemanticCache) : Prop where
  nodup : cache.order.Nodup
  perm : cache.order.Perm cache.entries.keys
  /-- The keys are the last ones that the calls used. -/
  recent : cache.order =
    ((withCapacity maxEntries).usedKeys calls).dedup.rtake (max maxEntries 1)
  /-- An insertion puts its key at the end, and evicts from the start what is too much. -/
  order_insert : ∀ (key : Text) (tree : AgentRenderTree), (cache.insert key tree).order =
    (cache.order.filter (· ≠ key) ++ [key]).rtake (max maxEntries 1)
  /-- A key that is found goes to the end. -/
  order_get : ∀ key : Text, (cache.get key).2.order =
    if key ∈ cache.order then cache.order.filter (· ≠ key) ++ [key] else cache.order
  /-- What is found is the tree inserted last for the key, unless the key was evicted. -/
  get_eq : ∀ (key : Text) (tree : AgentRenderTree), (cache.get key).1 = some tree ↔
    key ∈ cache.order ∧ lastOf key (Lru.inserts calls) = some tree

theorem Refines.perm {capacity : Nat} {cache : SemanticCache}
    {lru : Lru Text AgentRenderTree capacity} (h : cache.Refines lru) :
    cache.order.Perm cache.entries.keys := by
  refine (List.perm_ext_iff_of_nodup h.nodup ?_).mpr fun key => ?_
  · refine ExtTreeMap.distinct_keys.imp fun {a b} hdistinct hab => hdistinct ?_
    rw [hab]
    exact compare_self
  · rw [ExtTreeMap.mem_keys, ← h.contains_iff, ExtTreeMap.contains_iff_mem]

/-- A cache of any capacity behaves so after any calls. -/
theorem behaves_as_lru (maxEntries : Nat) (calls : List Call) :
    BehavesAsLru maxEntries calls ((withCapacity maxEntries).run calls) := by
  have hempty := refines_empty maxEntries
  have hrun := hempty.run calls
  refine ⟨hrun.nodup, hrun.perm, ?_, fun key tree => ?_, fun key => ?_, fun key tree => ?_⟩
  · rw [hrun.order_eq, hempty.used_keys, Lru.keys_run]
  · rw [(hrun.insert key tree).order_eq, Lru.keys_insert, hrun.order_eq]
  · by_cases hkey : key ∈ ((withCapacity maxEntries).run calls).order
    · rw [get_of_mem hrun.nodup hkey, if_pos hkey]
    · rw [get_of_not_mem hkey, if_neg hkey]
  · rw [hrun.get_fst, Lru.lookup_run_eq_some_iff, hrun.order_eq]

end SemanticCache

end BrowsAI.ApplicationIr
