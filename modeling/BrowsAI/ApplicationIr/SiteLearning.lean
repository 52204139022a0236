import BrowsAI.AgentTree.Basic
import BrowsAI.Library.OrdMap
import BrowsAI.Library.Saturating
import Mathlib.Data.List.MinMax
import Mathlib.Data.List.Sort

/-!
# What is learned about sites

`SiteLearningCache` of `crates/application-ir`. A full cache drops an origin with the fewest
observations, which may be the one that was just added: `observe_learns_iff` says when the origin of
an observation stays.
-/

namespace BrowsAI.ApplicationIr

open Std Utf8 AgentTree Saturating

/-! ## The cache -/

/-- The roles that an origin showed, and how often it was seen. -/
structure SiteLearningEntry where
  origin : Text
  observedRoles : List Text
  observations : UInt64
  deriving DecidableEq

/-- The entries by origin. -/
structure SiteLearningCache where
  maxEntries : Nat
  entries : OrdMap Text SiteLearningEntry

/-- `format!("{role:?}")`. -/
def debugRole : StructuralRole → Text
  | .page => "Page"
  | .region => "Region"
  | .heading => "Heading"
  | .paragraph => "Paragraph"
  | .text => "Text"
  | .button => "Button"
  | .link => "Link"
  | .textbox => "Textbox"
  | .checkbox => "Checkbox"
  | .radio => "Radio"
  | .select => "Select"
  | .list => "List"
  | .listItem => "ListItem"
  | .table => "Table"
  | .row => "Row"
  | .cell => "Cell"
  | .dialog => "Dialog"
  | .menu => "Menu"
  | .tab => "Tab"
  | .image => "Image"
  | .canvas => "Canvas"
  | .video => "Video"
  | .form => "Form"
  | .frame => "Frame"
  | .shadowRoot => "ShadowRoot"
  | .unknown => "Unknown"

namespace SiteLearningEntry

/-- One turn of the loop over the roles: a new role goes to its place. -/
def addRole (roles : List Text) (role : Text) : List Text :=
  if roles.contains role then roles
  else (roles ++ [role]).insertionSort fun a b => (compare a b).isLE = true

/-- What an observation makes of the entry. -/
def observe (entry : SiteLearningEntry) (tree : AgentRenderTree) : SiteLearningEntry :=
  { entry with
    observations := saturatingAdd entry.observations 1
    observedRoles :=
      (tree.nodes.map fun node => debugRole node.structuralRole).foldl addRole entry.observedRoles }

end SiteLearningEntry

namespace SiteLearningCache

/-- `SiteLearningCache::default()`. -/
instance : Inhabited SiteLearningCache := ⟨⟨128, ∅⟩⟩

/-- An empty cache with room for one entry at least. -/
def withCapacity (maxEntries : Nat) : SiteLearningCache :=
  { (default : SiteLearningCache) with maxEntries := max maxEntries 1 }

/-- The entry that the loop of `observe` removes. -/
def oldest (entries : OrdMap Text SiteLearningEntry) : Option (Text × SiteLearningEntry) :=
  entries.toList.argmin fun entry => entry.2.observations.toNat

/-- The loop of `observe`, at most `fuel` times. -/
def evict (maxEntries : Nat) :
    Nat → OrdMap Text SiteLearningEntry → OrdMap Text SiteLearningEntry
  | 0, entries => entries
  | fuel + 1, entries =>
      if maxEntries < entries.size then
        match oldest entries with
        | none => entries
        | some (origin, _) => evict maxEntries fuel (entries.erase origin)
      else entries

/-- Counts another tree of an origin, and evicts the origins that were seen the least. -/
def observe (cache : SiteLearningCache) (origin : Text) (tree : AgentRenderTree) :
    SiteLearningCache :=
  let entry := cache.entries[origin]?.getD ⟨origin, [], 0⟩
  let entries := cache.entries.insert origin (entry.observe tree)
  -- every pass removes an entry, so there are at most `size` of them
  { cache with entries := evict cache.maxEntries entries.size entries }

/-- What is known of an origin. -/
def get (cache : SiteLearningCache) (origin : Text) : Option SiteLearningEntry :=
  cache.entries[origin]?

/-! ## One observation -/

section Evict

variable {maxEntries fuel : Nat} {entries : OrdMap Text SiteLearningEntry}

theorem exists_oldest (entries : OrdMap Text SiteLearningEntry) (h : 0 < entries.size) :
    ∃ victim, oldest entries = some victim := by
  refine Option.ne_none_iff_exists'.mp fun hnone => ?_
  rw [← ExtTreeMap.length_toList, List.argmin_eq_none.mp hnone] at h
  exact Nat.lt_irrefl _ h

/-- Of the origins seen the least, the first one is removed. -/
theorem oldest_least {origin : Text} {entry : SiteLearningEntry}
    (h : oldest entries = some (origin, entry)) :
    entries[origin]? = some entry ∧ ∀ (other : Text) (seen : SiteLearningEntry),
      entries[other]? = some seen → entry.observations.toNat ≤ seen.observations.toNat ∧
        (compare other origin = .lt → entry.observations.toNat < seen.observations.toNat) := by
  let count := fun e : Text × SiteLearningEntry => e.2.observations.toNat
  replace h : (origin, entry) ∈ entries.toList.argmin count := h
  have hentry := List.argmin_mem h
  refine ⟨ExtTreeMap.mem_toList_iff_getElem?_eq_some.mp hentry, ?_⟩
  intro other seen hseen
  have hmem := ExtTreeMap.mem_toList_iff_getElem?_eq_some.mpr hseen
  have hcount : count (origin, entry) ≤ count (other, seen) := List.le_of_mem_argmin hmem h
  refine ⟨hcount, fun hlt => Nat.lt_of_not_le fun hle => ?_⟩
  -- an entry of the same count that comes first would have been chosen
  have hindex := List.index_of_argmin h hmem (hle : count (other, seen) ≤ count (origin, entry))
  exact OrdMap.not_lt_of_index_le hentry hmem hindex hlt

/-- The entry that is evicted is one of the cache. -/
theorem size_erase_oldest {origin : Text} {entry : SiteLearningEntry}
    (h : oldest entries = some (origin, entry)) :
    (entries.erase origin).size + 1 = entries.size := by
  have hget := (oldest_least h).1
  have hcontains : entries.contains origin = true := by
    rw [ExtTreeMap.contains_iff_mem, ← ExtTreeMap.isSome_getElem?_iff_mem, hget]
    rfl
  have hpos := List.length_pos_of_mem (ExtTreeMap.mem_toList_iff_getElem?_eq_some.mpr hget)
  rw [ExtTreeMap.length_toList] at hpos
  rw [ExtTreeMap.size_erase, if_pos hcontains]
  omega

/-- Enough passes bring the cache down to its capacity. -/
theorem size_evict (h : entries.size ≤ maxEntries + fuel) :
    (evict maxEntries fuel entries).size ≤ maxEntries := by
  induction fuel generalizing entries with
  | zero => exact h
  | succ fuel ih =>
      rw [evict]
      split_ifs with hfull
      · obtain ⟨⟨origin, entry⟩, hold⟩ := exists_oldest entries (by omega)
        have herased := size_erase_oldest hold
        rw [hold]
        exact ih (by omega)
      · omega

theorem evict_of_le (h : entries.size ≤ maxEntries) : evict maxEntries fuel entries = entries := by
  cases fuel with
  | zero => rfl
  | succ fuel => exact if_neg (Nat.not_lt_of_le h)

/-- One entry too many is one pass of the loop. -/
theorem evict_succ {origin : Text} {entry : SiteLearningEntry}
    (hsize : entries.size = maxEntries + 1) (hold : oldest entries = some (origin, entry)) :
    evict maxEntries (fuel + 1) entries = entries.erase origin := by
  have herased := size_erase_oldest hold
  rw [evict, if_pos (by omega), hold]
  exact evict_of_le (by omega)

/-- What stays was there. -/
theorem all_evict {P : SiteLearningEntry → Prop} (h : OrdMap.All P entries) :
    OrdMap.All P (evict maxEntries fuel entries) := by
  induction fuel generalizing entries with
  | zero => exact h
  | succ fuel ih =>
      rw [evict]
      split_ifs
      · cases oldest entries with
        | none => exact h
        | some victim => exact ih (h.erase victim.1)
      · exact h

end Evict

/-- The cache keeps to its capacity, and every origin in it has been seen. -/
structure Fits (cache : SiteLearningCache) : Prop where
  bounded : cache.entries.size ≤ cache.maxEntries
  seen : OrdMap.All (fun entry => 0 < entry.observations.toNat) cache.entries

section Observe

variable {cache : SiteLearningCache}

/-- How often an origin has been seen. -/
def observations (cache : SiteLearningCache) (origin : Text) : Nat :=
  ((cache.get origin).map fun entry => entry.observations.toNat).getD 0

/-- The map before the loop of `observe`. -/
def added (cache : SiteLearningCache) (origin : Text) (tree : AgentRenderTree) :
    OrdMap Text SiteLearningEntry :=
  cache.entries.insert origin ((cache.entries[origin]?.getD ⟨origin, [], 0⟩).observe tree)

/-- An origin is counted once for each tree, up to the greatest number. -/
theorem observations_added (cache : SiteLearningCache) (origin : Text) (tree : AgentRenderTree) :
    ((cache.entries[origin]?.getD ⟨origin, [], 0⟩).observe tree).observations.toNat =
      min (cache.observations origin + 1) (2 ^ 64 - 1) := by
  have hcount : (cache.entries[origin]?.getD ⟨origin, [], 0⟩).observations.toNat =
      cache.observations origin := by
    rw [observations, get]
    cases cache.entries[origin]? with
    | none => rfl
    | some entry => rfl
  rw [SiteLearningEntry.observe, to_nat_saturating_add, hcount]
  rfl

theorem all_added (h : cache.Fits) (origin : Text) (tree : AgentRenderTree) :
    OrdMap.All (fun entry => 0 < entry.observations.toNat) (cache.added origin tree) := by
  rw [added, h.seen.insert_iff, observations_added]
  omega

theorem Fits.observe (h : cache.Fits) (origin : Text) (tree : AgentRenderTree) :
    (cache.observe origin tree).Fits where
  bounded := size_evict (Nat.le_add_left _ _)
  seen := all_evict (all_added h origin tree)

/-- The origin is known and its count is not at its limit, or it is new and there is room for it: an
entry to spare, or an origin that sorts before it and was seen only once. -/
def CanLearn (cache : SiteLearningCache) (origin : Text) : Prop :=
  if (cache.get origin).isSome then cache.observations origin < 2 ^ 64 - 1
  else cache.entries.size < cache.maxEntries ∨
    ∃ other, compare other origin = .lt ∧ cache.observations other = 1

/-- The origin is in the cache after the observation, with a count that is one higher. -/
def Learns (cache : SiteLearningCache) (origin : Text) (tree : AgentRenderTree) : Prop :=
  ∃ entry, (cache.observe origin tree).get origin = some entry ∧
    entry.observations.toNat = cache.observations origin + 1

/-- An entry that is not removed counts one more, unless the count was at its limit. -/
theorem learns_of_kept {origin : Text} {tree : AgentRenderTree}
    (hkept : (cache.observe origin tree).get origin = (cache.added origin tree)[origin]?) :
    cache.Learns origin tree ↔ cache.observations origin < 2 ^ 64 - 1 := by
  rw [Learns, hkept, added, OrdMap.get_insert, if_pos rfl]
  simp only [Option.some.injEq, exists_eq_left', observations_added]
  omega

section Full

variable {origin victim : Text} {tree : AgentRenderTree} {entry : SiteLearningEntry}

theorem observations_eq_succ_iff {count : Nat} :
    cache.observations origin = count + 1 ↔
      ∃ seen, cache.get origin = some seen ∧ seen.observations.toNat = count + 1 := by
  rw [observations]
  cases cache.get origin with
  | none => simp
  | some seen => simp

theorem size_added_of_new (hnew : cache.get origin = none) (tree : AgentRenderTree) :
    (cache.added origin tree).size = cache.entries.size + 1 := by
  have hcontains : ¬ cache.entries.contains origin = true := by
    rw [ExtTreeMap.contains_iff_mem, ← ExtTreeMap.isSome_getElem?_iff_mem]
    show ¬ (cache.get origin).isSome = true
    rw [hnew]
    exact Bool.false_ne_true
  rw [added, ExtTreeMap.size_insert, if_neg hcontains]

/-- A new origin is added as one that has been seen once. -/
theorem exists_added_of_new (hnew : cache.get origin = none) (tree : AgentRenderTree) :
    ∃ own, (cache.added origin tree)[origin]? = some own ∧ own.observations.toNat = 1 := by
  have hcount : cache.observations origin = 0 := by rw [observations, hnew]; rfl
  refine ⟨_, by rw [added, OrdMap.get_insert, if_pos rfl], ?_⟩
  rw [observations_added, hcount]
  rfl

/-- The loop of `observe` removes one entry from a full cache. -/
theorem get_observe_of_full (hnew : cache.get origin = none)
    (hfull : cache.entries.size = cache.maxEntries)
    (hold : oldest (cache.added origin tree) = some (victim, entry)) :
    (cache.observe origin tree).get origin =
      if victim = origin then none else (cache.added origin tree)[origin]? := by
  have hsize : (cache.added origin tree).size = cache.maxEntries + 1 := by
    rw [size_added_of_new hnew, hfull]
  have hobserve : (cache.observe origin tree).entries = (cache.added origin tree).erase victim := by
    show evict cache.maxEntries (cache.added origin tree).size (cache.added origin tree) = _
    rw [hsize, evict_succ hsize hold]
  rw [get, hobserve, OrdMap.get_erase]

/-- The new origin is the victim unless one before it has been seen only once. -/
theorem victim_ne_iff (h : cache.Fits) (hnew : cache.get origin = none)
    (hold : oldest (cache.added origin tree) = some (victim, entry)) :
    victim ≠ origin ↔ ∃ other, compare other origin = .lt ∧ cache.observations other = 1 := by
  obtain ⟨hvictim, hleast⟩ := oldest_least hold
  obtain ⟨own, hown, hone⟩ := exists_added_of_new hnew tree
  constructor
  · intro hne
    refine ⟨victim, ?_, ?_⟩
    · -- a victim behind the new origin would have been seen less than once
      have hseen := all_added h origin tree victim entry hvictim
      cases horder : compare victim origin with
      | lt => rfl
      | eq => exact absurd (LawfulEqOrd.eq_of_compare horder) hne
      | gt =>
          have hlt := (hleast origin own hown).2 (OrientedCmp.gt_iff_lt.mp horder)
          omega
    · rw [added, OrdMap.get_insert, if_neg (Ne.symm hne)] at hvictim
      have hseen := h.seen victim entry hvictim
      have hle := (hleast origin own hown).1
      exact observations_eq_succ_iff.mpr ⟨entry, hvictim, by omega⟩
  · intro hother heq
    obtain ⟨other, hlt, honce⟩ := hother
    obtain ⟨seen, hseen, hcount⟩ := observations_eq_succ_iff.mp honce
    have hne : origin ≠ other := by
      intro hsame
      rw [← hsame, compare_self] at hlt
      cases hlt
    have hadded : (cache.added origin tree)[other]? = some seen := by
      rw [added, OrdMap.get_insert, if_neg hne]
      exact hseen
    have hless := (hleast other seen hadded).2 (heq ▸ hlt)
    rw [heq, hown, Option.some.injEq] at hvictim
    rw [← hvictim] at hless
    omega

/-- In a full cache a new origin stays when one before it has been seen only once. -/
theorem learns_of_full (h : cache.Fits) (hnew : cache.get origin = none)
    (hfull : cache.entries.size = cache.maxEntries) :
    cache.Learns origin tree ↔
      ∃ other, compare other origin = .lt ∧ cache.observations other = 1 := by
  have hsize := size_added_of_new hnew tree
  obtain ⟨⟨victim, entry⟩, hold⟩ := exists_oldest (cache.added origin tree) (by omega)
  have hget := get_observe_of_full hnew hfull hold
  rw [← victim_ne_iff h hnew hold]
  by_cases heq : victim = origin
  · rw [if_pos heq] at hget
    refine iff_of_false (fun hlearns => ?_) (not_not_intro heq)
    obtain ⟨_, hentry, -⟩ := hlearns
    rw [hget] at hentry
    cases hentry
  · rw [if_neg heq] at hget
    have hcount : cache.observations origin = 0 := by rw [observations, hnew]; rfl
    exact iff_of_true ((learns_of_kept hget).mpr (by omega)) heq

end Full

/-- An observation of an origin is kept exactly when `CanLearn` says so. -/
theorem Fits.learns_iff (h : cache.Fits) (origin : Text) (tree : AgentRenderTree) :
    cache.Learns origin tree ↔ cache.CanLearn origin := by
  have hbounded := h.bounded
  have hroom : (cache.added origin tree).size ≤ cache.maxEntries →
      (cache.Learns origin tree ↔ cache.observations origin < 2 ^ 64 - 1) := by
    intro hsize
    refine learns_of_kept ?_
    show (evict _ _ (cache.added origin tree))[origin]? = _
    rw [evict_of_le hsize]
  rw [CanLearn]
  cases hget : cache.get origin with
  | some entry =>
      rw [Option.isSome_some, if_pos rfl]
      refine hroom ?_
      have hcontains : cache.entries.contains origin = true := by
        rw [ExtTreeMap.contains_iff_mem, ← ExtTreeMap.isSome_getElem?_iff_mem]
        exact congrArg Option.isSome hget
      rw [added, ExtTreeMap.size_insert, if_pos hcontains]
      exact hbounded
  | none =>
      rw [Option.isSome_none, if_neg Bool.false_ne_true]
      by_cases hfull : cache.entries.size < cache.maxEntries
      · have hcount : cache.observations origin = 0 := by rw [observations, hget]; rfl
        have hsize := size_added_of_new hget tree
        exact iff_of_true ((hroom (by omega)).mpr (by omega)) (.inl hfull)
      · rw [learns_of_full h hget (by omega)]
        exact (or_iff_right hfull).symm

end Observe

/-! ## Histories -/

/-- The observations of a history, in order. -/
def observeAll (cache : SiteLearningCache) (history : List (Text × AgentRenderTree)) :
    SiteLearningCache :=
  history.foldl (fun cache (origin, tree) => cache.observe origin tree) cache

theorem Fits.observe_all {cache : SiteLearningCache} (h : cache.Fits)
    (history : List (Text × AgentRenderTree)) : (cache.observeAll history).Fits := by
  induction history generalizing cache with
  | nil => exact h
  | cons call history ih => exact ih (h.observe call.1 call.2)

theorem fits_with_capacity (maxEntries : Nat) : (withCapacity maxEntries).Fits := by
  refine ⟨?_, fun origin entry hentry => ?_⟩
  · show (∅ : OrdMap Text SiteLearningEntry).size ≤ _
    rw [ExtTreeMap.size_empty]
    exact Nat.zero_le _
  · have hempty : (withCapacity maxEntries).entries[origin]? = none := ExtTreeMap.getElem?_empty
    rw [hempty] at hentry
    cases hentry

/-- After any history, an observation of an origin is kept exactly when it can be learned. -/
theorem observe_learns_iff (maxEntries : Nat) (history : List (Text × AgentRenderTree))
    (origin : Text) (tree : AgentRenderTree) :
    ((withCapacity maxEntries).observeAll history).Learns origin tree ↔
      ((withCapacity maxEntries).observeAll history).CanLearn origin :=
  ((fits_with_capacity maxEntries).observe_all history).learns_iff origin tree

/-- A tree without nodes. -/
def emptyTree : AgentRenderTree := ⟨"root", [], 0, false⟩

/-- A full cache of one site that was seen twice learns no other. -/
theorem new_site_not_learned :
    let cache := (withCapacity 1).observeAll
      [("https://a.test", emptyTree), ("https://a.test", emptyTree)]
    (cache.observe "https://b.test" emptyTree).get "https://b.test" = none ∧
      ¬ ∀ (maxEntries : Nat) (history : List (Text × AgentRenderTree)) (origin : Text)
        (tree : AgentRenderTree), 1 ≤ maxEntries →
          ((withCapacity maxEntries).observeAll history).Learns origin tree := by
  intro cache
  have hlost : (cache.observe "https://b.test" emptyTree).get "https://b.test" = none := by
    decide
  refine ⟨hlost, fun h => ?_⟩
  obtain ⟨entry, hentry, -⟩ := h 1 [("https://a.test", emptyTree), ("https://a.test", emptyTree)]
    "https://b.test" emptyTree (Nat.le_refl 1)
  exact Option.some_ne_none entry (hentry.symm.trans hlost)

end SiteLearningCache

end BrowsAI.ApplicationIr
