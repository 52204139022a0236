import BrowsAI.Diff.Tree
import BrowsAI.Library.Runs
import BrowsAI.Network.Url

/-!
# The snapshot store

`SnapshotStore` of `crates/state`. An insertion into a full store removes the snapshot with the
smallest id, which the code takes for the oldest, so a snapshot with an id below all others is
removed as it comes in. `Retained` keeps the snapshot that was inserted last beside the store.
-/

namespace BrowsAI.Diff

open Std Utf8 Network

/-- Snapshots by id, and how many may be kept. -/
structure SnapshotStore (U : Type) where
  capacity : Nat
  snapshots : OrdMap UInt64 (PageSnapshot U)

/-- `serde_json::from_str` at `SnapshotStore`. -/
structure StoreJson (U : Type) where
  fromStr : Text → Option (SnapshotStore U)

namespace SnapshotStore

variable {U : Type} {store : SnapshotStore U} {snapshot : PageSnapshot U}

/-- An empty store with room for one snapshot at least. -/
def new (capacity : Nat) : SnapshotStore U := ⟨max capacity 1, ∅⟩

/-- The loop of `insert`, at most `fuel` times. -/
def evict (capacity : Nat) :
    Nat → OrdMap UInt64 (PageSnapshot U) → OrdMap UInt64 (PageSnapshot U)
  | 0, snapshots => snapshots
  | fuel + 1, snapshots =>
      if capacity < snapshots.size then
        match snapshots.keys.head? with
        | none => snapshots
        | some oldest => evict capacity fuel (snapshots.erase oldest)
      else snapshots

/-- Stores a snapshot, and evicts the ones with the least ids. -/
def insert (store : SnapshotStore U) (snapshot : PageSnapshot U) : SnapshotStore U :=
  let snapshots := store.snapshots.insert snapshot.id snapshot
  -- every pass removes a snapshot, so there are at most `size` of them
  { store with snapshots := evict store.capacity snapshots.size snapshots }

/-- The snapshot of an id. -/
def get (store : SnapshotStore U) (id : UInt64) : Option (PageSnapshot U) := store.snapshots[id]?

/-- The store of a text, if it has room and all versions are right. -/
def fromJson (json : StoreJson U) (text : Text) : Option (SnapshotStore U) := do
  let store ← json.fromStr text
  -- the error is that of parsing a text that is no JSON
  if store.capacity = 0 ∨
      store.snapshots.values.any fun snapshot => snapshot.schemaVersion ≠ snapshotSchemaVersion
  then none else some store

/-! ## One insertion -/

/-- The smallest key is removed until the store fits. -/
theorem size_evict {capacity fuel : Nat} {snapshots : OrdMap UInt64 (PageSnapshot U)}
    (h : snapshots.size ≤ capacity + fuel) : (evict capacity fuel snapshots).size ≤ capacity := by
  induction fuel generalizing snapshots with
  | zero => exact h
  | succ fuel ih =>
      rw [evict]
      split_ifs with hfull
      · obtain ⟨oldest, hhead⟩ := snapshots.exists_head_keys (by omega)
        have herased := OrdMap.size_erase_head hhead
        rw [hhead]
        exact ih (by omega)
      · omega

/-- What is left was there. -/
theorem keyed_evict {capacity fuel : Nat} {snapshots : OrdMap UInt64 (PageSnapshot U)}
    (h : snapshots.KeyedBy PageSnapshot.id) :
    (evict capacity fuel snapshots).KeyedBy PageSnapshot.id := by
  induction fuel generalizing snapshots with
  | zero => exact h
  | succ fuel ih =>
      rw [evict]
      split_ifs
      · cases snapshots.keys.head? with
        | none => exact h
        | some oldest => exact ih (h.erase oldest)
      · exact h

/-- One snapshot too many is one pass of the loop. -/
theorem evict_succ {capacity fuel : Nat} {snapshots : OrdMap UInt64 (PageSnapshot U)}
    {oldest : UInt64} (hsize : snapshots.size = capacity + 1)
    (holdest : snapshots.keys.head? = some oldest) :
    evict capacity (fuel + 1) snapshots = snapshots.erase oldest := by
  have herased := OrdMap.size_erase_head holdest
  rw [evict, if_pos (by omega), holdest]
  cases fuel with
  | zero => rfl
  | succ fuel => exact if_neg (by omega)

/-- The store keeps to its capacity and to the ids. -/
structure Fits (store : SnapshotStore U) : Prop where
  bounded : store.snapshots.size ≤ store.capacity
  keyed : store.snapshots.KeyedBy PageSnapshot.id

/-- There is room for the snapshot, or an older one to remove. -/
def HasRoom (store : SnapshotStore U) (snapshot : PageSnapshot U) : Prop :=
  store.snapshots.size < store.capacity ∨ snapshot.id ∈ store.snapshots ∨
    ∃ id ∈ store.snapshots, id < snapshot.id

theorem Fits.insert (h : store.Fits) : (store.insert snapshot).Fits where
  bounded := size_evict (Nat.le_add_left _ _)
  keyed := keyed_evict (h.keyed.insert rfl)

/-- The smallest key after an insertion is the new one, where no key was smaller. -/
theorem head_keys_insert_iff {snapshots : OrdMap UInt64 (PageSnapshot U)} :
    (snapshots.insert snapshot.id snapshot).keys.head? = some snapshot.id ↔
      ¬ ∃ id ∈ snapshots, id < snapshot.id := by
  rw [← ExtTreeMap.minKey?_eq_head?_keys, ExtTreeMap.minKey?_eq_some_iff_mem_and_forall,
    and_iff_right (by simp)]
  constructor
  · intro h hsmaller
    obtain ⟨id, hid, hlt⟩ := hsmaller
    have hle := (LawfulOrderOrd.isLE_compare _ _).mp (h id (by simp [hid]))
    exact absurd hlt (by simpa using hle)
  · intro h id hid
    refine (LawfulOrderOrd.isLE_compare _ _).mpr ?_
    by_cases hlt : id < snapshot.id
    · rw [ExtTreeMap.mem_insert, LawfulEqCmp.compare_eq_iff_eq] at hid
      obtain heq | hmem := hid
      · exact UInt64.le_of_eq heq
      · exact absurd ⟨id, hmem, hlt⟩ h
    · simpa using hlt

/-- A store within its capacity after the insertion is left as it is. -/
theorem snapshots_insert_of_le
    (h : (store.snapshots.insert snapshot.id snapshot).size ≤ store.capacity) :
    (store.insert snapshot).snapshots = store.snapshots.insert snapshot.id snapshot := by
  show evict _ _ _ = _
  cases (store.snapshots.insert snapshot.id snapshot).size with
  | zero => rfl
  | succ fuel => exact if_neg (by omega)

/-- From a full store one snapshot goes: the smallest, which may be the new one. -/
theorem get_insert_iff_of_full
    (hsize : (store.snapshots.insert snapshot.id snapshot).size = store.capacity + 1) :
    (store.insert snapshot).get snapshot.id = some snapshot ↔
      ∃ id ∈ store.snapshots, id < snapshot.id := by
  obtain ⟨oldest, holdest⟩ := OrdMap.exists_head_keys
    (store.snapshots.insert snapshot.id snapshot) (by omega)
  have hinsert : (store.insert snapshot).snapshots =
      (store.snapshots.insert snapshot.id snapshot).erase oldest := by
    show evict _ _ _ = _
    rw [hsize]
    exact evict_succ hsize holdest
  rw [get, hinsert, OrdMap.get_erase, OrdMap.get_insert_self, ← not_iff_not,
    ← head_keys_insert_iff, holdest, Option.some.injEq]
  simp

/-- The snapshot just inserted is there exactly when there was room for it. -/
theorem get_insert_iff (h : store.Fits) :
    (store.insert snapshot).get snapshot.id = some snapshot ↔ store.HasRoom snapshot := by
  have hsize := ExtTreeMap.size_insert (t := store.snapshots) (k := snapshot.id) (v := snapshot)
  have hbounded := h.bounded
  by_cases hold : snapshot.id ∈ store.snapshots
  · rw [if_pos (ExtTreeMap.mem_iff_contains.mp hold)] at hsize
    rw [get, snapshots_insert_of_le (by omega)]
    exact iff_of_true (OrdMap.get_insert_self _ _ _) (.inr (.inl hold))
  · rw [if_neg fun hc => hold (ExtTreeMap.mem_iff_contains.mpr hc)] at hsize
    by_cases hroom : store.snapshots.size < store.capacity
    · rw [get, snapshots_insert_of_le (by omega)]
      exact iff_of_true (OrdMap.get_insert_self _ _ _) (.inl hroom)
    · have hroom' : store.HasRoom snapshot ↔ ∃ id ∈ store.snapshots, id < snapshot.id := by
        rw [HasRoom, or_iff_right hroom, or_iff_right hold]
      rw [hroom']
      exact get_insert_iff_of_full (by omega)

/-! ## Histories -/

/-- A store, and the snapshot inserted last. -/
structure Retained (U : Type) where
  store : SnapshotStore U
  last : Option (PageSnapshot U)

/-- The system whose steps insert. -/
def insertions : Machine (Retained U) (PageSnapshot U) where
  step s snapshot := ⟨s.store.insert snapshot, some snapshot⟩
  Allowed _ _ := True

/-- The store keeps to its capacity and to the ids, and the last snapshot can be read back. -/
structure Retained.Lawful (s : Retained U) : Prop where
  fits : s.store.Fits
  readable : ∀ snapshot, s.last = some snapshot → s.store.get snapshot.id = some snapshot

/-- Where a store comes from. -/
inductive Origin where
  | new (capacity : Nat)
  | fromJson (text : Text)

/-- The store that a run starts from. -/
def Origin.build (json : StoreJson U) : Origin → Option (SnapshotStore U)
  | .new capacity => some (SnapshotStore.new capacity)
  | .fromJson text => SnapshotStore.fromJson json text

/-- A document lists no more snapshots than its capacity, each under its id. -/
def Origin.Fits (json : StoreJson U) : Origin → Prop
  | .new _ => True
  | .fromJson text => ∀ document, json.fromStr text = some document → document.Fits

theorem fits_new (capacity : Nat) : (new capacity : SnapshotStore U).Fits where
  bounded := by simp [new]
  keyed _ _ h := by simp [new] at h

/-- An accepted document is taken as it is. -/
theorem fits_build_iff {json : StoreJson U} {origin : Origin}
    (h : origin.build json = some store) : store.Fits ↔ origin.Fits json := by
  cases origin with
  | new capacity =>
      cases h
      exact iff_of_true (fits_new capacity) trivial
  | fromJson text =>
      obtain ⟨document, hdocument, hstore⟩ := Option.bind_eq_some_iff.mp h
      split_ifs at hstore
      cases hstore
      constructor
      · intro hfits document' hdocument'
        rw [hdocument] at hdocument'
        exact Option.some.inj hdocument' ▸ hfits
      · intro hfits
        exact hfits store hdocument

theorem lawful_insert_iff {s : Retained U} (h : s.Lawful) :
    (insertions.step s snapshot).Lawful ↔ s.store.HasRoom snapshot := by
  rw [← get_insert_iff h.fits]
  constructor
  · intro hlawful
    exact hlawful.readable snapshot rfl
  · intro hget
    refine ⟨h.fits.insert, fun last hlast => ?_⟩
    cases hlast
    exact hget

/-- Along every sequence of insertions into a store that was created or loaded, the store keeps to
its capacity and to the ids and the last snapshot can be read back, exactly when a loaded document
did so and every snapshot met room or an older one. -/
theorem always_lawful_iff (json : StoreJson U) (origin : Origin)
    (hbuild : origin.build json = some store) (snapshots : List (PageSnapshot U)) :
    insertions.Always Retained.Lawful ⟨store, none⟩ snapshots ↔
      origin.Fits json ∧ insertions.Throughout (fun s snapshot => s.store.HasRoom snapshot)
        ⟨store, none⟩ snapshots := by
  have hrun (hfits : store.Fits) :
      insertions.Always Retained.Lawful ⟨store, none⟩ snapshots ↔
        insertions.Throughout (fun s snapshot => s.store.HasRoom snapshot)
          ⟨store, none⟩ snapshots :=
    Machine.always_iff_of_step (fun _ _ => trivial) (fun _ _ h => lawful_insert_iff h)
      ⟨hfits, fun _ h => by cases h⟩ snapshots
  rw [← fits_build_iff hbuild]
  constructor
  · intro h
    have hfits : store.Fits := by
      cases snapshots with
      | nil => exact h.fits
      | cons _ _ => exact h.1.fits
    exact ⟨hfits, (hrun hfits).mp h⟩
  · intro h
    exact (hrun h.1).mpr h.2

/-! ## A store with one place -/

/-- A snapshot without nodes. -/
def plainSnapshot (id : UInt64) : PageSnapshot PlainUrl :=
  PageState.snapshot ⟨⟨"https", "a.example", "/"⟩, ⟨"document", [], 1, false⟩, 1⟩ id

/-- A reader of the text of one empty store. -/
def plainJson : StoreJson PlainUrl where
  fromStr text :=
    if text = "\x7b\"capacity\":1,\"snapshots\":\x7b\x7d\x7d" then some (new 1) else none

theorem loaded_lawful_through_insertions :
    insertions.Always Retained.Lawful ⟨new 1, none⟩ [plainSnapshot 1, plainSnapshot 2] :=
  (always_lawful_iff plainJson (.fromJson
      "\x7b\"capacity\":1,\"snapshots\":\x7b\x7d\x7d") rfl _).mpr
    ⟨fun _ h => Option.some.inj h ▸ fits_new 1, .inl (by decide),
      .inr (.inr ⟨1, by decide, by decide⟩), trivial⟩

/-- The smaller id leaves as it comes in. -/
theorem smaller_id_not_readable :
    ((new 1).insert (plainSnapshot 2)).get 2 = some (plainSnapshot 2) ∧
      (((new 1).insert (plainSnapshot 2)).insert (plainSnapshot 1)).get 1 = none ∧
      ¬ insertions.Always Retained.Lawful ⟨new 1, none⟩ [plainSnapshot 2, plainSnapshot 1] := by
  have hnone : (((new 1).insert (plainSnapshot 2)).insert (plainSnapshot 1)).get 1 = none := rfl
  refine ⟨rfl, hnone, fun h => ?_⟩
  have hget := h.2.2.readable (plainSnapshot 1) rfl
  cases hnone.symm.trans hget

end SnapshotStore

end BrowsAI.Diff
