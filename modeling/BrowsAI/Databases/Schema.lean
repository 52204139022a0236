import BrowsAI.Databases.IndexedDb
import BrowsAI.Library.Runs

/-!
# Schemas and versions

`open` reports an upgrade exactly when it changes the version of its database, but it creates the
stores that it is given in every case. So an open at the version that the database has keeps the
schema only where the stores that it names exist already.
-/

namespace BrowsAI.Databases

open Utf8 Std Profiles

/-- The arguments of `open`. -/
structure OpenRequest where
  profile : ProfileId
  origin : Text
  name : Text
  requestedVersion : UInt64
  stores : List Text
  deriving DecidableEq

/-- The database that the request is for. -/
def OpenRequest.key (r : OpenRequest) : DatabaseKey := ⟨r.profile, r.origin, r.name⟩

/-- The event is an upgrade. -/
def IndexedDbEvent.IsUpgraded : IndexedDbEvent → Prop
  | .upgraded .. => True
  | _ => False

/-! ## The stores that are created -/

namespace Stores

/-- The loop of `open` over the names of the stores. -/
def create (stores : Stores) (names : List Text) : Stores :=
  names.foldl (fun stores store => OrdMap.orDefault stores store id) stores

theorem mem_create {stores : Stores} {names : List Text} {store : Text} :
    store ∈ stores.create names ↔ store ∈ names ∨ store ∈ stores := by
  induction names generalizing stores with
  | nil => simp [create]
  | cons name names ih =>
      refine ih.trans ?_
      simp only [OrdMap.orDefault, ExtTreeMap.mem_insert, LawfulEqCmp.compare_eq_iff_eq,
        List.mem_cons, eq_comm (a := name)]
      tauto

/-- Nothing changes where all the stores exist. -/
theorem create_eq_self {stores : Stores} {names : List Text}
    (h : ∀ store ∈ names, store ∈ stores) : stores.create names = stores := by
  induction names with
  | nil => rfl
  | cons name names ih =>
      obtain ⟨values, hvalues⟩ := Option.isSome_iff_exists.mp
        (ExtTreeMap.isSome_getElem?_iff_mem.mpr (h name List.mem_cons_self))
      have hsame : OrdMap.orDefault stores name id = stores := by
        rw [OrdMap.orDefault, hvalues]
        exact OrdMap.insert_eq_self hvalues
      show Stores.create (OrdMap.orDefault stores name id) names = stores
      rw [hsame]
      exact ih fun store hstore => h store (List.mem_cons_of_mem _ hstore)

end Stores

/-! ## One open -/

namespace IndexedDb

variable (s : IndexedDb) (r : OpenRequest)

/-- The database under a key, a new one where there is none. -/
def database (key : DatabaseKey) : Database := s.databases[key]?.getD default

/-- The names of the stores of a database, in order. -/
def storeNames (key : DatabaseKey) : List Text := (s.database key).stores.keys

/-- The version of a database, zero if it does not exist. -/
def version (key : DatabaseKey) : UInt64 := (s.database key).version

/-- The version of the database after an open that is not refused. -/
def nextVersion : UInt64 := max (max r.requestedVersion (s.version r.key)) 1

/-- The system whose steps open databases. -/
def openings : Machine IndexedDb OpenRequest where
  step s r := (s.openDatabase r.profile r.origin r.name r.requestedVersion r.stores).2
  Allowed _ _ := True

theorem database_insert {s s' : IndexedDb} {key : DatabaseKey} {database : Database}
    (h : s'.databases = s.databases.insert key database) (other : DatabaseKey) :
    s'.database other = if key = other then database else s.database other := by
  rw [IndexedDb.database, h, OrdMap.get_insert]
  split_ifs <;> rfl

/-- A refused open changes no database and reports nothing. -/
theorem openings_of_lt (h : r.requestedVersion < s.version r.key) :
    (∀ key, (openings.step s r).database key = s.database key) ∧
      (openings.step s r).events = s.events := by
  have hstep : openings.step s r =
      { s with databases := s.databases.insert r.key (s.database r.key) } := by
    show (s.openDatabase r.profile r.origin r.name r.requestedVersion r.stores).2 = _
    unfold openDatabase
    exact congrArg Prod.snd (if_pos h)
  rw [hstep]
  refine ⟨fun key => ?_, rfl⟩
  rw [database_insert rfl]
  split_ifs with hkey
  · rw [hkey]
  · rfl

/-- What an open does that is not refused. -/
theorem openings_of_le (h : s.version r.key ≤ r.requestedVersion) :
    (∀ key, (openings.step s r).database key =
      if r.key = key then ⟨s.nextVersion r, (s.database r.key).stores.create r.stores⟩
      else s.database key) ∧
      (openings.step s r).events = s.events ++
        [if s.version r.key < s.nextVersion r then
          .upgraded r.profile r.origin r.name (s.version r.key) (s.nextVersion r)
        else .opened r.profile r.origin r.name (s.nextVersion r)] := by
  have hstep : openings.step s r =
      { s with
        databases := s.databases.insert r.key
          ⟨s.nextVersion r, (s.database r.key).stores.create r.stores⟩
        events := s.events ++
          [if s.version r.key < s.nextVersion r then
            .upgraded r.profile r.origin r.name (s.version r.key) (s.nextVersion r)
          else .opened r.profile r.origin r.name (s.nextVersion r)] } := by
    show (s.openDatabase r.profile r.origin r.name r.requestedVersion r.stores).2 = _
    unfold openDatabase
    exact congrArg Prod.snd (if_neg (UInt64.not_lt.mpr h))
  rw [hstep]
  exact ⟨database_insert rfl, rfl⟩

theorem toNat_max (a b : UInt64) : (max a b).toNat = max a.toNat b.toNat := by
  show (if a ≤ b then b else a).toNat = _
  split_ifs with h
  · exact (Nat.max_eq_right h).symm
  · exact (Nat.max_eq_left (UInt64.le_of_lt (UInt64.not_le.mp h))).symm

/-- A version is raised unless the open asks for the one that is there, and it is never lowered. -/
theorem version_lt_next_iff (h : s.version r.key ≤ r.requestedVersion) :
    s.version r.key < s.nextVersion r ↔
      ¬ (r.requestedVersion = s.version r.key ∧ s.version r.key ≠ 0) := by
  simp only [nextVersion, UInt64.lt_iff_toNat_lt, UInt64.le_iff_toNat_le, ← UInt64.toNat_inj,
    ne_eq, toNat_max, UInt64.toNat_zero, UInt64.toNat_one] at h ⊢
  omega

theorem next_version_eq_iff :
    s.nextVersion r = s.version r.key ↔ ¬ s.version r.key < s.nextVersion r := by
  simp only [nextVersion, UInt64.lt_iff_toNat_lt, ← UInt64.toNat_inj, toNat_max,
    UInt64.toNat_one]
  omega

/-! ## The rule -/

/-- The stores of a database change only where its version is raised, and an upgrade is reported
exactly where a version changes. -/
structure KeepsSchema : Prop where
  schema : ∀ key, (openings.step s r).storeNames key ≠ s.storeNames key →
    s.version key < (openings.step s r).version key
  upgraded : (∃ event ∈ (openings.step s r).events.drop s.events.length, event.IsUpgraded) ↔
    ∃ key, (openings.step s r).version key ≠ s.version key

/-- An open for the version that the database has names stores that exist. -/
def NamesExisting : Prop :=
  r.requestedVersion = s.version r.key → s.version r.key ≠ 0 →
    ∀ store ∈ r.stores, store ∈ (s.database r.key).stores

section Accepted

variable {s r} (h : s.version r.key ≤ r.requestedVersion)

include h

theorem openings_database_self : (openings.step s r).database r.key =
    ⟨s.nextVersion r, (s.database r.key).stores.create r.stores⟩ := by
  rw [(s.openings_of_le r h).1, if_pos rfl]

theorem openings_database_ne {key : DatabaseKey} (hkey : key ≠ r.key) :
    (openings.step s r).database key = s.database key := by
  rw [(s.openings_of_le r h).1, if_neg hkey.symm]

theorem openings_version_self : (openings.step s r).version r.key = s.nextVersion r := by
  rw [version, openings_database_self h]

/-- Opening changes a version exactly if it raises that of its own database. -/
theorem version_changes_iff : (∃ key, (openings.step s r).version key ≠ s.version key) ↔
    s.version r.key < s.nextVersion r := by
  rw [← not_iff_not, ← next_version_eq_iff, ← openings_version_self h]
  constructor
  · intro hall
    by_contra hne
    exact hall ⟨r.key, hne⟩
  · intro hsame hex
    obtain ⟨key, hkey⟩ := hex
    by_cases heq : key = r.key
    · exact hkey (heq ▸ hsame)
    · exact hkey (by rw [version, version, openings_database_ne h heq])

theorem upgraded_iff : (∃ event ∈ (openings.step s r).events.drop s.events.length,
    event.IsUpgraded) ↔ s.version r.key < s.nextVersion r := by
  rw [(s.openings_of_le r h).2, List.drop_left]
  simp only [List.mem_singleton, exists_eq_left]
  split_ifs with hlt
  · exact iff_of_true trivial hlt
  · exact iff_of_false id hlt

/-- The stores are those that were there and those that the open names. -/
theorem store_names_eq_iff : (openings.step s r).storeNames r.key = s.storeNames r.key ↔
    ∀ store ∈ r.stores, store ∈ (s.database r.key).stores := by
  rw [storeNames, openings_database_self h]
  constructor
  · intro hsame store hstore
    rw [← ExtTreeMap.mem_keys]
    show store ∈ s.storeNames r.key
    rw [← hsame, ExtTreeMap.mem_keys, Stores.mem_create]
    exact .inl hstore
  · intro hall
    rw [Stores.create_eq_self hall]
    rfl

end Accepted

/-- A request for a lower version is refused. -/
theorem keeps_schema_of_lt (h : r.requestedVersion < s.version r.key) : s.KeepsSchema r := by
  obtain ⟨hdatabase, hevents⟩ := s.openings_of_lt r h
  refine ⟨fun key hkey => ?_, ?_⟩
  · rw [storeNames, hdatabase] at hkey
    exact absurd rfl hkey
  · rw [hevents, List.drop_length]
    refine iff_of_false (fun hex => ?_) fun hex => ?_
    · obtain ⟨event, hevent, _⟩ := hex
      cases hevent
    · obtain ⟨key, hkey⟩ := hex
      rw [version, hdatabase] at hkey
      exact hkey rfl

/-- The schema is kept exactly if the request names existing stores only, or raises the version. -/
theorem keeps_schema_iff : s.KeepsSchema r ↔ s.NamesExisting r := by
  by_cases hrefused : r.requestedVersion < s.version r.key
  · refine iff_of_true (s.keeps_schema_of_lt r hrefused) fun heq => ?_
    rw [heq] at hrefused
    exact absurd hrefused (UInt64.lt_irrefl _)
  · have hle := UInt64.not_lt.mp hrefused
    have hraised := s.version_lt_next_iff r hle
    constructor
    · intro h heq hne
      rw [← store_names_eq_iff hle]
      by_contra hnames
      have hlt := h.schema r.key hnames
      rw [openings_version_self hle, hraised] at hlt
      exact hlt ⟨heq, hne⟩
    · intro h
      refine ⟨fun key hkey => ?_, (upgraded_iff hle).trans (version_changes_iff hle).symm⟩
      obtain rfl : key = r.key := by
        by_contra hne
        exact hkey (by rw [storeNames, storeNames, openings_database_ne hle hne])
      rw [openings_version_self hle, hraised]
      intro hcurrent
      exact hkey ((store_names_eq_iff hle).mpr (h hcurrent.1 hcurrent.2))

/-- Along every sequence of opens, the schema changes only with the version and upgrades are
reported as such, exactly when every open for the version that its database has names stores that
exist. -/
theorem throughout_keeps_schema_iff (requests : List OpenRequest) :
    openings.Throughout KeepsSchema s requests ↔ openings.Throughout NamesExisting s requests :=
  Machine.throughout_congr (I := fun _ => True) (fun s r _ _ => s.keeps_schema_iff r)
    (fun _ _ _ _ _ => trivial) trivial (Machine.allowed_run_of_forall (fun _ _ => trivial) _ _)

/-- A second connection opens the same version with a store of its own. -/
def secondStore : List OpenRequest :=
  [⟨7, "https://a.example", "app", 1, ["a"]⟩, ⟨7, "https://a.example", "app", 1, ["b"]⟩]

/-- The schema changes under an open that reports `Opened`. -/
theorem second_store_created_at_same_version :
    (openings.run (withQuota 1024) secondStore).events =
        [.upgraded 7 "https://a.example" "app" 0 1, .opened 7 "https://a.example" "app" 1] ∧
      (openings.run (withQuota 1024) secondStore).storeNames
        ⟨7, "https://a.example", "app"⟩ = ["a", "b"] ∧
      ¬ openings.Throughout KeepsSchema (withQuota 1024) secondStore := by
  refine ⟨by decide, by decide, fun h => ?_⟩
  have hlt := h.2.1.schema ⟨7, "https://a.example", "app"⟩ (by decide)
  revert hlt
  decide

end IndexedDb

end BrowsAI.Databases
