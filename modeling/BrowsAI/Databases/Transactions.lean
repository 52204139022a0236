import BrowsAI.Databases.IndexedDb
import BrowsAI.Library.LastOf
import Mathlib.Algebra.BigOperators.Group.List.Basic

/-!
# What a transaction does

The buffered writes of a transaction are the last writes of its calls, `run_buffers`, so a commit
that fits the quota has the effect of the calls one after the other, `commit_eq`. Everything else
leaves the databases alone, and the quota holds in every reachable state. The reads of a transaction
do not look at its buffer.
-/

namespace BrowsAI.Databases

open Utf8 Std Profiles LastOf

/-! ## Writes to stores -/

namespace Stores

variable {stores : Stores} {store key : Text}

/-- The value of a key in a store. -/
def read (stores : Stores) (store key : Text) : Option Bytes :=
  stores[store]?.bind fun values => values[key]?

/-- One write, where its store is there. -/
def writeEntry (stores : Stores) (entry : (Text × Text) × Option Bytes) : Stores :=
  stores.modify entry.1.1 fun values => write values entry.1.2 entry.2

/-- Writes one after the other. -/
def writeAll (stores : Stores) (entries : List ((Text × Text) × Option Bytes)) : Stores :=
  entries.foldl writeEntry stores

theorem get_write (values : OrdMap Text Bytes) (written : Text) (value : Option Bytes)
    (key : Text) :
    (write values written value)[key]? = if written = key then value else values[key]? := by
  cases value with
  | none => exact OrdMap.get_erase values written key
  | some value => exact OrdMap.get_insert values written value key

@[simp] theorem mem_write_entry (entry : (Text × Text) × Option Bytes) :
    store ∈ stores.writeEntry entry ↔ store ∈ stores := ExtTreeMap.mem_modify

@[simp] theorem mem_write_all (entries : List ((Text × Text) × Option Bytes)) :
    store ∈ stores.writeAll entries ↔ store ∈ stores := by
  induction entries generalizing stores with
  | nil => rfl
  | cons entry rest ih => exact ih.trans (mem_write_entry entry)

/-- A write is read under its own key. -/
theorem read_write_entry (hstore : store ∈ stores) (entry : (Text × Text) × Option Bytes) :
    (stores.writeEntry entry).read store key =
      if entry.1 = (store, key) then entry.2 else stores.read store key := by
  obtain ⟨⟨written, writtenKey⟩, value⟩ := entry
  obtain ⟨values, hvalues⟩ := Option.isSome_iff_exists.mp
    (ExtTreeMap.isSome_getElem?_iff_mem.mpr hstore)
  simp only [read, writeEntry, OrdMap.get_modify, Prod.mk.injEq]
  by_cases hwritten : written = store
  · subst hwritten
    simp [hvalues, get_write]
  · simp [hwritten]

/-- Each key holds the last write to it. -/
theorem read_write_all (hstore : store ∈ stores)
    (entries : List ((Text × Text) × Option Bytes)) :
    (stores.writeAll entries).read store key =
      (lastOf (store, key) entries).getD (stores.read store key) := by
  induction entries generalizing stores with
  | nil => rfl
  | cons entry rest ih =>
      have hwritten : (stores.writeEntry entry).read store key = _ :=
        read_write_entry hstore entry
      have hrest := ih ((mem_write_entry entry).mpr hstore)
      rw [writeAll, List.foldl_cons, ← writeAll, hrest, hwritten, lastOf]
      cases lastOf (store, key) rest with
      | some value => rfl
      | none => split_ifs <;> rfl

/-- Stores are known by their names and what is read from them. -/
theorem ext_read {stores' : Stores} (hmem : ∀ store, store ∈ stores ↔ store ∈ stores')
    (hread : ∀ store ∈ stores, ∀ key, stores.read store key = stores'.read store key) :
    stores = stores' := by
  refine ExtTreeMap.ext_getElem? fun store => ?_
  by_cases hstore : store ∈ stores
  · obtain ⟨values, hvalues⟩ := Option.isSome_iff_exists.mp
      (ExtTreeMap.isSome_getElem?_iff_mem.mpr hstore)
    obtain ⟨values', hvalues'⟩ := Option.isSome_iff_exists.mp
      (ExtTreeMap.isSome_getElem?_iff_mem.mpr ((hmem store).mp hstore))
    have hsame : values = values' := by
      refine ExtTreeMap.ext_getElem? fun key => ?_
      simpa [read, hvalues, hvalues'] using hread store hstore key
    rw [hvalues, hvalues', hsame]
  · rw [ExtTreeMap.getElem?_eq_none hstore,
      ExtTreeMap.getElem?_eq_none (mt (hmem store).mpr hstore)]

/-- Only the last writes matter. -/
theorem write_all_congr {entries entries' : List ((Text × Text) × Option Bytes)}
    (h : ∀ store ∈ stores, ∀ key,
      lastOf (store, key) entries = lastOf (store, key) entries') :
    stores.writeAll entries = stores.writeAll entries' := by
  refine ext_read (by simp) fun store hstore key => ?_
  rw [mem_write_all] at hstore
  rw [read_write_all hstore, read_write_all hstore, h store hstore key]

/-- The loop of `commit` runs through when the stores are there. -/
theorem replay_eq {entries : List ((Text × Text) × Option Bytes)}
    (h : ∀ entry ∈ entries, entry.1.1 ∈ stores) :
    replay entries stores = (.ok (), stores.writeAll entries) := by
  induction entries generalizing stores with
  | nil => rfl
  | cons entry rest ih =>
      obtain ⟨⟨store, key⟩, value⟩ := entry
      have hstore : store ∈ stores := h _ List.mem_cons_self
      obtain ⟨values, hvalues⟩ := Option.isSome_iff_exists.mp
        (ExtTreeMap.isSome_getElem?_iff_mem.mpr hstore)
      have hwrite : stores.insert store (write values key value) =
          stores.writeEntry ((store, key), value) := by
        refine ExtTreeMap.ext_getElem? fun other => ?_
        simp only [writeEntry, OrdMap.get_modify, OrdMap.get_insert, hvalues]
        rfl
      rw [replay]
      simp only [hvalues]
      rw [hwrite, ih fun other hother => (mem_write_entry _).mpr (h other (by simp [hother]))]
      rfl

end Stores

/-! ## The buffer -/

/-- The write of a call. -/
def Access.entry : Access → Option ((Text × Text) × Option Bytes)
  | .get _ _ => none
  | .put store key value => some ((store, key), some value)
  | .delete store key => some ((store, key), none)

/-- The last put or delete of a key: the value put, or none for a delete. -/
def lastWrite (accesses : List Access) (store key : Text) : Option (Option Bytes) :=
  lastOf (store, key) (accesses.filterMap Access.entry)

/-- The effect of the writes among the calls, one after the other. -/
def Stores.performAll (stores : Stores) (accesses : List Access) : Stores :=
  stores.writeAll (accesses.filterMap Access.entry)

namespace Transaction

/-- The transaction differs by its buffer, which holds the last writes of the calls. -/
structure Buffers (tx tx' : Transaction) (accesses : List Access) : Prop where
  frame : tx' = { tx with writes := tx'.writes }
  writes : ∀ store key, tx'.writes[((store, key) : Text × Text)]? =
    if store ∈ tx.database.stores then lastWrite accesses store key else none

variable {tx tx' : Transaction} {accesses : List Access}

/-- A write is buffered if its store exists. -/
theorem buffer_eq (hactive : tx.active) (store key : Text) (value : Option Bytes) :
    (tx.buffer store key value).2 =
      if store ∈ tx.database.stores then
        { tx with writes := tx.writes.insert (store, key) value }
      else tx := by
  simp only [buffer, hactive, Bool.not_true, Bool.false_eq_true, if_false,
    ExtTreeMap.mem_iff_contains]
  cases tx.database.stores.contains store <;> rfl

/-- A write keeps the buffer up to date. -/
theorem Buffers.buffer (h : Buffers tx tx' accesses) (hactive : tx.active) {a : Access}
    {store key : Text} {value : Option Bytes} (ha : a.entry = some ((store, key), value)) :
    Buffers tx (tx'.buffer store key value).2 (accesses ++ [a]) := by
  have hactive' : tx'.active := by
    rw [h.frame]
    exact hactive
  have hdatabase : tx'.database = tx.database := by rw [h.frame]
  have hlast : ∀ s k, lastWrite (accesses ++ [a]) s k =
      if (store, key) = (s, k) then some value else lastWrite accesses s k := by
    intro s k
    rw [lastWrite, List.filterMap_append, last_of_append]
    simp only [List.filterMap_cons, ha, List.filterMap_nil, lastOf, Option.none_or]
    split_ifs <;> rfl
  -- a write to a missing store buffers nothing
  rw [buffer_eq hactive', hdatabase]
  split_ifs with hstore
  · refine ⟨by rw [h.frame], fun s k => ?_⟩
    show (tx'.writes.insert (store, key) value)[((s, k) : Text × Text)]? = _
    rw [OrdMap.get_insert, hlast, h.writes]
    by_cases hsame : (store, key) = (s, k)
    · rw [if_pos hsame, if_pos hsame, if_pos ((Prod.mk.inj hsame).1 ▸ hstore)]
    · rw [if_neg hsame, if_neg hsame]
  · refine ⟨h.frame, fun s k => ?_⟩
    rw [h.writes, hlast]
    by_cases hsame : (store, key) = (s, k)
    · rw [if_neg ((Prod.mk.inj hsame).1 ▸ hstore), if_neg ((Prod.mk.inj hsame).1 ▸ hstore)]
    · rw [if_neg hsame]

/-- Every access keeps what is buffered in step. -/
theorem Buffers.access (h : Buffers tx tx' accesses) (hactive : tx.active) (a : Access) :
    Buffers tx (tx'.access a) (accesses ++ [a]) := by
  cases a with
  | get store key =>
      refine ⟨h.frame, fun s k => ?_⟩
      have hlast : lastWrite (accesses ++ [.get store key]) s k = lastWrite accesses s k := by
        rw [lastWrite, List.filterMap_append, last_of_append]
        rfl
      rw [hlast]
      exact h.writes s k
  | put store key value => exact h.buffer hactive rfl
  | delete store key => exact h.buffer hactive rfl

/-- What a new transaction buffers in a sequence of calls. -/
theorem run_buffers (hactive : tx.active) (hwrites : tx.writes = ∅) (accesses : List Access) :
    Buffers tx (tx.run accesses) accesses := by
  induction accesses using List.reverseRecOn with
  | nil =>
      refine ⟨rfl, fun store key => ?_⟩
      simp [run, hwrites, lastWrite]
  | append_singleton accesses a ih =>
      rw [run, List.foldl_append]
      exact ih.access hactive a

/-- A commit has the effect of the calls one after the other, if that fits the quota, and otherwise
none. -/
theorem Buffers.commit_eq (h : Buffers tx tx' accesses) :
    tx'.commit =
      if tx.maxBytes < (tx.database.stores.performAll accesses).bytes then
        (.error .quotaExceeded, tx')
      else
        (.ok (),
          { tx' with
            database.stores := tx.database.stores.performAll accesses
            active := false
            events := tx.events ++ [.committed tx.profile tx.origin tx.name] }) := by
  have hstores : ∀ entry ∈ tx'.writes.toList, entry.1.1 ∈ tx.database.stores := by
    rintro ⟨⟨store, key⟩, value⟩ hentry
    rw [ExtTreeMap.mem_toList_iff_getElem?_eq_some, h.writes] at hentry
    by_contra hstore
    rw [if_neg hstore] at hentry
    cases hentry
  have hreplay : Stores.replay tx'.writes.toList tx.database.stores =
      (.ok (), tx.database.stores.performAll accesses) := by
    rw [Stores.replay_eq hstores]
    refine congrArg (Prod.mk _) (Stores.write_all_congr fun store hstore key => ?_)
    rw [last_of_to_list, h.writes, if_pos hstore]
    rfl
  have hdatabase : tx'.database = tx.database := by rw [h.frame]
  have hmax : tx'.maxBytes = tx.maxBytes := by rw [h.frame]
  have hevents : tx'.events ++ [.committed tx'.profile tx'.origin tx'.name] =
      tx.events ++ [.committed tx.profile tx.origin tx.name] := by rw [h.frame]
  simp only [commit, hdatabase, hreplay, hmax, hevents]

end Transaction

/-! ## Whole transactions -/

namespace IndexedDb

variable {s : IndexedDb} {profile : ProfileId} {origin name : Text} {tx : Transaction}

/-- A new transaction is active and empty, and borrows its database. -/
theorem transaction_spec (h : s.transaction profile origin name = .ok tx) :
    s.databases[(⟨profile, origin, name⟩ : DatabaseKey)]? = some tx.database ∧
      tx = ⟨tx.database, ∅, true, s.maxBytes, s.events, profile, origin, name⟩ := by
  unfold transaction at h
  split at h
  · cases h
  · next database hdatabase =>
      cases h
      exact ⟨hdatabase, rfl⟩

theorem run_transaction (h : s.transaction profile origin name = .ok tx)
    (accesses : List Access) : tx.Buffers (tx.run accesses) accesses := by
  obtain ⟨-, htx⟩ := transaction_spec h
  have hactive : tx.active := by rw [htx]
  have hwrites : tx.writes = ∅ := by rw [htx]
  exact tx.run_buffers hactive hwrites accesses

/-- Giving an unchanged database back changes nothing. -/
theorem release_eq {tx' : Transaction} (h : s.transaction profile origin name = .ok tx)
    {accesses : List Access} (hbuffers : tx.Buffers tx' accesses) : s.release tx' = s := by
  obtain ⟨hdatabase, htx⟩ := transaction_spec h
  have hprofile : tx'.profile = profile := by rw [hbuffers.frame, htx]
  have horigin : tx'.origin = origin := by rw [hbuffers.frame, htx]
  have hname : tx'.name = name := by rw [hbuffers.frame, htx]
  have hback : tx'.database = tx.database := by rw [hbuffers.frame]
  have hevents : tx'.events = s.events := by rw [hbuffers.frame, htx]
  rw [release, hprofile, horigin, hname, hback, hevents, OrdMap.insert_eq_self hdatabase]

/-- A transaction that commits either has its effect as a whole, or none. -/
theorem transact_commit (h : s.transaction profile origin name = .ok tx)
    (accesses : List Access) :
    s.transact profile origin name accesses .commit =
      if s.maxBytes < (tx.database.stores.performAll accesses).bytes then
        (.error .quotaExceeded, s)
      else
        (.ok (),
          { s with
            databases := s.databases.insert ⟨profile, origin, name⟩
              ⟨tx.database.version, tx.database.stores.performAll accesses⟩
            events := s.events ++ [.committed profile origin name] }) := by
  have hbuffers := run_transaction h accesses
  obtain ⟨-, htx⟩ := transaction_spec h
  have hmax : tx.maxBytes = s.maxBytes := by rw [htx]
  have hcommit := hbuffers.commit_eq
  rw [hmax] at hcommit
  simp only [transact, h, Transaction.finish, hcommit]
  split_ifs with hquota
  · rw [release_eq h hbuffers]
  · have hprofile : (tx.run accesses).profile = profile := by rw [hbuffers.frame, htx]
    have horigin : (tx.run accesses).origin = origin := by rw [hbuffers.frame, htx]
    have hname : (tx.run accesses).name = name := by rw [hbuffers.frame, htx]
    have hversion : (tx.run accesses).database.version = tx.database.version := by
      rw [hbuffers.frame]
    have hevents : tx.events ++ [.committed tx.profile tx.origin tx.name] =
        s.events ++ [.committed profile origin name] := by rw [htx]
    simp only [release, hprofile, horigin, hname, hversion, hevents]

/-- An aborted transaction leaves the databases alone. -/
theorem transact_abort (h : s.transaction profile origin name = .ok tx)
    (accesses : List Access) :
    s.transact profile origin name accesses .abort =
      (.ok (), { s with events := s.events ++ [.aborted profile origin name] }) := by
  have hbuffers := run_transaction h accesses
  obtain ⟨-, htx⟩ := transaction_spec h
  have hreleased := release_eq h hbuffers
  have hevents : (tx.run accesses).abort.events = s.events ++ [.aborted profile origin name] := by
    rw [Transaction.abort, hbuffers.frame, htx]
  have habort : s.release (tx.run accesses).abort =
      { s.release (tx.run accesses) with events := (tx.run accesses).abort.events } := rfl
  simp only [transact, h, Transaction.finish]
  rw [habort, hreleased, hevents]

theorem transact_drop (h : s.transaction profile origin name = .ok tx)
    (accesses : List Access) : s.transact profile origin name accesses .drop = (.ok (), s) := by
  simp only [transact, h, Transaction.finish, release_eq h (run_transaction h accesses)]

/-- A transaction reads what was committed before it, whatever it has buffered. A commit leaves the
last writes, so a read shows what the commit would leave when the last write of its key is the
committed value. -/
theorem get_eq_committed (s : IndexedDb) (profile : ProfileId) (origin name : Text)
    (tx : Transaction) (htx : s.transaction profile origin name = .ok tx)
    (accesses : List Access) (store key : Text) :
    let committed := tx.database.stores.read store key
    let left := (lastWrite accesses store key).getD committed
    ((tx.run accesses).get store key =
        if store ∈ tx.database.stores then .ok committed else .error .storeMissing) ∧
      (store ∈ tx.database.stores →
        (∀ tx', (tx.run accesses).commit = (.ok (), tx') →
          tx'.database.stores.read store key = left) ∧
        ((tx.run accesses).get store key = .ok left ↔
          lastWrite accesses store key = none ∨
            lastWrite accesses store key = some committed)) := by
  intro committed left
  have hbuffers := run_transaction htx accesses
  have hactive : (tx.run accesses).active := by
    rw [hbuffers.frame, (transaction_spec htx).2]
  have hdatabase : (tx.run accesses).database = tx.database := by rw [hbuffers.frame]
  have hget : (tx.run accesses).get store key =
      if store ∈ tx.database.stores then .ok committed else .error .storeMissing := by
    simp only [Transaction.get, hactive, hdatabase, Bool.not_true, Bool.false_eq_true, if_false,
      committed, Stores.read]
    split_ifs with hstore
    · obtain ⟨values, hvalues⟩ := Option.isSome_iff_exists.mp
        (ExtTreeMap.isSome_getElem?_iff_mem.mpr hstore)
      simp [hvalues]
    · simp [ExtTreeMap.getElem?_eq_none hstore]
  refine ⟨hget, fun hstore => ⟨fun tx' hcommit => ?_, ?_⟩⟩
  · rw [hbuffers.commit_eq] at hcommit
    split_ifs at hcommit
    · cases hcommit
    · rw [← (Prod.mk.inj hcommit).2]
      exact Stores.read_write_all hstore _
  · rw [hget, if_pos hstore]
    simp only [left]
    cases hlast : lastWrite accesses store key with
    | none => simp
    | some value => simp [eq_comm]

/-- A database with one store. -/
def recordsDb : IndexedDb :=
  (withQuota 1024).run [.openDatabase 1 "https://a.example" "app" 1 ["records"]]

/-- A key is read while another one is written. -/
theorem records_get_before_write : ∃ tx,
    recordsDb.transaction 1 "https://a.example" "app" = .ok tx ∧
      (tx.run [.put "records" "one" [1]]).get "records" "two" = .ok none := by
  obtain ⟨tx, htx⟩ : ∃ tx, recordsDb.transaction 1 "https://a.example" "app" = .ok tx := ⟨_, rfl⟩
  have hstores : ∀ tx, recordsDb.transaction 1 "https://a.example" "app" = .ok tx →
      ("records" : Text) ∈ tx.database.stores ∧ tx.database.stores.read "records" "two" = none := by
    rintro tx ⟨⟩
    decide
  obtain ⟨hstore, hread⟩ := hstores tx htx
  obtain ⟨hget, -⟩ := get_eq_committed recordsDb 1 "https://a.example" "app" tx htx
    [.put "records" "one" [1]] "records" "two"
  rw [if_pos hstore, hread] at hget
  exact ⟨tx, htx, hget⟩

/-- A transaction does not read its own write. -/
theorem records_get_after_write : ∃ tx,
    recordsDb.transaction 1 "https://a.example" "app" = .ok tx ∧
      lastWrite [.put "records" "one" [1]] "records" "one" = some (some [1]) ∧
      (tx.run [.put "records" "one" [1]]).get "records" "one" = .ok none := by
  refine ⟨_, rfl, by decide, by decide⟩

/-! ## The quota in every reachable state -/

/-- Every database is within the quota. -/
def WithinQuota (s : IndexedDb) : Prop :=
  ∀ (key : DatabaseKey) (database : Database), s.databases[key]? = some database →
    database.stores.bytes ≤ s.maxBytes

/-- Opening a database adds no bytes. -/
theorem bytes_create (stores : Stores) (store : Text) :
    Stores.bytes (OrdMap.orDefault stores store id) = stores.bytes := by
  unfold OrdMap.orDefault
  cases hstore : stores[store]? with
  | some values => rw [Option.getD_some, id, OrdMap.insert_eq_self hstore]
  | none =>
      have hperm := OrdMap.to_list_insert_perm hstore (default : OrdMap Text Bytes)
      rw [Option.getD_none, id, Stores.bytes, Stores.bytes,
        ((hperm.flatMap_right _).map _).sum_eq, List.flatMap_cons]
      rfl

theorem bytes_create_all (names : List Text) (stores : Stores) :
    Stores.bytes (names.foldl (fun stores store => OrdMap.orDefault stores store id) stores) =
      stores.bytes := by
  induction names generalizing stores with
  | nil => rfl
  | cons store names ih => exact (ih _).trans (bytes_create stores store)

theorem WithinQuota.insert (h : s.WithinQuota) {key : DatabaseKey} {database : Database}
    (hbytes : database.stores.bytes ≤ s.maxBytes) (events : List IndexedDbEvent) :
    WithinQuota { s with databases := s.databases.insert key database, events } := by
  intro other found hfound
  rw [OrdMap.get_insert] at hfound
  split_ifs at hfound with hkey
  · exact Option.some.inj hfound ▸ hbytes
  · exact h other found hfound

/-- Opening a database keeps the quota. -/
theorem WithinQuota.open_database (h : s.WithinQuota) (profile : ProfileId) (origin name : Text)
    (requestedVersion : UInt64) (stores : List Text) :
    (s.openDatabase profile origin name requestedVersion stores).2.WithinQuota := by
  have hbytes : (s.databases[(⟨profile, origin, name⟩ : DatabaseKey)]?.getD
      default).stores.bytes ≤ s.maxBytes := by
    cases hdatabase : s.databases[(⟨profile, origin, name⟩ : DatabaseKey)]? with
    | none => exact Nat.zero_le _
    | some database => exact h _ database hdatabase
  simp only [openDatabase]
  split_ifs
  · exact h.insert hbytes s.events
  · exact h.insert ((bytes_create_all stores _).trans_le hbytes) _
  · exact h.insert ((bytes_create_all stores _).trans_le hbytes) _

/-- So does a transaction, however it ends. -/
theorem WithinQuota.transact (h : s.WithinQuota) (profile : ProfileId) (origin name : Text)
    (accesses : List Access) (ending : Ending) :
    (s.transact profile origin name accesses ending).2.WithinQuota := by
  cases htx : s.transaction profile origin name with
  | error error =>
      simp only [IndexedDb.transact, htx]
      exact h
  | ok tx =>
      cases ending with
      | commit =>
          rw [transact_commit htx]
          split_ifs with hquota
          · exact h
          · exact h.insert (Nat.not_lt.mp hquota) _
      | abort =>
          rw [transact_abort htx]
          exact h
      | drop =>
          rw [transact_drop htx]
          exact h

theorem WithinQuota.apply (h : s.WithinQuota) (request : Request) :
    (s.apply request).WithinQuota := by
  cases request with
  | openDatabase profile origin name requestedVersion stores =>
      exact h.open_database profile origin name requestedVersion stores
  | transact profile origin name accesses ending =>
      exact h.transact profile origin name accesses ending
  | drainEvents => exact h

theorem run_within_quota (maxBytes : Nat) (requests : List Request) :
    ((withQuota maxBytes).run requests).WithinQuota := by
  induction requests using List.reverseRecOn with
  | nil =>
      intro key database hdatabase
      simp [run, withQuota] at hdatabase
  | append_singleton requests request ih =>
      rw [run, List.foldl_append]
      exact ih.apply request

/-- After any calls every database is within the quota, and any transaction on the databases is
atomic: a commit has the effect of its calls one after the other within the quota, or fails and
changes nothing; an abort leaves the databases, and dropping the transaction changes nothing. -/
theorem transact_atomic (maxBytes : Nat) (requests : List Request) (profile : ProfileId)
    (origin name : Text) (accesses : List Access) (tx : Transaction)
    (htx : ((withQuota maxBytes).run requests).transaction profile origin name = .ok tx) :
    let s := (withQuota maxBytes).run requests
    let written := tx.database.stores.performAll accesses
    s.WithinQuota ∧
      (∀ store ∈ tx.database.stores, ∀ key, written.read store key =
        (lastWrite accesses store key).getD (tx.database.stores.read store key)) ∧
      ((∃ error, s.transact profile origin name accesses .commit = (.error error, s)) ∨
        written.bytes ≤ s.maxBytes ∧ s.transact profile origin name accesses .commit =
          (.ok (), ⟨s.databases.insert ⟨profile, origin, name⟩ ⟨tx.database.version, written⟩,
            s.maxBytes, s.events ++ [.committed profile origin name]⟩)) ∧
      (s.transact profile origin name accesses .abort).2 =
        ⟨s.databases, s.maxBytes, s.events ++ [.aborted profile origin name]⟩ ∧
      (s.transact profile origin name accesses .drop).2 = s := by
  intro s written
  refine ⟨run_within_quota maxBytes requests, fun store hstore key =>
    Stores.read_write_all hstore _, ?_, by rw [transact_abort htx], by rw [transact_drop htx]⟩
  rw [transact_commit htx]
  split_ifs with hquota
  · exact .inl ⟨.quotaExceeded, rfl⟩
  · exact .inr ⟨Nat.not_lt.mp hquota, rfl⟩

theorem records_transact_atomic : recordsDb.WithinQuota ∧
    (recordsDb.transact 1 "https://a.example" "app" [.put "records" "one" [1]] .drop).2 =
      recordsDb := by
  obtain ⟨tx, htx⟩ : ∃ tx, recordsDb.transaction 1 "https://a.example" "app" = .ok tx := ⟨_, rfl⟩
  obtain ⟨hquota, -, -, -, hdrop⟩ := transact_atomic 1024
    [.openDatabase 1 "https://a.example" "app" 1 ["records"]] 1 "https://a.example" "app"
    [.put "records" "one" [1]] tx htx
  exact ⟨hquota, hdrop⟩

end IndexedDb

end BrowsAI.Databases
