import BrowsAI.Library.OrdMap
import BrowsAI.Profiles.Identity

/-!
# Indexed databases

`IndexedDb` and `Transaction` of `crates/indexeddb`. A transaction borrows its database and the
queue of events and buffers its writes; `transact` is its whole life, from `transaction` to the end
of the borrow. `Access` collects the calls on a transaction, `Request` those on the `IndexedDb`.
-/

namespace BrowsAI.Databases

open Utf8 Std Profiles

/-- What a database is found by. -/
structure DatabaseKey where
  profile : ProfileId
  origin : Text
  name : Text
  deriving DecidableEq

/-- What is told of a database. -/
structure DatabaseInfo where
  name : Text
  version : UInt64
  stores : List Text
  deriving DecidableEq

/-- Why a call is refused. -/
inductive IndexedDbError where
  | notFound | versionTooLow | storeMissing | transactionInactive | quotaExceeded
  deriving DecidableEq

/-- What is noted of the databases. -/
inductive IndexedDbEvent where
  | opened (profile : ProfileId) (origin name : Text) (version : UInt64)
  | upgraded (profile : ProfileId) (origin name : Text) (fromVersion toVersion : UInt64)
  | committed (profile : ProfileId) (origin name : Text)
  | aborted (profile : ProfileId) (origin name : Text)
  deriving DecidableEq

/-! ## The order of the keys -/

/-- The fields are compared in the order of their declaration. -/
instance : Ord DatabaseKey :=
  ⟨compareLex (compareOn DatabaseKey.profile)
    (compareLex (compareOn DatabaseKey.origin) (compareOn DatabaseKey.name))⟩

instance : TransOrd DatabaseKey := inferInstanceAs <| TransCmp (compareLex _ _)

instance : LawfulEqOrd DatabaseKey where
  eq_of_compare {a b} h := by
    obtain ⟨_, _, _⟩ := a
    obtain ⟨_, _, _⟩ := b
    change compareLex _ _ _ _ = _ at h
    simp only [compareLex_eq_eq, compareOn] at h
    obtain ⟨hprofile, horigin, hname⟩ := h
    rw [LawfulEqOrd.eq_of_compare hprofile, LawfulEqOrd.eq_of_compare horigin,
      LawfulEqOrd.eq_of_compare hname]

/-! ## Databases -/

/-- A stored value. -/
abbrev Bytes := List UInt8

/-- The values of each store by key. -/
abbrev Stores := OrdMap Text (OrdMap Text Bytes)

/-- The stores of a database and its version. -/
structure Database where
  version : UInt64
  stores : Stores

/-- `Database::default()`. -/
instance : Inhabited Database := ⟨⟨0, ∅⟩⟩

/-- All databases, with the quota of each transaction. -/
structure IndexedDb where
  databases : OrdMap DatabaseKey Database
  maxBytes : Nat
  events : List IndexedDbEvent

/-- A transaction that is open, with a copy of its database. -/
structure Transaction where
  database : Database
  /-- The buffered writes: a value to put, or none for a key to delete. -/
  writes : OrdMap (Text × Text) (Option Bytes)
  active : Bool
  maxBytes : Nat
  events : List IndexedDbEvent
  profile : ProfileId
  origin : Text
  name : Text

namespace Stores

/-- The effect of one buffered write on the values of its store. -/
def write (values : OrdMap Text Bytes) (key : Text) : Option Bytes → OrdMap Text Bytes
  | some value => values.insert key value
  | none => values.erase key

/-- The loop of `commit` over the buffered writes. A missing store stops it, with the writes up to
there applied. -/
def replay : List ((Text × Text) × Option Bytes) → Stores → Except IndexedDbError Unit × Stores
  | [], stores => (.ok (), stores)
  | ((store, key), value) :: rest, stores =>
      match stores[store]? with
      | none => (.error .storeMissing, stores)
      | some values => replay rest (stores.insert store (write values key value))

/-- The bytes of all values. -/
def bytes (stores : Stores) : Nat :=
  ((stores.toList.flatMap fun (_, store) => store.toList).map fun (_, value) =>
    value.length).sum

end Stores

namespace IndexedDb

/-- No database, and room for a byte at least. -/
def withQuota (maxBytes : Nat) : IndexedDb := ⟨∅, max maxBytes 1, []⟩

/-- `IndexedDb::default()`. -/
instance : Inhabited IndexedDb := ⟨withQuota (16 * 1024 * 1024)⟩

/-- `open`. -/
def openDatabase (s : IndexedDb) (profile : ProfileId) (origin name : Text)
    (requestedVersion : UInt64) (stores : List Text) :
    Except IndexedDbError DatabaseInfo × IndexedDb :=
  let key : DatabaseKey := ⟨profile, origin, name⟩
  let database := s.databases[key]?.getD default
  if requestedVersion < database.version then
    (.error .versionTooLow, { s with databases := s.databases.insert key database })
  else
    let previousVersion := database.version
    let version := max (max requestedVersion database.version) 1
    let stores := stores.foldl (fun stores store => OrdMap.orDefault stores store id)
      database.stores
    let event : IndexedDbEvent :=
      if previousVersion < version then .upgraded profile origin name previousVersion version
      else .opened profile origin name version
    (.ok ⟨name, version, stores.keys⟩,
      { s with
        databases := s.databases.insert key ⟨version, stores⟩
        events := s.events ++ [event] })

/-- Opens a transaction on a database. -/
def transaction (s : IndexedDb) (profile : ProfileId) (origin name : Text) :
    Except IndexedDbError Transaction :=
  match s.databases[(⟨profile, origin, name⟩ : DatabaseKey)]? with
  | none => .error .notFound
  | some database =>
      .ok ⟨database, ∅, true, s.maxBytes, s.events, profile, origin, name⟩

/-- The events, which are then forgotten. -/
def drainEvents (s : IndexedDb) : List IndexedDbEvent × IndexedDb :=
  (s.events, { s with events := [] })

end IndexedDb

/-! ## Transactions -/

namespace Transaction

/-- The committed value of a key. -/
def get (tx : Transaction) (store key : Text) : Except IndexedDbError (Option Bytes) :=
  if !tx.active then .error .transactionInactive
  else
    -- the buffered writes are not looked at
    match tx.database.stores[store]? with
    | none => .error .storeMissing
    | some values => .ok values[key]?

/-- The common body of `put` and `delete`. -/
def buffer (tx : Transaction) (store key : Text) (value : Option Bytes) :
    Except IndexedDbError Unit × Transaction :=
  if !tx.active then (.error .transactionInactive, tx)
  else if !tx.database.stores.contains store then (.error .storeMissing, tx)
  else (.ok (), { tx with writes := tx.writes.insert (store, key) value })

/-- Buffers a value. -/
def put (tx : Transaction) (store key : Text) (value : Bytes) :
    Except IndexedDbError Unit × Transaction := tx.buffer store key (some value)

/-- Buffers a deletion. -/
def delete (tx : Transaction) (store key : Text) : Except IndexedDbError Unit × Transaction :=
  tx.buffer store key none

/-- Replays the writes on the stores, unless they then take too many bytes. The first replay is only
for the check. -/
def commit (tx : Transaction) : Except IndexedDbError Unit × Transaction :=
  match Stores.replay tx.writes.toList tx.database.stores with
  | (.error error, _) => (.error error, tx)
  | (.ok (), proposed) =>
      if tx.maxBytes < proposed.bytes then (.error .quotaExceeded, tx)
      else
        match Stores.replay tx.writes.toList tx.database.stores with
        | (.error error, stores) => (.error error, { tx with database.stores := stores })
        | (.ok (), stores) =>
            (.ok (),
              { tx with
                database.stores := stores
                active := false
                events := tx.events ++ [.committed tx.profile tx.origin tx.name] })

/-- Ends the transaction without its writes. -/
def abort (tx : Transaction) : Transaction :=
  { tx with
    active := false
    events := tx.events ++ [.aborted tx.profile tx.origin tx.name] }

end Transaction

/-- A call on an open transaction. -/
inductive Access where
  | get (store key : Text)
  | put (store key : Text) (value : Bytes)
  | delete (store key : Text)
  deriving DecidableEq

/-- How a transaction ends. -/
inductive Ending where
  | commit
  | abort
  | drop
  deriving DecidableEq

namespace Transaction

/-- The transaction after a call. -/
def access (tx : Transaction) : Access → Transaction
  | .get _ _ => tx
  | .put store key value => (tx.put store key value).2
  | .delete store key => (tx.delete store key).2

/-- The transaction after a sequence of calls. -/
def run (tx : Transaction) (accesses : List Access) : Transaction := accesses.foldl access tx

/-- The transaction after its end. -/
def finish (tx : Transaction) : Ending → Except IndexedDbError Unit × Transaction
  | .commit => tx.commit
  | .abort => (.ok (), tx.abort)
  | .drop => (.ok (), tx)

end Transaction

namespace IndexedDb

/-- The `IndexedDb` when the borrow of a transaction ends. -/
def release (s : IndexedDb) (tx : Transaction) : IndexedDb :=
  { s with
    databases := s.databases.insert ⟨tx.profile, tx.origin, tx.name⟩ tx.database
    events := tx.events }

/-- A transaction from its beginning to its end. -/
def transact (s : IndexedDb) (profile : ProfileId) (origin name : Text)
    (accesses : List Access) (ending : Ending) : Except IndexedDbError Unit × IndexedDb :=
  match s.transaction profile origin name with
  | .error error => (.error error, s)
  | .ok tx =>
      let (result, tx) := (tx.run accesses).finish ending
      (result, s.release tx)

end IndexedDb

/-- A call on the `IndexedDb`. -/
inductive Request where
  | openDatabase (profile : ProfileId) (origin name : Text) (requestedVersion : UInt64)
      (stores : List Text)
  | transact (profile : ProfileId) (origin name : Text) (accesses : List Access)
      (ending : Ending)
  | drainEvents

namespace IndexedDb

/-- What a request does. -/
def apply (s : IndexedDb) : Request → IndexedDb
  | .openDatabase profile origin name requestedVersion stores =>
      (s.openDatabase profile origin name requestedVersion stores).2
  | .transact profile origin name accesses ending =>
      (s.transact profile origin name accesses ending).2
  | .drainEvents => s.drainEvents.2

/-- The databases after a sequence of calls. -/
def run (s : IndexedDb) (requests : List Request) : IndexedDb := requests.foldl apply s

end IndexedDb

end BrowsAI.Databases
