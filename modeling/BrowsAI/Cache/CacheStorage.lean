import BrowsAI.Cache.HttpCache
import BrowsAI.Library.Runs

/-!
# The caches over time

`CacheStorage` of `crates/cache`, the caches that are opened by name, and the calls that change an
`HttpCache` or a `CacheStorage`. A full cache grows, so that it `Fits` its capacity after every
history. The capacity decides nothing else: `responses` and `contents` are maps without one, and
`responses_run` and `contents_run` say that they take the same calls.
-/

namespace BrowsAI.Cache

open Std Utf8 Network Profiles

variable {U : Type} [Url U]

/-! ## One cache -/

/-- A call that changes an `HttpCache`. -/
inductive HttpCall (U : Type) where
  | put (profile : ProfileId) (sitePartition : Text) (url : U) (response : CachedResponse)
  | invalidate (profile : ProfileId) (sitePartition : Text) (url : U)
  | invalidatePartition (profile : ProfileId) (sitePartition : Text)

/-- The responses of a cache that has room for any number of them. -/
abbrev Responses := OrdMap CacheKey CachedResponse

/-- The calls on a cache without a capacity. -/
def Responses.machine (U : Type) [Url U] : Machine Responses (HttpCall U) where
  step responses
    | .put profile sitePartition url response =>
        responses.insert (profile, sitePartition, Url.asStr url) response
    | .invalidate profile sitePartition url =>
        responses.erase (profile, sitePartition, Url.asStr url)
    | .invalidatePartition profile sitePartition =>
        responses.filter fun (entryProfile, entryPartition, _) _ =>
          entryProfile ≠ profile ∨ entryPartition ≠ sitePartition
  Allowed _ _ := True

namespace HttpCache

/-- The calls that change one cache. -/
def machine (U : Type) [Url U] : Machine HttpCache (HttpCall U) where
  step cache
    | .put profile sitePartition url response => cache.put profile sitePartition url response
    | .invalidate profile sitePartition url => cache.invalidate profile sitePartition url
    | .invalidatePartition profile sitePartition =>
        cache.invalidatePartition profile sitePartition
  Allowed _ _ := True

/-- The number of entries. -/
def len (cache : HttpCache) : UInt64 := .ofNat cache.values.size

/-- The values alone take the calls, whatever the capacity. -/
theorem responses_run (cache : HttpCache) (calls : List (HttpCall U)) :
    ((machine U).run cache calls).values = (Responses.machine U).run cache.values calls := by
  refine Machine.run_simulates values ?_ cache calls
  intro cache call
  cases call <;> rfl

/-- A put is an insert under the profile, the partition and the URL. -/
theorem values_put (cache : HttpCache) (profile : ProfileId) (sitePartition : Text) (url : U)
    (response : CachedResponse) :
    (cache.put profile sitePartition url response).values =
      cache.values.insert (profile, sitePartition, Url.asStr url) response := rfl

/-- A put leaves the entries of the other keys alone. -/
theorem put_other (cache : HttpCache) {profile : ProfileId} {sitePartition : Text} {url : U}
    {key : CacheKey} (h : key ≠ (profile, sitePartition, Url.asStr url))
    (response : CachedResponse) :
    (cache.put profile sitePartition url response).values[key]? = cache.values[key]? := by
  rw [values_put, OrdMap.get_insert_ne _ h.symm]

/-! ### Capacities -/

/-- The capacity is enough for the entries. A capacity of `usize::MAX` is as large as they get. -/
def Fits (cache : HttpCache) : Prop :=
  cache.values.size ≤ cache.maxEntries ∨ cache.maxEntries = usizeMax

section Fits

variable {cache : HttpCache}

theorem fits_with_capacity (maxEntries : Nat) : (withCapacity maxEntries).Fits := by
  refine .inl ?_
  show (∅ : Responses).size ≤ _
  rw [ExtTreeMap.size_empty]
  exact Nat.zero_le _

/-- A cache that fits has no more entries than its capacity. -/
theorem Fits.len_le (h : cache.Fits) : cache.len.toNat ≤ cache.maxEntries := by
  rw [len, UInt64.toNat_ofNat']
  obtain hsize | hmax := h
  · exact (Nat.mod_le _ _).trans hsize
  · have hlt := Nat.mod_lt cache.values.size (Nat.two_pow_pos 64)
    rw [hmax, usizeMax]
    omega

theorem Fits.of_size_le (h : cache.Fits) {values : Responses}
    (hsize : values.size ≤ cache.values.size) : Fits { cache with values } :=
  h.imp_left hsize.trans

/-- A put keeps a cache within its maximum. -/
theorem Fits.put (h : cache.Fits) (profile : ProfileId) (sitePartition : Text) (url : U)
    (response : CachedResponse) : (cache.put profile sitePartition url response).Fits := by
  unfold HttpCache.put Fits
  dsimp only
  rw [ExtTreeMap.size_insert]
  obtain hcontains | hcontains :=
    Bool.eq_false_or_eq_true (cache.values.contains (profile, sitePartition, Url.asStr url))
  · simp only [hcontains, Bool.not_true, Bool.false_and, Bool.false_eq_true, if_false, if_true]
    exact h
  · simp only [hcontains, Bool.not_false, Bool.true_and, Bool.false_eq_true, if_false,
      decide_eq_true_eq]
    split_ifs with hfull
    · -- the capacity grows by one entry at least, up to the largest there is
      omega
    · exact .inl (by omega)

theorem Fits.step (h : cache.Fits) (call : HttpCall U) : ((machine U).step cache call).Fits := by
  cases call with
  | put profile sitePartition url response => exact h.put _ _ _ _
  | invalidate profile sitePartition url => exact h.of_size_le ExtTreeMap.size_erase_le
  | invalidatePartition profile sitePartition => exact h.of_size_le ExtTreeMap.size_filter_le_size

theorem Fits.run (h : cache.Fits) (calls : List (HttpCall U)) :
    ((machine U).run cache calls).Fits :=
  Machine.run_invariant (fun _ call h => h.step call) h calls

end Fits

end HttpCache

/-! ## Named caches -/

/-- The caches by profile, partition, and name. -/
structure CacheStorage where
  caches : OrdMap CacheKey HttpCache

/-- A call that changes a `CacheStorage`. -/
inductive StorageCall (U : Type) where
  | openCache (profile : ProfileId) (sitePartition name : Text) (maxEntries : Nat)
  | put (profile : ProfileId) (sitePartition name : Text) (url : U) (response : CachedResponse)
  | deleteResponse (profile : ProfileId) (sitePartition name : Text) (url : U)
  | deleteCache (profile : ProfileId) (sitePartition name : Text)

/-- Named caches that each have room for any number of responses. -/
abbrev Contents := OrdMap CacheKey Responses

namespace Contents

/-- The calls on caches without capacities. -/
def machine (U : Type) [Url U] : Machine Contents (StorageCall U) where
  step contents
    | .openCache profile sitePartition name _ =>
        contents.insertIfNew (profile, sitePartition, name) ∅
    | .put profile sitePartition name url response =>
        contents.modify (profile, sitePartition, name) fun responses =>
          responses.insert (profile, sitePartition, Url.asStr url) response
    | .deleteResponse profile sitePartition name url =>
        contents.modify (profile, sitePartition, name) fun responses =>
          responses.erase (profile, sitePartition, Url.asStr url)
    | .deleteCache profile sitePartition name => contents.erase (profile, sitePartition, name)
  Allowed _ _ := True

/-- The response for a URL in a named cache. -/
def entry (contents : Contents) (cacheKey key : CacheKey) : Option CachedResponse :=
  contents[cacheKey]?.bind (·[key]?)

/-- The names of the caches of a partition. -/
def names (contents : Contents) (profile : ProfileId) (sitePartition : Text) : List Text :=
  (contents.keys.filter fun (entryProfile, entryPartition, _) =>
    entryProfile == profile && entryPartition == sitePartition).map fun (_, _, name) => name

/-- The profile and the partition of an entry are those of its cache, and its URL is one that was
given with a response. -/
def Homed (U : Type) [Url U] (contents : Contents) : Prop :=
  ∀ (cacheKey : CacheKey) (responses : Responses), contents[cacheKey]? = some responses →
    ∀ (key : CacheKey) (response : CachedResponse), responses[key]? = some response →
      ∃ url : U, key = (cacheKey.1, cacheKey.2.1, Url.asStr url)

section Homed

variable {contents : Contents}

/-- An update that adds to a cache nothing but entries of its own profile and partition. -/
theorem Homed.modify (h : contents.Homed U) {cacheKey : CacheKey} {f : Responses → Responses}
    (hf : ∀ (responses : Responses) (key : CacheKey) (response : CachedResponse),
      (f responses)[key]? = some response → responses[key]? = some response ∨
        ∃ url : U, key = (cacheKey.1, cacheKey.2.1, Url.asStr url)) :
    Homed U (contents.modify cacheKey f) := by
  intro storedKey stored hstored key response hresponse
  rw [OrdMap.get_modify] at hstored
  split_ifs at hstored with heq
  · obtain ⟨responses, hresponses, rfl⟩ := Option.map_eq_some_iff.mp hstored
    rw [← heq]
    obtain hold | hnew := hf responses key response hresponse
    · exact h cacheKey responses hresponses key response hold
    · exact hnew
  · exact h storedKey stored hstored key response hresponse

/-- Every call keeps the entries under the partition of their cache. -/
theorem Homed.step (h : contents.Homed U) (call : StorageCall U) :
    ((machine U).step contents call).Homed U := by
  cases call with
  | openCache profile sitePartition name maxEntries =>
      show Homed U (contents.insertIfNew _ _)
      intro cacheKey responses hresponses key response hresponse
      rw [OrdMap.insert_if_new_eq, OrdMap.get_insert] at hresponses
      split_ifs at hresponses with heq
      · subst heq
        cases hold : contents[((profile, sitePartition, name) : CacheKey)]? with
        | none =>
            rw [hold] at hresponses
            cases hresponses
            simp at hresponse
        | some old =>
            rw [hold] at hresponses
            cases hresponses
            exact h _ _ hold key response hresponse
      · exact h cacheKey responses hresponses key response hresponse
  | put profile sitePartition name url response =>
      refine h.modify ?_
      intro responses key stored hstored
      rw [OrdMap.get_insert] at hstored
      split_ifs at hstored with heq
      · exact .inr ⟨url, heq.symm⟩
      · exact .inl hstored
  | deleteResponse profile sitePartition name url =>
      refine h.modify ?_
      intro responses key stored hstored
      rw [OrdMap.get_erase] at hstored
      split_ifs at hstored
      exact .inl hstored
  | deleteCache profile sitePartition name =>
      intro cacheKey responses hresponses
      replace hresponses : (contents.erase (profile, sitePartition, name))[cacheKey]? =
        some responses := hresponses
      rw [OrdMap.get_erase] at hresponses
      split_ifs at hresponses
      exact h cacheKey responses hresponses

theorem homed_run (calls : List (StorageCall U)) : ((machine U).run ∅ calls).Homed U := by
  refine Machine.run_invariant (fun _ call h => h.step call) ?_ calls
  intro cacheKey responses hresponses
  simp at hresponses

end Homed

end Contents

namespace CacheStorage

/-- `CacheStorage::default()`. -/
instance : Inhabited CacheStorage := ⟨⟨∅⟩⟩

/-- `CacheStorage::open`. -/
def openCache (storage : CacheStorage) (profile : ProfileId) (sitePartition name : Text)
    (maxEntries : Nat) : CacheStorage :=
  ⟨storage.caches.insertIfNew (profile, sitePartition, name) (.withCapacity maxEntries)⟩

/-- Stores a response in a cache that is open. -/
def put (storage : CacheStorage) (profile : ProfileId) (sitePartition name : Text) (url : U)
    (response : CachedResponse) : Bool × CacheStorage :=
  let key : CacheKey := (profile, sitePartition, name)
  match storage.caches[key]? with
  | none => (false, storage)
  | some cache =>
      (true, ⟨storage.caches.insert key (cache.put profile sitePartition url response)⟩)

/-- The response for a URL in a named cache. -/
def matchResponse (storage : CacheStorage) (profile : ProfileId) (sitePartition name : Text)
    (url : U) : Option CachedResponse := do
  let cache ← storage.caches[((profile, sitePartition, name) : CacheKey)]?
  cache.get profile sitePartition url

/-- Drops a response, and tells whether there was one. -/
def deleteResponse (storage : CacheStorage) (profile : ProfileId) (sitePartition name : Text)
    (url : U) : Bool × CacheStorage :=
  let key : CacheKey := (profile, sitePartition, name)
  match storage.caches[key]? with
  | none => (false, storage)
  | some cache =>
      ((cache.get profile sitePartition url).isSome,
        ⟨storage.caches.insert key (cache.invalidate profile sitePartition url)⟩)

/-- Drops a cache, and tells whether there was one. -/
def deleteCache (storage : CacheStorage) (profile : ProfileId) (sitePartition name : Text) :
    Bool × CacheStorage :=
  let key : CacheKey := (profile, sitePartition, name)
  (storage.caches[key]?.isSome, ⟨storage.caches.erase key⟩)

/-- The names of the caches of a partition. -/
def names (storage : CacheStorage) (profile : ProfileId) (sitePartition : Text) : List Text :=
  (storage.caches.keys.filter fun (entryProfile, entryPartition, _) =>
    entryProfile == profile && entryPartition == sitePartition).map fun (_, _, name) => name

/-- The calls that change the storage. -/
def machine (U : Type) [Url U] : Machine CacheStorage (StorageCall U) where
  step storage
    | .openCache profile sitePartition name maxEntries =>
        storage.openCache profile sitePartition name maxEntries
    | .put profile sitePartition name url response =>
        (storage.put profile sitePartition name url response).2
    | .deleteResponse profile sitePartition name url =>
        (storage.deleteResponse profile sitePartition name url).2
    | .deleteCache profile sitePartition name =>
        (storage.deleteCache profile sitePartition name).2
  Allowed _ _ := True

/-- The values of the caches, without their capacities. -/
def contents (storage : CacheStorage) : Contents := storage.caches.map fun _ cache => cache.values

/-- The response under two keys, that of a cache and that of an entry in it. -/
def entry (storage : CacheStorage) (cacheKey key : CacheKey) : Option CachedResponse :=
  storage.caches[cacheKey]?.bind (·.values[key]?)

theorem contents_default : (default : CacheStorage).contents = ∅ := by
  refine ExtTreeMap.ext_getElem? fun key => ?_
  rw [contents, ExtTreeMap.getElem?_map]
  simp [default]

/-! ### What a call does to the caches -/

section Calls

variable (storage : CacheStorage) (profile : ProfileId) (sitePartition name : Text)

/-- A put changes the one cache, if it is open. -/
theorem caches_put (url : U) (response : CachedResponse) :
    (storage.put profile sitePartition name url response).2.caches =
      storage.caches.modify (profile, sitePartition, name) fun cache =>
        cache.put profile sitePartition url response := by
  rw [OrdMap.modify_eq, put]
  cases storage.caches[((profile, sitePartition, name) : CacheKey)]? <;> rfl

/-- So does the deletion of a response. -/
theorem caches_delete_response (url : U) :
    (storage.deleteResponse profile sitePartition name url).2.caches =
      storage.caches.modify (profile, sitePartition, name) fun cache =>
        cache.invalidate profile sitePartition url := by
  rw [OrdMap.modify_eq, deleteResponse]
  cases storage.caches[((profile, sitePartition, name) : CacheKey)]? <;> rfl

/-- What a call does to the contents depends on the contents only. -/
theorem contents_step (call : StorageCall U) :
    ((machine U).step storage call).contents = (Contents.machine U).step storage.contents call := by
  cases call with
  | openCache profile sitePartition name maxEntries =>
      show ExtTreeMap.map _ (storage.caches.insertIfNew _ _) = storage.contents.insertIfNew _ _
      rw [OrdMap.insert_if_new_eq, OrdMap.insert_if_new_eq, OrdMap.map_insert, contents,
        ExtTreeMap.getElem?_map]
      cases storage.caches[((profile, sitePartition, name) : CacheKey)]? <;> rfl
  | put profile sitePartition name url response =>
      show ExtTreeMap.map _ (storage.put _ _ _ _ _).2.caches = storage.contents.modify _ _
      rw [caches_put]
      refine OrdMap.map_modify ?_ _
      intro cache
      rfl
  | deleteResponse profile sitePartition name url =>
      show ExtTreeMap.map _ (storage.deleteResponse _ _ _ _).2.caches = storage.contents.modify _ _
      rw [caches_delete_response]
      refine OrdMap.map_modify ?_ _
      intro cache
      rfl
  | deleteCache profile sitePartition name => exact OrdMap.map_erase _

theorem contents_run (calls : List (StorageCall U)) :
    ((machine U).run storage calls).contents = (Contents.machine U).run storage.contents calls :=
  Machine.run_simulates contents (fun storage call => storage.contents_step call) storage calls

theorem entry_eq (cacheKey key : CacheKey) :
    storage.entry cacheKey key = storage.contents.entry cacheKey key := by
  rw [Contents.entry, contents, ExtTreeMap.getElem?_map, entry]
  cases storage.caches[cacheKey]? <;> rfl

theorem match_response_eq (url : U) :
    storage.matchResponse profile sitePartition name url =
      storage.entry (profile, sitePartition, name) (profile, sitePartition, Url.asStr url) := rfl

theorem names_eq : storage.names profile sitePartition =
    storage.contents.names profile sitePartition := by
  rw [Contents.names, contents, ExtTreeMap.keys_map, names]

/-- A put leaves the entries under the other keys alone, of this cache and of the others. -/
theorem entry_put_other {url : U} {cacheKey key : CacheKey}
    (h : (cacheKey, key) ≠
      ((profile, sitePartition, name), (profile, sitePartition, Url.asStr url)))
    (response : CachedResponse) :
    (storage.put profile sitePartition name url response).2.entry cacheKey key =
      storage.entry cacheKey key := by
  rw [entry, caches_put, OrdMap.get_modify]
  split_ifs with hcache
  · subst hcache
    have hkey : key ≠ (profile, sitePartition, Url.asStr url) := fun hkey => h (by rw [hkey])
    rw [entry]
    cases storage.caches[((profile, sitePartition, name) : CacheKey)]? with
    | none => rfl
    | some cache => exact cache.put_other hkey response
  · rfl

/-- A put closes no cache and opens none. -/
theorem names_put (url : U) (response : CachedResponse) :
    (storage.put profile sitePartition name url response).2.names = storage.names := by
  funext profile sitePartition
  rw [names, names, caches_put, OrdMap.keys_modify]

end Calls

/-! ### What every history keeps -/

section Histories

variable {storage : CacheStorage}

/-- Every cache fits its capacity. -/
def Fit (storage : CacheStorage) : Prop := OrdMap.All HttpCache.Fits storage.caches

theorem fit_default : (default : CacheStorage).Fit := by
  intro key cache hcache
  simp [default] at hcache

/-- Every call keeps every cache within its maximum. -/
theorem Fit.step (h : storage.Fit) (call : StorageCall U) :
    ((machine U).step storage call).Fit := by
  cases call with
  | openCache profile sitePartition name maxEntries =>
      show OrdMap.All _ (storage.caches.insertIfNew _ _)
      rw [OrdMap.insert_if_new_eq, h.insert_iff]
      cases hcache : storage.caches[((profile, sitePartition, name) : CacheKey)]? with
      | none => exact HttpCache.fits_with_capacity maxEntries
      | some cache => exact h _ cache hcache
  | put profile sitePartition name url response =>
      show OrdMap.All _ (storage.put _ _ _ _ _).2.caches
      rw [caches_put, h.modify_iff]
      intro cache hcache
      exact (h _ cache hcache).put _ _ _ _
  | deleteResponse profile sitePartition name url =>
      show OrdMap.All _ (storage.deleteResponse _ _ _ _).2.caches
      rw [caches_delete_response, h.modify_iff]
      intro cache hcache
      exact (h _ cache hcache).of_size_le ExtTreeMap.size_erase_le
  | deleteCache profile sitePartition name => exact h.erase _

theorem Fit.run (h : storage.Fit) (calls : List (StorageCall U)) :
    ((machine U).run storage calls).Fit :=
  Machine.run_invariant (fun _ call h => h.step call) h calls

end Histories

end CacheStorage

end BrowsAI.Cache
