import BrowsAI.Cache.CacheStorage
import BrowsAI.Library.Json

/-!
# Caches on the wire

`to_json` and `from_json` of `HttpCache` and `CacheStorage` of `crates/cache`. The library that
turns wires into JSON text and back is a parameter, and `ReadsBack` what is expected of it. An
`HttpCache` gets its entries back as they were written, and a `CacheStorage` puts them once more,
under URLs that are parsed again: `values_restored` and `contents_restored`.
-/

namespace BrowsAI.Cache

open Std Utf8 Network Profiles

/-- An entry of a cache as it is written. -/
structure CacheEntry where
  profile : ProfileId
  sitePartition : Text
  url : Text
  response : CachedResponse

/-- A cache as it is written. -/
structure CacheWire where
  maxEntries : Nat
  entries : List CacheEntry

/-- A cache of the storage as it is written. -/
structure NamedCache where
  profile : ProfileId
  sitePartition : Text
  name : Text
  maxEntries : Nat
  entries : List CacheEntry

/-- The storage as it is written. -/
structure CacheStorageWire where
  caches : List NamedCache

/-- `serde_json::to_string` and `serde_json::from_str` at a type of wires. -/
structure Json (W : Type) where
  toString : W → Option Text
  fromStr : Text → Option W

/-- The text of the wire is read as that wire. -/
def Json.ReadsBack {W : Type} (json : Json W) (wire : W) : Prop :=
  ∃ text, json.toString wire = some text ∧ json.fromStr text = some wire

/-! ## One cache -/

namespace HttpCache

/-- The value that `to_json` writes. -/
def toWire (cache : HttpCache) : CacheWire where
  maxEntries := cache.maxEntries
  entries := cache.values.toList.map fun ((profile, sitePartition, url), response) =>
    { profile, sitePartition, url, response }

/-- The JSON of a cache. -/
def toJson (json : Json CacheWire) (cache : HttpCache) : Option Text := json.toString cache.toWire

/-- The cache that `from_json` makes of a value. -/
def fromWire (wire : CacheWire) : HttpCache :=
  let values := wire.entries.foldl (fun (values : Responses) entry =>
    values.insert (entry.profile, entry.sitePartition, entry.url) entry.response) ∅
  -- an older text may have more entries than its limit says
  ⟨values, max (max wire.maxEntries 1) values.size⟩

/-- The cache of a text. -/
def fromJson (json : Json CacheWire) (text : Text) : Option HttpCache :=
  (json.fromStr text).map fromWire

theorem fits_from_wire (wire : CacheWire) : (fromWire wire).Fits := .inl (Nat.le_max_right _ _)

theorem values_from_wire (cache : HttpCache) : (fromWire cache.toWire).values = cache.values := by
  rw [fromWire, toWire, List.foldl_map]
  exact OrdMap.foldl_insert_to_list cache.values

end HttpCache

/-! ## Named caches -/

section Restore

variable (U : Type) [Url U]

/-- A turn of the inner loop of `from_json`. -/
def HttpCache.restoreEntry (restored : HttpCache) (entry : CacheEntry) : Option HttpCache := do
  let url ← Url.parse (U := U) entry.url
  pure (restored.put entry.profile entry.sitePartition url entry.response)

/-- The entries put into an empty cache; one with a text that is no URL fails. -/
def NamedCache.restore (cache : NamedCache) : Option HttpCache :=
  cache.entries.foldlM (HttpCache.restoreEntry U) (.withCapacity cache.maxEntries)

/-- The cache under a key of a storage, as `to_json` writes it. -/
def HttpCache.toNamed : CacheKey × HttpCache → NamedCache
  | ((profile, sitePartition, name), cache) =>
      { profile, sitePartition, name
        maxEntries := cache.maxEntries
        entries := cache.values.toList.map fun ((_, _, url), response) =>
          { profile, sitePartition, url, response } }

namespace CacheStorage

/-- The value that `to_json` writes. -/
def toWire (storage : CacheStorage) : CacheStorageWire :=
  ⟨storage.caches.toList.map HttpCache.toNamed⟩

/-- The JSON of the storage. -/
def toJson (json : Json CacheStorageWire) (storage : CacheStorage) : Option Text :=
  json.toString storage.toWire

/-- A turn of the outer loop of `from_json`. -/
def restoreCache (storage : CacheStorage) (cache : NamedCache) : Option CacheStorage := do
  let restored ← cache.restore U
  pure ⟨storage.caches.insert (cache.profile, cache.sitePartition, cache.name) restored⟩

/-- The storage that `from_json` makes of a value, if the URLs of all entries can be parsed. -/
def fromWire (wire : CacheStorageWire) : Option CacheStorage :=
  wire.caches.foldlM (restoreCache U) default

/-- The storage of a text. -/
def fromJson (json : Json CacheStorageWire) (text : Text) : Option CacheStorage := do
  let wire ← json.fromStr text
  fromWire U wire

end CacheStorage

end Restore

/-! ### The loops of the loader -/

/-- A loop over written items that succeeds at each of them computes a view of its state. -/
theorem exists_foldlM {σ τ α β : Type} (step : σ → α → Option σ) (view : σ → τ)
    (next : τ → β → τ) (P : σ → Prop) (write : β → α) {items : List β}
    (hstep : ∀ s, ∀ item ∈ items, P s →
      ∃ t, step s (write item) = some t ∧ view t = next (view s) item ∧ P t)
    {s : σ} (hs : P s) :
    ∃ t, (items.map write).foldlM step s = some t ∧ view t = items.foldl next (view s) ∧ P t := by
  induction items generalizing s with
  | nil => exact ⟨s, rfl, rfl, hs⟩
  | cons item items ih =>
      obtain ⟨t, ht, hview, hpt⟩ := hstep s item List.mem_cons_self hs
      obtain ⟨u, hu, hviews, hpu⟩ :=
        ih (fun s item hitem => hstep s item (List.mem_cons_of_mem _ hitem)) hpt
      refine ⟨u, ?_, ?_, hpu⟩
      · rw [List.map_cons, List.foldlM_cons, ht]
        exact hu
      · rw [List.foldl_cons, ← hview, hviews]

section Loops

variable {U : Type} [Url U] (hparse : ∀ url : U, Url.parse (Url.asStr url) = some url)

include hparse

/-- The entries of a cache are put again under their own keys. -/
theorem NamedCache.exists_restore {key : CacheKey} {cache : HttpCache}
    (hhomed : ∀ (entryKey : CacheKey) (response : CachedResponse),
      cache.values[entryKey]? = some response →
        ∃ url : U, entryKey = (key.1, key.2.1, Url.asStr url)) :
    ∃ restored, (HttpCache.toNamed (key, cache)).restore U = some restored ∧
      restored.values = cache.values ∧ restored.Fits := by
  let write := fun (item : CacheKey × CachedResponse) =>
    (⟨key.1, key.2.1, item.1.2.2, item.2⟩ : CacheEntry)
  have hturn : ∀ (loaded : HttpCache), ∀ item ∈ cache.values.toList, loaded.Fits →
      ∃ next, loaded.restoreEntry U (write item) = some next ∧
        next.values = loaded.values.insert item.1 item.2 ∧ next.Fits := by
    rintro loaded ⟨entryKey, response⟩ hitem hloaded
    obtain ⟨url, rfl⟩ := hhomed entryKey response
      (ExtTreeMap.mem_toList_iff_getElem?_eq_some.mp hitem)
    refine ⟨loaded.put key.1 key.2.1 url response, ?_, rfl, hloaded.put _ _ _ _⟩
    show (Url.parse (Url.asStr url)).bind _ = _
    rw [hparse]
    rfl
  obtain ⟨restored, hrestored, hvalues, hfits⟩ := exists_foldlM (HttpCache.restoreEntry U)
    HttpCache.values (fun values item => values.insert item.1 item.2) HttpCache.Fits write hturn
    (HttpCache.fits_with_capacity cache.maxEntries)
  exact ⟨restored, hrestored, hvalues.trans (OrdMap.foldl_insert_to_list cache.values), hfits⟩

namespace CacheStorage

/-- The loader makes the same contents again, in caches that fit. -/
theorem exists_from_wire {storage : CacheStorage} (hhomed : storage.contents.Homed U) :
    ∃ restored, fromWire U storage.toWire = some restored ∧
      restored.contents = storage.contents ∧ restored.Fit := by
  have hturn : ∀ (loaded : CacheStorage), ∀ item ∈ storage.caches.toList, loaded.Fit →
      ∃ next, loaded.restoreCache U (HttpCache.toNamed item) = some next ∧
        next.contents = loaded.contents.insert item.1 item.2.values ∧ next.Fit := by
    rintro loaded ⟨key, cache⟩ hitem hloaded
    have hcontents : storage.contents[key]? = some cache.values := by
      rw [contents, ExtTreeMap.getElem?_map, ExtTreeMap.mem_toList_iff_getElem?_eq_some.mp hitem]
      rfl
    obtain ⟨restored, hrestored, hvalues, hfits⟩ :=
      NamedCache.exists_restore hparse (hhomed key cache.values hcontents)
    refine ⟨⟨loaded.caches.insert key restored⟩, ?_, ?_,
      (hloaded.insert_iff key restored).mpr hfits⟩
    · rw [restoreCache, hrestored]
      rfl
    · rw [← hvalues]
      exact OrdMap.map_insert key restored
  obtain ⟨restored, hrestored, hcontents, hfit⟩ := exists_foldlM (restoreCache U) contents
    (fun contents item => contents.insert item.1 item.2.values) Fit HttpCache.toNamed hturn
    fit_default
  refine ⟨restored, hrestored, hcontents.trans ?_, hfit⟩
  rw [contents_default]
  calc storage.caches.toList.foldl (fun contents item => contents.insert item.1 item.2.values) ∅
      = storage.contents.toList.foldl (fun contents item => contents.insert item.1 item.2) ∅ := by
        rw [contents, ExtTreeMap.toList_map, List.foldl_map]
    _ = storage.contents := OrdMap.foldl_insert_to_list storage.contents

end CacheStorage

end Loops

/-! ## Caches over time and across reloads -/

section Keeps

variable (U : Type) [Url U]

/-- Another cache answers as this one does, whatever both are given from now on, and has room for
its entries all along. -/
structure HttpCache.Restores (restored cache : HttpCache) : Prop where
  get_eq : ∀ (later : List (HttpCall U)) (profile : ProfileId) (sitePartition : Text) (url : U),
    ((machine U).run restored later).get profile sitePartition url =
      ((machine U).run cache later).get profile sitePartition url
  len_le : ∀ later : List (HttpCall U),
    ((machine U).run restored later).len.toNat ≤ ((machine U).run restored later).maxEntries

/-- A cache keeps its entries: a put leaves the other ones alone, they do not exceed the capacity,
and the JSON text restores them. -/
structure HttpCache.KeepsEntries (json : Json CacheWire) (cache : HttpCache) : Prop where
  put_other : ∀ (profile : ProfileId) (sitePartition : Text) (url : U) (response : CachedResponse)
    (key : CacheKey), key ≠ (profile, sitePartition, Url.asStr url) →
      (cache.put profile sitePartition url response).values[key]? = cache.values[key]?
  len_le : cache.len.toNat ≤ cache.maxEntries
  restored : ∃ restored, (cache.toJson json).bind (fromJson json) = some restored ∧
    restored.Restores U cache

/-- Every cache of the storage has room for its entries. -/
def CacheStorage.HasRoom (storage : CacheStorage) : Prop :=
  ∀ (key : CacheKey) (cache : HttpCache), storage.caches[key]? = some cache →
    cache.len.toNat ≤ cache.maxEntries

/-- Another storage answers as this one does, whatever both are given from now on, and has room for
its entries all along. -/
structure CacheStorage.Restores (restored storage : CacheStorage) : Prop where
  match_response_eq : ∀ (later : List (StorageCall U)) (profile : ProfileId)
    (sitePartition name : Text) (url : U),
    ((machine U).run restored later).matchResponse profile sitePartition name url =
      ((machine U).run storage later).matchResponse profile sitePartition name url
  names_eq : ∀ (later : List (StorageCall U)) (profile : ProfileId) (sitePartition : Text),
    ((machine U).run restored later).names profile sitePartition =
      ((machine U).run storage later).names profile sitePartition
  has_room : ∀ later : List (StorageCall U), ((machine U).run restored later).HasRoom

/-- A storage keeps its entries, and the names of its caches. -/
structure CacheStorage.KeepsEntries (json : Json CacheStorageWire) (storage : CacheStorage) :
    Prop where
  put_other : ∀ (profile : ProfileId) (sitePartition name : Text) (url : U)
    (response : CachedResponse) (cacheKey key : CacheKey),
    (cacheKey, key) ≠ ((profile, sitePartition, name), (profile, sitePartition, Url.asStr url)) →
      (storage.put profile sitePartition name url response).2.entry cacheKey key =
        storage.entry cacheKey key
  put_names : ∀ (profile : ProfileId) (sitePartition name : Text) (url : U)
    (response : CachedResponse),
    (storage.put profile sitePartition name url response).2.names = storage.names
  has_room : storage.HasRoom
  restored : ∃ restored, (storage.toJson json).bind (fromJson U json) = some restored ∧
    restored.Restores U storage

variable {U}

theorem HttpCache.restores_of_values_eq {restored cache : HttpCache}
    (h : restored.values = cache.values) (hfits : restored.Fits) : restored.Restores U cache where
  get_eq later profile sitePartition url := by
    rw [get, get, responses_run, responses_run, h]
  len_le later := (hfits.run later).len_le

theorem CacheStorage.Fit.has_room {storage : CacheStorage} (h : storage.Fit) : storage.HasRoom :=
  fun key cache hcache => (h key cache hcache).len_le

/-- A storage with the same contents answers every later call in the same way. -/
theorem CacheStorage.restores_of_contents_eq {restored storage : CacheStorage}
    (h : restored.contents = storage.contents) (hfit : restored.Fit) :
    restored.Restores U storage where
  match_response_eq later profile sitePartition name url := by
    rw [match_response_eq, match_response_eq, entry_eq, entry_eq, contents_run, contents_run, h]
  names_eq later profile sitePartition := by
    rw [names_eq, names_eq, contents_run, contents_run, h]
  has_room later := (hfit.run later).has_room

theorem HttpCache.Fits.keeps_entries {json : Json CacheWire} {cache : HttpCache} (h : cache.Fits)
    (hjson : json.ReadsBack cache.toWire) : cache.KeepsEntries U json where
  put_other _ _ _ response _ hkey := cache.put_other hkey response
  len_le := h.len_le
  restored := by
    obtain ⟨text, htext, hread⟩ := hjson
    refine ⟨fromWire cache.toWire, ?_,
      restores_of_values_eq (values_from_wire cache) (fits_from_wire _)⟩
    rw [toJson, htext, Option.bind_some, fromJson, hread, Option.map_some]

/-- A storage that is written and read back keeps its entries. -/
theorem CacheStorage.Fit.keeps_entries (hparse : ∀ url : U, Url.parse (Url.asStr url) = some url)
    {json : Json CacheStorageWire} {storage : CacheStorage} (h : storage.Fit)
    (hhomed : storage.contents.Homed U) (hjson : json.ReadsBack storage.toWire) :
    storage.KeepsEntries U json where
  put_other profile sitePartition name _ response _ _ hkey :=
    storage.entry_put_other profile sitePartition name hkey response
  put_names := storage.names_put
  has_room := h.has_room
  restored := by
    obtain ⟨text, htext, hread⟩ := hjson
    obtain ⟨restored, hrestored, hcontents, hfit⟩ := exists_from_wire hparse hhomed
    refine ⟨restored, ?_, restores_of_contents_eq hcontents hfit⟩
    rw [toJson, htext, Option.bind_some, fromJson, hread]
    exact hrestored

/-- Whatever calls a cache and a storage have taken, and with whatever capacities, they keep their
entries. -/
theorem caches_keep_entries (hparse : ∀ url : U, Url.parse (Url.asStr url) = some url)
    (json : Json CacheWire) (storageJson : Json CacheStorageWire) (capacity : Nat)
    (calls : List (HttpCall U)) (storageCalls : List (StorageCall U))
    (hjson : json.ReadsBack ((HttpCache.machine U).run (.withCapacity capacity) calls).toWire)
    (hstorageJson :
      storageJson.ReadsBack ((CacheStorage.machine U).run default storageCalls).toWire) :
    ((HttpCache.machine U).run (.withCapacity capacity) calls).KeepsEntries U json ∧
      ((CacheStorage.machine U).run default storageCalls).KeepsEntries U storageJson := by
  have hhomed : (((CacheStorage.machine U).run default storageCalls).contents).Homed U := by
    rw [CacheStorage.contents_run, CacheStorage.contents_default]
    exact Contents.homed_run storageCalls
  constructor
  · exact ((HttpCache.fits_with_capacity capacity).run calls).keeps_entries hjson
  · exact (CacheStorage.fit_default.run storageCalls).keeps_entries hparse hhomed hstorageJson

end Keeps

/-! ### A storage in JSON text -/

namespace Json

open JsonPrint (quote object array)

/-- The JSON of a response. -/
def response (response : CachedResponse) : Text :=
  object [("status", ofNat response.status.toNat),
    ("headers", object (response.headers.toList.map fun (name, value) => (name, quote value))),
    ("body", array (response.body.map fun byte => ofNat byte.toNat))]

/-- The JSON of an entry. -/
def entry (entry : CacheEntry) : Text :=
  object [("profile", quote (hyphenated entry.profile)), ("partition", quote entry.sitePartition),
    ("url", quote entry.url), ("response", response entry.response)]

/-- The JSON of a written cache. -/
def cacheWire (wire : CacheWire) : Text :=
  object [("max_entries", ofNat wire.maxEntries), ("entries", array (wire.entries.map entry))]

/-- The JSON of a cache of the storage. -/
def namedCache (cache : NamedCache) : Text :=
  object [("profile", quote (hyphenated cache.profile)), ("partition", quote cache.sitePartition),
    ("name", quote cache.name), ("max_entries", ofNat cache.maxEntries),
    ("entries", array (cache.entries.map entry))]

/-- The JSON of a written storage. -/
def storageWire (wire : CacheStorageWire) : Text :=
  object [("caches", array (wire.caches.map namedCache))]

/-- A printer, and a reader of the text of one value. -/
def printed {W : Type} (print : W → Text) (value : W) : Json W where
  toString wire := some (print wire)
  fromStr text := if text = print value then some value else none

theorem printed_reads_back {W : Type} (print : W → Text) (value : W) :
    (printed print value).ReadsBack value :=
  ⟨print value, rfl, if_pos rfl⟩

end Json

/-- The plain URLs that their own texts are read as. -/
def ReadableUrl : Type := {url : PlainUrl // Url.parse (Url.asStr url) = some url}

namespace ReadableUrl

/-- The URL, if it is read back from its text. -/
def ofPlain (url : PlainUrl) : Option ReadableUrl :=
  if h : Url.parse (Url.asStr url) = some url then some ⟨url, h⟩ else none

instance : Url ReadableUrl where
  asStr url := Url.asStr url.val
  scheme url := Url.scheme url.val
  hostStr url := Url.hostStr url.val
  path url := Url.path url.val
  portOrKnownDefault url := Url.portOrKnownDefault url.val
  parse text := (Url.parse text).bind ofPlain
  join url location := (Url.join url.val location).bind ofPlain

theorem parse_as_str (url : ReadableUrl) : Url.parse (Url.asStr url) = some url := by
  show (Url.parse (Url.asStr url.val)).bind ofPlain = some url
  rw [url.property, Option.bind_some, ofPlain, dif_pos url.property]
  rfl

/-- A page of the shop. -/
def page : ReadableUrl := ⟨⟨"https", "shop.test", "/a"⟩, by decide⟩

/-- Another URL of the shop. -/
def script : ReadableUrl := ⟨⟨"https", "shop.test", "/b"⟩, by decide⟩

end ReadableUrl

/-- A response with one byte. -/
def okResponse : CachedResponse := ⟨200, ∅, [1]⟩

/-- A cache for one entry that takes two. -/
def grown : HttpCache :=
  (HttpCache.machine ReadableUrl).run (.withCapacity 1)
    [.put 1 "https://shop.test" .page okResponse, .put 1 "https://shop.test" .script okResponse]

/-- Two named caches, one of them for one entry. -/
def opened : CacheStorage :=
  (CacheStorage.machine ReadableUrl).run default
    [.openCache 1 "https://shop.test" "v1" 1, .openCache 1 "https://shop.test" "v2" 8,
      .put 1 "https://shop.test" "v1" .page okResponse,
      .put 1 "https://shop.test" "v1" .script okResponse]

theorem grown_and_opened_keep_entries :
    grown.KeepsEntries ReadableUrl (.printed Json.cacheWire grown.toWire) ∧
      opened.KeepsEntries ReadableUrl (.printed Json.storageWire opened.toWire) :=
  caches_keep_entries ReadableUrl.parse_as_str _ _ 1 _ _ (Json.printed_reads_back _ _)
    (Json.printed_reads_back _ _)

end BrowsAI.Cache
