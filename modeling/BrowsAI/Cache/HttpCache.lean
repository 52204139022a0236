import BrowsAI.Library.OrdMap
import BrowsAI.Network.Url
import BrowsAI.Profiles.Identity

/-!
# The HTTP cache

`HttpCache` of `crates/cache`: responses by profile, partition, and URL.
-/

namespace BrowsAI.Cache

open Utf8 Network Profiles

/-- A response as it is kept. -/
structure CachedResponse where
  status : UInt16
  headers : OrdMap Text Text
  body : List UInt8

/-- Profile, partition, and URL. -/
abbrev CacheKey := ProfileId × Text × Text

instance instTransOrdCacheKey : Std.TransOrd CacheKey := instTransOrdPair

/-- The responses by profile, partition and URL, and how many may be kept. -/
structure HttpCache where
  values : OrdMap CacheKey CachedResponse
  maxEntries : Nat

namespace HttpCache

/-- An empty cache with room for one entry at least. -/
def withCapacity (maxEntries : Nat) : HttpCache := ⟨∅, max maxEntries 1⟩

/-- `HttpCache::default()`. -/
instance : Inhabited HttpCache := ⟨withCapacity 256⟩

/-- `usize::saturating_mul(2)` and `usize::saturating_add(1)` saturate here. -/
def usizeMax : Nat := 2 ^ 64 - 1

variable {U : Type} [Url U]

/-- Stores a response. A full cache doubles its maximum. -/
def put (cache : HttpCache) (profile : ProfileId) (sitePartition : Text) (url : U)
    (response : CachedResponse) : HttpCache :=
  let key : CacheKey := (profile, sitePartition, Url.asStr url)
  -- a full cache grows instead of evicting an entry
  let maxEntries :=
    if !cache.values.contains key && cache.maxEntries ≤ cache.values.size then
      max (min (cache.maxEntries * 2) usizeMax) (min (cache.values.size + 1) usizeMax)
    else cache.maxEntries
  ⟨cache.values.insert key response, maxEntries⟩

/-- The response for a URL in a partition. -/
def get (cache : HttpCache) (profile : ProfileId) (sitePartition : Text) (url : U) :
    Option CachedResponse :=
  cache.values[((profile, sitePartition, Url.asStr url) : CacheKey)]?

/-- Drops the response for a URL. -/
def invalidate (cache : HttpCache) (profile : ProfileId) (sitePartition : Text) (url : U) :
    HttpCache :=
  { cache with values := cache.values.erase (profile, sitePartition, Url.asStr url) }

/-- Drops every response of a partition. -/
def invalidatePartition (cache : HttpCache) (profile : ProfileId) (sitePartition : Text) :
    HttpCache :=
  { cache with
    values := cache.values.filter fun (entryProfile, entryPartition, _) _ =>
      entryProfile ≠ profile ∨ entryPartition ≠ sitePartition }

end HttpCache

end BrowsAI.Cache
