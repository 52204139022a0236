import BrowsAI.Profiles.Identity
import Mathlib.Data.List.DropRight

/-!
# Profile configurations

`ProfileConfig` of `crates/profiles`, its default, the configurations of the variants, and the
size limits. The fields of schema version 1 are a structure of their own, since a document of that
version has no others.
-/

namespace BrowsAI.Profiles

open Utf8

/-- The size of the window. -/
structure ProfileViewport where
  width : UInt32
  height : UInt32
  deviceScaleFactor : UInt32
  deriving DecidableEq

namespace ProfileConfig

/-- A page that was visited. -/
structure HistoryEntry where
  url : Text
  title : Option Text
  visitedAtUnixSeconds : UInt64
  deriving DecidableEq

/-- A value that was typed into a field. -/
structure AutocompleteEntry where
  field : Text
  value : Text
  lastUsedUnixSeconds : UInt64
  deriving DecidableEq

end ProfileConfig

open ProfileConfig (HistoryEntry AutocompleteEntry)

/-- The fields of schema version 1. -/
structure ConfigV1 where
  userAgent : Option Text
  locale : Text
  timezone : Text
  homepage : Option Text
  extensions : List Text
  history : List HistoryEntry
  autocomplete : List AutocompleteEntry
  deriving DecidableEq

/-- With what version 2 added about the identity. -/
structure ProfileConfig extends ConfigV1 where
  viewport : ProfileViewport
  platform : Text
  brands : List SecChUaBrand
  acceptLanguage : Text
  hardwareConcurrency : UInt8
  deviceMemory : UInt8
  maxTouchPoints : UInt8
  colorDepth : UInt8
  deriving DecidableEq

/-- A maximum of 0 is no limit, except on the profiles. -/
structure ProfileLimits where
  maxProfiles : Nat
  maxHistoryEntries : Nat
  maxAutocompleteEntries : Nat
  maxExtensions : Nat
  deriving DecidableEq

/-! ## Defaults -/

instance : Inhabited ProfileViewport where
  default := ⟨1280, 720, 1⟩

instance : Inhabited ProfileLimits where
  default := ⟨32, 1000, 100, 64⟩

/-- The brands of Chrome 140, which the default has in common with two variants. -/
def chromeBrands : List SecChUaBrand :=
  [⟨" Not A;Brand", "99"⟩, ⟨"Chromium", "140"⟩, ⟨"Google Chrome", "140"⟩]

instance : Inhabited ProfileConfig where
  default :=
    { userAgent := none
      locale := "en-US"
      timezone := "UTC"
      homepage := none
      extensions := []
      history := []
      autocomplete := []
      viewport := default
      platform := "Linux x86_64"
      brands := chromeBrands
      acceptLanguage := "en-US,en;q=0.9"
      hardwareConcurrency := 8
      deviceMemory := 8
      maxTouchPoints := 0
      colorDepth := 24 }

/-- The browsers that a profile can look like. -/
inductive ProfileVariant where
  | chromeDesktop | firefoxDesktop | safariDesktop | chromeAndroid | safariIos
  deriving DecidableEq

namespace ProfileVariant

/-- The fields of schema version 1 of a variant, which differ in the user agent. -/
def v1Config (userAgent : Text) : ConfigV1 where
  userAgent := some userAgent
  locale := "en-US"
  timezone := "America/Los_Angeles"
  homepage := none
  extensions := []
  history := []
  autocomplete := []

/-- The configuration of a variant. -/
def defaultConfig : ProfileVariant → ProfileConfig
  | .chromeDesktop =>
      { v1Config ("Mozilla/5.0 (X11; Linux x86_64) AppleWebKit/537.36 (KHTML, like Gecko) " ++
          "Chrome/140.0.0.0 Safari/537.36") with
        viewport := ⟨1920, 1080, 1⟩
        platform := "Linux x86_64"
        brands := chromeBrands
        acceptLanguage := "en-US,en;q=0.9"
        hardwareConcurrency := 8
        deviceMemory := 8
        maxTouchPoints := 0
        colorDepth := 24 }
  | .firefoxDesktop =>
      { v1Config "Mozilla/5.0 (X11; Linux x86_64; rv:130.0) Gecko/20100101 Firefox/130.0" with
        viewport := ⟨1920, 1080, 1⟩
        platform := "Linux x86_64"
        brands := []
        acceptLanguage := "en-US,en;q=0.5"
        hardwareConcurrency := 8
        deviceMemory := 8
        maxTouchPoints := 0
        colorDepth := 24 }
  | .safariDesktop =>
      { v1Config ("Mozilla/5.0 (Macintosh; Intel Mac OS X 14_6) AppleWebKit/605.1.15 " ++
          "(KHTML, like Gecko) Version/17.6 Safari/605.1.15") with
        viewport := ⟨2560, 1440, 2⟩
        platform := "MacIntel"
        brands := []
        acceptLanguage := "en-US,en;q=0.9"
        hardwareConcurrency := 10
        deviceMemory := 16
        maxTouchPoints := 0
        colorDepth := 30 }
  | .chromeAndroid =>
      { v1Config ("Mozilla/5.0 (Linux; Android 14; Pixel 8) AppleWebKit/537.36 " ++
          "(KHTML, like Gecko) Chrome/140.0.0.0 Mobile Safari/537.36") with
        viewport := ⟨412, 915, 2⟩
        platform := "Linux armv81"
        brands := chromeBrands
        acceptLanguage := "en-US,en;q=0.9"
        hardwareConcurrency := 8
        deviceMemory := 8
        maxTouchPoints := 5
        colorDepth := 24 }
  | .safariIos =>
      { v1Config ("Mozilla/5.0 (iPhone; CPU iPhone OS 17_6 like Mac OS X) AppleWebKit/605.1.15 " ++
          "(KHTML, like Gecko) Version/17.6 Mobile/15E148 Safari/604.1") with
        viewport := ⟨393, 852, 3⟩
        platform := "iPhone"
        brands := []
        acceptLanguage := "en-US,en;q=0.9"
        hardwareConcurrency := 6
        deviceMemory := 4
        maxTouchPoints := 5
        colorDepth := 24 }

end ProfileVariant

/-! ## Size limits -/

/-- `drain` of all but the last `limit` entries, unless there is no limit. -/
def drainTo {α : Type} (limit : Nat) (entries : List α) : List α :=
  if 0 < limit ∧ limit < entries.length then entries.drop (entries.length - limit) else entries

/-- The lists cut to the limits: the history and the autocomplete keep what is new. -/
def normalizeConfig (limits : ProfileLimits) (config : ProfileConfig) : ProfileConfig :=
  { config with
    history := drainTo limits.maxHistoryEntries config.history
    autocomplete := drainTo limits.maxAutocompleteEntries config.autocomplete
    extensions :=
      if 0 < limits.maxExtensions ∧ limits.maxExtensions < config.extensions.length then
        config.extensions.take limits.maxExtensions
      else config.extensions }

/-- A configuration within size limits: the last visits, the last completions, and the first
extensions. -/
def ConfigV1.within (limits : ProfileLimits) (config : ConfigV1) : ConfigV1 :=
  { config with
    history :=
      if limits.maxHistoryEntries = 0 then config.history
      else config.history.rtake limits.maxHistoryEntries
    autocomplete :=
      if limits.maxAutocompleteEntries = 0 then config.autocomplete
      else config.autocomplete.rtake limits.maxAutocompleteEntries
    extensions :=
      if limits.maxExtensions = 0 then config.extensions
      else config.extensions.take limits.maxExtensions }

theorem drain_to_eq {α : Type} (limit : Nat) (entries : List α) :
    drainTo limit entries = if limit = 0 then entries else entries.rtake limit := by
  rw [drainTo, List.rtake]
  by_cases hzero : limit = 0
  · rw [if_pos hzero, if_neg (by omega)]
  rw [if_neg hzero]
  by_cases hlong : limit < entries.length
  · rw [if_pos ⟨by omega, hlong⟩]
  · have hall : entries.length - limit = 0 := by omega
    rw [if_neg (by omega), hall, List.drop_zero]

theorem truncate_eq {α : Type} (limit : Nat) (entries : List α) :
    (if 0 < limit ∧ limit < entries.length then entries.take limit else entries) =
      if limit = 0 then entries else entries.take limit := by
  by_cases hzero : limit = 0
  · rw [if_pos hzero, if_neg (by omega)]
  rw [if_neg hzero]
  by_cases hlong : limit < entries.length
  · rw [if_pos ⟨by omega, hlong⟩]
  · rw [if_neg (by omega), List.take_of_length_le (by omega)]

/-- Normalising keeps the fields of version 1 within the limits. -/
theorem normalize_config_v1 (limits : ProfileLimits) (config : ProfileConfig) :
    (normalizeConfig limits config).toConfigV1 = config.toConfigV1.within limits := by
  rw [normalizeConfig, ConfigV1.within, drain_to_eq, drain_to_eq, truncate_eq]

end BrowsAI.Profiles
