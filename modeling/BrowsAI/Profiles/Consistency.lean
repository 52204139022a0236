import BrowsAI.Profiles.Config

/-!
# Consistency of a user agent with brands and platform

`check_profile_consistency` of `crates/profiles`. The family and the platform that a user agent
names are the first of a list of markers to occur in it. A configuration is `Coherent` when no brand
names a rival of the family and the declared platform names the platform, `check_eq_ok_iff`.
-/

namespace BrowsAI.Profiles

open Utf8

/-- The browsers that a user agent can name. -/
inductive UserAgentFamily where
  | firefox | edge | chrome | safari
  deriving DecidableEq

/-- The platforms that a user agent can name. -/
inductive UserAgentPlatform where
  | android | ios | macos | windows | linux
  deriving DecidableEq

/-- How a user agent disagrees with the rest. -/
inductive ProfileInconsistency where
  | userAgentClaimsBrowser (claimed declared : Text)
  | platformMismatch (uaPlatform declared : Text)
  deriving DecidableEq

/-- The browser that a user agent names. -/
def detectUserAgentFamily (ua : Text) : Option UserAgentFamily :=
  let lower := asciiLower ua
  if contains "firefox/" lower ∧ ¬ contains "seamonkey" lower then some .firefox
  else if contains "edg/" lower then some .edge
  else if contains "chrome/" lower then some .chrome
  else if contains "safari/" lower then some .safari
  else none

/-- The platform that it names. -/
def detectUserAgentPlatform (ua : Text) : Option UserAgentPlatform :=
  if contains "Android" ua then some .android
  else if contains "iPhone" ua ∨ contains "iPad" ua ∨ contains "iPod" ua then some .ios
  else if contains "Macintosh" ua ∨ contains "Mac OS X" ua then some .macos
  else if contains "Windows NT" ua then some .windows
  else if contains "Linux" ua then some .linux
  else none

/-! ## Brands -/

/-- A brand is that of Chrome or one like it. -/
def chromeLike (brands : List SecChUaBrand) : Bool :=
  brands.any fun brand =>
    let b := asciiLower brand.brand
    contains "chrome" b || contains "chromium" b || contains "edge" b

/-- A brand is that of Firefox. -/
def firefoxLike (brands : List SecChUaBrand) : Bool :=
  brands.any fun brand => contains "firefox" (asciiLower brand.brand)

/-- A brand is that of Safari. -/
def safariLike (brands : List SecChUaBrand) : Bool :=
  brands.any fun brand => contains "safari" (asciiLower brand.brand)

namespace UserAgentFamily

/-- The name of a browser in errors. -/
def text : UserAgentFamily → Text
  | .firefox => "firefox"
  | .edge => "edge"
  | .chrome => "chrome"
  | .safari => "safari"

/-- Some brand names a rival of the family. -/
def rivaled : UserAgentFamily → List SecChUaBrand → Bool
  | .chrome, brands | .edge, brands => firefoxLike brands || safariLike brands
  | .firefox, brands => chromeLike brands || safariLike brands
  | .safari, brands => chromeLike brands || firefoxLike brands

/-- The rivals as the error names them. -/
def rivals : UserAgentFamily → Text
  | .chrome | .edge => "firefox/safari brands"
  | .firefox => "chrome/safari brands"
  | .safari => "chrome/firefox brands"

end UserAgentFamily

namespace UserAgentPlatform

/-- The name of a platform in errors. -/
def text : UserAgentPlatform → Text
  | .android => "android"
  | .ios => "ios"
  | .macos => "macos"
  | .windows => "windows"
  | .linux => "linux"

/-- `matches`, from the declared platform. -/
def isNamedBy (platform : Text) : UserAgentPlatform → Bool :=
  let platformLower := asciiLower platform
  fun
  | .android => contains "android" platformLower || contains "linux" platformLower
  | .ios =>
      contains "iphone" platformLower || contains "ipad" platformLower ||
        contains "ios" platformLower
  | .macos => contains "mac" platformLower
  | .windows => contains "windows" platformLower
  | .linux => contains "linux" platformLower

end UserAgentPlatform

/-! ## The checks

Profiles and fingerprints are checked alike. The two errors are parameters.
-/

section Checks

variable {ε : Type} (claims mismatch : Text → Text → ε) (ua : Text) (brands : List SecChUaBrand)
  (platform : Text)

/-- The brands are not those of another browser. -/
def checkBrands : Except ε Unit :=
  match detectUserAgentFamily ua with
  | some family =>
      if family.rivaled brands then .error (claims family.text family.rivals) else .ok ()
  | none => .ok ()

/-- The platform is the one that is named. -/
def checkPlatform : Except ε Unit :=
  match detectUserAgentPlatform ua with
  | some uaPlatform =>
      if !uaPlatform.isNamedBy platform then .error (mismatch uaPlatform.text platform)
      else .ok ()
  | none => .ok ()

/-- Both checks, the brands first. -/
def checkUserAgent : Except ε Unit := do
  checkBrands claims ua brands
  checkPlatform mismatch ua platform

end Checks

/-- The check of a configuration, if it has a user agent. -/
def checkProfileConsistency (config : ProfileConfig) : Except ProfileInconsistency Unit :=
  match config.userAgent with
  | none => .ok ()
  | some ua =>
      checkUserAgent .userAgentClaimsBrowser .platformMismatch ua config.brands config.platform

/-! ## What the checks mean -/

/-- No brand names a rival of the family of the user agent. -/
def BrandsAgree (ua : Text) (brands : List SecChUaBrand) : Prop :=
  ∀ family, detectUserAgentFamily ua = some family → family.rivaled brands = false

/-- The declared platform names the platform of the user agent. -/
def PlatformAgrees (ua platform : Text) : Prop :=
  ∀ uaPlatform, detectUserAgentPlatform ua = some uaPlatform →
    uaPlatform.isNamedBy platform = true

/-- The user agent agrees with the brands and the platform. -/
def ProfileConfig.Coherent (config : ProfileConfig) : Prop :=
  ∀ ua, config.userAgent = some ua →
    BrandsAgree ua config.brands ∧ PlatformAgrees ua config.platform

section Checks

variable {ε : Type} {claims mismatch : Text → Text → ε} {ua : Text} {brands : List SecChUaBrand}
  {platform : Text}

theorem bind_eq_ok_iff {α : Type} {x : Except ε Unit} {y : Except ε α} {a : α} :
    (x >>= fun _ => y) = .ok a ↔ x = .ok () ∧ y = .ok a := by
  cases x with
  | error e =>
      refine iff_of_false (fun h => ?_) fun h => ?_
      · cases h
      · cases h.1
  | ok u => exact ⟨fun h => ⟨rfl, h⟩, fun h => h.2⟩

theorem check_brands_eq_ok_iff : checkBrands claims ua brands = .ok () ↔ BrandsAgree ua brands := by
  unfold checkBrands BrandsAgree
  cases detectUserAgentFamily ua with
  | none => simp
  | some family => cases hrivaled : family.rivaled brands <;> simp [hrivaled]

theorem check_platform_eq_ok_iff :
    checkPlatform mismatch ua platform = .ok () ↔ PlatformAgrees ua platform := by
  unfold checkPlatform PlatformAgrees
  cases detectUserAgentPlatform ua with
  | none => simp
  | some uaPlatform => cases hnamed : uaPlatform.isNamedBy platform <;> simp [hnamed]

theorem check_user_agent_eq_ok_iff :
    checkUserAgent claims mismatch ua brands platform = .ok () ↔
      BrandsAgree ua brands ∧ PlatformAgrees ua platform := by
  unfold checkUserAgent
  rw [bind_eq_ok_iff, check_brands_eq_ok_iff, check_platform_eq_ok_iff]

end Checks

/-- The check accepts exactly the coherent configurations. -/
theorem check_eq_ok_iff {config : ProfileConfig} :
    checkProfileConsistency config = .ok () ↔ config.Coherent := by
  unfold checkProfileConsistency ProfileConfig.Coherent
  cases config.userAgent with
  | none => simp
  | some ua =>
      dsimp only
      rw [check_user_agent_eq_ok_iff]
      simp

/-- Coherence depends on the user agent, the brands and the platform. -/
theorem ProfileConfig.Coherent.congr {config config' : ProfileConfig}
    (hagent : config'.userAgent = config.userAgent) (hbrands : config'.brands = config.brands)
    (hplatform : config'.platform = config.platform) :
    config'.Coherent ↔ config.Coherent := by
  rw [Coherent, Coherent, hagent, hbrands, hplatform]

theorem coherent_normalize_config (limits : ProfileLimits) (config : ProfileConfig) :
    (normalizeConfig limits config).Coherent ↔ config.Coherent :=
  ProfileConfig.Coherent.congr rfl rfl rfl

/-! ## The configurations of a new profile -/

theorem coherent_default : (default : ProfileConfig).Coherent := by
  intro ua hua
  cases hua

theorem coherent_variant (variant : ProfileVariant) : variant.defaultConfig.Coherent := by
  refine check_eq_ok_iff.mp ?_
  -- a literal is rewritten to its characters, since decoding it by computation is slow
  cases variant <;>
  · rw [ProfileVariant.defaultConfig, ProfileVariant.v1Config, checkProfileConsistency]
    dsimp only
    repeat rw [String.toList_ofList]
    rfl

end BrowsAI.Profiles
