import BrowsAI.Profiles.Consistency

/-!
# Fingerprints

`Fingerprint` of `crates/fingerprint`, without the canvas seed and the fonts that nothing here
reads, its checks, and the profile configuration that is made of it. A fingerprint that passes its
checks makes a coherent configuration, `coherent_of_is_consistent`.
-/

namespace BrowsAI.Profiles

open Utf8

/-- The name of a fingerprint. -/
abbrev FingerprintId := Text

/-- The size of the window. -/
structure IdentityViewport where
  width : UInt32
  height : UInt32
  deviceScaleFactor : UInt32
  deriving DecidableEq

/-- The whole of `ProfileIdentity`, with the fields that no request header carries. -/
structure EngineIdentity extends ProfileIdentity where
  locale : Text
  timezone : Text
  viewport : IdentityViewport
  hardwareConcurrency : UInt8
  deviceMemory : UInt8
  maxTouchPoints : UInt8
  colorDepth : UInt8
  deriving DecidableEq

/-- What pages can tell a browser by. -/
structure Fingerprint where
  id : FingerprintId
  userAgent : Text
  locale : Text
  timezone : Text
  viewport : IdentityViewport
  platform : Text
  brands : List SecChUaBrand
  acceptLanguage : Text
  webglVendor : Text
  webglRenderer : Text
  hardwareConcurrency : UInt8
  deviceMemory : UInt8
  maxTouchPoints : UInt8
  colorDepth : UInt8
  deriving DecidableEq

/-- How the parts of a fingerprint disagree. -/
inductive FingerprintInconsistency where
  | userAgentClaimsBrowser (claimed declared : Text)
  | platformMismatch (uaPlatform declared : Text)
  | webglMismatch (uaFamily webglVendor : Text)
  deriving DecidableEq

namespace Fingerprint

variable (fingerprint : Fingerprint)

/-- The identity that a profile takes from it. -/
def intoProfileIdentity : EngineIdentity where
  userAgent := fingerprint.userAgent
  locale := fingerprint.locale
  timezone := fingerprint.timezone
  viewport := fingerprint.viewport
  platform := fingerprint.platform
  brands := fingerprint.brands
  acceptLanguage := fingerprint.acceptLanguage
  hardwareConcurrency := fingerprint.hardwareConcurrency
  deviceMemory := fingerprint.deviceMemory
  maxTouchPoints := fingerprint.maxTouchPoints
  colorDepth := fingerprint.colorDepth

/-- The numbers suit the platform. -/
def navigatorIsConsistent : Except FingerprintInconsistency Unit :=
  let platformLower := asciiLower fingerprint.platform
  let touchDevice : Bool := fingerprint.maxTouchPoints ≥ 5
  let isIos := contains "iphone" platformLower || contains "ipad" platformLower
  let isAndroidUaClaim := contains "android" (asciiLower fingerprint.userAgent)
  if touchDevice ∧ fingerprint.hardwareConcurrency > 8 then
    .error (.platformMismatch "touch"
      ("hardwareConcurrency=" ++ ofNat fingerprint.hardwareConcurrency.toNat))
  else if touchDevice ∧ fingerprint.deviceMemory > 16 then
    .error (.platformMismatch "touch" ("deviceMemory=" ++ ofNat fingerprint.deviceMemory.toNat))
  else if fingerprint.colorDepth > 32 then
    .error (.platformMismatch fingerprint.platform
      ("colorDepth=" ++ ofNat fingerprint.colorDepth.toNat))
  else if ¬ touchDevice ∧ (isIos ∨ isAndroidUaClaim ∨ contains "android" platformLower) then
    .error (.platformMismatch "touch"
      ("maxTouchPoints=" ++ ofNat fingerprint.maxTouchPoints.toNat))
  else .ok ()

/-- The third check of `is_consistent`. -/
def checkWebgl : Except FingerprintInconsistency Unit :=
  match detectUserAgentFamily fingerprint.userAgent with
  | none => .ok ()
  | some family =>
      let vendorLower := asciiLower fingerprint.webglVendor
      let rendererLower := asciiLower fingerprint.webglRenderer
      let expectsChrome := family = .chrome ∨ family = .edge
      let chromeMarker := contains "google" vendorLower || contains "angle" rendererLower ||
        contains "intel" vendorLower || contains "mesa" rendererLower ||
        contains "apple" rendererLower
      if expectsChrome ∧ ¬ chromeMarker ∧ vendorLower ≠ [] then
        .error (.webglMismatch family.text fingerprint.webglVendor)
      else .ok ()

/-- All checks, one after the other. -/
def isConsistent : Except FingerprintInconsistency Unit := do
  checkUserAgent .userAgentClaimsBrowser .platformMismatch fingerprint.userAgent fingerprint.brands
    fingerprint.platform
  fingerprint.checkWebgl
  fingerprint.navigatorIsConsistent

end Fingerprint

/-- The fingerprints by name. -/
structure FingerprintCatalog where
  entries : OrdMap FingerprintId Fingerprint

namespace FingerprintCatalog

/-- The fingerprint of a name. -/
def get (catalog : FingerprintCatalog) (id : FingerprintId) : Option Fingerprint :=
  catalog.entries[id]?

end FingerprintCatalog

/-- The configuration that `apply_fingerprint` makes of an identity. -/
def ProfileConfig.ofIdentity (identity : EngineIdentity) : ProfileConfig where
  userAgent := some identity.userAgent
  locale := identity.locale
  timezone := identity.timezone
  homepage := none
  extensions := []
  history := []
  autocomplete := []
  viewport :=
    ⟨identity.viewport.width, identity.viewport.height, identity.viewport.deviceScaleFactor⟩
  platform := identity.platform
  brands := identity.brands
  acceptLanguage := identity.acceptLanguage
  hardwareConcurrency := identity.hardwareConcurrency
  deviceMemory := identity.deviceMemory
  maxTouchPoints := identity.maxTouchPoints
  colorDepth := identity.colorDepth

/-- A fingerprint is checked for more than the configuration that is made of it. -/
theorem is_consistent_eq_ok_iff {fingerprint : Fingerprint} :
    fingerprint.isConsistent = .ok () ↔
      (ProfileConfig.ofIdentity fingerprint.intoProfileIdentity).Coherent ∧
        fingerprint.checkWebgl = .ok () ∧ fingerprint.navigatorIsConsistent = .ok () := by
  have hcoherent : (ProfileConfig.ofIdentity fingerprint.intoProfileIdentity).Coherent ↔
      BrandsAgree fingerprint.userAgent fingerprint.brands ∧
        PlatformAgrees fingerprint.userAgent fingerprint.platform :=
    ⟨fun h => h _ rfl, fun h _ hua => Option.some.inj hua ▸ h⟩
  rw [Fingerprint.isConsistent, bind_eq_ok_iff, bind_eq_ok_iff, check_user_agent_eq_ok_iff,
    hcoherent]

theorem coherent_of_is_consistent {fingerprint : Fingerprint}
    (h : fingerprint.isConsistent = .ok ()) :
    (ProfileConfig.ofIdentity fingerprint.intoProfileIdentity).Coherent :=
  (is_consistent_eq_ok_iff.mp h).1

end BrowsAI.Profiles
