import BrowsAI.Profiles.Coherence

/-!
# Applying a fingerprint

`try_update_config` and `apply_fingerprint` as they write the manager in place, where an error takes
no write back, and the checks of `crates/fingerprint` in its own words. A fingerprint that these
accept is never rejected by those of `crates/profiles`, and a call that does not report an update
has left the manager as it was. A call that does replaces the whole configuration of the profile:
`apply_fingerprint_changes_identity_only_iff`.
-/

namespace BrowsAI.Profiles

open Utf8

namespace Fingerprint

/-! ## The checks of the fingerprint crate -/

/-- The browser that a user agent names, as a text. -/
def detectUserAgentFamily (ua : Text) : Option Text :=
  let lower := asciiLower ua
  if contains "firefox/" lower ∧ ¬ contains "seamonkey" lower then some "firefox"
  else if contains "edg/" lower then some "edge"
  else if contains "chrome/" lower then some "chrome"
  else if contains "safari/" lower then some "safari"
  else none

/-- The platform that it names, as a text. -/
def detectUserAgentPlatform (ua : Text) : Option Text :=
  if contains "Android" ua then some "android"
  else if contains "iPhone" ua || contains "iPad" ua || contains "iPod" ua then some "ios"
  else if contains "Macintosh" ua || contains "Mac OS X" ua then some "macos"
  else if contains "Windows NT" ua then some "windows"
  else if contains "Linux" ua then some "linux"
  else none

variable (fingerprint : Fingerprint)

/-- The first block of `is_consistent`: the brands of the family. -/
def checkFamilyBrands (family : Text) : Except FingerprintInconsistency Unit := do
  let chromeLike := fingerprint.brands.any fun brand =>
    let b := asciiLower brand.brand
    contains "chrome" b || contains "chromium" b || contains "edge" b
  let firefoxLike := fingerprint.brands.any fun brand =>
    contains "firefox" (asciiLower brand.brand)
  let safariLike := fingerprint.brands.any fun brand => contains "safari" (asciiLower brand.brand)
  if family = "chrome" ∨ family = "edge" then
    if firefoxLike || safariLike then
      throw (.userAgentClaimsBrowser family "firefox/safari brands")
  else if family = "firefox" then
    if chromeLike || safariLike then
      throw (.userAgentClaimsBrowser "firefox" "chrome/safari brands")
  else if family = "safari" ∧ (chromeLike || firefoxLike) then
    throw (.userAgentClaimsBrowser "safari" "chrome/firefox brands")

/-- The second block: the platform. -/
def checkUaPlatform (platform : Text) : Except FingerprintInconsistency Unit := do
  let platformLower := asciiLower fingerprint.platform
  let isMatch :=
    if platform = "android" then contains "android" platformLower || contains "linux" platformLower
    else if platform = "ios" then
      contains "iphone" platformLower || contains "ipad" platformLower ||
        contains "ios" platformLower
    else if platform = "macos" then contains "mac" platformLower
    else if platform = "windows" then contains "windows" platformLower
    else if platform = "linux" then contains "linux" platformLower
    else true
  if !isMatch then
    throw (.platformMismatch platform fingerprint.platform)

/-- The third block: the WebGL vendor of the family. -/
def checkFamilyWebgl (family : Text) : Except FingerprintInconsistency Unit := do
  let vendorLower := asciiLower fingerprint.webglVendor
  let rendererLower := asciiLower fingerprint.webglRenderer
  let expectsChrome := family = "chrome" ∨ family = "edge"
  let chromeMarker := contains "google" vendorLower || contains "angle" rendererLower ||
    contains "intel" vendorLower || contains "mesa" rendererLower || contains "apple" rendererLower
  if expectsChrome ∧ ¬ chromeMarker ∧ vendorLower ≠ [] then
    throw (.webglMismatch family fingerprint.webglVendor)

/-- `is_consistent`, with the names of families and platforms as texts. -/
def isConsistentByName : Except FingerprintInconsistency Unit := do
  if let some family := detectUserAgentFamily fingerprint.userAgent then
    fingerprint.checkFamilyBrands family
  if let some platform := detectUserAgentPlatform fingerprint.userAgent then
    fingerprint.checkUaPlatform platform
  if let some family := detectUserAgentFamily fingerprint.userAgent then
    fingerprint.checkFamilyWebgl family
  fingerprint.navigatorIsConsistent

end Fingerprint

/-! ## Both crates check alike -/

namespace UserAgentFamily

theorem text_inj {family family' : UserAgentFamily} :
    family.text = family'.text ↔ family = family' := by
  refine ⟨fun h => ?_, congrArg text⟩
  revert h
  cases family <;> cases family' <;> decide

end UserAgentFamily

namespace UserAgentPlatform

theorem text_inj {platform platform' : UserAgentPlatform} :
    platform.text = platform'.text ↔ platform = platform' := by
  refine ⟨fun h => ?_, congrArg text⟩
  revert h
  cases platform <;> cases platform' <;> decide

end UserAgentPlatform

namespace Fingerprint

theorem detect_family_eq (ua : Text) :
    detectUserAgentFamily ua = (Profiles.detectUserAgentFamily ua).map UserAgentFamily.text := by
  unfold detectUserAgentFamily Profiles.detectUserAgentFamily
  dsimp only
  split_ifs <;> rfl

theorem detect_platform_eq (ua : Text) :
    detectUserAgentPlatform ua =
      (Profiles.detectUserAgentPlatform ua).map UserAgentPlatform.text := by
  unfold detectUserAgentPlatform Profiles.detectUserAgentPlatform
  simp only [Bool.or_eq_true, or_assoc]
  split_ifs <;> rfl

variable (fingerprint : Fingerprint)

/-- The check by texts is the one by families. -/
theorem check_family_brands_eq (family : UserAgentFamily) :
    fingerprint.checkFamilyBrands family.text =
      if family.rivaled fingerprint.brands then
        .error (.userAgentClaimsBrowser family.text family.rivals)
      else .ok () := by
  unfold checkFamilyBrands
  rw [show ("chrome" : Text) = UserAgentFamily.chrome.text from rfl,
    show ("edge" : Text) = UserAgentFamily.edge.text from rfl,
    show ("firefox" : Text) = UserAgentFamily.firefox.text from rfl,
    show ("safari" : Text) = UserAgentFamily.safari.text from rfl]
  simp only [UserAgentFamily.text_inj]
  cases family with
  | safari =>
      rw [if_neg (by decide), if_neg (by decide)]
      simp only [true_and]
      rfl
  | chrome | edge | firefox => rfl

/-- So is the one of platforms. -/
theorem check_ua_platform_eq (platform : UserAgentPlatform) :
    fingerprint.checkUaPlatform platform.text =
      if !platform.isNamedBy fingerprint.platform then
        .error (.platformMismatch platform.text fingerprint.platform)
      else .ok () := by
  unfold checkUaPlatform
  rw [show ("android" : Text) = UserAgentPlatform.android.text from rfl,
    show ("ios" : Text) = UserAgentPlatform.ios.text from rfl,
    show ("macos" : Text) = UserAgentPlatform.macos.text from rfl,
    show ("windows" : Text) = UserAgentPlatform.windows.text from rfl,
    show ("linux" : Text) = UserAgentPlatform.linux.text from rfl]
  simp only [UserAgentPlatform.text_inj]
  cases platform <;> rfl

/-- So is the one of the graphics. -/
theorem check_webgl_eq :
    fingerprint.checkWebgl =
      match Profiles.detectUserAgentFamily fingerprint.userAgent with
      | none => .ok ()
      | some family => fingerprint.checkFamilyWebgl family.text := by
  unfold checkWebgl checkFamilyWebgl
  rw [show ("chrome" : Text) = UserAgentFamily.chrome.text from rfl,
    show ("edge" : Text) = UserAgentFamily.edge.text from rfl]
  simp only [UserAgentFamily.text_inj]
  cases Profiles.detectUserAgentFamily fingerprint.userAgent <;> rfl

/-- The fingerprint crate checks by name what the profile crate checks. -/
theorem is_consistent_by_name_eq : fingerprint.isConsistentByName = fingerprint.isConsistent := by
  have hok (rest : Unit → Except FingerprintInconsistency Unit) :
      (Except.ok () >>= rest) = rest () := rfl
  unfold isConsistentByName isConsistent checkUserAgent checkBrands checkPlatform
  rw [detect_family_eq, detect_platform_eq, check_webgl_eq]
  cases Profiles.detectUserAgentFamily fingerprint.userAgent <;>
    cases Profiles.detectUserAgentPlatform fingerprint.userAgent <;>
    simp only [Option.map_none, Option.map_some, check_family_brands_eq, check_ua_platform_eq,
      bind_assoc, hok]

end Fingerprint

/-! ## The calls in place -/

namespace ProfileManager

/-- A call on `&mut self`: what it wrote before an error stays written. -/
abbrev Call (ε : Type) := ExceptT ε (StateM ProfileManager)

namespace Call

/-- `?` on a check that does not touch the manager. -/
def check {ε : Type} : Except ε Unit → Call ε Unit
  | .ok a => pure a
  | .error e => throw e

/-- A write through `profiles.get_mut(id)`. -/
def writeProfile {ε : Type} (id : ProfileId) (f : Profile → Profile) : Call ε Unit :=
  modify fun m => { m with profiles := m.profiles.modify id f }

/-- What `try_update_config` does to a profile that is there. -/
def overwrite {ε : Type} (id : ProfileId) (limits : ProfileLimits) (config : ProfileConfig) :
    Call ε Bool := do
  writeProfile id fun profile => { profile with config }
  writeProfile id fun profile => profile.withConfig (normalizeConfig limits)
  writeProfile id fun profile => { profile with generation := profile.generation + 1 }
  return true

/-- The source statement by statement. -/
def tryUpdateConfig (id : ProfileId) (config : ProfileConfig) :
    Call ProfileInconsistency Bool := do
  check (checkProfileConsistency config)
  let m ← get
  if m.profiles.contains id then overwrite id m.limits config else return false

/-- The source statement by statement. -/
def applyFingerprint (id : ProfileId) (catalog : FingerprintCatalog)
    (fingerprintId : FingerprintId) : Call FingerprintInconsistency Bool := do
  match catalog.get fingerprintId with
  | none => throw (.userAgentClaimsBrowser "fingerprint-not-found" fingerprintId)
  | some fingerprint =>
      check fingerprint.isConsistentByName
      let config := ProfileConfig.ofIdentity fingerprint.intoProfileIdentity
      ExceptT.adapt (fun _ => .userAgentClaimsBrowser "profile-rejected" fingerprintId)
        (tryUpdateConfig id config)

/-- The result of a call and the manager it leaves. -/
def perform {ε α : Type} (call : Call ε α) (m : ProfileManager) : Except ε α × ProfileManager :=
  StateT.run (ExceptT.run call) m

variable {m : ProfileManager} {id : ProfileId}

theorem perform_adapt {ε ε' α : Type} (f : ε → ε') (call : Call ε α) (m : ProfileManager) :
    perform (ExceptT.adapt f call) m = ((perform call m).1.mapError f, (perform call m).2) := rfl

/-- The three writes of an update are one. -/
theorem modify_config (limits : ProfileLimits) (config : ProfileConfig)
    (profiles : OrdMap ProfileId Profile) :
    ((profiles.modify id fun profile => { profile with config }).modify id fun profile =>
          profile.withConfig (normalizeConfig limits)).modify id
        (fun profile => { profile with generation := profile.generation + 1 }) =
      profiles.modify id fun profile =>
        { profile with
          config := normalizeConfig limits config, generation := profile.generation + 1 } := by
  refine Std.ExtTreeMap.ext_getElem? fun key => ?_
  simp only [OrdMap.get_modify]
  by_cases hkey : id = key
  · subst hkey
    simp only [if_true, Option.map_map]
    rfl
  · simp only [if_neg hkey]

theorem perform_overwrite {ε : Type} (m : ProfileManager) (id : ProfileId)
    (limits : ProfileLimits) (config : ProfileConfig) :
    (overwrite (ε := ε) id limits config).perform m =
      (.ok true,
        { m with
          profiles := m.profiles.modify id fun profile =>
            { profile with
              config := normalizeConfig limits config, generation := profile.generation + 1 } }) := by
  rw [← modify_config]
  rfl

/-- In place or not, a checked update has the same result. -/
theorem perform_try_update_config (m : ProfileManager) (id : ProfileId) (config : ProfileConfig) :
    (tryUpdateConfig id config).perform m =
      match m.tryUpdateConfig id config with
      | .error e => (.error e, m)
      | .ok (updated, m') => (.ok updated, m') := by
  rw [try_update_config_eq, tryUpdateConfig]
  cases hcheck : checkProfileConsistency config with
  | error e => rfl
  | ok u =>
      show perform (if m.profiles.contains id then overwrite id m.limits config else pure false) m
        = (.ok (m.updateConfig id config).1, (m.updateConfig id config).2)
      rw [updateConfig, change]
      by_cases hid : m.profiles.contains id = true
      · rw [if_pos hid, if_pos hid, perform_overwrite]
      · rw [if_neg hid, if_neg hid]
        rfl

/-- In place or not, a fingerprint is applied with the same result. -/
theorem perform_apply_fingerprint (m : ProfileManager) (id : ProfileId)
    (catalog : FingerprintCatalog) (fingerprintId : FingerprintId) :
    (applyFingerprint id catalog fingerprintId).perform m =
      match m.applyFingerprint id catalog fingerprintId with
      | .error e => (.error e, m)
      | .ok (updated, m') => (.ok updated, m') := by
  unfold applyFingerprint ProfileManager.applyFingerprint
  cases catalog.get fingerprintId with
  | none => rfl
  | some fingerprint =>
      dsimp only
      rw [Fingerprint.is_consistent_by_name_eq]
      cases fingerprint.isConsistent with
      | error e => rfl
      | ok u =>
          show perform (ExceptT.adapt _ (tryUpdateConfig id _)) m = _
          rw [perform_adapt, perform_try_update_config]
          cases m.tryUpdateConfig id (.ofIdentity fingerprint.intoProfileIdentity) <;> rfl

/-- A call that does not report an update leaves the manager as it was. -/
theorem perform_apply_fingerprint_of_ne {m : ProfileManager} {id : ProfileId}
    {catalog : FingerprintCatalog} {fingerprintId : FingerprintId}
    (h : ((applyFingerprint id catalog fingerprintId).perform m).1 ≠ .ok true) :
    ((applyFingerprint id catalog fingerprintId).perform m).2 = m := by
  rw [perform_apply_fingerprint] at h ⊢
  cases hget : catalog.get fingerprintId with
  | none =>
      rw [ProfileManager.applyFingerprint, hget]
  | some fingerprint =>
      cases hconsistent : fingerprint.isConsistent with
      | error e =>
          rw [ProfileManager.applyFingerprint, hget]
          dsimp only
          rw [hconsistent]
          rfl
      | ok u =>
          rw [apply_fingerprint_eq hget hconsistent] at h ⊢
          dsimp only at h ⊢
          rw [updateConfig, change] at h ⊢
          by_cases hid : m.profiles.contains id = true
          · rw [if_pos hid] at h
            exact absurd rfl h
          · rw [if_neg hid]

/-- A consistent fingerprint is never rejected by the profile crate, and a call that fails or finds
no profile writes nothing. -/
theorem apply_fingerprint_accepts (m : ProfileManager) (id : ProfileId)
    (catalog : FingerprintCatalog) (fingerprintId : FingerprintId) :
    (∀ fingerprint : Fingerprint, fingerprint.isConsistentByName = .ok () →
      checkProfileConsistency (.ofIdentity fingerprint.intoProfileIdentity) = .ok ()) ∧
    (∀ fingerprint, catalog.get fingerprintId = some fingerprint →
      fingerprint.isConsistentByName = .ok () →
      ((applyFingerprint id catalog fingerprintId).perform m).1 ≠
        .error (.userAgentClaimsBrowser "profile-rejected" fingerprintId)) ∧
    ((∃ e, ((applyFingerprint id catalog fingerprintId).perform m).1 = .error e) ∨
        ((applyFingerprint id catalog fingerprintId).perform m).1 = .ok false →
      ((applyFingerprint id catalog fingerprintId).perform m).2 = m) := by
  refine ⟨fun fingerprint hconsistent => ?_, fun fingerprint hget hconsistent => ?_, fun h => ?_⟩
  · rw [Fingerprint.is_consistent_by_name_eq] at hconsistent
    exact check_eq_ok_iff.mpr (coherent_of_is_consistent hconsistent)
  · rw [Fingerprint.is_consistent_by_name_eq] at hconsistent
    rw [perform_apply_fingerprint, apply_fingerprint_eq hget hconsistent]
    exact fun hrejected => by cases hrejected
  · refine perform_apply_fingerprint_of_ne fun htrue => ?_
    rw [htrue] at h
    rcases h with ⟨e, he⟩ | hfalse
    · cases he
    · cases hfalse

/-- A fingerprint of Firefox on Linux. -/
def firefoxFingerprint : Fingerprint where
  id := "firefox"
  userAgent := "X11; Linux Firefox/130.0"
  locale := "en-US"
  timezone := "UTC"
  viewport := ⟨1920, 1080, 1⟩
  platform := "Linux x86_64"
  brands := []
  acceptLanguage := "en-US"
  webglVendor := "Mozilla"
  webglRenderer := "Mesa"
  hardwareConcurrency := 8
  deviceMemory := 8
  maxTouchPoints := 0
  colorDepth := 24

/-- A catalog of one fingerprint. -/
def firefoxCatalog : FingerprintCatalog where
  entries := (∅ : OrdMap FingerprintId Fingerprint).insert firefoxFingerprint.id firefoxFingerprint

theorem apply_firefox_not_rejected :
    ((applyFingerprint 1 firefoxCatalog firefoxFingerprint.id).perform default).1 ≠
      .error (.userAgentClaimsBrowser "profile-rejected" firefoxFingerprint.id) :=
  (apply_fingerprint_accepts default 1 firefoxCatalog firefoxFingerprint.id).2.1
    firefoxFingerprint Std.ExtTreeMap.getElem?_insert_self (by decide)

end Call

/-! ## What an application changes -/

/-- Of the profile, only the identity and the generation differ, and of the manager, only this
profile. -/
structure ChangesIdentityOnly (m m' : ProfileManager) (id : ProfileId) (profile : Profile) :
    Prop where
  applied : ∃ config : ProfileConfig,
    m'.profiles[id]? = some { profile with config, generation := profile.generation + 1 } ∧
      config.homepage = profile.config.homepage ∧ config.extensions = profile.config.extensions ∧
      config.history = profile.config.history ∧ config.autocomplete = profile.config.autocomplete
  others : ∀ other : ProfileId, other ≠ id → m'.profiles[other]? = m.profiles[other]?
  selected_eq : m'.selected = m.selected
  limits_eq : m'.limits = m.limits

/-- An identity has no page, extension, visit or completion. -/
theorem normalize_of_identity (limits : ProfileLimits) (identity : EngineIdentity) :
    (normalizeConfig limits (.ofIdentity identity)).homepage = none ∧
      (normalizeConfig limits (.ofIdentity identity)).extensions = [] ∧
      (normalizeConfig limits (.ofIdentity identity)).history = [] ∧
      (normalizeConfig limits (.ofIdentity identity)).autocomplete = [] := by
  simp [normalizeConfig, ProfileConfig.ofIdentity, drainTo]

/-- An applied fingerprint leaves the rest of the profile alone exactly if there is nothing in it:
the configuration that replaces it has no other fields than those of the identity. -/
theorem apply_fingerprint_changes_identity_only_iff (m m' : ProfileManager) (id : ProfileId)
    (catalog : FingerprintCatalog) (fingerprintId : FingerprintId) (profile : Profile)
    (hprofile : m.profiles[id]? = some profile)
    (happly : m.applyFingerprint id catalog fingerprintId = .ok (true, m')) :
    ChangesIdentityOnly m m' id profile ↔
      profile.config.homepage = none ∧ profile.config.extensions = [] ∧
        profile.config.history = [] ∧ profile.config.autocomplete = [] := by
  obtain ⟨fingerprint, -, -, hupdate⟩ := exists_of_apply_fingerprint happly
  obtain ⟨hhomepage, hextensions, hhistory, hautocomplete⟩ :=
    normalize_of_identity m.limits fingerprint.intoProfileIdentity
  have hid : m.profiles.contains id = true := by
    rw [Std.ExtTreeMap.contains_eq_isSome_getElem?, hprofile]
    rfl
  rw [updateConfig, change, if_pos hid] at hupdate
  obtain rfl := (Prod.mk.inj hupdate).2
  have hown : (m.profiles.modify id fun profile : Profile =>
      { profile with
        config := normalizeConfig m.limits (.ofIdentity fingerprint.intoProfileIdentity)
        generation := profile.generation + 1 })[id]? = some
      { profile with
        config := normalizeConfig m.limits (.ofIdentity fingerprint.intoProfileIdentity)
        generation := profile.generation + 1 } := by
    rw [OrdMap.get_modify, if_pos rfl, hprofile, Option.map_some]
  constructor
  · intro h
    obtain ⟨config, hconfig, hkept⟩ := h.applied
    have heq := congrArg ProfileOf.config (Option.some.inj (hown.symm.trans hconfig))
    dsimp only at heq
    rw [← heq, hhomepage, hextensions, hhistory, hautocomplete] at hkept
    exact ⟨hkept.1.symm, hkept.2.1.symm, hkept.2.2.1.symm, hkept.2.2.2.symm⟩
  · intro h
    refine ⟨⟨_, hown, ?_⟩, fun other hother => ?_, rfl, rfl⟩
    · rw [hhomepage, hextensions, hhistory, hautocomplete, h.1, h.2.1, h.2.2.1, h.2.2.2]
      exact ⟨rfl, rfl, rfl, rfl⟩
    · show (m.profiles.modify id _)[other]? = _
      rw [OrdMap.get_modify, if_neg (Ne.symm hother)]

/-- A manager with one profile of an empty configuration. -/
def firefoxManager : ProfileManager := (default : ProfileManager).create 1 "work"

/-- The same manager after a visit. -/
def visitedManager : ProfileManager :=
  (firefoxManager.recordHistory 1 ⟨"https://a.test/", none, 7⟩ 10).2

/-- The manager after the fingerprint was applied to its profile. -/
def appliedTo (m : ProfileManager) : ProfileManager :=
  (m.updateConfig 1 (.ofIdentity Call.firefoxFingerprint.intoProfileIdentity)).2

theorem apply_firefox_eq {m : ProfileManager} (hid : m.profiles.contains 1 = true) :
    m.applyFingerprint 1 Call.firefoxCatalog Call.firefoxFingerprint.id =
      .ok (true, appliedTo m) := by
  have hget : Call.firefoxCatalog.get Call.firefoxFingerprint.id = some Call.firefoxFingerprint :=
    Std.ExtTreeMap.getElem?_insert_self
  have hconsistent : Call.firefoxFingerprint.isConsistent = .ok () := by decide
  rw [apply_fingerprint_eq hget hconsistent, appliedTo, updateConfig, change, if_pos hid]

/-- The fingerprint applied to an empty configuration. -/
theorem apply_firefox_changes_identity_only :
    ChangesIdentityOnly firefoxManager (appliedTo firefoxManager) 1 ⟨1, "work", 0, default⟩ ↔
      (default : ProfileConfig).homepage = none ∧ (default : ProfileConfig).extensions = [] ∧
        (default : ProfileConfig).history = [] ∧ (default : ProfileConfig).autocomplete = [] :=
  apply_fingerprint_changes_identity_only_iff firefoxManager _ 1 Call.firefoxCatalog
    Call.firefoxFingerprint.id _ (by decide) (apply_firefox_eq (by decide))

/-- A profile with one visit has none after a fingerprint was applied to it. -/
theorem applied_history_lost :
    (visitedManager.profiles[(1 : ProfileId)]?.map fun profile => profile.config.history.length) =
        some 1 ∧
      ((appliedTo visitedManager).profiles[(1 : ProfileId)]?.map
        fun profile => profile.config.history) = some [] ∧
      ¬ ∀ (m m' : ProfileManager) (id : ProfileId) (catalog : FingerprintCatalog)
        (fingerprintId : FingerprintId) (profile : Profile), m.profiles[id]? = some profile →
        m.applyFingerprint id catalog fingerprintId = .ok (true, m') →
          ChangesIdentityOnly m m' id profile := by
  have hvisited : (visitedManager.profiles[(1 : ProfileId)]?.map
      fun profile => profile.config.history.length) = some 1 := by
    decide
  have hlost : ((appliedTo visitedManager).profiles[(1 : ProfileId)]?.map
      fun profile => profile.config.history) = some [] := by
    decide
  refine ⟨hvisited, hlost, fun h => ?_⟩
  obtain ⟨profile, hprofile, hlength⟩ := Option.map_eq_some_iff.mp hvisited
  have hchanges := h visitedManager _ 1 Call.firefoxCatalog Call.firefoxFingerprint.id profile
    hprofile (apply_firefox_eq (by decide))
  obtain ⟨config, hconfig, -, -, hhistory, -⟩ := hchanges.applied
  rw [hconfig, Option.map_some, Option.some.injEq] at hlost
  replace hlost : config.history = [] := hlost
  rw [hlost] at hhistory
  rw [← hhistory] at hlength
  cases hlength

end ProfileManager

end BrowsAI.Profiles
