import BrowsAI.Profiles.Fingerprint

/-!
# The mobile hint

`sec_ch_ua_mobile` reads the platform, and so may contradict a user agent that a consistent
fingerprint pairs with it: Chrome on Android declares a Linux platform. `mobile_hint_agrees_iff`
says for which fingerprints the two agree.
-/

namespace BrowsAI.Profiles

open Utf8

/-- The user agent names Android, an iPhone, or an iPad. -/
def ClaimsMobile (ua : Text) : Prop :=
  contains "Android" ua = true ∨ contains "iPhone" ua = true ∨ contains "iPad" ua = true

/-- The platform names one of the three. -/
def NamesMobile (platform : Text) : Prop :=
  contains "android" (asciiLower platform) = true ∨ contains "iphone" (asciiLower platform) = true ∨
    contains "ipad" (asciiLower platform) = true

instance (ua : Text) : Decidable (ClaimsMobile ua) := inferInstanceAs <| Decidable (_ ∨ _ ∨ _)

instance (platform : Text) : Decidable (NamesMobile platform) :=
  inferInstanceAs <| Decidable (_ ∨ _ ∨ _)

theorem sec_ch_ua_mobile_eq_iff (identity : ProfileIdentity) :
    identity.secChUaMobile = "?1" ↔ NamesMobile identity.platform := by
  rw [ProfileIdentity.secChUaMobile, NamesMobile]
  split_ifs with h
  · exact iff_of_true rfl h
  · refine iff_of_false (fun heq => ?_) h
    revert heq
    decide

namespace Fingerprint

variable {fingerprint : Fingerprint}

theorem platform_agrees_of_is_consistent (h : fingerprint.isConsistent = .ok ()) :
    PlatformAgrees fingerprint.userAgent fingerprint.platform :=
  (coherent_of_is_consistent h fingerprint.userAgent rfl).2

/-- A consistent fingerprint with a mobile platform has touch points. -/
theorem touch_of_is_consistent (h : fingerprint.isConsistent = .ok ())
    (hplatform : NamesMobile fingerprint.platform) : fingerprint.maxTouchPoints ≥ 5 := by
  have hnavigator := (is_consistent_eq_ok_iff.mp h).2.2
  by_contra htouch
  have hmobile : (contains "iphone" (asciiLower fingerprint.platform) ||
      contains "ipad" (asciiLower fingerprint.platform)) = true ∨
      contains "android" (asciiLower fingerprint.userAgent) = true ∨
      contains "android" (asciiLower fingerprint.platform) = true := by
    obtain hname | hname | hname := hplatform
    · exact .inr (.inr hname)
    · exact .inl (by rw [hname, Bool.true_or])
    · exact .inl (by rw [hname, Bool.or_true])
  rw [navigatorIsConsistent] at hnavigator
  simp only [htouch, decide_false, Bool.false_eq_true, false_and, if_false, not_false_eq_true,
    true_and, hmobile, if_true] at hnavigator
  split_ifs at hnavigator

/-- Android goes with a platform that names it, or Linux. -/
theorem android_or_linux (h : PlatformAgrees fingerprint.userAgent fingerprint.platform)
    (hua : contains "Android" fingerprint.userAgent = true) :
    contains "android" (asciiLower fingerprint.platform) = true ∨
      contains "linux" (asciiLower fingerprint.platform) = true := by
  have hnamed := h .android (if_pos hua)
  rwa [UserAgentPlatform.isNamedBy, Bool.or_eq_true] at hnamed

/-- An iPhone or iPad goes with a platform that names one of them, or iOS. -/
theorem iphone_or_ipad_or_ios (h : PlatformAgrees fingerprint.userAgent fingerprint.platform)
    (hother : ¬ contains "Android" fingerprint.userAgent = true)
    (hua : contains "iPhone" fingerprint.userAgent = true ∨
      contains "iPad" fingerprint.userAgent = true) :
    contains "iphone" (asciiLower fingerprint.platform) = true ∨
      contains "ipad" (asciiLower fingerprint.platform) = true ∨
      contains "ios" (asciiLower fingerprint.platform) = true := by
  have hdetected : Profiles.detectUserAgentPlatform fingerprint.userAgent = some .ios := by
    rw [Profiles.detectUserAgentPlatform, if_neg hother, if_pos]
    exact hua.imp_right .inl
  have hnamed := h .ios hdetected
  rwa [UserAgentPlatform.isNamedBy, Bool.or_eq_true, Bool.or_eq_true, or_assoc] at hnamed

/-- The platforms that a consistent fingerprint may pair with a user agent of the other kind: Linux
alone with Android, iOS alone with an iPhone or iPad, and a touch device with any other. -/
inductive Contradicts (fingerprint : Fingerprint) : Prop
  | linux (hua : contains "Android" fingerprint.userAgent = true)
      (hlinux : contains "linux" (asciiLower fingerprint.platform) = true)
      (hplatform : ¬ NamesMobile fingerprint.platform)
  | ios (hua : contains "iPhone" fingerprint.userAgent = true ∨
        contains "iPad" fingerprint.userAgent = true)
      (hios : contains "ios" (asciiLower fingerprint.platform) = true)
      (hplatform : ¬ NamesMobile fingerprint.platform)
  | touch (hua : ¬ ClaimsMobile fingerprint.userAgent) (htouch : fingerprint.maxTouchPoints ≥ 5)
      (hplatform : NamesMobile fingerprint.platform)

/-- The header of a consistent fingerprint agrees with its user agent except on those platforms. -/
theorem mobile_hint_agrees_iff (fingerprint : Fingerprint)
    (h : fingerprint.isConsistent = .ok ()) :
    (fingerprint.intoProfileIdentity.secChUaMobile = "?1" ↔ ClaimsMobile fingerprint.userAgent) ↔
      ¬ fingerprint.Contradicts := by
  have hagrees := platform_agrees_of_is_consistent h
  rw [sec_ch_ua_mobile_eq_iff]
  show (NamesMobile fingerprint.platform ↔ _) ↔ _
  constructor
  · intro hiff hcontradicts
    cases hcontradicts with
    | linux hua _ hplatform => exact hplatform (hiff.mpr (.inl hua))
    | ios hua _ hplatform => exact hplatform (hiff.mpr (.inr hua))
    | touch hua _ hplatform => exact hua (hiff.mp hplatform)
  · intro hcontradicts
    constructor
    · intro hplatform
      by_contra hua
      exact hcontradicts (.touch hua (touch_of_is_consistent h hplatform) hplatform)
    · intro hua
      by_contra hplatform
      -- the check of the platform leaves only the names that the header does not look for
      by_cases handroid : contains "Android" fingerprint.userAgent = true
      · obtain hname | hlinux := android_or_linux hagrees handroid
        · exact hplatform (.inl hname)
        · exact hcontradicts (.linux handroid hlinux hplatform)
      · have hios := hua.resolve_left handroid
        obtain hname | hname | hname := iphone_or_ipad_or_ios hagrees handroid hios
        · exact hplatform (.inr (.inl hname))
        · exact hplatform (.inr (.inr hname))
        · exact hcontradicts (.ios hios hname hplatform)

/-- `safari-ios-17-iphone` of the default catalog. -/
def safariIos : Fingerprint where
  id := "safari-ios-17-iphone"
  userAgent := "Mozilla/5.0 (iPhone; CPU iPhone OS 17_6 like Mac OS X) AppleWebKit/605.1.15 " ++
    "(KHTML, like Gecko) Version/17.6 Mobile/15E148 Safari/604.1"
  locale := "en-US"
  timezone := "America/Los_Angeles"
  viewport := ⟨393, 852, 3⟩
  platform := "iPhone"
  brands := []
  acceptLanguage := "en-US,en;q=0.9"
  webglVendor := "WebKit Inc."
  webglRenderer := "Apple A16 GPU"
  hardwareConcurrency := 6
  deviceMemory := 4
  maxTouchPoints := 5
  colorDepth := 24

/-- `chrome-android-140-pixel8` of the default catalog. -/
def chromeAndroid : Fingerprint where
  id := "chrome-android-140-pixel8"
  userAgent := "Mozilla/5.0 (Linux; Android 14; Pixel 8) AppleWebKit/537.36 " ++
    "(KHTML, like Gecko) Chrome/140.0.0.0 Mobile Safari/537.36"
  locale := "en-US"
  timezone := "America/Los_Angeles"
  viewport := ⟨412, 915, 2⟩
  platform := "Linux armv81"
  brands := [⟨" Not A;Brand", "99"⟩, ⟨"Chromium", "140"⟩, ⟨"Google Chrome", "140"⟩]
  acceptLanguage := "en-US,en;q=0.9"
  webglVendor := "Google Inc. (ARM)"
  webglRenderer := "ANGLE (ARM, Mali-G715, OpenGL 4.5)"
  hardwareConcurrency := 8
  deviceMemory := 8
  maxTouchPoints := 5
  colorDepth := 24

theorem safari_ios_hint_agrees :
    (safariIos.intoProfileIdentity.secChUaMobile = "?1" ↔ ClaimsMobile safariIos.userAgent) ↔
      ¬ safariIos.Contradicts :=
  mobile_hint_agrees_iff safariIos (by decide)

/-- The phone of the default catalog passes the checks and is announced as a desktop. -/
theorem chrome_android_hint_contradicts :
    chromeAndroid.isConsistent = .ok () ∧ ClaimsMobile chromeAndroid.userAgent ∧
      chromeAndroid.intoProfileIdentity.secChUaMobile ≠ "?1" := by
  decide

end Fingerprint

end BrowsAI.Profiles
