import BrowsAI.Library.Json
import BrowsAI.Profiles.Manager

/-!
# Loading and migrating profiles

What `from_json` makes of a document. The migration fills in the brands of Chrome and a Linux
platform whatever the user agent is, so a document of version 1 loads into consistent profiles
exactly when every user agent suits them, `migrates_iff`.
-/

namespace BrowsAI.Profiles

open Std Utf8
open JsonPrint (object array quote)
open Indexed (index index_map mem_of_get_index get_index_is_some)

/-! ## The values that the migration fills in -/

/-- The user agent of a browser that may show the brands of Chrome. -/
def SuitsChrome (ua : Text) : Prop :=
  detectUserAgentFamily ua ≠ some .firefox ∧ detectUserAgentFamily ua ≠ some .safari

/-- The user agent of a browser that may show a Linux platform. -/
def SuitsLinux (ua : Text) : Prop :=
  ∀ uaPlatform, detectUserAgentPlatform ua = some uaPlatform →
    uaPlatform = .android ∨ uaPlatform = .linux

theorem brands_agree_chrome_iff {ua : Text} : BrandsAgree ua chromeBrands ↔ SuitsChrome ua := by
  have hrivaled : ∀ family : UserAgentFamily, family.rivaled chromeBrands = false ↔
      family ≠ .firefox ∧ family ≠ .safari := by
    intro family
    cases family <;> decide
  unfold BrandsAgree SuitsChrome
  cases detectUserAgentFamily ua with
  | none => simp
  | some family => simp [hrivaled]

theorem platform_agrees_linux_iff {ua : Text} :
    PlatformAgrees ua "Linux x86_64" ↔ SuitsLinux ua := by
  have hnamed : ∀ uaPlatform : UserAgentPlatform,
      uaPlatform.isNamedBy "Linux x86_64" = true ↔ uaPlatform = .android ∨ uaPlatform = .linux := by
    intro uaPlatform
    cases uaPlatform <;> decide
  unfold PlatformAgrees SuitsLinux
  simp only [hnamed]

/-- A configuration in a document of a version agrees with its user agent when it is loaded. -/
def ConfigDocument.LoadsCoherent (version : UInt16) (document : ConfigDocument) : Prop :=
  ∀ ua, document.userAgent = some ua →
    (if version < 2 ∧ document.brands.getD [] = [] then SuitsChrome ua
      else BrandsAgree ua (document.brands.getD [])) ∧
    (if version < 2 ∧ document.platform.getD [] = [] then SuitsLinux ua
      else PlatformAgrees ua (document.platform.getD []))

/-! ## Loading -/

namespace ManagerDocument

variable (document : ManagerDocument)

/-- The version of a document. -/
def version : UInt16 := document.schemaVersion.getD profileSchemaVersion

/-- What a configuration in the document becomes. -/
def load (config : ConfigDocument) : ProfileConfig :=
  normalizeConfig (document.limits.getD default)
    (if document.version < 2 then migrateV1ToV2 config.read else config.read)

/-- A configuration is coherent behind the load exactly if it was so, or becomes so by the
defaults. -/
theorem coherent_load_iff (config : ConfigDocument) :
    (document.load config).Coherent ↔ config.LoadsCoherent document.version := by
  rw [load, coherent_normalize_config]
  unfold ConfigDocument.LoadsCoherent
  by_cases hold : document.version < 2
  · simp only [hold, true_and, if_true]
    refine forall₂_congr fun ua _ => and_congr ?_ ?_
    · show BrandsAgree ua (if config.brands.getD [] = [] then chromeBrands else _) ↔ _
      by_cases hbrands : config.brands.getD [] = []
      · rw [if_pos hbrands, if_pos hbrands, brands_agree_chrome_iff]
      · rw [if_neg hbrands, if_neg hbrands]
        exact .rfl
    · show PlatformAgrees ua (if config.platform.getD [] = [] then "Linux x86_64" else _) ↔ _
      by_cases hplatform : config.platform.getD [] = []
      · rw [if_pos hplatform, if_pos hplatform, platform_agrees_linux_iff]
      · rw [if_neg hplatform, if_neg hplatform]
        exact .rfl
  · simp only [hold, false_and, if_false]
    exact .rfl

end ManagerDocument

namespace ProfileManager

variable {json : Json} {text : Text} {document : ManagerDocument}

theorem from_json_of_newer (htext : json.fromStr text = some document)
    (hnewer : schemaVersion < document.version) :
    fromJson json text = .error (.custom "unsupported profile schema version") := by
  rw [fromJson, htext]
  exact if_pos hnewer

/-- A document that is not too new loads into the last of its profiles for each id. -/
theorem from_json_of_supported (htext : json.fromStr text = some document)
    (hsupported : ¬ schemaVersion < document.version) :
    ∃ m, fromJson json text = .ok m ∧ ∀ id : ProfileId,
      m.profiles[id]? = ((index ProfileOf.id document.profiles)[id]?).map fun profile =>
        profile.withConfig document.load := by
  have hwire : ¬ document.read.schemaVersion > schemaVersion := hsupported
  have hmigrated : (document.read.profiles.map fun profile =>
      if document.read.schemaVersion < 2 then profile.withConfig migrateV1ToV2 else profile) =
      document.profiles.map fun profile => profile.withConfig fun config =>
        if document.version < 2 then migrateV1ToV2 config.read else config.read := by
    rw [ManagerDocument.read, List.map_map]
    refine List.map_congr_left fun profile _ => ?_
    show (if document.version < 2 then _ else _) = _
    by_cases hold : document.version < 2
    · rw [if_pos hold]
      simp only [hold]
      rfl
    · rw [if_neg hold]
      simp only [hold]
      rfl
  rw [fromJson, htext]
  dsimp only
  rw [fromWire, if_neg hwire]
  refine ⟨_, rfl, fun id => ?_⟩
  dsimp only
  rw [hmigrated, index_map fun _ => rfl]
  rw [ExtTreeMap.getElem?_map, ExtTreeMap.getElem?_map, Option.map_map]
  rfl

end ProfileManager

/-! ## Documents of version 1 -/

/-- A document whose profiles have only the fields of version 1. -/
structure DocumentV1 where
  profiles : List (ProfileOf ConfigV1)
  selected : Option ProfileId
  limits : Option ProfileLimits

/-- A version 1 configuration in a document. -/
def ConfigV1.document (config : ConfigV1) : ConfigDocument :=
  { config with
    viewport := none
    platform := none
    brands := none
    acceptLanguage := none
    hardwareConcurrency := none
    deviceMemory := none
    maxTouchPoints := none
    colorDepth := none }

namespace DocumentV1

variable (d : DocumentV1)

/-- A version 1 document. -/
def document : ManagerDocument where
  schemaVersion := some 1
  profiles := d.profiles.map fun profile => profile.withConfig ConfigV1.document
  selected := d.selected
  limits := d.limits

/-- The fields that a profile of the document is to keep. -/
def kept (config : ConfigV1) : ConfigV1 := config.within (d.limits.getD default)

/-- Every profile of the document has become a consistent one that keeps its fields. -/
def MigratesTo (m : ProfileManager) : Prop :=
  ∀ profile ∈ d.profiles, ∃ migrated, m.profiles[profile.id]? = some migrated ∧
    checkProfileConsistency migrated.config = .ok () ∧
    migrated.config.toConfigV1 = d.kept profile.config

/-- The user agent, if there is one, may show the brands of Chrome and a Linux platform. -/
def SuitsDefaults (config : ConfigV1) : Prop :=
  ∀ ua, config.userAgent = some ua → SuitsChrome ua ∧ SuitsLinux ua

theorem version_document : d.document.version = 1 := rfl

theorem coherent_load_iff (config : ConfigV1) :
    (d.document.load config.document).Coherent ↔ SuitsDefaults config := by
  have hold : d.document.version < 2 := d.version_document ▸ by decide
  rw [d.document.coherent_load_iff]
  exact forall₂_congr fun ua _ =>
    and_congr (iff_of_eq (if_pos ⟨hold, rfl⟩)) (iff_of_eq (if_pos ⟨hold, rfl⟩))

theorem load_v1 (config : ConfigV1) :
    (d.document.load config.document).toConfigV1 = d.kept config := by
  rw [ManagerDocument.load, normalize_config_v1]
  rfl

theorem kept_user_agent (config : ConfigV1) : (d.kept config).userAgent = config.userAgent := rfl

theorem SuitsDefaults.of_kept {config config' : ConfigV1} (h : SuitsDefaults config)
    (hkept : d.kept config = d.kept config') : SuitsDefaults config' := by
  have hagent := congrArg ConfigV1.userAgent hkept
  rw [kept_user_agent, kept_user_agent] at hagent
  intro ua hua
  exact h ua (hagent.trans hua)

end DocumentV1

namespace ProfileManager

variable {json : Json} {text : Text} {d : DocumentV1}

/-- A document of version 1 loads into the last of its profiles for each id. -/
theorem from_json_of_v1 (htext : json.fromStr text = some d.document) :
    ∃ m, fromJson json text = .ok m ∧ ∀ id : ProfileId,
      m.profiles[id]? = ((index ProfileOf.id d.profiles)[id]?).map fun profile =>
        profile.withConfig fun config => d.document.load config.document := by
  have hsupported : ¬ schemaVersion < d.document.version := d.version_document ▸ by decide
  obtain ⟨m, hload, hprofiles⟩ := from_json_of_supported htext hsupported
  refine ⟨m, hload, fun id => ?_⟩
  rw [hprofiles, DocumentV1.document]
  dsimp only
  rw [index_map fun _ => rfl, ExtTreeMap.getElem?_map, Option.map_map]
  rfl

/-- A document of version 1 loads into consistent profiles that keep their fields exactly when every
user agent suits the brands of Chrome and a Linux platform, and profiles of one id do not differ in
the fields to keep. -/
theorem migrates_iff (json : Json) (text : Text) (d : DocumentV1)
    (htext : json.fromStr text = some d.document) :
    (∃ m, fromJson json text = .ok m ∧ d.MigratesTo m) ↔
      (∀ profile ∈ d.profiles, DocumentV1.SuitsDefaults profile.config) ∧
        ∀ profile ∈ d.profiles, ∀ other ∈ d.profiles, profile.id = other.id →
          d.kept profile.config = d.kept other.config := by
  obtain ⟨m, hload, hprofiles⟩ := from_json_of_v1 htext
  constructor
  · rintro ⟨m', hload', hmigrates⟩
    obtain rfl : m = m' := Except.ok.inj (hload.symm.trans hload')
    refine ⟨fun profile hmem => ?_, fun profile hmem other hother hid => ?_⟩
    · obtain ⟨migrated, hget, hcheck, hkept⟩ := hmigrates profile hmem
      rw [hprofiles] at hget
      obtain ⟨last, hlast, rfl⟩ := Option.map_eq_some_iff.mp hget
      have hsuits := (d.coherent_load_iff last.config).mp (check_eq_ok_iff.mp hcheck)
      exact hsuits.of_kept d ((d.load_v1 last.config).symm.trans hkept)
    · obtain ⟨migrated, hget, _, hkept⟩ := hmigrates profile hmem
      obtain ⟨migrated', hget', _, hkept'⟩ := hmigrates other hother
      rw [hid, hget'] at hget
      obtain rfl := Option.some.inj hget
      exact hkept.symm.trans hkept'
  · rintro ⟨hsuits, hsame⟩
    refine ⟨m, hload, fun profile hmem => ?_⟩
    have hid : profile.id ∈ d.profiles.map ProfileOf.id := List.mem_map_of_mem hmem
    obtain ⟨last, hlast⟩ := Option.isSome_iff_exists.mp (get_index_is_some.mpr hid)
    obtain ⟨hlastMem, hlastId⟩ := mem_of_get_index hlast
    refine ⟨_, (hprofiles profile.id).trans (congrArg _ hlast), ?_, ?_⟩
    · exact check_eq_ok_iff.mpr ((d.coherent_load_iff last.config).mpr (hsuits last hlastMem))
    · exact (d.load_v1 last.config).trans (hsame last hlastMem profile hmem hlastId)

/-! ## Two documents of version 1 -/

/-- One profile with a user agent. -/
def legacy (userAgent : Text) : DocumentV1 where
  profiles := [⟨1, "legacy", 0, ⟨some userAgent, "en-US", "UTC", none, [], [], []⟩⟩]
  selected := none
  limits := none

/-- A version 1 document as a text. -/
def legacyText (userAgent : Text) : Text :=
  object [("schema_version", "1"),
    ("profiles", array [object [("id", quote (hyphenated 1)), ("name", quote "legacy"),
      ("generation", "0"),
      ("config", object [("user_agent", quote userAgent), ("locale", quote "en-US"),
        ("timezone", quote "UTC"), ("homepage", "null"), ("extensions", array []),
        ("history", array []), ("autocomplete", array [])])]]),
    ("selected", "null")]

/-- A reader of one text. -/
def readerOf (text : Text) (document : ManagerDocument) : Json where
  fromStr value := if value = text then some document else none

theorem reader_of_text (text : Text) (document : ManagerDocument) :
    (readerOf text document).fromStr text = some document := if_pos rfl

/-- The reader of that text. -/
def legacyReader (userAgent : Text) : Json :=
  readerOf (legacyText userAgent) (legacy userAgent).document

/-- The user agent of Chrome. -/
def chromeAgent : Text := "Mozilla/5.0 (X11; Linux x86_64) Chrome/130.0.0.0 Safari/537.36"

/-- The user agent of Firefox. -/
def firefoxAgent : Text := "Mozilla/5.0 (X11; Linux x86_64; rv:130.0) Gecko/20100101 Firefox/130.0"

/-- The defaults suit the user agent of Chrome. -/
theorem suits_chrome_agent : SuitsChrome chromeAgent ∧ SuitsLinux chromeAgent := by
  have hfamily : detectUserAgentFamily chromeAgent = some .chrome := by
    unfold chromeAgent
    rw [String.toList_ofList]
    decide
  have hplatform : detectUserAgentPlatform chromeAgent = some .linux := by
    unfold chromeAgent
    rw [String.toList_ofList]
    decide
  unfold SuitsChrome SuitsLinux
  rw [hfamily, hplatform]
  exact ⟨⟨by decide, by decide⟩, fun uaPlatform h => Or.inr (Option.some.inj h).symm⟩

theorem detect_firefox_agent : detectUserAgentFamily firefoxAgent = some .firefox := by
  unfold firefoxAgent
  rw [String.toList_ofList]
  decide

/-- Firefox with the brands of Chrome is refused, whatever the platform. -/
theorem check_firefox_agent (platform : Text) :
    checkUserAgent ProfileInconsistency.userAgentClaimsBrowser .platformMismatch firefoxAgent
        chromeBrands platform =
      .error (.userAgentClaimsBrowser "firefox" "chrome/safari brands") := by
  rw [checkUserAgent, checkBrands, detect_firefox_agent]
  rfl

theorem chrome_legacy_migrates : ∃ m,
    fromJson (legacyReader chromeAgent) (legacyText chromeAgent) = .ok m ∧
      (legacy chromeAgent).MigratesTo m := by
  refine (migrates_iff (legacyReader chromeAgent) (legacyText chromeAgent) (legacy chromeAgent)
    (reader_of_text _ _)).mpr ⟨fun profile hmem ua hua => ?_, fun profile hmem other hother _ => ?_⟩
  · rw [List.mem_singleton.mp hmem] at hua
    exact Option.some.inj hua ▸ suits_chrome_agent
  · rw [List.mem_singleton.mp hmem, List.mem_singleton.mp hother]

/-- A Firefox profile of version 1 gets the brands of Chrome. -/
theorem firefox_legacy_not_migrated :
    checkProfileConsistency ((legacy firefoxAgent).document.load
        (ConfigV1.document ⟨some firefoxAgent, "en-US", "UTC", none, [], [], []⟩)) =
      .error (.userAgentClaimsBrowser "firefox" "chrome/safari brands") ∧
    ¬ ∀ (json : Json) (text : Text) (d : DocumentV1), json.fromStr text = some d.document →
      ∃ m, fromJson json text = .ok m ∧ d.MigratesTo m := by
  have hrefused : checkProfileConsistency ((legacy firefoxAgent).document.load
      (ConfigV1.document ⟨some firefoxAgent, "en-US", "UTC", none, [], [], []⟩)) =
      .error (.userAgentClaimsBrowser "firefox" "chrome/safari brands") :=
    check_firefox_agent _
  refine ⟨hrefused, fun h => ?_⟩
  obtain ⟨m, hload, hmigrates⟩ := h (legacyReader firefoxAgent) (legacyText firefoxAgent)
    (legacy firefoxAgent) (reader_of_text _ _)
  obtain ⟨m', hload', hprofiles⟩ := from_json_of_v1 (reader_of_text (legacyText firefoxAgent)
    (legacy firefoxAgent).document)
  obtain rfl : m = m' := Except.ok.inj (hload.symm.trans hload')
  obtain ⟨migrated, hget, hcheck, _⟩ := hmigrates _ (List.mem_singleton.mpr rfl)
  rw [hprofiles] at hget
  obtain rfl := Option.some.inj hget
  have hboth := hrefused.symm.trans hcheck
  cases hboth

end ProfileManager

end BrowsAI.Profiles
