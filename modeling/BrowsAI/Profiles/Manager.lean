import BrowsAI.Library.Indexed
import BrowsAI.Library.Runs
import BrowsAI.Profiles.Fingerprint

/-!
# The profile manager

`ProfileManager` of `crates/profiles`, with the documents that `from_json` reads. A document is what
`serde_json` finds in the text: the fields with a default may be missing. The reader of JSON text is
a parameter.
-/

namespace BrowsAI.Profiles

open Utf8
open Indexed (index)
open ProfileConfig (HistoryEntry AutocompleteEntry)

/-- `C` is the type of the configuration. -/
structure ProfileOf (C : Type) where
  id : ProfileId
  name : Text
  generation : UInt64
  config : C
  deriving DecidableEq

/-- A profile with its configuration. -/
abbrev Profile := ProfileOf ProfileConfig

/-- The profiles by id, the one that is selected, and the limits. -/
structure ProfileManager where
  profiles : OrdMap ProfileId Profile
  selected : Option ProfileId
  limits : ProfileLimits

/-- The same profile with another configuration. -/
def ProfileOf.withConfig {C D : Type} (profile : ProfileOf C) (f : C → D) : ProfileOf D :=
  ⟨profile.id, profile.name, profile.generation, f profile.config⟩

/-! ## Documents -/

/-- A configuration in a document. -/
structure ConfigDocument extends ConfigV1 where
  viewport : Option ProfileViewport
  platform : Option Text
  brands : Option (List SecChUaBrand)
  acceptLanguage : Option Text
  hardwareConcurrency : Option UInt8
  deviceMemory : Option UInt8
  maxTouchPoints : Option UInt8
  colorDepth : Option UInt8

/-- The profiles as they may be in a text, with fields missing. -/
structure ManagerDocument where
  schemaVersion : Option UInt16
  profiles : List (ProfileOf ConfigDocument)
  selected : Option ProfileId
  limits : Option ProfileLimits

/-- The profiles as they are read. -/
structure ProfileManagerWire where
  schemaVersion : UInt16
  profiles : List Profile
  selected : Option ProfileId
  limits : ProfileLimits

/-- The version that is written. -/
def profileSchemaVersion : UInt16 := 2

/-- The missing fields get their defaults. -/
def ConfigDocument.read (document : ConfigDocument) : ProfileConfig :=
  { document.toConfigV1 with
    viewport := document.viewport.getD default
    platform := document.platform.getD []
    brands := document.brands.getD []
    acceptLanguage := document.acceptLanguage.getD []
    hardwareConcurrency := document.hardwareConcurrency.getD 0
    deviceMemory := document.deviceMemory.getD 0
    maxTouchPoints := document.maxTouchPoints.getD 0
    colorDepth := document.colorDepth.getD 0 }

/-- The text with the defaults for what is missing. -/
def ManagerDocument.read (document : ManagerDocument) : ProfileManagerWire where
  schemaVersion := document.schemaVersion.getD profileSchemaVersion
  profiles := document.profiles.map fun profile => profile.withConfig ConfigDocument.read
  selected := document.selected
  limits := document.limits.getD default

/-- Fills what version 1 did not have with the defaults, whatever the user agent is. -/
def migrateV1ToV2 (config : ProfileConfig) : ProfileConfig :=
  let defaults : ProfileConfig := default
  { config with
    viewport :=
      if config.viewport.width = 0 ∨ config.viewport.height = 0 then defaults.viewport
      else config.viewport
    platform := if config.platform = [] then defaults.platform else config.platform
    brands := if config.brands = [] then defaults.brands else config.brands
    acceptLanguage :=
      if config.acceptLanguage = [] then defaults.acceptLanguage else config.acceptLanguage }

namespace ProfileManager

instance : Inhabited ProfileManager where
  default := ⟨∅, none, default⟩

/-- The version that is written. -/
def schemaVersion : UInt16 := 2

/-- `serde_json::Error`: an error of the reader, or one with a text of its own. -/
inductive LoadError where
  | read
  | custom (text : Text)
  deriving DecidableEq

/-- `serde_json::from_str` at `ProfileManagerWire`, up to the defaults of missing fields. -/
structure Json where
  fromStr : Text → Option ManagerDocument

/-! ## Operations -/

variable (m : ProfileManager)

/-- The insertion of a new profile. -/
def insertNew (id : ProfileId) (name : Text) (config : ProfileConfig) : ProfileManager :=
  { m with
    profiles := m.profiles.insert id ⟨id, name, 0, config⟩
    selected := if m.selected = none then some id else m.selected }

/-- The id is a random one. -/
def create (id : ProfileId) (name : Text) : ProfileManager := m.insertNew id name default

/-- A new profile of a variant, if there is room. -/
def createWithVariant (id : ProfileId) (name : Text) (variant : ProfileVariant) :
    Option ProfileId × ProfileManager :=
  if m.profiles.size ≥ m.limits.maxProfiles then (none, m)
  else (some id, m.insertNew id name variant.defaultConfig)

/-- Sets the limits, and cuts all lists to them. -/
def setLimits (limits : ProfileLimits) : ProfileManager :=
  { m with
    limits
    profiles := m.profiles.map fun _ profile => profile.withConfig (normalizeConfig limits) }

/-- A change of one profile, if it is there. -/
def change (id : ProfileId) (f : ProfileConfig → ProfileConfig) : Bool × ProfileManager :=
  if m.profiles.contains id then
    (true,
      { m with
        profiles := m.profiles.modify id fun profile =>
          { profile with config := f profile.config, generation := profile.generation + 1 } })
  else (false, m)

/-- Sets the configuration without a check. -/
def updateConfig (id : ProfileId) (config : ProfileConfig) : Bool × ProfileManager :=
  m.change id fun _ => normalizeConfig m.limits config

/-- Sets the configuration if it is consistent. -/
def tryUpdateConfig (id : ProfileId) (config : ProfileConfig) :
    Except ProfileInconsistency (Bool × ProfileManager) := do
  checkProfileConsistency config
  return m.change id fun _ => normalizeConfig m.limits config

/-- Appends a page, and keeps the last ones. -/
def recordHistory (id : ProfileId) (entry : HistoryEntry) (maxEntries : Nat) :
    Bool × ProfileManager :=
  m.change id fun config =>
    { config with
      history := drainTo (min maxEntries m.limits.maxHistoryEntries) (config.history ++ [entry]) }

/-- Appends a value, instead of the same one before, and keeps the last ones. -/
def recordAutocomplete (id : ProfileId) (entry : AutocompleteEntry) (maxEntries : Nat) :
    Bool × ProfileManager :=
  m.change id fun config =>
    let retained := config.autocomplete.filter fun existing =>
      existing.field ≠ entry.field ∨ existing.value ≠ entry.value
    { config with
      autocomplete :=
        drainTo (min maxEntries m.limits.maxAutocompleteEntries) (retained ++ [entry]) }

/-- Gives a profile the identity of a fingerprint, and default values for everything else. -/
def applyFingerprint (id : ProfileId) (catalog : FingerprintCatalog)
    (fingerprintId : FingerprintId) :
    Except FingerprintInconsistency (Bool × ProfileManager) :=
  match catalog.get fingerprintId with
  | none => .error (.userAgentClaimsBrowser "fingerprint-not-found" fingerprintId)
  | some fingerprint => do
      fingerprint.isConsistent
      let config := ProfileConfig.ofIdentity fingerprint.intoProfileIdentity
      match m.tryUpdateConfig id config with
      | .error _ => .error (.userAgentClaimsBrowser "profile-rejected" fingerprintId)
      | .ok updated => .ok updated

/-- The manager that `from_json` makes of a wire. -/
def fromWire (wire : ProfileManagerWire) : Except LoadError ProfileManager :=
  if wire.schemaVersion > schemaVersion then
    .error (.custom "unsupported profile schema version")
  else
    let migrated := wire.profiles.map fun profile =>
      if wire.schemaVersion < 2 then profile.withConfig migrateV1ToV2 else profile
    let profiles := index ProfileOf.id migrated
    .ok
      { profiles := profiles.map fun _ profile => profile.withConfig (normalizeConfig wire.limits)
        selected := (wire.selected.filter profiles.contains).or profiles.keys.head?
        limits := wire.limits }

/-- The profiles of a text. -/
def fromJson (json : Json) (text : Text) : Except LoadError ProfileManager :=
  match json.fromStr text with
  | none => .error .read
  | some document => fromWire document.read

/-! ## Runs -/

/-- A call. -/
inductive Op where
  | create (id : ProfileId) (name : Text)
  | createWithVariant (id : ProfileId) (name : Text) (variant : ProfileVariant)
  | updateConfig (id : ProfileId) (config : ProfileConfig)
  | tryUpdateConfig (id : ProfileId) (config : ProfileConfig)
  | applyFingerprint (id : ProfileId) (catalog : FingerprintCatalog)
      (fingerprintId : FingerprintId)
  | setLimits (limits : ProfileLimits)
  | recordHistory (id : ProfileId) (entry : HistoryEntry) (maxEntries : Nat)
  | recordAutocomplete (id : ProfileId) (entry : AutocompleteEntry) (maxEntries : Nat)
  | fromJson (text : Text)

/-- The manager after a call. A call that fails leaves it alone. -/
def perform (json : Json) : Op → ProfileManager
  | .create id name => m.create id name
  | .createWithVariant id name variant => (m.createWithVariant id name variant).2
  | .updateConfig id config => (m.updateConfig id config).2
  | .tryUpdateConfig id config => ((m.tryUpdateConfig id config).toOption.map Prod.snd).getD m
  | .applyFingerprint id catalog fingerprintId =>
      ((m.applyFingerprint id catalog fingerprintId).toOption.map Prod.snd).getD m
  | .setLimits limits => m.setLimits limits
  | .recordHistory id entry maxEntries => (m.recordHistory id entry maxEntries).2
  | .recordAutocomplete id entry maxEntries => (m.recordAutocomplete id entry maxEntries).2
  | .fromJson text => (ProfileManager.fromJson json text).toOption.getD m

/-- The system whose steps are calls. -/
def machine (json : Json) : Machine ProfileManager Op where
  step m op := m.perform json op
  Allowed _ _ := True

end ProfileManager

end BrowsAI.Profiles
