import BrowsAI.Profiles.Migration

/-!
# Consistent profiles

Which runs of the profile manager keep every profile consistent. `create`, the variants, the checked
updates, the limits and the records keep them so by themselves, and `update_config` and `from_json`
exactly when what they are given is consistent, `always_consistent_iff`.
-/

namespace BrowsAI.Profiles

open Std Utf8
open Indexed (index mem_of_get_index)

namespace ProfileManager

variable {m : ProfileManager} {json : Json}

/-- The identities of all profiles pass the check. -/
def Consistent (m : ProfileManager) : Prop :=
  OrdMap.All (fun profile => checkProfileConsistency profile.config = .ok ()) m.profiles

/-- The unchecked updates and the documents are consistent. -/
def KeepsConsistent (json : Json) (m : ProfileManager) : Op → Prop
  | .updateConfig id config => id ∈ m.profiles → checkProfileConsistency config = .ok ()
  | .fromJson text => ∀ document, json.fromStr text = some document →
      document.version ≤ schemaVersion →
        OrdMap.All (fun profile => profile.config.LoadsCoherent document.version)
          (index ProfileOf.id document.profiles)
  | _ => True

theorem consistent_iff :
    m.Consistent ↔ OrdMap.All (fun profile => profile.config.Coherent) m.profiles :=
  forall₂_congr fun _ _ => imp_congr_right fun _ => check_eq_ok_iff

theorem Consistent.default : (default : ProfileManager).Consistent := by
  intro id profile hget
  have hempty : (∅ : OrdMap ProfileId Profile)[id]? = some profile := hget
  rw [ExtTreeMap.getElem?_empty] at hempty
  cases hempty

/-! ## One operation -/

theorem Consistent.insert_new (h : m.Consistent) (id : ProfileId) (name : Text)
    {config : ProfileConfig} (hcoherent : config.Coherent) :
    (m.insertNew id name config).Consistent :=
  (OrdMap.All.insert_iff h id _).mpr (check_eq_ok_iff.mpr hcoherent)

/-- A change of one profile is as good as what it makes of the configuration that is there. -/
theorem Consistent.change_iff (h : m.Consistent) (id : ProfileId)
    (f : ProfileConfig → ProfileConfig) :
    (m.change id f).2.Consistent ↔
      ∀ profile : Profile, m.profiles[id]? = some profile → (f profile.config).Coherent := by
  rw [change]
  by_cases hid : m.profiles.contains id = true
  · rw [if_pos hid]
    refine (OrdMap.All.modify_iff h id _).trans ?_
    exact forall₂_congr fun _ _ => check_eq_ok_iff
  · rw [if_neg hid]
    refine iff_of_true h fun profile hget => absurd ?_ hid
    rw [ExtTreeMap.contains_eq_isSome_getElem?, hget]
    rfl

/-- A change that leaves user agent, brands and platform alone. -/
theorem Consistent.change (h : m.Consistent) (id : ProfileId) {f : ProfileConfig → ProfileConfig}
    (hf : ∀ config, config.Coherent → (f config).Coherent) : (m.change id f).2.Consistent :=
  (h.change_iff id f).mpr fun _ hget => hf _ (consistent_iff.mp h id _ hget)

theorem Consistent.update_config_iff (h : m.Consistent) (id : ProfileId) (config : ProfileConfig) :
    (m.updateConfig id config).2.Consistent ↔
      (id ∈ m.profiles → checkProfileConsistency config = .ok ()) := by
  rw [updateConfig, h.change_iff, coherent_normalize_config, check_eq_ok_iff,
    ← ExtTreeMap.isSome_getElem?_iff_mem, Option.isSome_iff_exists]
  constructor
  · rintro hall ⟨profile, hget⟩
    exact hall profile hget
  · exact fun hall profile hget => hall ⟨profile, hget⟩

/-- A checked update is an update with a consistent configuration. -/
theorem try_update_config_eq (m : ProfileManager) (id : ProfileId) (config : ProfileConfig) :
    m.tryUpdateConfig id config =
      (checkProfileConsistency config).map fun _ => m.updateConfig id config := by
  rw [tryUpdateConfig]
  cases checkProfileConsistency config <;> rfl

/-- A checked update keeps that. -/
theorem Consistent.try_update_config (h : m.Consistent) {id : ProfileId} {config : ProfileConfig}
    {updated : Bool × ProfileManager} (hok : m.tryUpdateConfig id config = .ok updated) :
    updated.2.Consistent := by
  rw [try_update_config_eq] at hok
  cases hcheck : checkProfileConsistency config with
  | error e =>
      rw [hcheck] at hok
      cases hok
  | ok u =>
      rw [hcheck] at hok
      obtain rfl := Except.ok.inj hok
      exact (h.update_config_iff id config).mpr fun _ => hcheck

/-- Applying a fingerprint that is there and passes its checks is a checked update that is not
refused. -/
theorem apply_fingerprint_eq {id : ProfileId} {catalog : FingerprintCatalog}
    {fingerprintId : FingerprintId} {fingerprint : Fingerprint}
    (hget : catalog.get fingerprintId = some fingerprint)
    (hconsistent : fingerprint.isConsistent = .ok ()) :
    m.applyFingerprint id catalog fingerprintId =
      .ok (m.updateConfig id (.ofIdentity fingerprint.intoProfileIdentity)) := by
  have hcheck := check_eq_ok_iff.mpr (coherent_of_is_consistent hconsistent)
  unfold applyFingerprint
  rw [hget]
  dsimp only
  rw [hconsistent, try_update_config_eq, hcheck]
  rfl

/-- A fingerprint that was applied is in the catalog and passed its checks. -/
theorem exists_of_apply_fingerprint {id : ProfileId} {catalog : FingerprintCatalog}
    {fingerprintId : FingerprintId} {updated : Bool × ProfileManager}
    (hok : m.applyFingerprint id catalog fingerprintId = .ok updated) :
    ∃ fingerprint : Fingerprint, catalog.get fingerprintId = some fingerprint ∧
      fingerprint.isConsistent = .ok () ∧
      updated = m.updateConfig id (.ofIdentity fingerprint.intoProfileIdentity) := by
  cases hget : catalog.get fingerprintId with
  | none =>
      rw [applyFingerprint, hget] at hok
      cases hok
  | some fingerprint =>
      cases hconsistent : fingerprint.isConsistent with
      | error e =>
          rw [applyFingerprint, hget] at hok
          dsimp only at hok
          rw [hconsistent] at hok
          cases hok
      | ok u =>
          rw [apply_fingerprint_eq hget hconsistent] at hok
          exact ⟨fingerprint, rfl, hconsistent, (Except.ok.inj hok).symm⟩

/-- So does a fingerprint. -/
theorem Consistent.apply_fingerprint (h : m.Consistent) {id : ProfileId}
    {catalog : FingerprintCatalog} {fingerprintId : FingerprintId}
    {updated : Bool × ProfileManager}
    (hok : m.applyFingerprint id catalog fingerprintId = .ok updated) : updated.2.Consistent := by
  obtain ⟨fingerprint, -, hconsistent, rfl⟩ := exists_of_apply_fingerprint hok
  exact (h.update_config_iff id _).mpr fun _ =>
    check_eq_ok_iff.mpr (coherent_of_is_consistent hconsistent)

/-- A loaded manager is consistent exactly when what the document keeps loads consistently. -/
theorem from_json_consistent_iff {text : Text} {document : ManagerDocument}
    (htext : json.fromStr text = some document) (hsupported : document.version ≤ schemaVersion) :
    ∃ m, fromJson json text = .ok m ∧ (m.Consistent ↔
      OrdMap.All (fun profile => profile.config.LoadsCoherent document.version)
        (index ProfileOf.id document.profiles)) := by
  obtain ⟨m, hload, hprofiles⟩ := from_json_of_supported htext (UInt16.not_lt.mpr hsupported)
  have hmap : m.profiles = (index ProfileOf.id document.profiles).map fun _ profile =>
      profile.withConfig document.load := by
    refine ExtTreeMap.ext_getElem? fun id => ?_
    rw [hprofiles, ExtTreeMap.getElem?_map]
  refine ⟨m, hload, ?_⟩
  rw [consistent_iff, hmap, OrdMap.all_map_iff]
  exact forall₂_congr fun _ profile => imp_congr_right fun _ =>
    document.coherent_load_iff profile.config

/-- An operation keeps a consistent manager so exactly when what it is given is consistent. -/
theorem Consistent.step_iff (h : m.Consistent) (op : Op) :
    ((machine json).step m op).Consistent ↔ m.KeepsConsistent json op := by
  cases op with
  | create id name => exact iff_of_true (h.insert_new id name coherent_default) trivial
  | createWithVariant id name variant =>
      refine iff_of_true ?_ trivial
      show (m.createWithVariant id name variant).2.Consistent
      rw [createWithVariant]
      split_ifs
      · exact h
      · exact h.insert_new id name (coherent_variant variant)
  | updateConfig id config => exact h.update_config_iff id config
  | tryUpdateConfig id config =>
      refine iff_of_true ?_ trivial
      show (((m.tryUpdateConfig id config).toOption.map Prod.snd).getD m).Consistent
      cases hok : m.tryUpdateConfig id config with
      | error e => exact h
      | ok updated => exact h.try_update_config hok
  | applyFingerprint id catalog fingerprintId =>
      refine iff_of_true ?_ trivial
      show (((m.applyFingerprint id catalog fingerprintId).toOption.map Prod.snd).getD m).Consistent
      cases hok : m.applyFingerprint id catalog fingerprintId with
      | error e => exact h
      | ok updated => exact h.apply_fingerprint hok
  | setLimits limits =>
      refine iff_of_true ?_ trivial
      refine consistent_iff.mpr ((OrdMap.all_map_iff _).mpr fun id profile hget => ?_)
      exact (coherent_normalize_config limits profile.config).mpr (consistent_iff.mp h id _ hget)
  | recordHistory id entry maxEntries =>
      exact iff_of_true (h.change id fun _ hcoherent => hcoherent) trivial
  | recordAutocomplete id entry maxEntries =>
      exact iff_of_true (h.change id fun _ hcoherent => hcoherent) trivial
  | fromJson text =>
      show ((fromJson json text).toOption.getD m).Consistent ↔ _
      rw [KeepsConsistent]
      cases htext : json.fromStr text with
      | none =>
          rw [fromJson, htext]
          exact iff_of_true h fun _ hnone => by cases hnone
      | some document =>
          by_cases hsupported : document.version ≤ schemaVersion
          · obtain ⟨loaded, hload, hiff⟩ := from_json_consistent_iff htext hsupported
            rw [hload]
            refine hiff.trans ⟨fun hall other hother _ => ?_, fun hall => ?_⟩
            · rwa [← Option.some.inj hother]
            · exact hall document rfl hsupported
          · rw [from_json_of_newer htext (UInt16.not_le.mp hsupported)]
            refine iff_of_true h fun other hother hle => absurd ?_ hsupported
            rwa [Option.some.inj hother]

/-- Every profile of a run is consistent exactly when the unchecked updates of existing profiles and
the documents are. -/
theorem always_consistent_iff (json : Json) (ops : List Op) :
    (machine json).Always Consistent default ops ↔
      (machine json).Throughout (KeepsConsistent json) default ops :=
  Machine.always_iff_of_step (fun _ _ => trivial) (fun _ op h => h.step_iff op) .default ops

/-- A Firefox user agent with the default brands. -/
def firefoxConfig : ProfileConfig := { (default : ProfileConfig) with userAgent := firefoxAgent }

/-- A profile that is updated without a check. -/
def firefoxOps : List Op := [.create 1 "bad", .updateConfig 1 firefoxConfig]

/-- `update_config` takes what `try_update_config` refuses. -/
theorem firefox_ops_not_consistent :
    checkProfileConsistency firefoxConfig =
        .error (.userAgentClaimsBrowser "firefox" "chrome/safari brands") ∧
      ¬ ∀ (json : Json) (ops : List Op), (machine json).Always Consistent default ops := by
  have hrefused : checkProfileConsistency firefoxConfig =
      .error (.userAgentClaimsBrowser "firefox" "chrome/safari brands") := check_firefox_agent _
  refine ⟨hrefused, fun h => ?_⟩
  have hrun := (h ⟨fun _ => none⟩ firefoxOps).2
  have hcreated : ((default : ProfileManager).create 1 "bad").Consistent := hrun.1
  have hupdated := (hcreated.update_config_iff 1 firefoxConfig).mp hrun.2
  have hboth := hrefused.symm.trans (hupdated ExtTreeMap.mem_insert_self)
  cases hboth

end ProfileManager

end BrowsAI.Profiles
