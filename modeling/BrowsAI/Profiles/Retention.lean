import BrowsAI.Profiles.Coherence

/-!
# What a profile retains

The visits and completions that the profile manager keeps, beside those that it was given. What is
kept are always the last ones, and they keep to the limits exactly in the runs where no entry is
recorded with a maximum of 0 into a full list, `always_kept_iff`: the smaller of two maxima is taken
for no limit when it is 0.
-/

namespace BrowsAI.Profiles

open Std Utf8
open Indexed (index)
open ProfileConfig (HistoryEntry AutocompleteEntry)

/-! ## Lists -/

section Lists

variable {α : Type} {limit maximum : Nat} {entries : List α}

theorem drain_to_suffix (limit : Nat) (entries : List α) : drainTo limit entries <:+ entries := by
  rw [drainTo]
  split_ifs
  · exact List.drop_suffix _ _
  · exact List.suffix_rfl

theorem length_drain_to_le (h : limit ≠ 0) : (drainTo limit entries).length ≤ limit := by
  rw [drainTo]
  split_ifs with hlong
  · rw [List.length_drop]
    omega
  · omega

/-- With a maximum of 0 beside that of the limits, there must be room for the entry already. -/
theorem length_record_le_iff (maxEntries : Nat) (entry : α) :
    (maximum ≠ 0 →
        (drainTo (min maxEntries maximum) (entries ++ [entry])).length ≤ maximum) ↔
      (maxEntries = 0 → maximum ≠ 0 → entries.length < maximum) := by
  by_cases hmaximum : maximum = 0
  · simp [hmaximum]
  by_cases hentries : maxEntries = 0
  · have hall : drainTo (min maxEntries maximum) (entries ++ [entry]) = entries ++ [entry] := by
      rw [hentries, Nat.zero_min]
      rfl
    rw [hall, List.length_append, List.length_singleton]
    simp only [hmaximum, hentries, ne_eq, not_false_eq_true, true_imp_iff]
    omega
  · have hle : (drainTo (min maxEntries maximum) (entries ++ [entry])).length ≤
        min maxEntries maximum := length_drain_to_le (by omega)
    exact iff_of_true (fun _ => by omega) fun hzero => absurd hzero hentries

end Lists

/-! ## Configurations -/

/-- The entries that a profile was given, from the oldest to the latest. -/
structure Given where
  history : List HistoryEntry
  autocomplete : List AutocompleteEntry

/-- The entries of a configuration that is given as a whole. -/
def Given.ofConfig (config : ConfigV1) : Given := ⟨config.history, config.autocomplete⟩

/-- The completions of other fields or values. -/
def retained (entry : AutocompleteEntry) (autocomplete : List AutocompleteEntry) :
    List AutocompleteEntry :=
  autocomplete.filter fun existing => existing.field ≠ entry.field ∨ existing.value ≠ entry.value

/-- The configuration has the last of the entries given, and no more than the limits say. -/
structure ConfigKept (limits : ProfileLimits) (given : Given) (config : ProfileConfig) : Prop where
  history_suffix : config.history <:+ given.history
  autocomplete_suffix : config.autocomplete <:+ given.autocomplete
  history_le : limits.maxHistoryEntries ≠ 0 → config.history.length ≤ limits.maxHistoryEntries
  autocomplete_le : limits.maxAutocompleteEntries ≠ 0 →
    config.autocomplete.length ≤ limits.maxAutocompleteEntries

section Config

variable {limits : ProfileLimits} {given : Given} {config : ProfileConfig}

/-- Lists that are cut keep what is new. -/
theorem ConfigKept.normalize (hhistory : config.history <:+ given.history)
    (hautocomplete : config.autocomplete <:+ given.autocomplete) (limits : ProfileLimits) :
    ConfigKept limits given (normalizeConfig limits config) where
  history_suffix := (drain_to_suffix _ _).trans hhistory
  autocomplete_suffix := (drain_to_suffix _ _).trans hautocomplete
  history_le := length_drain_to_le
  autocomplete_le := length_drain_to_le

theorem ConfigKept.of_empty (hhistory : config.history = [])
    (hautocomplete : config.autocomplete = []) : ConfigKept limits given config := by
  refine ⟨?_, ?_, fun _ => ?_, fun _ => ?_⟩
  · exact hhistory ▸ List.nil_suffix
  · exact hautocomplete ▸ List.nil_suffix
  · rw [hhistory]
    exact Nat.zero_le _
  · rw [hautocomplete]
    exact Nat.zero_le _

/-- So do those with a new page, exactly if there is room for it. -/
theorem ConfigKept.record_history_iff (h : ConfigKept limits given config) (entry : HistoryEntry)
    (maxEntries : Nat) :
    ConfigKept limits { given with history := given.history ++ [entry] }
        { config with
          history := drainTo (min maxEntries limits.maxHistoryEntries)
            (config.history ++ [entry]) } ↔
      (maxEntries = 0 → limits.maxHistoryEntries ≠ 0 →
        config.history.length < limits.maxHistoryEntries) := by
  rw [← length_record_le_iff maxEntries entry]
  constructor
  · exact ConfigKept.history_le
  · intro hle
    obtain ⟨before, hbefore⟩ := h.history_suffix
    have hrecorded : config.history ++ [entry] <:+ given.history ++ [entry] :=
      ⟨before, by rw [← List.append_assoc, hbefore]⟩
    exact ⟨(drain_to_suffix _ _).trans hrecorded, h.autocomplete_suffix, hle, h.autocomplete_le⟩

/-- So do those with a new value. -/
theorem ConfigKept.record_autocomplete_iff (h : ConfigKept limits given config)
    (entry : AutocompleteEntry) (maxEntries : Nat) :
    ConfigKept limits { given with autocomplete := retained entry given.autocomplete ++ [entry] }
        { config with
          autocomplete := drainTo (min maxEntries limits.maxAutocompleteEntries)
            (retained entry config.autocomplete ++ [entry]) } ↔
      (maxEntries = 0 → limits.maxAutocompleteEntries ≠ 0 →
        (retained entry config.autocomplete).length < limits.maxAutocompleteEntries) := by
  rw [← length_record_le_iff maxEntries entry]
  constructor
  · exact ConfigKept.autocomplete_le
  · intro hle
    obtain ⟨before, hbefore⟩ := h.autocomplete_suffix.filter
      fun existing => existing.field ≠ entry.field ∨ existing.value ≠ entry.value
    have hrecorded : retained entry config.autocomplete ++ [entry] <:+
        retained entry given.autocomplete ++ [entry] :=
      ⟨before, by rw [← List.append_assoc]; exact congrArg (· ++ [entry]) hbefore⟩
    exact ⟨h.history_suffix, (drain_to_suffix _ _).trans hrecorded, h.history_le, hle⟩

end Config

/-! ## Histories of the manager -/

namespace ProfileManager

/-- A new profile, if there is room. -/
def tryCreate (m : ProfileManager) (id : ProfileId) (name : Text) :
    Option ProfileId × ProfileManager :=
  if m.profiles.size ≥ m.limits.maxProfiles then (none, m) else (some id, m.create id name)

/-- Drops a profile, and selects the first one left if it was selected. -/
def delete (m : ProfileManager) (id : ProfileId) : Bool × ProfileManager :=
  let removed := m.profiles.contains id
  let profiles := m.profiles.erase id
  (removed,
    { m with
      profiles
      selected := if removed ∧ m.selected = some id then profiles.keys.head? else m.selected })

/-- Selects a profile. -/
def select (m : ProfileManager) (id : ProfileId) : Bool × ProfileManager :=
  if m.profiles.contains id then (true, { m with selected := some id }) else (false, m)

/-- A call that changes the manager. -/
inductive Action
  | op (op : Op)
  | tryCreate (id : ProfileId) (name : Text)
  | delete (id : ProfileId)
  | select (id : ProfileId)

/-- A call of any kind. -/
def act (json : Json) (m : ProfileManager) : Action → ProfileManager
  | .op op => m.perform json op
  | .tryCreate id name => (m.tryCreate id name).2
  | .delete id => (m.delete id).2
  | .select id => (m.select id).2

/-- What a profile was given, after a call. A configuration that replaces another one counts as a
whole. -/
def Op.gives (json : Json) (m : ProfileManager) (id : ProfileId) (given : Given) : Op → Given
  | .create new _ => if new = id then ⟨[], []⟩ else given
  | .createWithVariant new _ variant =>
      if new = id ∧ m.profiles.size < m.limits.maxProfiles then
        .ofConfig variant.defaultConfig.toConfigV1
      else given
  | .updateConfig changed config => if changed = id then .ofConfig config.toConfigV1 else given
  | .tryUpdateConfig changed config =>
      if changed = id ∧ checkProfileConsistency config = .ok () then .ofConfig config.toConfigV1
      else given
  | .applyFingerprint changed catalog fingerprintId =>
      match catalog.get fingerprintId with
      | none => given
      | some fingerprint =>
          if changed = id ∧ fingerprint.isConsistent = .ok () then
            .ofConfig (ProfileConfig.ofIdentity fingerprint.intoProfileIdentity).toConfigV1
          else given
  | .setLimits _ => given
  | .recordHistory changed entry _ =>
      if changed = id then { given with history := given.history ++ [entry] } else given
  | .recordAutocomplete changed entry _ =>
      if changed = id then
        { given with autocomplete := retained entry given.autocomplete ++ [entry] }
      else given
  | .fromJson text =>
      match json.fromStr text with
      | none => given
      | some document =>
          if document.version ≤ schemaVersion then
            match (index ProfileOf.id document.profiles)[id]? with
            | none => given
            | some profile => .ofConfig profile.config.toConfigV1
          else given

/-- What a profile was given by a call. -/
def Action.gives (json : Json) (m : ProfileManager) (id : ProfileId) (given : Given) :
    Action → Given
  | .op call => call.gives json m id given
  | .tryCreate new _ =>
      if new = id ∧ m.profiles.size < m.limits.maxProfiles then ⟨[], []⟩ else given
  | .delete _ | .select _ => given

/-- A manager, and what each profile was given. -/
structure Retention where
  manager : ProfileManager
  given : ProfileId → Given

/-- The profiles beside what they were given. -/
def retention (json : Json) : Machine Retention Action where
  step h action :=
    { manager := h.manager.act json action
      given id := action.gives json h.manager id (h.given id) }
  Allowed _ _ := True

/-- Every profile has the last of the entries it was given, within the limits that are set. -/
def Kept (h : Retention) : Prop :=
  ∀ (id : ProfileId) (profile : Profile), h.manager.profiles[id]? = some profile →
    ConfigKept h.manager.limits (h.given id) profile.config

/-- An entry that is recorded with a maximum of 0 finds room in the list. -/
def FindsRoom (h : Retention) : Action → Prop
  | .op (.recordHistory id _ maxEntries) =>
      maxEntries = 0 → h.manager.limits.maxHistoryEntries ≠ 0 →
        ∀ profile : Profile, h.manager.profiles[id]? = some profile →
          profile.config.history.length < h.manager.limits.maxHistoryEntries
  | .op (.recordAutocomplete id entry maxEntries) =>
      maxEntries = 0 → h.manager.limits.maxAutocompleteEntries ≠ 0 →
        ∀ profile : Profile, h.manager.profiles[id]? = some profile →
          (retained entry profile.config.autocomplete).length <
            h.manager.limits.maxAutocompleteEntries
  | _ => True

variable {m : ProfileManager} {given given' : ProfileId → Given} {json : Json}

/-- A new profile keeps what it is made with. -/
theorem Kept.insert_new (h : Kept ⟨m, given⟩) (id : ProfileId) (name : Text)
    {config : ProfileConfig} (hconfig : ConfigKept m.limits (given' id) config)
    (hother : ∀ other, id ≠ other → given' other = given other) :
    Kept ⟨m.insertNew id name config, given'⟩ := by
  intro other profile hget
  replace hget : (m.profiles.insert id ⟨id, name, 0, config⟩)[other]? = some profile := hget
  rw [OrdMap.get_insert] at hget
  split_ifs at hget with heq
  · cases hget
    exact heq ▸ hconfig
  · show ConfigKept m.limits (given' other) profile.config
    rw [hother other heq]
    exact h other profile hget

/-- A change of one profile is as good as what it makes of the configuration that is there. -/
theorem Kept.change_iff (h : Kept ⟨m, given⟩) (id : ProfileId) (f : ProfileConfig → ProfileConfig)
    (hother : ∀ other, id ≠ other → given' other = given other) :
    Kept ⟨(m.change id f).2, given'⟩ ↔ ∀ profile : Profile, m.profiles[id]? = some profile →
      ConfigKept m.limits (given' id) (f profile.config) := by
  rw [change]
  by_cases hid : m.profiles.contains id = true
  · rw [if_pos hid]
    constructor
    · intro hkept profile hget
      refine hkept id
        { profile with config := f profile.config, generation := profile.generation + 1 } ?_
      show (m.profiles.modify id _)[id]? = _
      rw [OrdMap.get_modify, if_pos rfl, hget, Option.map_some]
    · intro hall other profile hget
      replace hget : (m.profiles.modify id _)[other]? = some profile := hget
      rw [OrdMap.get_modify] at hget
      split_ifs at hget with heq
      · obtain ⟨before, hbefore, rfl⟩ := Option.map_eq_some_iff.mp hget
        subst heq
        exact hall before hbefore
      · show ConfigKept m.limits (given' other) profile.config
        rw [hother other heq]
        exact h other profile hget
  · rw [if_neg hid]
    have hnone : m.profiles[id]? = none := by
      rwa [ExtTreeMap.contains_eq_isSome_getElem?, Option.not_isSome_iff_eq_none] at hid
    refine iff_of_true (fun other profile hget => ?_) fun profile hget => ?_
    · have hne : id ≠ other := fun heq => by
        rw [← heq] at hget
        exact Option.some_ne_none _ (hget.symm.trans hnone)
      show ConfigKept m.limits (given' other) profile.config
      rw [hother other hne]
      exact h other profile hget
    · rw [hnone] at hget
      cases hget

/-! ## One call -/

/-- An update keeps what it gives. -/
theorem Kept.update_config (h : Kept ⟨m, given⟩) (id : ProfileId) (config : ProfileConfig)
    (hgiven : given' id = .ofConfig config.toConfigV1)
    (hother : ∀ other, id ≠ other → given' other = given other) :
    Kept ⟨(m.updateConfig id config).2, given'⟩ := by
  refine (h.change_iff id _ hother).mpr fun _ _ => ?_
  rw [hgiven]
  exact .normalize List.suffix_rfl List.suffix_rfl _

theorem Kept.set_limits (h : Kept ⟨m, given⟩) (limits : ProfileLimits) :
    Kept ⟨m.setLimits limits, given⟩ := by
  intro id profile hget
  replace hget : (m.profiles.map fun _ profile =>
    profile.withConfig (normalizeConfig limits))[id]? = some profile := hget
  rw [ExtTreeMap.getElem?_map] at hget
  obtain ⟨before, hbefore, rfl⟩ := Option.map_eq_some_iff.mp hget
  have hkept := h id before hbefore
  exact .normalize hkept.history_suffix hkept.autocomplete_suffix limits

/-- A page is kept exactly if there is room for it. -/
theorem Kept.record_history_iff (h : Kept ⟨m, given⟩) (json : Json) (id : ProfileId)
    (entry : HistoryEntry) (maxEntries : Nat) :
    Kept ⟨(m.recordHistory id entry maxEntries).2,
        fun other => (Op.recordHistory id entry maxEntries).gives json m other (given other)⟩ ↔
      FindsRoom ⟨m, given⟩ (.op (.recordHistory id entry maxEntries)) := by
  have hother : ∀ other, id ≠ other →
      (Op.recordHistory id entry maxEntries).gives json m other (given other) = given other :=
    fun other hne => if_neg hne
  have hown : (Op.recordHistory id entry maxEntries).gives json m id (given id) =
      { given id with history := (given id).history ++ [entry] } := if_pos rfl
  refine (h.change_iff id _ hother).trans ?_
  rw [hown]
  constructor
  · intro hall hzero hlimit profile hget
    have hiff := (h id profile hget).record_history_iff entry maxEntries
    exact hiff.mp (hall profile hget) hzero hlimit
  · intro hroom profile hget
    exact ((h id profile hget).record_history_iff entry maxEntries).mpr
      fun hzero hlimit => hroom hzero hlimit profile hget

/-- So is a value. -/
theorem Kept.record_autocomplete_iff (h : Kept ⟨m, given⟩) (json : Json) (id : ProfileId)
    (entry : AutocompleteEntry) (maxEntries : Nat) :
    Kept ⟨(m.recordAutocomplete id entry maxEntries).2,
        fun other => (Op.recordAutocomplete id entry maxEntries).gives json m other (given other)⟩ ↔
      FindsRoom ⟨m, given⟩ (.op (.recordAutocomplete id entry maxEntries)) := by
  have hother : ∀ other, id ≠ other →
      (Op.recordAutocomplete id entry maxEntries).gives json m other (given other) = given other :=
    fun other hne => if_neg hne
  have hown : (Op.recordAutocomplete id entry maxEntries).gives json m id (given id) =
      { given id with
        autocomplete := retained entry (given id).autocomplete ++ [entry] } := if_pos rfl
  refine (h.change_iff id _ hother).trans ?_
  rw [hown]
  constructor
  · intro hall hzero hlimit profile hget
    exact ((h id profile hget).record_autocomplete_iff entry maxEntries).mp (hall profile hget)
      hzero hlimit
  · intro hroom profile hget
    exact ((h id profile hget).record_autocomplete_iff entry maxEntries).mpr
      fun hzero hlimit => hroom hzero hlimit profile hget

/-- The limits of a text are those of the profiles that are read. -/
theorem from_json_limits {text : Text} {document : ManagerDocument} {loaded : ProfileManager}
    (htext : json.fromStr text = some document) (hload : fromJson json text = .ok loaded) :
    loaded.limits = document.limits.getD default := by
  rw [fromJson, htext] at hload
  dsimp only at hload
  by_cases hnewer : document.read.schemaVersion > schemaVersion
  · rw [fromWire, if_pos hnewer] at hload
    cases hload
  · rw [fromWire, if_neg hnewer] at hload
    cases hload
    rfl

/-- A text that is read keeps what it gives. -/
theorem Kept.from_json (h : Kept ⟨m, given⟩) (text : Text) :
    Kept ⟨(fromJson json text).toOption.getD m,
      fun id => (Op.fromJson text).gives json m id (given id)⟩ := by
  cases htext : json.fromStr text with
  | none =>
      rw [fromJson, htext]
      simp only [Op.gives, htext]
      exact h
  | some document =>
      by_cases hsupported : document.version ≤ schemaVersion
      · obtain ⟨loaded, hload, hprofiles⟩ :=
          from_json_of_supported htext (UInt16.not_lt.mpr hsupported)
        have hlimits := from_json_limits htext hload
        rw [hload]
        intro id profile hget
        replace hget : loaded.profiles[id]? = some profile := hget
        rw [hprofiles] at hget
        obtain ⟨written, hwritten, rfl⟩ := Option.map_eq_some_iff.mp hget
        simp only [Op.gives, htext, hsupported, if_true, hwritten]
        show ConfigKept loaded.limits _ (document.load written.config)
        rw [hlimits]
        refine .normalize ?_ ?_ _
        · split_ifs
          · exact List.suffix_rfl
          · exact List.suffix_rfl
        · split_ifs
          · exact List.suffix_rfl
          · exact List.suffix_rfl
      · rw [from_json_of_newer htext (UInt16.not_le.mp hsupported)]
        simp only [Op.gives, htext, hsupported, if_false]
        exact h

/-- So does a fingerprint. -/
theorem Kept.apply_fingerprint (h : Kept ⟨m, given⟩) (json : Json) (id : ProfileId)
    (catalog : FingerprintCatalog) (fingerprintId : FingerprintId) :
    Kept ⟨((m.applyFingerprint id catalog fingerprintId).toOption.map Prod.snd).getD m,
      fun other => (Op.applyFingerprint id catalog fingerprintId).gives json m other
        (given other)⟩ := by
  cases happly : m.applyFingerprint id catalog fingerprintId with
  | ok updated =>
      obtain ⟨fingerprint, hget, hconsistent, rfl⟩ := exists_of_apply_fingerprint happly
      simp only [Op.gives, hget, hconsistent, and_true]
      exact h.update_config id _ (if_pos rfl) fun other hne => if_neg hne
  | error e =>
      have hrefused : ∀ fingerprint, catalog.get fingerprintId = some fingerprint →
          ¬ fingerprint.isConsistent = .ok () := by
        intro fingerprint hget hconsistent
        rw [apply_fingerprint_eq hget hconsistent] at happly
        cases happly
      cases hget : catalog.get fingerprintId with
      | none =>
          simp only [Op.gives, hget]
          exact h
      | some fingerprint =>
          simp only [Op.gives, hget, hrefused fingerprint hget, and_false, if_false]
          exact h

theorem Kept.create (h : Kept ⟨m, given⟩) (id : ProfileId) (name : Text) :
    Kept ⟨m.create id name, fun other => if id = other then ⟨[], []⟩ else given other⟩ :=
  h.insert_new id name (.of_empty rfl rfl) fun _ hne => if_neg hne

/-- So does a new profile. -/
theorem Kept.create_with_variant (h : Kept ⟨m, given⟩) (json : Json) (id : ProfileId) (name : Text)
    (variant : ProfileVariant) :
    Kept ⟨(m.createWithVariant id name variant).2, fun other =>
      (Op.createWithVariant id name variant).gives json m other (given other)⟩ := by
  rw [createWithVariant]
  by_cases hfull : m.profiles.size ≥ m.limits.maxProfiles
  · simp only [Op.gives, hfull, Nat.not_lt.mpr hfull, and_false, if_true, if_false]
    exact h
  · simp only [Op.gives, hfull, Nat.not_le.mp hfull, and_true, if_false]
    refine h.insert_new id name ?_ fun other hne => if_neg hne
    cases variant <;> exact .of_empty rfl rfl

theorem Kept.try_create (h : Kept ⟨m, given⟩) (json : Json) (id : ProfileId) (name : Text) :
    Kept ⟨(m.tryCreate id name).2, fun other =>
      (Action.tryCreate id name).gives json m other (given other)⟩ := by
  rw [tryCreate]
  by_cases hfull : m.profiles.size ≥ m.limits.maxProfiles
  · simp only [Action.gives, hfull, Nat.not_lt.mpr hfull, and_false, if_true, if_false]
    exact h
  · simp only [Action.gives, hfull, Nat.not_le.mp hfull, and_true, if_false]
    exact h.create id name

/-- So does a checked update. -/
theorem Kept.try_update_config (h : Kept ⟨m, given⟩) (json : Json) (id : ProfileId)
    (config : ProfileConfig) :
    Kept ⟨((m.tryUpdateConfig id config).toOption.map Prod.snd).getD m, fun other =>
      (Op.tryUpdateConfig id config).gives json m other (given other)⟩ := by
  rw [try_update_config_eq]
  cases hcheck : checkProfileConsistency config with
  | error e =>
      simp only [Op.gives, hcheck, reduceCtorEq, and_false, if_false]
      exact h
  | ok u =>
      simp only [Op.gives, hcheck, and_true]
      exact h.update_config id config (if_pos rfl) fun other hne => if_neg hne

theorem Kept.delete (h : Kept ⟨m, given⟩) (id : ProfileId) : Kept ⟨(m.delete id).2, given⟩ := by
  intro other profile hget
  replace hget : (m.profiles.erase id)[other]? = some profile := hget
  rw [OrdMap.get_erase] at hget
  split_ifs at hget
  exact h other profile hget

theorem Kept.select (h : Kept ⟨m, given⟩) (id : ProfileId) : Kept ⟨(m.select id).2, given⟩ := by
  rw [ProfileManager.select]
  split_ifs
  · exact h
  · exact h

/-- A call keeps the entries as they should be exactly when an entry that it records finds room. -/
theorem Kept.step_iff {h : Retention} (hkept : Kept h) (action : Action) :
    Kept ((retention json).step h action) ↔ FindsRoom h action := by
  cases action with
  | op op =>
      cases op with
      | create id name => exact iff_of_true (hkept.create id name) trivial
      | createWithVariant id name variant =>
          exact iff_of_true (hkept.create_with_variant json id name variant) trivial
      | updateConfig id config =>
          exact iff_of_true
            (hkept.update_config id config (if_pos rfl) fun other hne => if_neg hne) trivial
      | tryUpdateConfig id config =>
          exact iff_of_true (hkept.try_update_config json id config) trivial
      | applyFingerprint id catalog fingerprintId =>
          exact iff_of_true (hkept.apply_fingerprint json id catalog fingerprintId) trivial
      | setLimits limits => exact iff_of_true (hkept.set_limits limits) trivial
      | recordHistory id entry maxEntries => exact hkept.record_history_iff json id entry maxEntries
      | recordAutocomplete id entry maxEntries =>
          exact hkept.record_autocomplete_iff json id entry maxEntries
      | fromJson text => exact iff_of_true (hkept.from_json text) trivial
  | tryCreate id name => exact iff_of_true (hkept.try_create json id name) trivial
  | delete id => exact iff_of_true (hkept.delete id) trivial
  | select id => exact iff_of_true (hkept.select id) trivial

/-- In every state of a run the profiles keep the last of the entries they were given, within the
limits, exactly when every entry recorded with a maximum of 0 finds room. -/
theorem always_kept_iff (json : Json) (actions : List Action) :
    (retention json).Always Kept ⟨default, fun _ => ⟨[], []⟩⟩ actions ↔
      (retention json).Throughout FindsRoom ⟨default, fun _ => ⟨[], []⟩⟩ actions := by
  refine Machine.always_iff_of_step (fun _ _ => trivial) (fun _ action h => h.step_iff action) ?_
    actions
  intro id profile hget
  have hempty : (∅ : OrdMap ProfileId Profile)[id]? = some profile := hget
  rw [ExtTreeMap.getElem?_empty] at hempty
  cases hempty

/-- A limit of one visit, and two visits recorded without a maximum of their own. -/
def unlimitedActions : List Action :=
  [.op (.create 1 "work"), .op (.setLimits ⟨32, 1, 1, 64⟩),
    .op (.recordHistory 1 ⟨"https://a.test/", none, 1⟩ 0),
    .op (.recordHistory 1 ⟨"https://b.test/", none, 2⟩ 0)]

/-- A maximum of 0 takes the limit of the manager away. -/
theorem unlimited_history_not_kept :
    let json : Json := ⟨fun _ => none⟩
    let last := (retention json).run ⟨default, fun _ => ⟨[], []⟩⟩ unlimitedActions
    last.manager.limits.maxHistoryEntries = 1 ∧
      (last.manager.profiles[(1 : ProfileId)]?.map fun profile => profile.config.history.length) =
        some 2 ∧
      ¬ ∀ (json : Json) (actions : List Action),
        (retention json).Always Kept ⟨default, fun _ => ⟨[], []⟩⟩ actions := by
  intro json last
  have hlength : (last.manager.profiles[(1 : ProfileId)]?.map
      fun profile => profile.config.history.length) = some 2 := by
    decide
  refine ⟨by decide, hlength, fun h => ?_⟩
  obtain ⟨profile, hget, htwo⟩ := Option.map_eq_some_iff.mp hlength
  have hkept : Kept last := (h json unlimitedActions).2.2.2.2
  have hle : profile.config.history.length ≤ 1 := (hkept 1 profile hget).history_le Nat.one_ne_zero
  omega

end ProfileManager

end BrowsAI.Profiles
