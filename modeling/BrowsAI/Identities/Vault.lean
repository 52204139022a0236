import BrowsAI.Library.Runs
import BrowsAI.SecretStore.Accounts

/-!
# The identity vault

`IdentityVault` of `crates/identity-vault`: identities with one secret for each field, and a trail of
audit events. After a release the vault looks for the identity whose field it was, and panics when
there is none.
-/

namespace BrowsAI.Identities

open Utf8 Std Profiles SecretStore

/-- The id of an identity, drawn at random. -/
abbrev IdentityId := Uuid

/-- An identity, with the handles of its fields. -/
structure IdentityProfile where
  id : IdentityId
  profile : ProfileId
  origin : Text
  fields : OrdMap Text SecretHandle

/-- What is noted of an identity. -/
structure IdentityAuditEvent where
  identityId : IdentityId
  field : Option Text
  action : Text
  deriving DecidableEq

/-- The identities over the store of their values. -/
structure IdentityVault where
  broker : SecretBroker
  profiles : OrdMap IdentityId IdentityProfile
  events : List IdentityAuditEvent

namespace IdentityVault

/-- `IdentityVault::default()`, with the key that its broker draws. -/
def new (key : Key) : IdentityVault := ⟨.new key, ∅, []⟩

/-- The identity that a handle belongs to. -/
def find (v : IdentityVault) (handle : SecretHandle) : Option (IdentityId × IdentityProfile) :=
  v.profiles.toList.find? fun (_, identity) => identity.fields.values.any (· = handle)

section Cipher

variable [ChaCha20Poly1305]

/-- The values of the fields go to the broker one after the other. -/
def storeFields (generate : Text → SecretHandle) (profile : ProfileId) (origin : Text)
    (broker : SecretBroker) (fields : List (Text × Bytes)) :
    SecretBroker × OrdMap Text SecretHandle :=
  fields.foldl (fun (broker, handles) (name, value) =>
    let (handle, broker) := broker.store (generate name) profile origin value
    (broker, handles.insert name handle)) (broker, ∅)

/-- `create`, with the id that it generates, and the handle that it generates for each field. -/
def create (v : IdentityVault) (id : IdentityId) (generate : Text → SecretHandle)
    (profile : ProfileId) (origin : Text) (fields : OrdMap Text Bytes) :
    IdentityId × IdentityVault :=
  let (broker, handles) := storeFields generate profile origin v.broker fields.toList
  (id,
    { broker
      profiles := v.profiles.insert id { id, profile, origin, fields := handles }
      events := v.events ++ [⟨id, none, "created"⟩] })

/-- `with_field` at a time in Unix seconds. It is `none` where the code panics. -/
def withField {T : Type} (v : IdentityVault) (now : UInt64) (capability : SecretCapability)
    (profile : ProfileId) (origin : Text) (useField : Bytes → T) :
    Option (Except SecretError T × IdentityVault) :=
  let (result, broker) := v.broker.withSecret now capability profile origin useField
  match result with
  | .error error => some (.error error, { v with broker })
  | .ok value =>
      match v.find capability.handle with
      | none => none
      | some (id, _) =>
          some (.ok value,
            { v with broker, events := v.events ++ [⟨id, none, "field_released"⟩] })

end Cipher

/-- `authorize_field_unchecked`, with the reference that it generates. -/
def authorizeFieldUnchecked (v : IdentityVault) (reference : CapabilityReference) (now : UInt64)
    (id : IdentityId) (field : Text) (profile : ProfileId) (origin : Text) :
    Except SecretError SecretCapability × IdentityVault :=
  match v.profiles[id]? with
  | none => (.error .unknownHandle, v)
  | some record =>
      if record.profile ≠ profile then (.error .profileMismatch, v)
      else if record.origin ≠ origin then (.error .originMismatch, v)
      else
        match record.fields[field]? with
        | none => (.error .unknownHandle, v)
        | some handle =>
            let (result, broker) :=
              v.broker.grant reference now handle profile origin ("identity:" ++ field) true
            (result, { v with broker })

/-- Grants a field, with consent only. -/
def authorizeFieldWithConsent (v : IdentityVault) (reference : CapabilityReference) (now : UInt64)
    (id : IdentityId) (field : Text) (profile : ProfileId) (origin : Text) (consent : Bool) :
    Except SecretError SecretCapability × IdentityVault :=
  if !consent then (.error .invalidCapability, v)
  else
    match v.authorizeFieldUnchecked reference now id field profile origin with
    | (.error error, v) => (.error error, v)
    | (.ok capability, v) =>
        (.ok capability, { v with events := v.events ++ [⟨id, some field, "field_authorized"⟩] })

/-- Grants a field with consent. -/
def authorizeField (v : IdentityVault) (reference : CapabilityReference) (now : UInt64)
    (id : IdentityId) (field : Text) (profile : ProfileId) (origin : Text) :
    Except SecretError SecretCapability × IdentityVault :=
  v.authorizeFieldWithConsent reference now id field profile origin true

/-- The audit events, which are then forgotten. -/
def drainEvents (v : IdentityVault) : List IdentityAuditEvent × IdentityVault :=
  (v.events, { v with events := [] })

end IdentityVault

end BrowsAI.Identities

/-!
## Whose field was released

A `History` is a vault with the account of its broker and the values that were entered. `Listed` says
that the fields of the identities are exactly what was deposited. So every release finds an owner,
whatever capability is presented, and hands out a value that was entered for a field of the owner.
-/

namespace BrowsAI.Identities

open Utf8 Std Profiles SecretStore

/-- The vault, the account of its secrets, and the fields as they were entered. -/
structure History where
  vault : IdentityVault
  account : Account IdentityId
  entered : OrdMap IdentityId (OrdMap Text Bytes)

/-- A call with its arguments, and the ids that it generates. -/
inductive Op where
  | create (id : IdentityId) (generate : Text → SecretHandle) (profile : ProfileId) (origin : Text)
      (fields : OrdMap Text Bytes)
  | authorizeField (reference : CapabilityReference) (now : UInt64) (id : IdentityId) (field : Text)
      (profile : ProfileId) (origin : Text) (consent : Bool)
  | withField (now : UInt64) (capability : SecretCapability) (profile : ProfileId) (origin : Text)
  | drainEvents

/-- What is deposited for the fields of an identity. -/
def deposits (id : IdentityId) (generate : Text → SecretHandle) (profile : ProfileId) (origin : Text)
    (fields : List (Text × Bytes)) : List (SecretHandle × Deposit IdentityId) :=
  fields.map fun (name, value) => (generate name, ⟨id, profile, origin, value⟩)

/-- The ids that a call generates. -/
def Op.generated : Op → List Uuid
  | .create id generate _ _ fields => id :: fields.toList.map fun (name, _) => generate name
  | .authorizeField reference _ _ _ _ _ _ => [reference]
  | _ => []

namespace History

/-- No identity yet. -/
def start (key : Key) : History := ⟨.new key, .empty, ∅⟩

variable [ChaCha20Poly1305]

/-- A new identity, whose values are deposited field by field. -/
def create (h : History) (id : IdentityId) (generate : Text → SecretHandle) (profile : ProfileId)
    (origin : Text) (fields : OrdMap Text Bytes) : History where
  vault := (h.vault.create id generate profile origin fields).2
  account := { h.account with
    shelf := (deposits id generate profile origin fields.toList).foldl
      (fun shelf entry => shelf.insert entry.1 entry.2) h.account.shelf }
  entered := h.entered.insert id fields

/-- A capability that is granted is noted. -/
def authorizeField (h : History) (reference : CapabilityReference) (now : UInt64) (id : IdentityId)
    (field : Text) (profile : ProfileId) (origin : Text) (consent : Bool) : History :=
  match h.vault.authorizeFieldWithConsent reference now id field profile origin consent with
  | (.ok capability, vault) =>
      { h with vault, account := { h.account with granted := capability :: h.account.granted } }
  | (.error _, vault) => { h with vault }

/-- A call that panics leaves nothing to go on with. -/
def withField (h : History) (now : UInt64) (capability : SecretCapability) (profile : ProfileId)
    (origin : Text) : History :=
  match h.vault.withField now capability profile origin fun secret => secret with
  | some (.ok _, vault) =>
      { h with vault, account := { h.account with released := capability :: h.account.released } }
  | some (.error _, vault) => { h with vault }
  | none => h

/-- A call on the vault, and what it adds to the history. -/
def perform (h : History) : Op → History
  | .create id generate profile origin fields => h.create id generate profile origin fields
  | .authorizeField reference now id field profile origin consent =>
      h.authorizeField reference now id field profile origin consent
  | .withField now capability profile origin => h.withField now capability profile origin
  | .drainEvents => { h with vault := h.vault.drainEvents.2 }

/-- One call, after which the ids that it generates are known. -/
def step (h : History) (op : Op) : History :=
  let h' := h.perform op
  { h' with account := { h'.account with known := op.generated ++ h.account.known } }

/-- The runs in which generated ids are fresh. Any capability may be presented. -/
def machine : Machine History Op where
  step := step
  Allowed h op := (op.generated ++ h.account.known).Nodup

/-! ## The invariant -/

/-- The fields of the identities are what was deposited, with the values that were entered. -/
structure Listed (h : History) : Prop where
  sound : h.account.Sound h.vault.broker
  known : ∀ (id : IdentityId) (identity : IdentityProfile), h.vault.profiles[id]? = some identity →
    id ∈ h.account.known
  field_deposited : ∀ (id : IdentityId) (identity : IdentityProfile) (name : Text)
    (handle : SecretHandle), h.vault.profiles[id]? = some identity →
    identity.fields[name]? = some handle →
    ∃ values secret, h.entered[id]? = some values ∧ values[name]? = some secret ∧
      h.account.shelf[handle]? = some ⟨id, identity.profile, identity.origin, secret⟩
  deposit_listed : ∀ (handle : SecretHandle) (deposit : Deposit IdentityId), h.account.shelf[handle]? =
      some deposit →
    ∃ (identity : IdentityProfile) (name : Text), h.vault.profiles[deposit.owner]? = some identity ∧
      identity.fields[name]? = some handle

theorem listed_start (key : Key) : (start key).Listed where
  sound := Account.sound_empty key
  known id identity hidentity := by simp [start, IdentityVault.new] at hidentity
  field_deposited id identity name handle hidentity := by
    simp [start, IdentityVault.new] at hidentity
  deposit_listed handle deposit hdeposit := by simp [start, Account.empty] at hdeposit

/-! ## Storing the fields -/

/-- The broker gets the deposits, and each field has its handle. -/
theorem store_fields_eq (generate : Text → SecretHandle) (profile : ProfileId) (origin : Text)
    (id : IdentityId) (fields : List (Text × Bytes)) (b : SecretBroker)
    (handles : OrdMap Text SecretHandle) :
    fields.foldl (fun (broker, handles) (name, value) =>
        let (handle, broker) := broker.store (generate name) profile origin value
        (broker, handles.insert name handle)) (b, handles) =
      ((deposits id generate profile origin fields).foldl (fun b entry =>
          (b.store entry.1 entry.2.profile entry.2.origin entry.2.secret).2) b,
        fields.foldl (fun handles (name, _) => handles.insert name (generate name)) handles) := by
  induction fields generalizing b handles with
  | nil => rfl
  | cons field fields ih => exact ih _ _

omit [ChaCha20Poly1305] in
/-- Each field has a handle of its own. -/
theorem get_handles (generate : Text → SecretHandle) (fields : List (Text × Bytes)) (name : Text)
    (handles : OrdMap Text SecretHandle) :
    (fields.foldl (fun handles (name, _) => handles.insert name (generate name)) handles)[name]? =
      if name ∈ fields.map Prod.fst then some (generate name) else handles[name]? := by
  induction fields generalizing handles with
  | nil => simp
  | cons field fields ih =>
      obtain ⟨first, value⟩ := field
      rw [List.foldl_cons, ih, OrdMap.get_insert]
      by_cases hsame : first = name
      · subst hsame
        simp
      · have hne : name ≠ first := Ne.symm hsame
        rw [if_neg hsame]
        refine if_congr ?_ rfl rfl
        rw [List.map_cons, List.mem_cons, or_iff_right hne]

/-- A new identity deposits its values and is stored with their handles. -/
theorem create_eq (v : IdentityVault) (id : IdentityId) (generate : Text → SecretHandle)
    (profile : ProfileId) (origin : Text) (fields : OrdMap Text Bytes) :
    ∃ handles : OrdMap Text SecretHandle,
      (∀ name, handles[name]? = fields[name]?.map fun _ => generate name) ∧
        (v.create id generate profile origin fields).2 =
          { broker := (deposits id generate profile origin fields.toList).foldl (fun b entry =>
              (b.store entry.1 entry.2.profile entry.2.origin entry.2.secret).2) v.broker
            profiles := v.profiles.insert id { id, profile, origin, fields := handles }
            events := v.events ++ [⟨id, none, "created"⟩] } := by
  refine ⟨fields.toList.foldl (fun handles (name, _) => handles.insert name (generate name)) ∅,
    fun name => ?_, ?_⟩
  · rw [get_handles]
    cases hvalue : fields[name]? with
    | some value =>
        have hmem := ExtTreeMap.mem_toList_iff_getElem?_eq_some.mpr hvalue
        rw [if_pos (List.mem_map_of_mem hmem), Option.map_some]
    | none =>
        rw [if_neg, Option.map_none]
        · simp
        · intro hmem
          obtain ⟨entry, hentry, rfl⟩ := List.mem_map.mp hmem
          rw [ExtTreeMap.mem_toList_iff_getElem?_eq_some.mp hentry] at hvalue
          cases hvalue
  · rw [IdentityVault.create, IdentityVault.storeFields, store_fields_eq _ _ _ id]

/-- A new identity keeps the invariant. -/
theorem Listed.create {h : History} (hl : h.Listed) {id : IdentityId}
    {generate : Text → SecretHandle} {profile : ProfileId} {origin : Text}
    {fields : OrdMap Text Bytes}
    (hfresh : ((Op.create id generate profile origin fields).generated ++ h.account.known).Nodup) :
    (h.step (.create id generate profile origin fields)).Listed := by
  obtain ⟨handles, hhandles, hcreate⟩ :=
    create_eq h.vault id generate profile origin fields
  have hcons := List.nodup_cons.mp hfresh
  have hkeys : (deposits id generate profile origin fields.toList).map Prod.fst =
      fields.toList.map fun (name, _) => generate name := by
    rw [deposits, List.map_map]
    rfl
  have hnew : id ∉ h.account.known := fun hmem => hcons.1 (List.mem_append_right _ hmem)
  have hfreshHandles : ((deposits id generate profile origin fields.toList).map Prod.fst ++
      h.account.known).Nodup := hkeys ▸ hcons.2
  have hget := Account.get_foldl_deposits (List.nodup_append.mp hfreshHandles).1 h.account.shelf
  -- an old handle is none of the new ones
  have hold : ∀ handle deposit, h.account.shelf[handle]? = some deposit →
      handle ∉ (deposits id generate profile origin fields.toList).map Prod.fst := by
    intro handle deposit hdeposit hmem
    exact (List.disjoint_of_nodup_append hfreshHandles) hmem
      (hl.sound.shelf_known handle deposit hdeposit)
  rw [step, perform, History.create, hcreate]
  constructor
  · refine (hl.sound.stores hfreshHandles).learn fun other hmem => ?_
    rw [hkeys] at hmem
    exact List.mem_cons_of_mem _ hmem
  · intro other identity hidentity
    rw [OrdMap.get_insert] at hidentity
    split_ifs at hidentity with hsame
    · exact hsame ▸ List.mem_cons_self
    · exact List.mem_cons_of_mem _ (List.mem_append_right _ (hl.known other identity hidentity))
  · intro other identity name handle hidentity hfield
    rw [OrdMap.get_insert] at hidentity
    split_ifs at hidentity with hsame
    · cases hidentity
      cases hsame
      rw [hhandles, Option.map_eq_some_iff] at hfield
      obtain ⟨secret, hsecret, rfl⟩ := hfield
      have hmem := ExtTreeMap.mem_toList_iff_getElem?_eq_some.mpr hsecret
      exact ⟨fields, secret, OrdMap.get_insert_self _ _ _, hsecret,
        (hget _ _).mpr (.inl (List.mem_map_of_mem hmem))⟩
    · obtain ⟨values, secret, hvalues, hsecret, hdeposit⟩ :=
        hl.field_deposited other identity name handle hidentity hfield
      exact ⟨values, secret, (OrdMap.get_insert_ne _ hsame fields).trans hvalues, hsecret,
        (hget _ _).mpr (.inr ⟨hold handle _ hdeposit, hdeposit⟩)⟩
  · intro handle deposit hdeposit
    rcases (hget _ _).mp hdeposit with hmem | ⟨-, hdeposit⟩
    · obtain ⟨⟨name, value⟩, hfield, heq⟩ := List.mem_map.mp hmem
      cases heq
      refine ⟨_, name, OrdMap.get_insert_self _ _ _, ?_⟩
      rw [hhandles, ExtTreeMap.mem_toList_iff_getElem?_eq_some.mp hfield, Option.map_some]
    · obtain ⟨identity, name, hidentity, hfield⟩ := hl.deposit_listed handle deposit hdeposit
      have hne : id ≠ deposit.owner := fun heq => hnew (heq ▸ hl.known _ identity hidentity)
      exact ⟨identity, name, (OrdMap.get_insert_ne _ hne _).trans hidentity, hfield⟩

/-! ## Authorizing a field -/

omit [ChaCha20Poly1305] in
/-- A field is authorized for the handle of an identity of this profile and origin. -/
theorem authorize_field_cases (v : IdentityVault) (reference : CapabilityReference) (now : UInt64)
    (id : IdentityId) (field : Text) (profile : ProfileId) (origin : Text) (consent : Bool) :
    (∃ error, v.authorizeFieldWithConsent reference now id field profile origin consent =
        (.error error, v)) ∨
      ∃ identity handle secretEvents events, v.profiles[id]? = some identity ∧
        identity.fields[field]? = some handle ∧
        v.authorizeFieldWithConsent reference now id field profile origin consent =
          (.ok ⟨reference, handle, profile, origin, "identity:" ++ field, true, none⟩,
            { v with broker := { v.broker with events := secretEvents }, events }) := by
  by_cases hconsent : (!consent) = true
  · exact .inl ⟨_, if_pos hconsent⟩
  rw [IdentityVault.authorizeFieldWithConsent, if_neg hconsent,
    IdentityVault.authorizeFieldUnchecked]
  cases hidentity : v.profiles[id]? with
  | none => exact .inl ⟨_, rfl⟩
  | some identity =>
      dsimp only
      split_ifs with hprofile horigin
      · exact .inl ⟨_, rfl⟩
      · exact .inl ⟨_, rfl⟩
      · cases hhandle : identity.fields[field]? with
        | none => exact .inl ⟨_, rfl⟩
        | some handle =>
            dsimp only
            rw [SecretBroker.grant]
            obtain ⟨error, hgrant⟩ | ⟨record, events, -, -, -, hgrant⟩ :=
              v.broker.grant_cases reference now handle profile origin ("identity:" ++ field) true
                none true
            · rw [hgrant]
              exact .inl ⟨error, rfl⟩
            · rw [hgrant]
              exact .inr ⟨identity, handle, events, _, rfl, hhandle, rfl⟩

/-- So does a capability that is granted. -/
theorem Listed.authorizeField {h : History} (hl : h.Listed) {reference : CapabilityReference}
    (hfresh : reference ∉ h.account.known) (now : UInt64) (id : IdentityId) (field : Text)
    (profile : ProfileId) (origin : Text) (consent : Bool) :
    (h.step (.authorizeField reference now id field profile origin consent)).Listed := by
  rw [step, perform, History.authorizeField]
  obtain ⟨error, hcall⟩ | ⟨identity, handle, secretEvents, events, hidentity, hfield, hcall⟩ :=
    authorize_field_cases h.vault reference now id field profile origin consent
  · rw [hcall]
    exact ⟨hl.sound.learn (List.subset_cons_self _ _),
      fun other identity hidentity => List.mem_cons_of_mem _ (hl.known other identity hidentity),
      hl.field_deposited, hl.deposit_listed⟩
  · rw [hcall]
    obtain ⟨values, secret, -, -, hdeposit⟩ :=
      hl.field_deposited id identity field handle hidentity hfield
    exact ⟨hl.sound.grant hfresh rfl ⟨_, hdeposit⟩ secretEvents,
      fun other identity hidentity => List.mem_cons_of_mem _ (hl.known other identity hidentity),
      hl.field_deposited, hl.deposit_listed⟩

/-! ## Releasing a field -/

/-- An identity of this profile and origin has a field under the handle, for which this secret was
entered. -/
def FieldOf (h : History) (handle : SecretHandle) (profile : ProfileId) (origin : Text)
    (id : IdentityId) (secret : Bytes) : Prop :=
  ∃ (identity : IdentityProfile) (name : Text) (values : OrdMap Text Bytes),
    h.vault.profiles[id]? = some identity ∧ identity.profile = profile ∧
      identity.origin = origin ∧ identity.fields[name]? = some handle ∧
      h.entered[id]? = some values ∧ values[name]? = some secret

/-- The vault finds the identity that a deposit belongs to. -/
theorem Listed.find_eq {h : History} (hl : h.Listed) {handle : SecretHandle}
    {deposit : Deposit IdentityId} (hdeposit : h.account.shelf[handle]? = some deposit) :
    ∃ identity, h.vault.find handle = some (deposit.owner, identity) ∧
      h.FieldOf handle deposit.profile deposit.origin deposit.owner deposit.secret := by
  obtain ⟨identity, name, hidentity, hfield⟩ := hl.deposit_listed handle deposit hdeposit
  have hhas : ∀ other : IdentityProfile, other.fields.values.any (· = handle) = true ↔
      ∃ name : Text, other.fields[name]? = some handle := by
    intro other
    rw [List.any_eq_true, ← OrdMap.mem_values, ← OrdMap.values_eq]
    exact ⟨fun ⟨value, hvalue, heq⟩ => of_decide_eq_true heq ▸ hvalue,
      fun hmem => ⟨handle, hmem, decide_eq_true rfl⟩⟩
  -- whatever has the handle among its fields made the deposit
  have howner : ∀ (id : IdentityId) (other : IdentityProfile), h.vault.profiles[id]? = some other →
      other.fields.values.any (· = handle) = true → id = deposit.owner := by
    intro id other hother hany
    obtain ⟨name', hname'⟩ := (hhas other).mp hany
    obtain ⟨values, secret, -, -, hshelf⟩ := hl.field_deposited id other name' handle hother hname'
    rw [hdeposit] at hshelf
    cases hshelf
    rfl
  obtain ⟨values, secret, hvalues, hsecret, hshelf⟩ :=
    hl.field_deposited deposit.owner identity name handle hidentity hfield
  rw [hdeposit] at hshelf
  have heq := Option.some.inj hshelf
  refine ⟨identity, OrdMap.find_to_list hidentity ((hhas identity).mpr ⟨name, hfield⟩) howner, ?_⟩
  rw [heq]
  exact ⟨identity, name, values, hidentity, rfl, rfl, hfield, hvalues, hsecret⟩

/-- A release fails and only logs it, or hands out what an identity has under the handle. -/
theorem Listed.with_field_cases {h : History} (hl : h.Listed) (hcipher : ChaCha20Poly1305.Inverts)
    {T : Type} (now : UInt64) (capability : SecretCapability) (profile : ProfileId) (origin : Text)
    (useField : Bytes → T) :
    (∃ error events, h.vault.withField now capability profile origin useField =
        some (.error error, { h.vault with broker := { h.vault.broker with events } })) ∨
      ∃ id secret events, h.vault.broker.Opens now capability profile origin secret ∧
        h.FieldOf capability.handle profile origin id secret ∧
        h.vault.withField now capability profile origin useField =
          some (.ok (useField secret),
            { h.vault with
              broker := { h.vault.broker with
                consumed := if capability.oneTime then
                  h.vault.broker.consumed.insert capability.reference else h.vault.broker.consumed
                events }
              events := h.vault.events ++ [⟨id, none, "field_released"⟩] }) := by
  rw [IdentityVault.withField]
  obtain ⟨error, events, hcall⟩ | ⟨plaintext, events, hopens, hcall⟩ :=
    h.vault.broker.with_secret_cases now capability profile origin useField
  · rw [hcall]
    exact .inl ⟨error, events, rfl⟩
  · rw [hcall]
    obtain ⟨deposit, hdeposit, hprofile, horigin, rfl⟩ :=
      hl.sound.deposit_of_opens hcipher hopens
    obtain ⟨identity, hfind, hfield⟩ := hl.find_eq hdeposit
    rw [hprofile, horigin] at hfield
    dsimp only
    rw [hfind]
    exact .inr ⟨deposit.owner, deposit.secret, events, hopens, hfield, rfl⟩

theorem Listed.withField {h : History} (hl : h.Listed) (hcipher : ChaCha20Poly1305.Inverts)
    (now : UInt64) (capability : SecretCapability) (profile : ProfileId) (origin : Text) :
    (h.step (.withField now capability profile origin)).Listed := by
  rw [step, perform, History.withField]
  obtain ⟨error, events, hcall⟩ | ⟨id, secret, events, hopens, -, hcall⟩ :=
    hl.with_field_cases hcipher now capability profile origin fun secret => secret
  · rw [hcall]
    exact ⟨hl.sound.refuse events, hl.known, hl.field_deposited, hl.deposit_listed⟩
  · rw [hcall]
    exact ⟨hl.sound.release hopens events, hl.known, hl.field_deposited, hl.deposit_listed⟩

theorem Listed.step {h : History} (hl : h.Listed) (hcipher : ChaCha20Poly1305.Inverts) {op : Op}
    (hfresh : (op.generated ++ h.account.known).Nodup) : (h.step op).Listed := by
  cases op with
  | create id generate profile origin fields => exact hl.create hfresh
  | authorizeField reference now id field profile origin consent =>
      exact hl.authorizeField (List.nodup_cons.mp hfresh).1 now id field profile origin consent
  | withField now capability profile origin => exact hl.withField hcipher now capability profile origin
  | drainEvents => exact ⟨hl.sound, hl.known, hl.field_deposited, hl.deposit_listed⟩

/-- In every run, whatever capability is presented, `with_field` does not panic; what it hands out
was entered for a field of an identity of this profile and origin, and the event names this
identity. -/
theorem release_has_owner (hcipher : ChaCha20Poly1305.Inverts) (key : Key) (h : History)
    (hrun : machine.Reaches (start key) h) {T : Type} (now : UInt64) (capability : SecretCapability)
    (profile : ProfileId) (origin : Text) (useField : Bytes → T) :
    ∃ result v, h.vault.withField now capability profile origin useField = some (result, v) ∧
      ∀ value, result = .ok value →
        ∃ id secret, h.FieldOf capability.handle profile origin id secret ∧
          value = useField secret ∧ v.events = h.vault.events ++ [⟨id, none, "field_released"⟩] := by
  have hl : h.Listed :=
    hrun.invariant (listed_start key) fun t op hl hallowed => hl.step hcipher hallowed
  obtain ⟨error, events, hcall⟩ | ⟨id, secret, events, -, hfield, hcall⟩ :=
    hl.with_field_cases hcipher now capability profile origin useField
  · exact ⟨_, _, hcall, nofun⟩
  · refine ⟨_, _, hcall, fun value hvalue => ?_⟩
    cases hvalue
    exact ⟨id, secret, hfield, rfl, rfl⟩

/-! ## An identity with an email address -/

/-- An identity with an email address, and a capability for it. -/
def emailOps : List Op :=
  [.create 1 (fun _ => 2) 7 "https://example.test" ((∅ : OrdMap Text Bytes).insert "email" [97, 64, 98]),
    .authorizeField 3 5 1 "email" 7 "https://example.test" true]

/-- A capability that nobody granted, for the handle of the email address. -/
def forgedCapability : SecretCapability :=
  ⟨9, 2, 7, "https://example.test", "forged", false, none⟩

omit [ChaCha20Poly1305] in
/-- A capability made up from a granted one. -/
theorem forged_release_has_owner :
    let _ := ChaCha20Poly1305.labelled
    ∃ result v, (machine.run (start 0) emailOps).vault.withField 6 forgedCapability 7
        "https://example.test" (fun secret => secret) = some (result, v) ∧
      ∀ value, result = .ok value →
        ∃ id secret, (machine.run (start 0) emailOps).FieldOf 2 7 "https://example.test" id secret ∧
          value = secret ∧ v.events =
            (machine.run (start 0) emailOps).vault.events ++ [⟨id, none, "field_released"⟩] := by
  intro cipher
  have hallowed : machine.AllowedRun (start 0) emailOps :=
    ⟨(by decide : [(1 : Uuid), 2].Nodup), (by decide : [(3 : Uuid), 1, 2].Nodup), trivial⟩
  exact release_has_owner ChaCha20Poly1305.labelled_inverts 0 _
    (Machine.Reaches.refl.run hallowed) 6 forgedCapability 7 _ _

end History

end BrowsAI.Identities
