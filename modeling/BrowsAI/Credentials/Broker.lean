import BrowsAI.SecretStore.History

/-!
# The credential broker

`CredentialBroker` of `crates/credentials`: the login records by id, each with the handle under which
a `SecretBroker` keeps the current password. Generated ids and readings of the clock are arguments.
-/

namespace BrowsAI.Credentials

open Utf8 Std Profiles SecretStore

/-- The id of a credential, drawn at random. -/
abbrev CredentialId := Uuid

/-- A login, with the handle of its password. -/
structure CredentialRecord where
  id : CredentialId
  profile : ProfileId
  origin : Text
  username : Text
  passwordHandle : SecretHandle
  deriving DecidableEq

/-- The credentials as they are saved, with the encrypted secrets. -/
structure CredentialSnapshot where
  schemaVersion : UInt32
  records : List CredentialRecord
  secrets : SecretStoreSnapshot

/-- The version of the snapshots. -/
def snapshotSchemaVersion : UInt32 := 1

/-- The credentials over the store of their passwords. -/
structure CredentialBroker where
  secrets : SecretBroker
  records : OrdMap CredentialId CredentialRecord

namespace CredentialBroker

/-- No credential yet. -/
def new (key : Key) : CredentialBroker := ⟨.new key, ∅⟩

/-! ## Snapshots -/

/-- The credentials and their secrets. -/
def exportSnapshot (b : CredentialBroker) : CredentialSnapshot where
  schemaVersion := snapshotSchemaVersion
  records := b.records.toList.map Prod.snd
  secrets := b.secrets.exportSnapshot

/-- The credentials of a snapshot of the right version. -/
def fromSnapshot (snapshot : CredentialSnapshot) (key : Key) : Except SecretError CredentialBroker :=
  if snapshot.schemaVersion ≠ snapshotSchemaVersion then .error .unsupportedSnapshotVersion
  else
    match SecretBroker.fromSnapshot snapshot.secrets key with
    | .error error => .error error
    | .ok secrets =>
        let records := snapshot.records.foldl (fun records record => records.insert record.id record) ∅
        .ok { secrets, records }

/-! ## Passwords -/

/-- The credentials of a profile for an origin. -/
def find (b : CredentialBroker) (profile : ProfileId) (origin : Text) : List CredentialRecord :=
  (b.records.toList.map Prod.snd).filter fun record =>
    record.profile = profile ∧ record.origin = origin

section Cipher

variable [ChaCha20Poly1305]

/-- `save_password`, with the handle and the id that it generates. -/
def savePassword (b : CredentialBroker) (handle : SecretHandle) (id : CredentialId)
    (profile : ProfileId) (origin username : Text) (password : Bytes) :
    CredentialId × CredentialBroker :=
  let (passwordHandle, secrets) := b.secrets.store handle profile origin password
  (id,
    { secrets, records := b.records.insert id { id, profile, origin, username, passwordHandle } })

/-- `update_password`, with the handle that it generates. -/
def updatePassword (b : CredentialBroker) (handle : SecretHandle) (id : CredentialId)
    (password : Bytes) : Except SecretError Unit × CredentialBroker :=
  match b.records[id]? with
  | none => (.error .unknownHandle, b)
  | some record =>
      let (passwordHandle, secrets) := b.secrets.store handle record.profile record.origin password
      let (_, secrets) := secrets.revoke record.passwordHandle
      (.ok (), { secrets, records := b.records.modify id fun record => { record with passwordHandle } })

end Cipher

/-! ## Capabilities -/

/-- `grant_password_with_consent`, with the reference that it generates. -/
def grantPasswordWithConsent (b : CredentialBroker) (reference : CapabilityReference) (now : UInt64)
    (id : CredentialId) (profile : ProfileId) (origin purpose : Text) (consent : Bool) :
    Except SecretError SecretCapability × CredentialBroker :=
  match b.records[id]? with
  | none => (.error .unknownHandle, b)
  | some record =>
      if record.profile ≠ profile then (.error .profileMismatch, b)
      else if record.origin ≠ origin then (.error .originMismatch, b)
      else
        let (result, secrets) := b.secrets.grantWithConsent reference now record.passwordHandle
          profile origin purpose true consent
        (result, { b with secrets })

/-- Grants a password with consent. -/
def grantPassword (b : CredentialBroker) (reference : CapabilityReference) (now : UInt64)
    (id : CredentialId) (profile : ProfileId) (origin purpose : Text) :
    Except SecretError SecretCapability × CredentialBroker :=
  b.grantPasswordWithConsent reference now id profile origin purpose true

/-- Hands a password to its user. -/
def withPassword [ChaCha20Poly1305] {T : Type} (b : CredentialBroker) (now : UInt64)
    (capability : SecretCapability) (profile : ProfileId) (origin : Text) (usePassword : Bytes → T) :
    Except SecretError T × CredentialBroker :=
  let (result, secrets) := b.secrets.withSecret now capability profile origin usePassword
  (result, { b with secrets })

end CredentialBroker

end BrowsAI.Credentials

/-!
## Histories of a credential broker

A `History` is a credential broker with the password last set for each credential, the capabilities
granted for each, those granted before the password was replaced, and the ids generated so far.
`Sound` is what every history with fresh ids has: the current password of a credential is the one
under its handle, and a granted capability has this handle or one that is gone.
-/

namespace BrowsAI.Credentials

open Utf8 Std Profiles SecretStore

/-! ## What a call does -/

section Calls

variable {b : CredentialBroker}

/-- A granted capability has the handle of the credential. -/
theorem grant_password_cases (b : CredentialBroker) (reference : CapabilityReference) (now : UInt64)
    (id : CredentialId) (profile : ProfileId) (origin purpose : Text) (consent : Bool) :
    (∃ error, b.grantPasswordWithConsent reference now id profile origin purpose consent =
        (.error error, b)) ∨
      ∃ record capability events, b.records[id]? = some record ∧
        capability.handle = record.passwordHandle ∧
        b.grantPasswordWithConsent reference now id profile origin purpose consent =
          (.ok capability, { b with secrets := { b.secrets with events } }) := by
  rw [CredentialBroker.grantPasswordWithConsent]
  cases hrecord : b.records[id]? with
  | none => exact .inl ⟨_, rfl⟩
  | some record =>
      dsimp only
      split_ifs
      · exact .inl ⟨_, rfl⟩
      · exact .inl ⟨_, rfl⟩
      · rw [SecretBroker.grantWithConsent]
        obtain ⟨error, hgrant⟩ | ⟨secret, events, -, -, -, hgrant⟩ :=
          b.secrets.grant_cases reference now record.passwordHandle profile origin purpose true none
            consent
        · rw [hgrant]
          exact .inl ⟨error, rfl⟩
        · rw [hgrant]
          exact .inr ⟨record, _, events, rfl, rfl, rfl⟩

/-- A snapshot keeps the records, when each is under its own id. -/
theorem from_snapshot_export (b : CredentialBroker) (key : Key)
    (hid : ∀ (id : CredentialId) (record : CredentialRecord),
      b.records[id]? = some record → record.id = id) :
    CredentialBroker.fromSnapshot b.exportSnapshot key =
      .ok { b with secrets := { b.secrets with events := [], key } } := by
  have hrecords : b.exportSnapshot.records.foldl
      (fun records record => records.insert record.id record) ∅ = b.records := by
    rw [CredentialBroker.exportSnapshot, List.foldl_map]
    refine Eq.trans (List.foldl_ext _ _ _ ?_) (OrdMap.foldl_insert_to_list b.records)
    rintro records ⟨id, record⟩ hentry
    rw [hid id record (ExtTreeMap.mem_toList_iff_getElem?_eq_some.mp hentry)]
  have hversion : b.exportSnapshot.schemaVersion = snapshotSchemaVersion := rfl
  have hsecrets : SecretBroker.fromSnapshot b.exportSnapshot.secrets key =
      .ok { b.secrets with events := [], key } := b.secrets.from_snapshot_export key
  simp only [CredentialBroker.fromSnapshot, hversion, ne_eq, not_true_eq_false, if_false, hsecrets,
    hrecords]

end Calls

/-! ## Histories -/

/-- A call with its arguments, and the ids that it generates. `restart` replaces the broker. -/
inductive Op where
  | savePassword (handle : SecretHandle) (id : CredentialId) (profile : ProfileId)
      (origin username : Text) (password : Bytes)
  | updatePassword (handle : SecretHandle) (id : CredentialId) (password : Bytes)
  | grantPassword (reference : CapabilityReference) (now : UInt64) (id : CredentialId)
      (profile : ProfileId) (origin purpose : Text) (consent : Bool)
  | withPassword (now : UInt64) (capability : SecretCapability) (profile : ProfileId)
      (origin : Text)
  | restart

/-- The ids that a call generates. -/
def Op.generated : Op → List Uuid
  | .savePassword handle id _ _ _ _ => [handle, id]
  | .updatePassword handle _ _ => [handle]
  | .grantPassword reference _ _ _ _ _ _ => [reference]
  | _ => []

/-- The capability that a call presents. -/
def Op.presented : Op → Option SecretCapability
  | .withPassword _ capability _ _ => some capability
  | _ => none

/-- The broker, the last password of each credential, and what was granted or has become stale. -/
structure History where
  broker : CredentialBroker
  latest : OrdMap CredentialId Bytes
  granted : List (CredentialId × SecretCapability)
  stale : List SecretCapability
  known : List Uuid

namespace History

/-- No credential yet. -/
def start (key : Key) : History := ⟨.new key, ∅, [], [], []⟩

/-- The capabilities granted so far for a credential. -/
def grantedFor (h : History) (id : CredentialId) : List SecretCapability :=
  (h.granted.filter fun entry => entry.1 = id).map Prod.snd

variable [ChaCha20Poly1305]

/-- A new credential, whose password is its last one. -/
def savePassword (h : History) (handle : SecretHandle) (id : CredentialId) (profile : ProfileId)
    (origin username : Text) (password : Bytes) : History :=
  let (id, broker) := h.broker.savePassword handle id profile origin username password
  { h with broker, latest := h.latest.insert id password }

/-- A replaced password makes the capabilities granted for the credential stale. -/
def updatePassword (h : History) (handle : SecretHandle) (id : CredentialId) (password : Bytes) :
    History :=
  match h.broker.updatePassword handle id password with
  | (.ok (), broker) =>
      { h with
        broker
        latest := h.latest.insert id password
        stale := h.grantedFor id ++ h.stale }
  | (.error _, broker) => { h with broker }

/-- A capability that is granted is noted. -/
def grantPassword (h : History) (reference : CapabilityReference) (now : UInt64) (id : CredentialId)
    (profile : ProfileId) (origin purpose : Text) (consent : Bool) : History :=
  match h.broker.grantPasswordWithConsent reference now id profile origin purpose consent with
  | (.ok capability, broker) => { h with broker, granted := (id, capability) :: h.granted }
  | (.error _, broker) => { h with broker }

/-- The use of a password. -/
def withPassword (h : History) (now : UInt64) (capability : SecretCapability) (profile : ProfileId)
    (origin : Text) : History :=
  { h with broker := (h.broker.withPassword now capability profile origin id).2 }

/-- The broker is saved and read back with its own key. -/
def restart (h : History) : History :=
  match CredentialBroker.fromSnapshot h.broker.exportSnapshot h.broker.secrets.key with
  | .ok broker => { h with broker }
  | .error _ => h

/-- A call on the broker, and what it adds to the history. -/
def perform (h : History) : Op → History
  | .savePassword handle id profile origin username password =>
      h.savePassword handle id profile origin username password
  | .updatePassword handle id password => h.updatePassword handle id password
  | .grantPassword reference now id profile origin purpose consent =>
      h.grantPassword reference now id profile origin purpose consent
  | .withPassword now capability profile origin => h.withPassword now capability profile origin
  | .restart => h.restart

/-- One call, after which the ids that it generates are known. -/
def step (h : History) (op : Op) : History :=
  { h.perform op with known := op.generated ++ h.known }

/-- The runs in which generated ids are fresh and capabilities are presented as granted. -/
def machine : Machine History Op where
  step := step
  Allowed h op := (op.generated ++ h.known).Nodup ∧
    ∀ capability ∈ op.presented, ∃ id, (id, capability) ∈ h.granted

end History

end BrowsAI.Credentials
