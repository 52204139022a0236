import BrowsAI.Library.Saturating
import BrowsAI.Profiles.Identity
import Std.Data.ExtTreeSet

/-!
# The secret broker

`SecretBroker` of `crates/secret-store`: encrypted records by handle, and the references of the
one-time capabilities that were used. A capability is a plain value that the caller keeps; the
broker holds no list of those it has granted.

The cipher, the generator of ids, and the clock come from outside the repository. The cipher is the
class `ChaCha20Poly1305`; a generated id and a reading of the clock are arguments of the call.
-/

namespace BrowsAI.SecretStore

open Utf8 Std Profiles Saturating

/-- A secret, or what it is encrypted to. -/
abbrev Bytes := List UInt8

/-- The id of a secret, drawn at random. -/
abbrev SecretHandle := Uuid

/-- The id of a capability, drawn at random. -/
abbrev CapabilityReference := Uuid

/-- The bytes of a key. -/
abbrev Key := BitVec 256

/-- The bytes of a nonce. -/
abbrev Nonce := BitVec 96

/-- Authenticated encryption, and decryption that may fail. -/
class ChaCha20Poly1305 where
  encrypt : Key → Nonce → Bytes → Bytes
  decrypt : Key → Nonce → Bytes → Option Bytes

/-- Decryption with the same key and nonce inverts encryption. -/
def ChaCha20Poly1305.Inverts [ChaCha20Poly1305] : Prop :=
  ∀ key nonce secret, decrypt key nonce (encrypt key nonce secret) = some secret

/-- The right to a secret for a purpose. -/
structure SecretCapability where
  reference : CapabilityReference
  handle : SecretHandle
  profile : ProfileId
  origin : Text
  purpose : Text
  oneTime : Bool
  expiresAtUnixSeconds : Option UInt64
  deriving DecidableEq

/-- Why a call is refused. -/
inductive SecretError where
  | unknownHandle | invalidCapability | originMismatch | profileMismatch | alreadyConsumed
  | expiredCapability | invalidSecret | corruptRecord | unsupportedSnapshotVersion
  | consentRequired | policyDenied
  deriving DecidableEq

/-- `none` means unrestricted. -/
structure SecretPolicy where
  allowedPurposes : Option (ExtTreeSet Text compare)
  maxLifetimeSeconds : Option UInt64

/-- `SecretPolicy::default()`. -/
instance : Inhabited SecretPolicy := ⟨⟨none, none⟩⟩

/-- The policy denies the purpose or the lifetime. -/
def SecretPolicy.denies (policy : SecretPolicy) (purpose : Text) (lifetime : Option UInt64) : Bool :=
  policy.allowedPurposes.any (fun allowed => !allowed.contains purpose) ||
    policy.maxLifetimeSeconds.any fun maximum => lifetime.any fun value => maximum < value

/-- What is noted of a secret. -/
inductive SecretEvent where
  | stored (profile : ProfileId) (origin : Text)
  | granted (profile : ProfileId) (origin purpose : Text) (oneTime : Bool)
  | released (profile : ProfileId) (origin purpose : Text) (oneTime : Bool)
  | expired (profile : ProfileId) (origin purpose : Text)
  | revoked (profile : ProfileId) (origin : Text)
  deriving DecidableEq

/-- A secret as it is stored. -/
structure SecretRecord where
  profile : ProfileId
  origin : Text
  nonce : Nonce
  ciphertext : Bytes
  deriving DecidableEq

/-- A secret as it is saved. -/
structure PersistedSecretRecord where
  handle : SecretHandle
  profile : ProfileId
  origin : Text
  nonce : Nonce
  ciphertext : Bytes

/-- The version of the snapshots. -/
def snapshotSchemaVersion : UInt32 := 1

/-- The store as it is saved. -/
structure SecretStoreSnapshot where
  schemaVersion : UInt32
  records : List PersistedSecretRecord
  consumed : List CapabilityReference
  policy : SecretPolicy

/-- The secrets by handle, and the capabilities that are used up. -/
structure SecretBroker where
  records : OrdMap SecretHandle SecretRecord
  consumed : ExtTreeSet CapabilityReference compare
  events : List SecretEvent
  key : Key
  policy : SecretPolicy

/-- The first twelve bytes of the handle. -/
def nonceFor (handle : SecretHandle) : Nonce := handle.extractLsb' 32 96

namespace SecretBroker

/-- No secret, and the default policy. -/
def new (key : Key) : SecretBroker := ⟨∅, ∅, [], key, default⟩

/-- No secret under a policy. -/
def withPolicy (key : Key) (policy : SecretPolicy) : SecretBroker := { new key with policy }

/-- Sets the policy. -/
def setPolicy (b : SecretBroker) (policy : SecretPolicy) : SecretBroker := { b with policy }

/-! ## Snapshots -/

/-- The store without its events and its key. -/
def exportSnapshot (b : SecretBroker) : SecretStoreSnapshot where
  schemaVersion := snapshotSchemaVersion
  records := b.records.toList.map fun (handle, record) =>
    ⟨handle, record.profile, record.origin, record.nonce, record.ciphertext⟩
  consumed := b.consumed.toList
  policy := b.policy

/-- The store of a snapshot of the right version. -/
def fromSnapshot (snapshot : SecretStoreSnapshot) (key : Key) : Except SecretError SecretBroker :=
  if snapshot.schemaVersion ≠ snapshotSchemaVersion then .error .unsupportedSnapshotVersion
  else
    let records := snapshot.records.foldl (fun records persisted =>
      records.insert persisted.handle
        ⟨persisted.profile, persisted.origin, persisted.nonce, persisted.ciphertext⟩) ∅
    .ok
      { new key with
        records
        consumed := .ofList snapshot.consumed
        policy := snapshot.policy }

/-! ## Secrets -/

section Cipher

variable [ChaCha20Poly1305]

/-- `store`, with the handle that it generates. -/
def store (b : SecretBroker) (handle : SecretHandle) (profile : ProfileId) (origin : Text)
    (secret : Bytes) : SecretHandle × SecretBroker :=
  let nonce := nonceFor handle
  let ciphertext := ChaCha20Poly1305.encrypt b.key nonce secret
  (handle,
    { b with
      records := b.records.insert handle ⟨profile, origin, nonce, ciphertext⟩
      events := b.events ++ [.stored profile origin] })

end Cipher

/-- Drops a secret. -/
def revoke (b : SecretBroker) (handle : SecretHandle) : Bool × SecretBroker :=
  match b.records[handle]? with
  | none => (false, b)
  | some record =>
      (true,
        { b with
          records := b.records.erase handle
          events := b.events ++ [.revoked record.profile record.origin] })

/-! ## Capabilities -/

/-- `grant_for_with_consent`, with the reference that it generates and the time in Unix seconds. Of
a lifetime only the whole seconds are read. -/
def grantForWithConsent (b : SecretBroker) (reference : CapabilityReference) (now : UInt64)
    (handle : SecretHandle) (profile : ProfileId) (origin purpose : Text) (oneTime : Bool)
    (lifetime : Option UInt64) (consent : Bool) :
    Except SecretError SecretCapability × SecretBroker :=
  if !consent then (.error .consentRequired, b)
  else
    match b.records[handle]? with
    | none => (.error .unknownHandle, b)
    | some record =>
        if record.profile ≠ profile then (.error .profileMismatch, b)
        else if record.origin ≠ origin then (.error .originMismatch, b)
        else if b.policy.denies purpose lifetime then (.error .policyDenied, b)
        else
          let capability : SecretCapability :=
            { reference, handle, profile, origin, purpose, oneTime,
              expiresAtUnixSeconds := lifetime.map fun seconds => saturatingAdd now seconds }
          (.ok capability,
            { b with events := b.events ++ [.granted profile origin purpose oneTime] })

/-- Grants a secret without an end. -/
def grantWithConsent (b : SecretBroker) (reference : CapabilityReference) (now : UInt64)
    (handle : SecretHandle) (profile : ProfileId) (origin purpose : Text) (oneTime consent : Bool) :
    Except SecretError SecretCapability × SecretBroker :=
  b.grantForWithConsent reference now handle profile origin purpose oneTime none consent

/-- `with_secret` at a time in Unix seconds. -/
def withSecret [ChaCha20Poly1305] {T : Type} (b : SecretBroker) (now : UInt64)
    (capability : SecretCapability) (profile : ProfileId) (origin : Text) (useSecret : Bytes → T) :
    Except SecretError T × SecretBroker :=
  if capability.profile ≠ profile then (.error .profileMismatch, b)
  else if capability.origin ≠ origin then (.error .originMismatch, b)
  else if capability.oneTime && b.consumed.contains capability.reference then
    (.error .alreadyConsumed, b)
  else if capability.expiresAtUnixSeconds.any fun expires => expires ≤ now then
    (.error .expiredCapability,
      { b with
        events := b.events ++ [.expired capability.profile capability.origin capability.purpose] })
  else
    match b.records[capability.handle]? with
    | none => (.error .invalidCapability, b)
    | some record =>
        if record.profile ≠ capability.profile then (.error .profileMismatch, b)
        else if record.origin ≠ capability.origin then (.error .originMismatch, b)
        else
          match ChaCha20Poly1305.decrypt b.key record.nonce record.ciphertext with
          | none => (.error .corruptRecord, b)
          | some plaintext =>
              -- the reference is looked at only where the presented copy says one-time
              (.ok (useSecret plaintext),
                { b with
                  consumed :=
                    if capability.oneTime then b.consumed.insert capability.reference
                    else b.consumed
                  events := b.events ++ [.released capability.profile capability.origin
                    capability.purpose capability.oneTime] })

/-- The events, which are then forgotten. -/
def drainEvents (b : SecretBroker) : List SecretEvent × SecretBroker :=
  (b.events, { b with events := [] })

end SecretBroker

end BrowsAI.SecretStore
