import BrowsAI.Library.Runs
import BrowsAI.SecretStore.Broker
import Mathlib.Tactic.SplitIfs

/-!
# Histories of a secret broker

What a call of the broker does, and the runs that the properties are about. A `History` is a broker
together with what has happened to it: the capabilities that it granted, those whose secret it
released, the handles that were revoked, and every id that was generated or named so far. An id is
fresh when it is none of these. At any moment the broker may be replaced by the one that its own
snapshot restores.
-/

namespace BrowsAI.SecretStore

open Utf8 Std Profiles Saturating

/-! ## What a call does -/

namespace SecretBroker

variable {b : SecretBroker}

/-- A revoked handle has no record. -/
theorem revoke_eq (b : SecretBroker) (handle : SecretHandle) :
    ∃ events, (b.revoke handle).2 = { b with records := b.records.erase handle, events } := by
  rw [revoke]
  cases hrecord : b.records[handle]? with
  | none => exact ⟨b.events, by rw [OrdMap.erase_eq_self_iff.mpr hrecord]⟩
  | some record => exact ⟨_, rfl⟩

/-- A granted capability is for a record of this profile and origin. -/
theorem grant_cases (b : SecretBroker) (reference : CapabilityReference) (now : UInt64)
    (handle : SecretHandle) (profile : ProfileId) (origin purpose : Text) (oneTime : Bool)
    (lifetime : Option UInt64) (consent : Bool) :
    (∃ error, b.grantForWithConsent reference now handle profile origin purpose oneTime lifetime
        consent = (.error error, b)) ∨
      ∃ record events, b.records[handle]? = some record ∧ record.profile = profile ∧
        record.origin = origin ∧
        b.grantForWithConsent reference now handle profile origin purpose oneTime lifetime consent =
          (.ok ⟨reference, handle, profile, origin, purpose, oneTime,
            lifetime.map fun seconds => saturatingAdd now seconds⟩, { b with events }) := by
  by_cases hconsent : (!consent) = true
  · exact .inl ⟨_, if_pos hconsent⟩
  rw [grantForWithConsent, if_neg hconsent]
  cases hrecord : b.records[handle]? with
  | none => exact .inl ⟨_, rfl⟩
  | some record =>
      dsimp only
      split_ifs with hprofile horigin hdenied
      · exact .inl ⟨_, rfl⟩
      · exact .inl ⟨_, rfl⟩
      · exact .inl ⟨_, rfl⟩
      · exact .inr ⟨record, _, rfl, not_not.mp hprofile, not_not.mp horigin, rfl⟩

variable [ChaCha20Poly1305]

/-- What `with_secret` checks before it hands out a plaintext. -/
structure Opens (b : SecretBroker) (now : UInt64) (capability : SecretCapability)
    (profile : ProfileId) (origin : Text) (plaintext : Bytes) : Prop where
  profile_eq : capability.profile = profile
  origin_eq : capability.origin = origin
  unused : capability.oneTime → capability.reference ∉ b.consumed
  in_time : ∀ expires, capability.expiresAtUnixSeconds = some expires → now < expires
  found : ∃ record, b.records[capability.handle]? = some record ∧
    record.profile = capability.profile ∧ record.origin = capability.origin ∧
    ChaCha20Poly1305.decrypt b.key record.nonce record.ciphertext = some plaintext

/-- A call of `with_secret` fails and only logs it, or hands out a plaintext and remembers the
reference of a one-time capability. -/
theorem with_secret_cases {T : Type} (b : SecretBroker) (now : UInt64)
    (capability : SecretCapability) (profile : ProfileId) (origin : Text) (useSecret : Bytes → T) :
    (∃ error events, b.withSecret now capability profile origin useSecret =
        (.error error, { b with events })) ∨
      ∃ plaintext events, Opens b now capability profile origin plaintext ∧
        b.withSecret now capability profile origin useSecret = (.ok (useSecret plaintext),
          { b with
            consumed :=
              if capability.oneTime then b.consumed.insert capability.reference else b.consumed
            events }) := by
  by_cases hprofile : capability.profile ≠ profile
  · exact .inl ⟨_, b.events, if_pos hprofile⟩
  rw [withSecret, if_neg hprofile]
  by_cases horigin : capability.origin ≠ origin
  · exact .inl ⟨_, b.events, if_pos horigin⟩
  rw [if_neg horigin]
  by_cases hused : (capability.oneTime && b.consumed.contains capability.reference) = true
  · exact .inl ⟨_, b.events, if_pos hused⟩
  rw [if_neg hused]
  by_cases hexpired : (capability.expiresAtUnixSeconds.any fun expires => expires ≤ now) = true
  · exact .inl ⟨_, _, if_pos hexpired⟩
  rw [if_neg hexpired]
  cases hrecord : b.records[capability.handle]? with
  | none => exact .inl ⟨_, b.events, rfl⟩
  | some record =>
      dsimp only
      by_cases hrecordProfile : record.profile ≠ capability.profile
      · exact .inl ⟨_, b.events, if_pos hrecordProfile⟩
      rw [if_neg hrecordProfile]
      by_cases hrecordOrigin : record.origin ≠ capability.origin
      · exact .inl ⟨_, b.events, if_pos hrecordOrigin⟩
      rw [if_neg hrecordOrigin]
      cases hplain : ChaCha20Poly1305.decrypt b.key record.nonce record.ciphertext with
      | none => exact .inl ⟨_, b.events, rfl⟩
      | some plaintext =>
          refine .inr ⟨plaintext, _, ⟨not_not.mp hprofile, not_not.mp horigin, ?_, ?_, record,
            hrecord, not_not.mp hrecordProfile, not_not.mp hrecordOrigin, hplain⟩, rfl⟩
          · intro honce hmem
            rw [honce, Bool.true_and] at hused
            exact hused (ExtTreeSet.mem_iff_contains.mp hmem)
          · intro expires hexpires
            rw [hexpires, Option.any_some, decide_eq_true_eq] at hexpired
            exact UInt64.not_le.mp hexpired

/-- A successful call has passed the checks. -/
theorem opens_of_with_secret {T : Type} {now : UInt64} {capability : SecretCapability}
    {profile : ProfileId} {origin : Text} {useSecret : Bytes → T} {result : T}
    (h : (b.withSecret now capability profile origin useSecret).1 = .ok result) :
    ∃ plaintext, Opens b now capability profile origin plaintext ∧ result = useSecret plaintext := by
  obtain ⟨error, events, hcall⟩ | ⟨plaintext, events, hopens, hcall⟩ :=
    b.with_secret_cases now capability profile origin useSecret
  · rw [hcall] at h
    cases h
  · rw [hcall] at h
    cases h
    exact ⟨plaintext, hopens, rfl⟩

omit [ChaCha20Poly1305] in
/-- A snapshot keeps the records, the used references, and the policy. -/
theorem from_snapshot_export (b : SecretBroker) (key : Key) :
    fromSnapshot b.exportSnapshot key = .ok { b with events := [], key } := by
  have hrecords : b.exportSnapshot.records.foldl (fun records persisted =>
      records.insert persisted.handle
        ⟨persisted.profile, persisted.origin, persisted.nonce, persisted.ciphertext⟩) ∅ =
      b.records := by
    rw [exportSnapshot, List.foldl_map]
    exact OrdMap.foldl_insert_to_list b.records
  have hconsumed : ExtTreeSet.ofList b.exportSnapshot.consumed compare = b.consumed := by
    refine ExtTreeSet.ext_mem fun reference => ?_
    rw [ExtTreeSet.mem_ofList, List.contains_iff_mem]
    exact ExtTreeSet.mem_toList
  have hversion : b.exportSnapshot.schemaVersion = snapshotSchemaVersion := rfl
  simp only [fromSnapshot, hversion, ne_eq, not_true_eq_false, if_false, hrecords, hconsumed]
  rfl

end SecretBroker

/-! ## Histories -/

/-- A call with its arguments, and the id that it generates. `restart` replaces the broker. -/
inductive Op where
  | setPolicy (policy : SecretPolicy)
  | store (handle : SecretHandle) (profile : ProfileId) (origin : Text) (secret : Bytes)
  | revoke (handle : SecretHandle)
  | grant (reference : CapabilityReference) (now : UInt64) (handle : SecretHandle)
      (profile : ProfileId) (origin purpose : Text) (oneTime : Bool) (lifetime : Option UInt64)
      (consent : Bool)
  | withSecret (now : UInt64) (capability : SecretCapability) (profile : ProfileId) (origin : Text)
  | drainEvents
  | restart

/-- The id that a call generates. -/
def Op.generated : Op → Option Uuid
  | .store handle _ _ _ => some handle
  | .grant reference _ _ _ _ _ _ _ _ => some reference
  | _ => none

/-- The handle that a call names. -/
def Op.named : Op → Option Uuid
  | .revoke handle | .grant _ _ handle _ _ _ _ _ _ => some handle
  | _ => none

/-- The capability that a call presents. -/
def Op.presented : Op → Option SecretCapability
  | .withSecret _ capability _ _ => some capability
  | _ => none

/-- The store, and what was granted, released and revoked. -/
structure History where
  broker : SecretBroker
  granted : List SecretCapability
  released : List SecretCapability
  revoked : List SecretHandle
  known : List Uuid

namespace History

/-- No secret yet. -/
def start (key : Key) (policy : SecretPolicy) : History := ⟨.withPolicy key policy, [], [], [], []⟩

/-- The id that the call generates is fresh. -/
def Fresh (h : History) (op : Op) : Prop :=
  ∀ id ∈ op.generated, id ∉ h.known ∧ op.named ≠ some id

instance (h : History) (op : Op) : Decidable (h.Fresh op) :=
  inferInstanceAs <| Decidable (∀ id ∈ op.generated, _)

variable [ChaCha20Poly1305]

/-- A capability that is granted is noted. -/
def grant (h : History) (reference : CapabilityReference) (now : UInt64) (handle : SecretHandle)
    (profile : ProfileId) (origin purpose : Text) (oneTime : Bool) (lifetime : Option UInt64)
    (consent : Bool) : History :=
  match h.broker.grantForWithConsent reference now handle profile origin purpose oneTime lifetime
      consent with
  | (.ok capability, broker) => { h with broker, granted := capability :: h.granted }
  | (.error _, broker) => { h with broker }

/-- What the callback does with the secret is not part of the history. -/
def withSecret (h : History) (now : UInt64) (capability : SecretCapability) (profile : ProfileId)
    (origin : Text) : History :=
  match h.broker.withSecret now capability profile origin id with
  | (.ok _, broker) => { h with broker, released := capability :: h.released }
  | (.error _, broker) => { h with broker }

/-- The store is saved and read back. -/
def restart (h : History) : History :=
  match SecretBroker.fromSnapshot h.broker.exportSnapshot h.broker.key with
  | .ok broker => { h with broker }
  | .error _ => h

/-- The effect of a call on the broker and on what is recorded about it. -/
def perform (h : History) : Op → History
  | .setPolicy policy => { h with broker := h.broker.setPolicy policy }
  | .store handle profile origin secret =>
      { h with broker := (h.broker.store handle profile origin secret).2 }
  | .revoke handle =>
      { h with broker := (h.broker.revoke handle).2, revoked := handle :: h.revoked }
  | .grant reference now handle profile origin purpose oneTime lifetime consent =>
      h.grant reference now handle profile origin purpose oneTime lifetime consent
  | .withSecret now capability profile origin => h.withSecret now capability profile origin
  | .drainEvents => { h with broker := h.broker.drainEvents.2 }
  | .restart => h.restart

/-- One call, after which the ids in it are known. -/
def step (h : History) (op : Op) : History :=
  { h.perform op with known := op.generated.toList ++ op.named.toList ++ h.known }

/-- The runs in which ids are fresh and every presented capability satisfies a condition. -/
def machine (Presents : History → SecretCapability → Prop) : Machine History Op where
  step := step
  Allowed h op := h.Fresh op ∧ ∀ capability ∈ op.presented, Presents h capability

end History

end BrowsAI.SecretStore
