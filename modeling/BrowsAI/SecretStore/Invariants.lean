import BrowsAI.SecretStore.History
import Mathlib.Data.List.Nodup

/-!
# What holds in every history

A call changes a history in one of five ways, `Change`. From these follows `Sound`, which every
history has in which the ids are fresh, whatever capabilities are presented: capabilities keep to
the record of their handle, revoked handles stay without a record, and a copy that says one-time
is accepted once for its reference.
-/

namespace BrowsAI.SecretStore

open Utf8 Std Profiles Saturating

namespace History

variable {h h' : History} {op : Op}

/-! ## The changes -/

section Changes

variable [ChaCha20Poly1305]

/-- The ways in which a call changes a history. -/
inductive Change (h : History) : Op → History → Prop
  | quiet (op : Op) (events : List SecretEvent) (policy : SecretPolicy) :
      Change h op { h with broker := { h.broker with events, policy } }
  | store (handle : SecretHandle) (profile : ProfileId) (origin : Text) (secret : Bytes)
      (record : SecretRecord) (events : List SecretEvent) :
      Change h (.store handle profile origin secret)
        { h with broker := { h.broker with
            records := h.broker.records.insert handle record
            events } }
  | revoke (handle : SecretHandle) (events : List SecretEvent) :
      Change h (.revoke handle)
        { h with
          broker := { h.broker with records := h.broker.records.erase handle, events }
          revoked := handle :: h.revoked }
  | grant (now : UInt64) (lifetime : Option UInt64) (consent : Bool)
      (capability : SecretCapability) (record : SecretRecord) (events : List SecretEvent)
      (hrecord : h.broker.records[capability.handle]? = some record)
      (hprofile : record.profile = capability.profile) (horigin : record.origin = capability.origin) :
      Change h (.grant capability.reference now capability.handle capability.profile
          capability.origin capability.purpose capability.oneTime lifetime consent)
        { h with
          broker := { h.broker with events }
          granted := capability :: h.granted }
  | release (now : UInt64) (capability : SecretCapability) (profile : ProfileId) (origin : Text)
      (plaintext : Bytes) (events : List SecretEvent)
      (hopens : h.broker.Opens now capability profile origin plaintext) :
      Change h (.withSecret now capability profile origin)
        { h with
          broker := { h.broker with
            consumed :=
              if capability.oneTime then h.broker.consumed.insert capability.reference
              else h.broker.consumed
            events }
          released := capability :: h.released }

/-- A call stores, revokes, grants, releases or does none of it. -/
theorem perform_change (h : History) (op : Op) : Change h op (h.perform op) := by
  cases op with
  | setPolicy policy => exact .quiet _ h.broker.events policy
  | store handle profile origin secret => exact .store handle profile origin secret _ _
  | revoke handle =>
      obtain ⟨events, hrevoke⟩ := h.broker.revoke_eq handle
      rw [perform, hrevoke]
      exact .revoke handle events
  | grant reference now handle profile origin purpose oneTime lifetime consent =>
      rw [perform, grant]
      obtain ⟨error, hgrant⟩ | ⟨record, events, hrecord, hprofile, horigin, hgrant⟩ :=
        h.broker.grant_cases reference now handle profile origin purpose oneTime lifetime consent
      · rw [hgrant]
        exact .quiet _ h.broker.events h.broker.policy
      · rw [hgrant]
        exact .grant now lifetime consent ⟨reference, handle, profile, origin, purpose, oneTime, _⟩
          record events hrecord hprofile horigin
  | withSecret now capability profile origin =>
      rw [perform, withSecret]
      obtain ⟨error, events, hcall⟩ | ⟨plaintext, events, hopens, hcall⟩ :=
        h.broker.with_secret_cases now capability profile origin id
      · rw [hcall]
        exact .quiet _ events h.broker.policy
      · rw [hcall]
        exact .release now capability profile origin plaintext events hopens
  | drainEvents => exact .quiet _ [] h.broker.policy
  | restart =>
      rw [perform, restart, SecretBroker.from_snapshot_export]
      exact .quiet _ [] h.broker.policy

end Changes

/-! ## The invariant -/

/-- The references of the capabilities that were used and said one-time. -/
def usedOnce (h : History) : List CapabilityReference :=
  (h.released.filter SecretCapability.oneTime).map SecretCapability.reference

/-- The invariant: capabilities are for the secrets that they were granted for, those that are
revoked are gone, and none is used twice. -/
structure Sound (h : History) : Prop where
  record_known : ∀ handle record, h.broker.records[handle]? = some record → handle ∈ h.known
  granted_known : ∀ capability ∈ h.granted,
    capability.reference ∈ h.known ∧ capability.handle ∈ h.known
  revoked_known : ∀ handle ∈ h.revoked, handle ∈ h.known
  distinct : (h.granted.map SecretCapability.reference).Nodup
  scope : ∀ capability ∈ h.granted, ∀ record, h.broker.records[capability.handle]? = some record →
    record.profile = capability.profile ∧ record.origin = capability.origin
  gone : ∀ handle ∈ h.revoked, h.broker.records[handle]? = none
  consumed : ∀ reference ∈ h.usedOnce, reference ∈ h.broker.consumed
  once : h.usedOnce.Nodup

theorem sound_start (key : Key) (policy : SecretPolicy) : (start key policy).Sound where
  record_known handle record hrecord := by simp [start, SecretBroker.withPolicy,
    SecretBroker.new] at hrecord
  granted_known capability hmem := by simp [start] at hmem
  revoked_known handle hmem := by simp [start] at hmem
  distinct := by simp [start]
  scope capability hmem := by simp [start] at hmem
  gone handle hmem := by simp [start] at hmem
  consumed reference hmem := by simp [start, usedOnce] at hmem
  once := by simp [start, usedOnce]

/-- More ids may be known. -/
theorem Sound.learn (hs : h.Sound) (ids : List Uuid) : Sound { h with known := ids ++ h.known } where
  record_known handle record hrecord :=
    List.mem_append_right ids (hs.record_known handle record hrecord)
  granted_known capability hmem :=
    (hs.granted_known capability hmem).imp (List.mem_append_right ids) (List.mem_append_right ids)
  revoked_known handle hmem := List.mem_append_right ids (hs.revoked_known handle hmem)
  distinct := hs.distinct
  scope := hs.scope
  gone := hs.gone
  consumed := hs.consumed
  once := hs.once

theorem used_once_release (h : History) (broker : SecretBroker) (capability : SecretCapability) :
    usedOnce { h with broker, released := capability :: h.released } =
      if capability.oneTime then capability.reference :: h.usedOnce else h.usedOnce := by
  rw [usedOnce, usedOnce, List.filter_cons]
  split_ifs <;> rfl

/-- A new secret keeps the invariant. -/
theorem Sound.store (hs : h.Sound) {handle : SecretHandle} (hfresh : handle ∉ h.known)
    (record : SecretRecord) (events : List SecretEvent) :
    Sound { h with
      broker := { h.broker with records := h.broker.records.insert handle record, events }
      known := handle :: h.known } where
  record_known other found hfound := by
    rw [OrdMap.get_insert] at hfound
    split_ifs at hfound with hsame
    · exact hsame ▸ List.mem_cons_self
    · exact List.mem_cons_of_mem _ (hs.record_known other found hfound)
  granted_known := (hs.learn [handle]).granted_known
  revoked_known := (hs.learn [handle]).revoked_known
  distinct := hs.distinct
  scope capability hmem found hfound := by
    have hne : handle ≠ capability.handle := fun heq =>
      hfresh (heq ▸ (hs.granted_known capability hmem).2)
    rw [OrdMap.get_insert_ne _ hne] at hfound
    exact hs.scope capability hmem found hfound
  gone other hmem := by
    have hne : handle ≠ other := fun heq => hfresh (heq ▸ hs.revoked_known other hmem)
    exact (OrdMap.get_insert_ne _ hne record).trans (hs.gone other hmem)
  consumed := hs.consumed
  once := hs.once

/-- So does one that is revoked. -/
theorem Sound.revoke (hs : h.Sound) (handle : SecretHandle) (events : List SecretEvent) :
    Sound { h with
      broker := { h.broker with records := h.broker.records.erase handle, events }
      revoked := handle :: h.revoked
      known := handle :: h.known } where
  record_known other found hfound := by
    rw [OrdMap.get_erase] at hfound
    split_ifs at hfound
    exact List.mem_cons_of_mem _ (hs.record_known other found hfound)
  granted_known := (hs.learn [handle]).granted_known
  revoked_known other hmem := by
    rcases List.mem_cons.mp hmem with rfl | hmem
    · exact List.mem_cons_self
    · exact List.mem_cons_of_mem _ (hs.revoked_known other hmem)
  distinct := hs.distinct
  scope capability hmem found hfound := by
    rw [OrdMap.get_erase] at hfound
    split_ifs at hfound
    exact hs.scope capability hmem found hfound
  gone other hmem := by
    refine (OrdMap.get_erase h.broker.records handle other).trans ?_
    split_ifs with hsame
    · rfl
    · exact hs.gone other ((List.mem_cons.mp hmem).resolve_left (Ne.symm hsame))
  consumed := hs.consumed
  once := hs.once

/-- So does a capability that is granted. -/
theorem Sound.grant (hs : h.Sound) {capability : SecretCapability} {record : SecretRecord}
    (hfresh : capability.reference ∉ h.known)
    (hrecord : h.broker.records[capability.handle]? = some record)
    (hprofile : record.profile = capability.profile) (horigin : record.origin = capability.origin)
    (events : List SecretEvent) :
    Sound { h with
      broker := { h.broker with events }
      granted := capability :: h.granted
      known := capability.reference :: capability.handle :: h.known } where
  record_known := (hs.learn [capability.reference, capability.handle]).record_known
  granted_known other hmem := by
    rcases List.mem_cons.mp hmem with rfl | hmem
    · exact ⟨List.mem_cons_self, List.mem_cons_of_mem _ List.mem_cons_self⟩
    · exact (hs.learn [capability.reference, capability.handle]).granted_known other hmem
  revoked_known := (hs.learn [capability.reference, capability.handle]).revoked_known
  distinct := by
    refine List.nodup_cons.mpr ⟨fun hmem => ?_, hs.distinct⟩
    obtain ⟨other, hother, heq⟩ := List.mem_map.mp hmem
    exact hfresh (heq ▸ (hs.granted_known other hother).1)
  scope other hmem found hfound := by
    rcases List.mem_cons.mp hmem with rfl | hmem
    · cases Option.some.inj (hrecord.symm.trans hfound)
      exact ⟨hprofile, horigin⟩
    · exact hs.scope other hmem found hfound
  gone := hs.gone
  consumed := hs.consumed
  once := hs.once

variable [ChaCha20Poly1305]

/-- So does a secret that is released. -/
theorem Sound.release (hs : h.Sound) {now : UInt64} {capability : SecretCapability}
    {profile : ProfileId} {origin : Text} {plaintext : Bytes}
    (hopens : h.broker.Opens now capability profile origin plaintext) (events : List SecretEvent) :
    Sound { h with
      broker := { h.broker with
        consumed :=
          if capability.oneTime then h.broker.consumed.insert capability.reference
          else h.broker.consumed
        events }
      released := capability :: h.released } where
  record_known := hs.record_known
  granted_known := hs.granted_known
  revoked_known := hs.revoked_known
  distinct := hs.distinct
  scope := hs.scope
  gone := hs.gone
  consumed reference hmem := by
    rw [used_once_release] at hmem
    split_ifs at hmem ⊢ with honce
    · rcases List.mem_cons.mp hmem with rfl | hmem
      · exact ExtTreeSet.mem_insert_self
      · exact ExtTreeSet.mem_insert.mpr (.inr (hs.consumed reference hmem))
    · exact hs.consumed reference hmem
  once := by
    rw [used_once_release]
    split_ifs with honce
    · exact List.nodup_cons.mpr
        ⟨fun hmem => hopens.unused honce (hs.consumed _ hmem), hs.once⟩
    · exact hs.once

/-- Every call keeps the invariant. -/
theorem Sound.step (hs : h.Sound) (hfresh : h.Fresh op) : (h.step op).Sound := by
  have hchange := h.perform_change op
  rw [History.step]
  generalize h.perform op = h' at hchange
  cases hchange with
  | quiet =>
      have hlearn := hs.learn (op.generated.toList ++ op.named.toList)
      exact ⟨hlearn.record_known, hlearn.granted_known, hlearn.revoked_known, hlearn.distinct,
        hlearn.scope, hlearn.gone, hlearn.consumed, hlearn.once⟩
  | store handle profile origin secret record events =>
      exact hs.store (hfresh handle rfl).1 record events
  | revoke handle events => exact hs.revoke handle events
  | grant now lifetime consent capability record events hrecord hprofile horigin =>
      exact hs.grant (hfresh capability.reference rfl).1 hrecord hprofile horigin events
  | release now capability profile origin plaintext events hopens =>
      exact hs.release hopens events

theorem reaches_sound {Presents : History → SecretCapability → Prop} {key : Key}
    {policy : SecretPolicy} (hrun : (machine Presents).Reaches (start key policy) h) : h.Sound :=
  hrun.invariant (sound_start key policy) fun _ _ hs hallowed => hs.step hallowed.1

end History

end BrowsAI.SecretStore
