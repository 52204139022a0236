import BrowsAI.SecretStore.Releases

/-!
# The lifetime of a capability

The four calls that grant a capability, and what the maximum lifetime of the policy does to them. A
requested lifetime is held to it, but a call without one makes a capability that never expires:
`expires_in_time_iff`.
-/

namespace BrowsAI.SecretStore

open Utf8 Profiles Saturating

namespace SecretBroker

/-- Grants a secret with consent and without an end. -/
def grant (b : SecretBroker) (reference : CapabilityReference) (now : UInt64)
    (handle : SecretHandle) (profile : ProfileId) (origin purpose : Text) (oneTime : Bool) :
    Except SecretError SecretCapability × SecretBroker :=
  b.grantForWithConsent reference now handle profile origin purpose oneTime none true

/-- Grants a secret with consent for a time. -/
def grantFor (b : SecretBroker) (reference : CapabilityReference) (now : UInt64)
    (handle : SecretHandle) (profile : ProfileId) (origin purpose : Text) (oneTime : Bool)
    (lifetime : Option UInt64) : Except SecretError SecretCapability × SecretBroker :=
  b.grantForWithConsent reference now handle profile origin purpose oneTime lifetime true

/-- A call that grants, with the arguments that not all of the four have. -/
inductive Entry
  | grant
  | grantWithConsent (consent : Bool)
  | grantFor (lifetime : Option UInt64)
  | grantForWithConsent (lifetime : Option UInt64) (consent : Bool)

/-- The lifetime that the call asks for. -/
def Entry.lifetime : Entry → Option UInt64
  | .grant | .grantWithConsent _ => none
  | .grantFor lifetime | .grantForWithConsent lifetime _ => lifetime

/-- The call of an entry point. -/
def Entry.call (entry : Entry) (b : SecretBroker) (reference : CapabilityReference)
    (now : UInt64) (handle : SecretHandle) (profile : ProfileId) (origin purpose : Text)
    (oneTime : Bool) : Except SecretError SecretCapability × SecretBroker :=
  match entry with
  | .grant => b.grant reference now handle profile origin purpose oneTime
  | .grantWithConsent consent =>
      b.grantWithConsent reference now handle profile origin purpose oneTime consent
  | .grantFor lifetime =>
      b.grantFor reference now handle profile origin purpose oneTime lifetime
  | .grantForWithConsent lifetime consent =>
      b.grantForWithConsent reference now handle profile origin purpose oneTime lifetime consent

/-- The four calls are one with different arguments. -/
theorem Entry.exists_call_eq (entry : Entry) : ∃ consent, ∀ (b : SecretBroker)
    (reference : CapabilityReference) (now : UInt64) (handle : SecretHandle) (profile : ProfileId)
    (origin purpose : Text) (oneTime : Bool),
    entry.call b reference now handle profile origin purpose oneTime =
      b.grantForWithConsent reference now handle profile origin purpose oneTime entry.lifetime
        consent := by
  cases entry with
  | grant => exact ⟨true, fun _ _ _ _ _ _ _ _ => rfl⟩
  | grantWithConsent consent => exact ⟨consent, fun _ _ _ _ _ _ _ _ => rfl⟩
  | grantFor lifetime => exact ⟨true, fun _ _ _ _ _ _ _ _ => rfl⟩
  | grantForWithConsent lifetime consent => exact ⟨consent, fun _ _ _ _ _ _ _ _ => rfl⟩

variable {b : SecretBroker} {reference : CapabilityReference} {now maximum : UInt64}
  {handle : SecretHandle} {profile : ProfileId} {origin purpose : Text} {oneTime consent : Bool}
  {lifetime : Option UInt64} {capability : SecretCapability}

/-- A granted capability expires after the lifetime that was asked for, which the policy allows. -/
theorem expires_of_grant
    (h : (b.grantForWithConsent reference now handle profile origin purpose oneTime lifetime
      consent).1 = .ok capability) :
    capability.expiresAtUnixSeconds = lifetime.map (fun seconds => saturatingAdd now seconds) ∧
      b.policy.denies purpose lifetime = false := by
  by_cases hconsent : (!consent) = true
  · rw [grantForWithConsent, if_pos hconsent] at h
    cases h
  rw [grantForWithConsent, if_neg hconsent] at h
  cases hrecord : b.records[handle]? with
  | none =>
      rw [hrecord] at h
      cases h
  | some record =>
      rw [hrecord] at h
      dsimp only at h
      split_ifs at h with hprofile horigin hdenied
      cases h
      exact ⟨rfl, Bool.eq_false_iff.mpr hdenied⟩

/-- A lifetime within the policy is at most its maximum. -/
theorem le_of_not_denies {seconds : UInt64} (hpolicy : b.policy.maxLifetimeSeconds = some maximum)
    (h : b.policy.denies purpose (some seconds) = false) : seconds ≤ maximum := by
  rw [SecretPolicy.denies, Bool.or_eq_false_iff, hpolicy] at h
  have hmaximum := h.2
  simp only [Option.any_some, decide_eq_false_iff_not] at hmaximum
  exact UInt64.not_lt.mp hmaximum

/-- No broker releases a secret for an expired capability. -/
theorem expired_refused [ChaCha20Poly1305] {T : Type} {t expires : UInt64}
    (hexpires : capability.expiresAtUnixSeconds = some expires) (ht : expires ≤ t)
    (later : SecretBroker) (user : ProfileId) (site : Text) (useSecret : Bytes → T) :
    ∃ error, (later.withSecret t capability user site useSecret).1 = .error error := by
  obtain ⟨error, events, hcall⟩ | ⟨plaintext, events, hopens, -⟩ :=
    later.with_secret_cases t capability user site useSecret
  · exact ⟨error, by rw [hcall]⟩
  · have hearlier := hopens.in_time expires hexpires
    exact absurd ht (UInt64.not_le.mpr hearlier)

/-- The capability expires within so many seconds, and is refused from then on. -/
structure ExpiresInTime [ChaCha20Poly1305] (now maximum : UInt64)
    (capability : SecretCapability) : Prop where
  expires : ∃ expires, capability.expiresAtUnixSeconds = some expires ∧
    expires.toNat ≤ now.toNat + maximum.toNat
  refused : ∀ (later : SecretBroker) (t : UInt64),
    (∃ expires, capability.expiresAtUnixSeconds = some expires ∧ expires ≤ t) →
    ∀ (user : ProfileId) (site : Text) (T : Type) (useSecret : Bytes → T),
      ∃ error, (later.withSecret t capability user site useSecret).1 = .error error

/-- Under a policy with a maximum lifetime, a capability that was granted expires in time exactly if
a lifetime was asked for. -/
theorem expires_in_time_iff [ChaCha20Poly1305] (b : SecretBroker) (entry : Entry)
    (reference : CapabilityReference) (now maximum : UInt64) (handle : SecretHandle)
    (profile : ProfileId) (origin purpose : Text) (oneTime : Bool) (capability : SecretCapability)
    (hpolicy : b.policy.maxLifetimeSeconds = some maximum)
    (hgrant : (entry.call b reference now handle profile origin purpose oneTime).1 =
      .ok capability) :
    ExpiresInTime now maximum capability ↔ entry.lifetime.isSome = true := by
  obtain ⟨consent, hcall⟩ := entry.exists_call_eq
  rw [hcall] at hgrant
  obtain ⟨hexpires, hdenies⟩ := expires_of_grant hgrant
  cases hlifetime : entry.lifetime with
  | none =>
      rw [hlifetime] at hexpires
      refine iff_of_false (fun h => ?_) Bool.false_ne_true
      obtain ⟨expires, hsome, -⟩ := h.expires
      rw [hexpires] at hsome
      cases hsome
  | some seconds =>
      rw [hlifetime] at hexpires hdenies
      have hseconds := UInt64.le_iff_toNat_le.mp (le_of_not_denies hpolicy hdenies)
      refine iff_of_true ⟨⟨_, hexpires, ?_⟩, ?_⟩ rfl
      · rw [to_nat_saturating_add]
        omega
      · intro later t h user site T useSecret
        obtain ⟨expires, hsome, ht⟩ := h
        exact expired_refused hsome ht later user site useSecret

/-- A broker with the secret of handle 1 and a maximum lifetime of a minute. -/
def minuteBroker : SecretBroker :=
  let _ := ChaCha20Poly1305.labelled
  ((withPolicy 0 ⟨none, some 60⟩).store 1 7 "https://example.test" [112, 119]).2

theorem minute_lifetime :
    let _ := ChaCha20Poly1305.labelled
    ExpiresInTime 5 60 ⟨2, 1, 7, "https://example.test", "login", true, some 65⟩ ↔
      (Entry.grantFor (some 60)).lifetime.isSome = true := by
  intro cipher
  exact expires_in_time_iff minuteBroker (.grantFor (some 60)) 2 5 60 1 7 "https://example.test"
    "login" true _ rfl (by decide)

/-- The capability of a plain `grant` releases the secret at the end of time. -/
theorem plain_grant_never_expires :
    let _ := ChaCha20Poly1305.labelled
    (Entry.grant.call minuteBroker 2 5 1 7 "https://example.test" "login" true).1 =
        .ok loginCapability ∧
      (minuteBroker.withSecret 18446744073709551615 loginCapability 7 "https://example.test" id).1 =
        .ok [112, 119] ∧
      ¬ ExpiresInTime 5 60 loginCapability := by
  intro cipher
  refine ⟨by decide, by decide, fun h => ?_⟩
  obtain ⟨expires, hsome, -⟩ := h.expires
  cases hsome

end SecretBroker

end BrowsAI.SecretStore
