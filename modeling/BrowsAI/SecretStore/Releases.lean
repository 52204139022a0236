import BrowsAI.SecretStore.Invariants

/-!
# When a secret is released

`with_secret` believes the copy that it is given. In the runs in which every capability is presented
as it was granted, a one-time capability is used once, and a revoked handle releases nothing. In the
runs in which a copy says at least as much as the grant does, every release is one that the grant
allows; a copy that says less is believed as well.
-/

namespace BrowsAI.SecretStore

open Utf8 Std Profiles

/-- A cipher that puts the key and the nonce in front of the secret, and checks them. -/
@[reducible] def ChaCha20Poly1305.labelled : ChaCha20Poly1305 where
  encrypt key nonce secret := List.replicate 16 (UInt8.ofNat (key.toNat + nonce.toNat)) ++ secret
  decrypt key nonce ciphertext :=
    if List.replicate 16 (UInt8.ofNat (key.toNat + nonce.toNat)) <+: ciphertext then
      some (ciphertext.drop 16)
    else none

theorem ChaCha20Poly1305.labelled_inverts : let _ := labelled; Inverts := by
  intro cipher key nonce secret
  simp [encrypt, decrypt, cipher]

namespace History

/-! ## Presented capabilities -/

/-- The capability is one that was granted. -/
def AsGranted (h : History) (capability : SecretCapability) : Prop := capability ∈ h.granted

/-- The copy has the reference and the handle of the grant, is one-time if the grant is, and expires
no later. -/
structure CopyOf (copy grant : SecretCapability) : Prop where
  reference_eq : copy.reference = grant.reference
  handle_eq : copy.handle = grant.handle
  one_time : grant.oneTime → copy.oneTime
  expires : ∀ expires, grant.expiresAtUnixSeconds = some expires →
    ∃ earlier, copy.expiresAtUnixSeconds = some earlier ∧ earlier ≤ expires

/-- The capability is a copy of one that was granted. -/
def Copied (h : History) (copy : SecretCapability) : Prop := ∃ grant ∈ h.granted, CopyOf copy grant

/-- A grant of the capability's reference, for its handle and this profile and origin, allows its use
at this time. -/
def Warranted (h : History) (now : UInt64) (capability : SecretCapability) (profile : ProfileId)
    (origin : Text) : Prop :=
  ∃ grant ∈ h.granted, grant.reference = capability.reference ∧ grant.handle = capability.handle ∧
    grant.profile = profile ∧ grant.origin = origin ∧
    (∀ expires, grant.expiresAtUnixSeconds = some expires → now < expires) ∧
    (grant.oneTime → ∀ used ∈ h.released, used.reference ≠ capability.reference)

/-- Granted capabilities with one reference are the same. -/
theorem Sound.eq_of_reference {h : History} (hs : h.Sound) {first second : SecretCapability}
    (hfirst : first ∈ h.granted) (hsecond : second ∈ h.granted)
    (heq : first.reference = second.reference) : first = second :=
  List.inj_on_of_nodup_map hs.distinct hfirst hsecond heq

variable [ChaCha20Poly1305] {h : History}

/-! ## Releases -/

/-- What was recorded stays recorded. -/
theorem granted_subset_step (h : History) (op : Op) : h.granted ⊆ (h.step op).granted := by
  have hchange := h.perform_change op
  rw [step]
  generalize h.perform op = h' at hchange
  cases hchange with
  | grant => exact List.subset_cons_self _ _
  | _ => exact List.Subset.refl _

/-- A released capability was presented in the last call or released before. -/
theorem released_step {h : History} {op : Op} {used : SecretCapability}
    (hused : used ∈ (h.step op).released) : used ∈ h.released ∨ op.presented = some used := by
  have hchange := h.perform_change op
  rw [step] at hused
  generalize h.perform op = h' at hchange hused
  cases hchange with
  | release now capability =>
      exact (List.mem_cons.mp hused).symm.imp_right fun heq => by rw [heq]; rfl
  | _ => exact .inl hused

/-- A condition on presented capabilities that grants keep true holds of all that were used. -/
theorem released_presented {Presents : History → SecretCapability → Prop}
    (hkeep : ∀ h op capability, Presents h capability → Presents (h.step op) capability)
    {key : Key} {policy : SecretPolicy}
    (hrun : (machine Presents).Reaches (start key policy) h) :
    ∀ used ∈ h.released, Presents h used := by
  refine hrun.invariant (P := fun h => ∀ used ∈ h.released, Presents h used)
    (fun used hused => by cases hused) fun h op ih hallowed used hused => hkeep h op used ?_
  exact (released_step hused).elim (ih used) (hallowed.2 used)

/-- In every run that presents capabilities as they were granted, a one-time capability has released
its secret at most once, and no capability for a revoked handle releases anything. -/
theorem released_once (key : Key) (policy : SecretPolicy) (h : History)
    (hrun : (machine AsGranted).Reaches (start key policy) h) :
    (∀ capability ∈ h.granted, capability.oneTime →
      h.released.countP (fun used => used.reference = capability.reference) ≤ 1) ∧
      ∀ (capability : SecretCapability) (profile : ProfileId) (origin : Text) (now : UInt64)
        (T : Type) (useSecret : Bytes → T) (result : T), capability.handle ∈ h.revoked →
        (h.broker.withSecret now capability profile origin useSecret).1 ≠ .ok result := by
  have hs := reaches_sound hrun
  constructor
  · intro capability hgranted honce
    have hused : ∀ used ∈ h.released, AsGranted h used :=
      released_presented (fun h op used hpresented => h.granted_subset_step op hpresented) hrun
    have hcount : h.released.countP (fun used => used.reference = capability.reference) =
        h.usedOnce.count capability.reference := by
      rw [usedOnce, List.count_eq_countP, List.countP_map, List.countP_filter]
      refine List.countP_congr fun used hmem => ?_
      constructor
      · intro heq
        have hsame := hs.eq_of_reference (hused used hmem) hgranted (of_decide_eq_true heq)
        simp [hsame, honce]
      · intro heq
        simpa using (Bool.and_eq_true_iff.mp heq).1
    rw [hcount]
    exact List.nodup_iff_count_le_one.mp hs.once capability.reference
  · intro capability profile origin now T useSecret result hrevoked hresult
    obtain ⟨plaintext, hopens, -⟩ := SecretBroker.opens_of_with_secret hresult
    obtain ⟨record, hrecord, -⟩ := hopens.found
    rw [hs.gone capability.handle hrevoked] at hrecord
    cases hrecord

/-- In every run that presents copies of granted capabilities, every release is warranted. -/
theorem copied_warranted (key : Key) (policy : SecretPolicy) (h : History)
    (hrun : (machine Copied).Reaches (start key policy) h) (now : UInt64)
    (capability : SecretCapability) (hcopied : h.Copied capability) (profile : ProfileId)
    (origin : Text) (T : Type) (useSecret : Bytes → T) (result : T)
    (hresult : (h.broker.withSecret now capability profile origin useSecret).1 = .ok result) :
    h.Warranted now capability profile origin := by
  have hs := reaches_sound hrun
  obtain ⟨plaintext, hopens, -⟩ := SecretBroker.opens_of_with_secret hresult
  obtain ⟨grant, hgrant, hcopy⟩ := hcopied
  obtain ⟨record, hrecord, hprofile, horigin, -⟩ := hopens.found
  obtain ⟨hgrantProfile, hgrantOrigin⟩ :=
    hs.scope grant hgrant record (hcopy.handle_eq ▸ hrecord)
  refine ⟨grant, hgrant, hcopy.reference_eq.symm, hcopy.handle_eq.symm, ?_, ?_, ?_, ?_⟩
  · rw [← hgrantProfile, hprofile, hopens.profile_eq]
  · rw [← hgrantOrigin, horigin, hopens.origin_eq]
  · intro expires hexpires
    obtain ⟨earlier, hearlier, hle⟩ := hcopy.expires expires hexpires
    exact UInt64.lt_of_lt_of_le (hopens.in_time earlier hearlier) hle
  · intro honce used hused heq
    -- the earlier copy was one-time as well, so its reference is remembered
    obtain ⟨other, hother, husedCopy⟩ := released_presented (fun h op copy ⟨grant, hmem, hcopy⟩ =>
      ⟨grant, h.granted_subset_step op hmem, hcopy⟩) hrun used hused
    have hsame : other = grant := hs.eq_of_reference hother hgrant
      (husedCopy.reference_eq.symm.trans (heq.trans hcopy.reference_eq))
    have husedOnce : used.oneTime := husedCopy.one_time (hsame ▸ honce)
    have hmem : used.reference ∈ h.usedOnce :=
      List.mem_map_of_mem (List.mem_filter.mpr ⟨hused, husedOnce⟩)
    exact hopens.unused (hcopy.one_time honce) (heq ▸ hs.consumed _ hmem)

end History

/-! ## A login secret -/

/-- A one-time capability for the secret under handle 1. -/
def loginCapability : SecretCapability :=
  ⟨2, 1, 7, "https://example.test", "login", true, none⟩

/-- The secret is stored and granted. -/
def loginOps : List Op :=
  [.store 1 7 "https://example.test" [112, 119],
    .grant 2 0 1 7 "https://example.test" "login" true none true]

/-- Then the capability is used, and the broker replaced. -/
def loginUseOps : List Op :=
  [.withSecret 0 loginCapability 7 "https://example.test", .restart]

namespace History

/-- The history after some calls on an empty broker. -/
def loginHistory (ops : List Op) : History :=
  let _ := ChaCha20Poly1305.labelled
  (machine AsGranted).run (start 0 default) ops

theorem login_granted : (loginHistory loginOps).granted = [loginCapability] := by decide

/-- The login of the example is reached in a run. -/
theorem login_reached (Presents : History → SecretCapability → Prop) :
    let _ := ChaCha20Poly1305.labelled
    (machine Presents).Reaches (start 0 default) (loginHistory loginOps) := by
  intro cipher
  have hallowed : (machine Presents).AllowedRun (start 0 default) loginOps := by
    refine ⟨⟨?_, nofun⟩, ⟨?_, nofun⟩, trivial⟩
    · intro id hid
      cases hid
      exact ⟨List.not_mem_nil, nofun⟩
    · intro id hid
      cases hid
      have hnew : (2 : Uuid) ∉ [1] := by decide
      exact ⟨hnew, by decide⟩
  exact Machine.Reaches.refl.run hallowed

/-- So is its use. -/
theorem login_use_reached (Presents : History → SecretCapability → Prop)
    (hpresents : Presents (loginHistory loginOps) loginCapability) :
    let _ := ChaCha20Poly1305.labelled
    (machine Presents).Reaches (start 0 default) (loginHistory (loginOps ++ loginUseOps)) := by
  intro cipher
  have hallowed : (machine Presents).AllowedRun (loginHistory loginOps) loginUseOps := by
    refine ⟨⟨nofun, ?_⟩, ⟨nofun, nofun⟩, trivial⟩
    intro capability hcapability
    cases hcapability
    exact hpresents
  exact (login_reached Presents).run hallowed

/-- The login capability has released its secret once, and nothing is released when its handle has been
revoked. -/
theorem login_released_once :
    let _ := ChaCha20Poly1305.labelled
    let ended := (machine AsGranted).step (loginHistory (loginOps ++ loginUseOps)) (.revoke 1)
    (∀ capability ∈ ended.granted, capability.oneTime → ended.released.countP
        (fun used => used.reference = capability.reference) ≤ 1) ∧
      ended.released = [loginCapability] ∧
      ∀ result : Bytes, (ended.broker.withSecret 0 { loginCapability with oneTime := false } 7
        "https://example.test" id).1 ≠ .ok result := by
  intro cipher ended
  have hpresented : AsGranted (loginHistory loginOps) loginCapability := by
    rw [AsGranted, login_granted]
    exact List.mem_singleton_self _
  have hrun : (machine AsGranted).Reaches (start 0 default) ended :=
    (login_use_reached AsGranted hpresented).step (.revoke 1) ⟨nofun, nofun⟩
  refine ⟨(released_once 0 default ended hrun).1, by decide, fun result => ?_⟩
  exact (released_once 0 default ended hrun).2 _ 7 _ 0 Bytes id result List.mem_cons_self

/-- A copy with another purpose is believed, and warranted by the grant. -/
theorem login_copied_warranted :
    let _ := ChaCha20Poly1305.labelled
    (loginHistory loginOps).Warranted 0 { loginCapability with purpose := "other" } 7
      "https://example.test" := by
  intro cipher
  refine copied_warranted 0 default _ (login_reached Copied) 0 _ ?_ 7 "https://example.test" Bytes
    id [112, 119] (by decide)
  exact ⟨loginCapability, by rw [login_granted]; exact List.mem_singleton_self _,
    rfl, rfl, fun _ => rfl, nofun⟩

/-- A copy that no longer says one-time is believed after the capability was used. -/
theorem login_copy_not_warranted :
    ¬ ∀ [ChaCha20Poly1305] (key : Key) (policy : SecretPolicy) (h : History),
      (machine fun _ _ => True).Reaches (start key policy) h →
      ∀ (now : UInt64) (capability : SecretCapability) (profile : ProfileId) (origin : Text)
        (T : Type) (useSecret : Bytes → T) (result : T),
        (h.broker.withSecret now capability profile origin useSecret).1 = .ok result →
        h.Warranted now capability profile origin := by
  intro hall
  let cipher := ChaCha20Poly1305.labelled
  obtain ⟨grant, hgrant, -, -, -, -, -, honce⟩ := hall 0 default _
    (login_use_reached (fun _ _ => True) trivial) 0 { loginCapability with oneTime := false } 7
    "https://example.test" Bytes id [112, 119] (by decide)
  have hgranted : (loginHistory (loginOps ++ loginUseOps)).granted = [loginCapability] := by
    decide
  have hreleased : (loginHistory (loginOps ++ loginUseOps)).released = [loginCapability] := by
    decide
  rw [hgranted, List.mem_singleton] at hgrant
  subst hgrant
  exact honce rfl loginCapability (by rw [hreleased]; exact List.mem_singleton_self _) rfl

end History

end BrowsAI.SecretStore
