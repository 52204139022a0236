import BrowsAI.SecretStore.Releases
import BrowsAI.SecretStore.Lifetimes
import Mathlib.Data.List.Perm.Subperm

/-!
# Accounts of a broker

The vaults of the program keep their secrets in a broker of their own, next to a table that says
whose the handles are. An `Account` is what happened to such a broker: what was deposited under each
handle and for whom, the capabilities that were granted, those that were used, and the ids so far.
`Sound` relates it to the broker, and each call that a vault makes preserves it.
-/

namespace BrowsAI.SecretStore

open Utf8 Std Profiles

/-- A secret, and the entry of the vault that it belongs to. -/
structure Deposit (Owner : Type) where
  owner : Owner
  profile : ProfileId
  origin : Text
  secret : Bytes

/-- What was deposited, granted and released, and the ids that are known. -/
structure Account (Owner : Type) where
  shelf : OrdMap SecretHandle (Deposit Owner)
  granted : List SecretCapability
  released : List SecretCapability
  known : List Uuid

namespace Account

variable {Owner : Type} {a : Account Owner} {b : SecretBroker}

/-- Nothing was deposited. -/
def empty : Account Owner := ⟨∅, [], [], []⟩

/-- The owner of what the capability is for. -/
def ownerOf (a : Account Owner) (capability : SecretCapability) : Option Owner :=
  a.shelf[capability.handle]?.map Deposit.owner

/-- The references of the capabilities that were used and said one-time. -/
def usedOnce (a : Account Owner) : List CapabilityReference :=
  (a.released.filter SecretCapability.oneTime).map SecretCapability.reference

variable [ChaCha20Poly1305]

/-- The record that the broker makes of a deposit. -/
def record (key : Key) (handle : SecretHandle) (deposit : Deposit Owner) : SecretRecord :=
  ⟨deposit.profile, deposit.origin, nonceFor handle,
    ChaCha20Poly1305.encrypt key (nonceFor handle) deposit.secret⟩

/-- The invariant: the records are the deposits, capabilities are for deposits, and none is released
twice. -/
structure Sound (a : Account Owner) (b : SecretBroker) : Prop where
  records : ∀ handle, b.records[handle]? = a.shelf[handle]?.map (record b.key handle)
  shelf_known : ∀ handle deposit, a.shelf[handle]? = some deposit → handle ∈ a.known
  granted_known : ∀ capability ∈ a.granted, capability.reference ∈ a.known
  one_time : ∀ capability ∈ a.granted, capability.oneTime = true
  deposited : ∀ capability ∈ a.granted, ∃ deposit, a.shelf[capability.handle]? = some deposit
  distinct : (a.granted.map SecretCapability.reference).Nodup
  consumed : ∀ reference ∈ a.usedOnce, reference ∈ b.consumed
  once : a.usedOnce.Nodup

theorem sound_empty (key : Key) : (empty : Account Owner).Sound (.new key) where
  records handle := by simp [empty, SecretBroker.new]
  shelf_known handle deposit hdeposit := by simp [empty] at hdeposit
  granted_known capability hmem := by cases hmem
  one_time capability hmem := by cases hmem
  deposited capability hmem := by cases hmem
  distinct := List.nodup_nil
  consumed reference hmem := by cases hmem
  once := List.nodup_nil

/-! ## The calls -/

/-- More ids may be known. -/
theorem Sound.learn (hs : a.Sound b) {known : List Uuid} (hknown : a.known ⊆ known) :
    Sound { a with known } b where
  records := hs.records
  shelf_known handle deposit hdeposit := hknown (hs.shelf_known handle deposit hdeposit)
  granted_known capability hmem := hknown (hs.granted_known capability hmem)
  one_time := hs.one_time
  deposited := hs.deposited
  distinct := hs.distinct
  consumed := hs.consumed
  once := hs.once

/-- A secret is stored under a new handle. -/
theorem Sound.store (hs : a.Sound b) {handle : SecretHandle} (hfresh : handle ∉ a.known)
    (deposit : Deposit Owner) :
    Sound { a with shelf := a.shelf.insert handle deposit, known := handle :: a.known }
      (b.store handle deposit.profile deposit.origin deposit.secret).2 where
  records other := by
    show (b.records.insert handle (record b.key handle deposit))[other]? =
      (a.shelf.insert handle deposit)[other]?.map (record b.key other)
    rw [OrdMap.get_insert, OrdMap.get_insert]
    split_ifs with hsame
    · rw [hsame, Option.map_some]
    · exact hs.records other
  shelf_known other found hfound := by
    rw [OrdMap.get_insert] at hfound
    split_ifs at hfound with hsame
    · exact hsame ▸ List.mem_cons_self
    · exact List.mem_cons_of_mem _ (hs.shelf_known other found hfound)
  granted_known capability hmem := List.mem_cons_of_mem _ (hs.granted_known capability hmem)
  one_time := hs.one_time
  deposited capability hmem := by
    obtain ⟨found, hfound⟩ := hs.deposited capability hmem
    have hne : handle ≠ capability.handle :=
      fun heq => hfresh (heq ▸ hs.shelf_known _ found hfound)
    exact ⟨found, (OrdMap.get_insert_ne _ hne deposit).trans hfound⟩
  distinct := hs.distinct
  consumed := hs.consumed
  once := hs.once

omit [ChaCha20Poly1305] in
/-- A new handle has its own deposit, every other handle the one that it had. -/
theorem get_foldl_deposits {deposits : List (SecretHandle × Deposit Owner)}
    (hnodup : (deposits.map Prod.fst).Nodup) (shelf : OrdMap SecretHandle (Deposit Owner))
    (handle : SecretHandle) (deposit : Deposit Owner) :
    (deposits.foldl (fun shelf entry => shelf.insert entry.1 entry.2) shelf)[handle]? =
        some deposit ↔
      (handle, deposit) ∈ deposits ∨
        (handle ∉ deposits.map Prod.fst ∧ shelf[handle]? = some deposit) := by
  induction deposits generalizing shelf with
  | nil => simp
  | cons entry deposits ih =>
      obtain ⟨first, value⟩ := entry
      have hrest := List.nodup_cons.mp hnodup
      rw [List.foldl_cons, ih hrest.2, OrdMap.get_insert]
      by_cases hsame : first = handle
      · subst hsame
        have hnew : ∀ other, (first, other) ∉ deposits :=
          fun other hmem => hrest.1 (List.mem_map.mpr ⟨_, hmem, rfl⟩)
        simp [hnew, hrest.1, eq_comm]
      · have hne : handle ≠ first := Ne.symm hsame
        simp [hsame, hne]

/-- Several secrets are stored, one after the other, under new handles. -/
theorem Sound.stores (hs : a.Sound b) {deposits : List (SecretHandle × Deposit Owner)}
    (hfresh : (deposits.map Prod.fst ++ a.known).Nodup) :
    Sound { a with
        shelf := deposits.foldl (fun shelf entry => shelf.insert entry.1 entry.2) a.shelf
        known := deposits.map Prod.fst ++ a.known }
      (deposits.foldl (fun b entry =>
        (b.store entry.1 entry.2.profile entry.2.origin entry.2.secret).2) b) := by
  induction deposits generalizing a b with
  | nil => exact hs
  | cons entry deposits ih =>
      obtain ⟨handle, deposit⟩ := entry
      have hcons := List.nodup_cons.mp hfresh
      have hnew : handle ∉ a.known := fun hmem => hcons.1 (List.mem_append_right _ hmem)
      have hrest : (deposits.map Prod.fst ++ handle :: a.known).Nodup :=
        (List.perm_middle.symm.nodup_iff).mp hfresh
      refine (ih (hs.store hnew deposit) hrest).learn fun id hmem => ?_
      exact List.perm_middle.mem_iff.mp hmem

/-- A one-time capability is granted for a deposit, under a new reference. -/
theorem Sound.grant (hs : a.Sound b) {capability : SecretCapability}
    (hfresh : capability.reference ∉ a.known) (honce : capability.oneTime = true)
    (hdeposit : ∃ deposit, a.shelf[capability.handle]? = some deposit) (events : List SecretEvent) :
    Sound { a with
      granted := capability :: a.granted
      known := capability.reference :: a.known } { b with events } where
  records := hs.records
  shelf_known handle deposit hdeposit :=
    List.mem_cons_of_mem _ (hs.shelf_known handle deposit hdeposit)
  granted_known other hmem := by
    rcases List.mem_cons.mp hmem with rfl | hmem
    · exact List.mem_cons_self
    · exact List.mem_cons_of_mem _ (hs.granted_known other hmem)
  one_time other hmem := by
    rcases List.mem_cons.mp hmem with rfl | hmem
    · exact honce
    · exact hs.one_time other hmem
  deposited other hmem := by
    rcases List.mem_cons.mp hmem with rfl | hmem
    · exact hdeposit
    · exact hs.deposited other hmem
  distinct := by
    refine List.nodup_cons.mpr ⟨fun hmem => ?_, hs.distinct⟩
    obtain ⟨other, hother, heq⟩ := List.mem_map.mp hmem
    exact hfresh (heq ▸ hs.granted_known other hother)
  consumed := hs.consumed
  once := hs.once

/-- A call that fails only logs it. -/
theorem Sound.refuse (hs : a.Sound b) (events : List SecretEvent) : a.Sound { b with events } :=
  ⟨hs.records, hs.shelf_known, hs.granted_known, hs.one_time, hs.deposited, hs.distinct, hs.consumed,
    hs.once⟩

omit [ChaCha20Poly1305] in
theorem used_once_cons (a : Account Owner) (capability : SecretCapability) :
    usedOnce { a with released := capability :: a.released } =
      if capability.oneTime then capability.reference :: a.usedOnce else a.usedOnce := by
  rw [usedOnce, usedOnce, List.filter_cons]
  split_ifs <;> rfl

/-- A secret is handed out. -/
theorem Sound.release (hs : a.Sound b) {now : UInt64} {capability : SecretCapability}
    {profile : ProfileId} {origin : Text} {plaintext : Bytes}
    (hopens : b.Opens now capability profile origin plaintext) (events : List SecretEvent) :
    Sound { a with released := capability :: a.released }
      { b with
        consumed := if capability.oneTime then b.consumed.insert capability.reference else b.consumed
        events } where
  records := hs.records
  shelf_known := hs.shelf_known
  granted_known := hs.granted_known
  one_time := hs.one_time
  deposited := hs.deposited
  distinct := hs.distinct
  consumed reference hmem := by
    rw [used_once_cons] at hmem
    split_ifs at hmem ⊢ with honce
    · rcases List.mem_cons.mp hmem with rfl | hmem
      · exact ExtTreeSet.mem_insert_self
      · exact ExtTreeSet.mem_insert.mpr (.inr (hs.consumed reference hmem))
    · exact hs.consumed reference hmem
  once := by
    rw [used_once_cons]
    split_ifs with honce
    · exact List.nodup_cons.mpr ⟨fun hmem => hopens.unused honce (hs.consumed _ hmem), hs.once⟩
    · exact hs.once

/-! ## What follows -/

/-- What a capability opens is a deposit of this profile and origin. -/
theorem Sound.deposit_of_opens (hs : a.Sound b) (hcipher : ChaCha20Poly1305.Inverts) {now : UInt64}
    {capability : SecretCapability} {profile : ProfileId} {origin : Text} {plaintext : Bytes}
    (hopens : b.Opens now capability profile origin plaintext) :
    ∃ deposit, a.shelf[capability.handle]? = some deposit ∧ deposit.profile = profile ∧
      deposit.origin = origin ∧ deposit.secret = plaintext := by
  obtain ⟨found, hfound, hprofile, horigin, hplain⟩ := hopens.found
  rw [hs.records, Option.map_eq_some_iff] at hfound
  obtain ⟨deposit, hdeposit, rfl⟩ := hfound
  have hsecret := hcipher b.key (nonceFor capability.handle) deposit.secret
  refine ⟨deposit, hdeposit, ?_, ?_, ?_⟩
  · exact hprofile.trans hopens.profile_eq
  · exact horigin.trans hopens.origin_eq
  · exact Option.some.inj (hsecret.symm.trans hplain)

/-- What a one-time capability without an expiry does, when it says for what it was granted. -/
theorem Sound.with_secret_eq (hs : a.Sound b) (hcipher : ChaCha20Poly1305.Inverts) {T : Type}
    {capability : SecretCapability} {deposit : Deposit Owner}
    (hdeposit : a.shelf[capability.handle]? = some deposit)
    (hscope : deposit.profile = capability.profile ∧ deposit.origin = capability.origin)
    (honce : capability.oneTime = true) (hexpires : capability.expiresAtUnixSeconds = none)
    (now : UInt64) (profile : ProfileId) (origin : Text) (useSecret : Bytes → T) :
    b.withSecret now capability profile origin useSecret =
      if capability.profile ≠ profile then (.error .profileMismatch, b)
      else if capability.origin ≠ origin then (.error .originMismatch, b)
      else if b.consumed.contains capability.reference then (.error .alreadyConsumed, b)
      else
        (.ok (useSecret deposit.secret),
          { b with
            consumed := b.consumed.insert capability.reference
            events := b.events ++ [.released capability.profile capability.origin
              capability.purpose true] }) := by
  have hrecord : b.records[capability.handle]? = some (record b.key capability.handle deposit) := by
    rw [hs.records, hdeposit, Option.map_some]
  have hplain := hcipher b.key (nonceFor capability.handle) deposit.secret
  have hprofile : ¬ (record b.key capability.handle deposit).profile ≠ capability.profile :=
    not_not.mpr hscope.1
  have horigin : ¬ (record b.key capability.handle deposit).origin ≠ capability.origin :=
    not_not.mpr hscope.2
  rw [SecretBroker.withSecret, honce, Bool.true_and, hexpires, Option.any_none, hrecord]
  simp only [Bool.false_eq_true, if_false, if_neg hprofile, if_neg horigin]
  simp only [record, hplain, if_true]

/-- Of the capabilities that were presented as granted, no more were used than granted. -/
theorem Sound.count_released_le (hs : a.Sound b) (hgranted : a.released ⊆ a.granted)
    (p : SecretCapability → Bool) : a.released.countP p ≤ a.granted.countP p := by
  have hall : a.released.filter SecretCapability.oneTime = a.released :=
    List.filter_eq_self.mpr fun used hused => hs.one_time used (hgranted hused)
  have hnodup : a.released.Nodup := by
    have honce := hs.once
    rw [usedOnce, hall] at honce
    exact honce.of_map _
  exact (hnodup.subperm hgranted).countP_le p

end Account

end BrowsAI.SecretStore
