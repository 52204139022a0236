import BrowsAI.Library.Leads
import BrowsAI.SecretStore.Accounts
import BrowsAI.Transactions.Policy

/-!
# The payment vault

`PaymentVault` of `crates/payment-vault`: cards, each with the handle of its number and the one
merchant that it is for, and a trail of audit events. The number is released for a capability that
only a confirmed call grants.
-/

namespace BrowsAI.Payments

open Utf8 Std Profiles SecretStore

/-- The id of a card, drawn at random. -/
abbrev PaymentId := Uuid

/-- A card, with the handle of its number. -/
structure PaymentInstrument where
  id : PaymentId
  profile : ProfileId
  merchantOrigin : Text
  numberHandle : SecretHandle

/-- What is noted of a card. -/
structure PaymentAuditEvent where
  paymentId : PaymentId
  action : Text
  deriving DecidableEq

/-- The cards over the store of their numbers. -/
structure PaymentVault where
  broker : SecretBroker
  instruments : OrdMap PaymentId PaymentInstrument
  events : List PaymentAuditEvent

namespace PaymentVault

/-- `PaymentVault::default()`, with the key that its broker draws. -/
def new (key : Key) : PaymentVault := ⟨.new key, ∅, []⟩

open Audit (TransactionClassification) in
/-- What a policy says of a purchase. -/
def classifyPurchase (_ : PaymentVault) (policy : Transactions.TransactionPolicy) :
    TransactionClassification AgentTree.F64 :=
  policy.classify .purchase .remoteIrreversible

/-- `authorize_with_confirmation`, with the reference that it generates. -/
def authorizeWithConfirmation (v : PaymentVault) (reference : CapabilityReference) (now : UInt64)
    (id : PaymentId) (profile : ProfileId) (merchantOrigin : Text) (confirmed : Bool) :
    Except SecretError SecretCapability × PaymentVault :=
  match v.instruments[id]? with
  | none => (.error .unknownHandle, v)
  | some instrument =>
      if instrument.profile ≠ profile then (.error .profileMismatch, v)
      else if instrument.merchantOrigin ≠ merchantOrigin then (.error .originMismatch, v)
      else if !confirmed then (.error .invalidCapability, v)
      else
        match v.broker.grant reference now instrument.numberHandle profile merchantOrigin "payment"
          true with
        | (.error error, broker) => (.error error, { v with broker })
        | (.ok capability, broker) =>
            (.ok capability,
              { v with broker, events := v.events ++ [⟨id, "payment_authorized"⟩] })

/-- The call without a confirmation, which is refused. -/
def authorize (v : PaymentVault) (reference : CapabilityReference) (now : UInt64) (id : PaymentId)
    (profile : ProfileId) (merchantOrigin : Text) :
    Except SecretError SecretCapability × PaymentVault :=
  v.authorizeWithConfirmation reference now id profile merchantOrigin false

/-- The card that a handle belongs to. -/
def find (v : PaymentVault) (handle : SecretHandle) : Option (PaymentId × PaymentInstrument) :=
  v.instruments.toList.find? fun (_, instrument) => instrument.numberHandle = handle

/-- The audit events, which are then forgotten. -/
def drainEvents (v : PaymentVault) : List PaymentAuditEvent × PaymentVault :=
  (v.events, { v with events := [] })

variable [ChaCha20Poly1305]

/-- `add_card`, with the ids that it generates. -/
def addCard (v : PaymentVault) (id : PaymentId) (handle : SecretHandle) (profile : ProfileId)
    (merchantOrigin : Text) (cardNumber : Bytes) : PaymentId × PaymentVault :=
  let (numberHandle, broker) := v.broker.store handle profile merchantOrigin cardNumber
  (id,
    { broker
      instruments := v.instruments.insert id { id, profile, merchantOrigin, numberHandle }
      events := v.events ++ [⟨id, "card_added"⟩] })

/-- `with_card_number` at a time in Unix seconds. -/
def withCardNumber {T : Type} (v : PaymentVault) (now : UInt64) (capability : SecretCapability)
    (profile : ProfileId) (origin : Text) (useNumber : Bytes → T) :
    Except SecretError T × PaymentVault :=
  match v.broker.withSecret now capability profile origin useNumber with
  | (.error error, broker) => (.error error, { v with broker })
  | (.ok value, broker) =>
      match v.find capability.handle with
      | none => (.ok value, { v with broker })
      | some (id, _) =>
          (.ok value, { v with broker, events := v.events ++ [⟨id, "payment_released"⟩] })

end PaymentVault

end BrowsAI.Payments

/-!
## No payment without a confirmation

A `History` is a vault with the account of its broker, the audit events that were drained, and the
calls that asked for a card with the user's confirmation. Its trail is the drained events and those
that wait. In every run in which capabilities are presented as granted, the trail has a
`payment_released` only after a `payment_authorized` of its own, and this only where there was a
confirmed call for the card, its profile, and its merchant.
-/

namespace BrowsAI.Payments

open Utf8 Std Profiles SecretStore

/-- The vault, the account of its secrets, the events that were drained, and the confirmations. -/
structure History where
  vault : PaymentVault
  account : Account PaymentId
  drained : List PaymentAuditEvent
  confirmations : List (PaymentId × ProfileId × Text)

/-- A call with its arguments, and the ids that it generates. -/
inductive Op where
  | addCard (id : PaymentId) (handle : SecretHandle) (profile : ProfileId) (merchantOrigin : Text)
      (cardNumber : Bytes)
  | authorize (reference : CapabilityReference) (now : UInt64) (id : PaymentId)
      (profile : ProfileId) (merchantOrigin : Text) (confirmed : Bool)
  | withCardNumber (now : UInt64) (capability : SecretCapability) (profile : ProfileId)
      (origin : Text)
  | drainEvents

/-- The ids that a call generates. -/
def Op.generated : Op → List Uuid
  | .addCard id handle _ _ _ => [id, handle]
  | .authorize reference _ _ _ _ _ => [reference]
  | _ => []

/-- The capability that a call presents. -/
def Op.presented : Op → Option SecretCapability
  | .withCardNumber _ capability _ _ => some capability
  | _ => none

namespace History

/-- No card yet. -/
def start (key : Key) : History := ⟨.new key, .empty, [], []⟩

/-- All events so far. -/
def trail (h : History) : List PaymentAuditEvent := h.drained ++ h.vault.events

/-- The event tells that a card was authorized. -/
def isAuthorized (id : PaymentId) (event : PaymentAuditEvent) : Bool :=
  event = ⟨id, "payment_authorized"⟩

/-- The event tells that its number was released. -/
def isReleased (id : PaymentId) (event : PaymentAuditEvent) : Bool :=
  event = ⟨id, "payment_released"⟩

/-- The capability is for the number of the card. -/
def isFor (h : History) (id : PaymentId) (capability : SecretCapability) : Bool :=
  h.account.ownerOf capability = some id

variable [ChaCha20Poly1305]

/-- A new card, whose number is deposited. -/
def addCard (h : History) (id : PaymentId) (handle : SecretHandle) (profile : ProfileId)
    (merchantOrigin : Text) (cardNumber : Bytes) : History :=
  { h with
    vault := (h.vault.addCard id handle profile merchantOrigin cardNumber).2
    account := { h.account with
      shelf := h.account.shelf.insert handle ⟨id, profile, merchantOrigin, cardNumber⟩
      known := id :: handle :: h.account.known } }

/-- A confirmation and a capability that is granted are noted. -/
def authorize (h : History) (reference : CapabilityReference) (now : UInt64) (id : PaymentId)
    (profile : ProfileId) (merchantOrigin : Text) (confirmed : Bool) : History :=
  let known := reference :: h.account.known
  let confirmations :=
    if confirmed then (id, profile, merchantOrigin) :: h.confirmations else h.confirmations
  match h.vault.authorizeWithConfirmation reference now id profile merchantOrigin confirmed with
  | (.ok capability, vault) =>
      { h with
        vault
        account := { h.account with granted := capability :: h.account.granted, known }
        confirmations }
  | (.error _, vault) => { h with vault, account := { h.account with known }, confirmations }

/-- A release is noted. -/
def withCardNumber (h : History) (now : UInt64) (capability : SecretCapability)
    (profile : ProfileId) (origin : Text) : History :=
  match h.vault.withCardNumber now capability profile origin fun number => number with
  | (.ok _, vault) =>
      { h with vault, account := { h.account with released := capability :: h.account.released } }
  | (.error _, vault) => { h with vault }

/-- A call, and what it adds to the history. -/
def step (h : History) : Op → History
  | .addCard id handle profile merchantOrigin cardNumber =>
      h.addCard id handle profile merchantOrigin cardNumber
  | .authorize reference now id profile merchantOrigin confirmed =>
      h.authorize reference now id profile merchantOrigin confirmed
  | .withCardNumber now capability profile origin => h.withCardNumber now capability profile origin
  | .drainEvents =>
      { h with vault := h.vault.drainEvents.2, drained := h.drained ++ h.vault.drainEvents.1 }

/-- The runs in which generated ids are fresh and capabilities are presented as granted. -/
def machine : Machine History Op where
  step := step
  Allowed h op := (op.generated ++ h.account.known).Nodup ∧
    ∀ capability ∈ op.presented, capability ∈ h.account.granted

/-! ## The invariant -/

/-- The numbers of the cards are what was deposited, and the trail counts what was granted and
released. -/
structure Accountable (h : History) : Prop where
  sound : h.account.Sound h.vault.broker
  known : ∀ (id : PaymentId) (instrument : PaymentInstrument),
    h.vault.instruments[id]? = some instrument → id ∈ h.account.known
  number_deposited : ∀ (id : PaymentId) (instrument : PaymentInstrument),
    h.vault.instruments[id]? = some instrument → ∃ number,
      h.account.shelf[instrument.numberHandle]? =
        some ⟨id, instrument.profile, instrument.merchantOrigin, number⟩
  deposit_listed : ∀ (handle : SecretHandle) (deposit : Deposit PaymentId),
    h.account.shelf[handle]? = some deposit → ∃ instrument : PaymentInstrument,
      h.vault.instruments[deposit.owner]? = some instrument ∧ instrument.numberHandle = handle
  as_granted : h.account.released ⊆ h.account.granted
  authorized_count : ∀ id, h.trail.countP (isAuthorized id) = h.account.granted.countP (h.isFor id)
  released_count : ∀ id, h.trail.countP (isReleased id) = h.account.released.countP (h.isFor id)
  confirmed : ∀ (id : PaymentId) (instrument : PaymentInstrument),
    h.vault.instruments[id]? = some instrument → h.trail.countP (isAuthorized id) ≤
      h.confirmations.count (id, instrument.profile, instrument.merchantOrigin)
  leads : ∀ id, h.trail.Leads (isAuthorized id) (isReleased id)

theorem accountable_start (key : Key) : (start key).Accountable where
  sound := Account.sound_empty key
  known id instrument hinstrument := by simp [start, PaymentVault.new] at hinstrument
  number_deposited id instrument hinstrument := by simp [start, PaymentVault.new] at hinstrument
  deposit_listed handle deposit hdeposit := by simp [start, Account.empty] at hdeposit
  as_granted := List.Subset.refl _
  authorized_count _ := rfl
  released_count _ := rfl
  confirmed id instrument hinstrument := by simp [start, PaymentVault.new] at hinstrument
  leads _ := List.Leads.nil

omit [ChaCha20Poly1305] in
/-- A capability for a card is for what the card deposited. -/
theorem owner_of_is_for {h : History} {id : PaymentId} {capability : SecretCapability}
    {deposit : Deposit PaymentId} (hdeposit : h.account.shelf[capability.handle]? = some deposit)
    (hfor : h.isFor id capability = true) : deposit.owner = id := by
  have heq := of_decide_eq_true hfor
  rw [Account.ownerOf, hdeposit] at heq
  exact Option.some.inj heq

/-! ## The steps -/

omit [ChaCha20Poly1305] in
/-- An event at the end of the trail. -/
theorem trail_concat (h : History) (broker : SecretBroker)
    (instruments : OrdMap PaymentId PaymentInstrument) (event : PaymentAuditEvent)
    (account : Account PaymentId) (confirmations : List (PaymentId × ProfileId × Text)) :
    trail ⟨⟨broker, instruments, h.vault.events ++ [event]⟩, account, h.drained, confirmations⟩ =
      h.trail ++ [event] := (List.append_assoc _ _ _).symm

omit [ChaCha20Poly1305] in
/-- An event is not one of another action. -/
theorem other_action {action action' : Text} (h : action ≠ action') (id other : PaymentId) :
    decide ((⟨id, action⟩ : PaymentAuditEvent) = ⟨other, action'⟩) = false :=
  decide_eq_false fun heq => h (congrArg PaymentAuditEvent.action heq)

omit [ChaCha20Poly1305] in
/-- An event is one of the same action for its own card only. -/
theorem same_action (action : Text) (id other : PaymentId) :
    decide ((⟨id, action⟩ : PaymentAuditEvent) = ⟨other, action⟩) = decide (id = other) :=
  decide_eq_decide.mpr ⟨fun heq => congrArg PaymentAuditEvent.paymentId heq, fun heq => heq ▸ rfl⟩

omit [ChaCha20Poly1305] in
theorem is_authorized_authorized (id other : PaymentId) :
    isAuthorized other ⟨id, "payment_authorized"⟩ = decide (id = other) := same_action _ id other

omit [ChaCha20Poly1305] in
theorem is_released_released (id other : PaymentId) :
    isReleased other ⟨id, "payment_released"⟩ = decide (id = other) := same_action _ id other

omit [ChaCha20Poly1305] in
theorem is_released_authorized (id other : PaymentId) :
    isReleased other ⟨id, "payment_authorized"⟩ = false := other_action (by decide) id other

omit [ChaCha20Poly1305] in
theorem is_authorized_released (id other : PaymentId) :
    isAuthorized other ⟨id, "payment_released"⟩ = false := other_action (by decide) id other

/-- A new card changes nothing about the capabilities so far. -/
theorem Accountable.count_is_for {h h' : History} (ha : h.Accountable) {handle : SecretHandle}
    (hfresh : handle ∉ h.account.known) {deposit : Deposit PaymentId}
    (hshelf : h'.account.shelf = h.account.shelf.insert handle deposit)
    {capabilities : List SecretCapability} (hsub : capabilities ⊆ h.account.granted)
    (id : PaymentId) : capabilities.countP (h'.isFor id) = capabilities.countP (h.isFor id) := by
  refine List.countP_congr fun capability hmem => ?_
  obtain ⟨found, hfound⟩ := ha.sound.deposited capability (hsub hmem)
  have hne : handle ≠ capability.handle :=
    fun heq => hfresh (heq ▸ ha.sound.shelf_known _ found hfound)
  rw [isFor, isFor, Account.ownerOf, Account.ownerOf, hshelf, OrdMap.get_insert_ne _ hne]

/-- A new card keeps the invariant. -/
theorem Accountable.addCard {h : History} (ha : h.Accountable) {id : PaymentId}
    {handle : SecretHandle} (hid : id ∉ handle :: h.account.known) (hhandle : handle ∉ h.account.known)
    (profile : ProfileId) (merchantOrigin : Text) (cardNumber : Bytes) :
    (h.addCard id handle profile merchantOrigin cardNumber).Accountable := by
  have hold : ∀ {other : PaymentId} {instrument : PaymentInstrument},
      h.vault.instruments[other]? = some instrument → id ≠ other := fun hother heq =>
    hid (List.mem_cons_of_mem _ (heq ▸ ha.known _ _ hother))
  have htrail : (h.addCard id handle profile merchantOrigin cardNumber).trail =
      h.trail ++ [⟨id, "card_added"⟩] := h.trail_concat _ _ _ _ _
  have hother : ∀ (p : PaymentAuditEvent → Bool), p ⟨id, "card_added"⟩ = false →
      (h.addCard id handle profile merchantOrigin cardNumber).trail.countP p = h.trail.countP p := by
    intro p hp
    rw [htrail, List.countP_append, List.countP_singleton, hp]
    rfl
  have hauthorized : ∀ other, isAuthorized other ⟨id, "card_added"⟩ = false :=
    other_action (by decide) id
  have hreleased : ∀ other, isReleased other ⟨id, "card_added"⟩ = false :=
    other_action (by decide) id
  constructor
  case sound =>
    exact (ha.sound.store hhandle ⟨id, profile, merchantOrigin, cardNumber⟩).learn
      (List.subset_cons_self _ _)
  case known =>
    intro other instrument hinstrument
    rw [show (h.addCard id handle profile merchantOrigin cardNumber).vault.instruments =
      h.vault.instruments.insert id ⟨id, profile, merchantOrigin, handle⟩ from rfl,
      OrdMap.get_insert] at hinstrument
    split_ifs at hinstrument with hsame
    · exact hsame ▸ List.mem_cons_self
    · exact List.mem_cons_of_mem _ (List.mem_cons_of_mem _ (ha.known other instrument hinstrument))
  case number_deposited =>
    intro other instrument hinstrument
    rw [show (h.addCard id handle profile merchantOrigin cardNumber).vault.instruments =
      h.vault.instruments.insert id ⟨id, profile, merchantOrigin, handle⟩ from rfl,
      OrdMap.get_insert] at hinstrument
    split_ifs at hinstrument with hsame
    · cases hinstrument
      cases hsame
      exact ⟨cardNumber, OrdMap.get_insert_self _ _ _⟩
    · obtain ⟨number, hnumber⟩ := ha.number_deposited other instrument hinstrument
      have hne : handle ≠ instrument.numberHandle :=
        fun heq => hhandle (heq ▸ ha.sound.shelf_known _ _ hnumber)
      exact ⟨number, (OrdMap.get_insert_ne _ hne _).trans hnumber⟩
  case deposit_listed =>
    intro other deposit hdeposit
    rw [show (h.addCard id handle profile merchantOrigin cardNumber).account.shelf =
      h.account.shelf.insert handle ⟨id, profile, merchantOrigin, cardNumber⟩ from rfl,
      OrdMap.get_insert] at hdeposit
    split_ifs at hdeposit with hsame
    · cases hdeposit
      exact ⟨_, OrdMap.get_insert_self _ _ _, hsame⟩
    · obtain ⟨instrument, hinstrument, heq⟩ := ha.deposit_listed other deposit hdeposit
      exact ⟨instrument, (OrdMap.get_insert_ne _ (hold hinstrument) _).trans hinstrument, heq⟩
  case as_granted => exact ha.as_granted
  case authorized_count =>
    intro other
    rw [hother _ (hauthorized other), ha.authorized_count]
    exact (ha.count_is_for hhandle rfl (List.Subset.refl _) other).symm
  case released_count =>
    intro other
    rw [hother _ (hreleased other), ha.released_count]
    exact (ha.count_is_for hhandle rfl ha.as_granted other).symm
  case confirmed =>
    intro other instrument hinstrument
    rw [hother _ (hauthorized other)]
    rw [show (h.addCard id handle profile merchantOrigin cardNumber).vault.instruments =
      h.vault.instruments.insert id ⟨id, profile, merchantOrigin, handle⟩ from rfl,
      OrdMap.get_insert] at hinstrument
    split_ifs at hinstrument with hsame
    · -- no capability was granted for a card that was not there
      cases hsame
      have hnone : h.trail.countP (isAuthorized id) = 0 := by
        rw [ha.authorized_count, List.countP_eq_zero]
        intro capability hmem hfor
        obtain ⟨deposit, hdeposit⟩ := ha.sound.deposited capability hmem
        obtain ⟨found, hfound, -⟩ := ha.deposit_listed _ _ hdeposit
        exact hold hfound (owner_of_is_for hdeposit hfor).symm
      rw [hnone]
      exact Nat.zero_le _
    · exact ha.confirmed other instrument hinstrument
  case leads =>
    intro other
    rw [htrail]
    exact (ha.leads other).concat (hreleased other)

omit [ChaCha20Poly1305] in
/-- Only a confirmed call for the card's own profile and merchant is granted a capability. -/
theorem authorize_cases (v : PaymentVault) (reference : CapabilityReference) (now : UInt64)
    (id : PaymentId) (profile : ProfileId) (merchantOrigin : Text) (confirmed : Bool) :
    (∃ error, v.authorizeWithConfirmation reference now id profile merchantOrigin confirmed =
        (.error error, v)) ∨
      ∃ instrument secretEvents, confirmed = true ∧ v.instruments[id]? = some instrument ∧
        instrument.profile = profile ∧ instrument.merchantOrigin = merchantOrigin ∧
        v.authorizeWithConfirmation reference now id profile merchantOrigin confirmed =
          (.ok ⟨reference, instrument.numberHandle, profile, merchantOrigin, "payment", true, none⟩,
            { v with
              broker := { v.broker with events := secretEvents }
              events := v.events ++ [⟨id, "payment_authorized"⟩] }) := by
  rw [PaymentVault.authorizeWithConfirmation]
  cases hinstrument : v.instruments[id]? with
  | none => exact .inl ⟨_, rfl⟩
  | some instrument =>
      dsimp only
      split_ifs with hprofile horigin hconfirmed
      · exact .inl ⟨_, rfl⟩
      · exact .inl ⟨_, rfl⟩
      · exact .inl ⟨_, rfl⟩
      · rw [SecretBroker.grant]
        obtain ⟨error, hgrant⟩ | ⟨record, events, -, -, -, hgrant⟩ :=
          v.broker.grant_cases reference now instrument.numberHandle profile merchantOrigin
            "payment" true none true
        · rw [hgrant]
          exact .inl ⟨error, rfl⟩
        · rw [hgrant]
          refine .inr ⟨instrument, events, ?_, rfl, not_not.mp hprofile, not_not.mp horigin, rfl⟩
          simpa using hconfirmed

/-- More ids and more confirmations do no harm. -/
theorem Accountable.more {h : History} (ha : h.Accountable) {known : List Uuid}
    (hknown : h.account.known ⊆ known) {confirmations : List (PaymentId × ProfileId × Text)}
    (hmore : h.confirmations.Sublist confirmations) :
    Accountable { h with account := { h.account with known }, confirmations } where
  sound := ha.sound.learn hknown
  known id instrument hinstrument := hknown (ha.known id instrument hinstrument)
  number_deposited := ha.number_deposited
  deposit_listed := ha.deposit_listed
  as_granted := ha.as_granted
  authorized_count := ha.authorized_count
  released_count := ha.released_count
  confirmed id instrument hinstrument :=
    (ha.confirmed id instrument hinstrument).trans (hmore.count_le _)
  leads := ha.leads

/-- A capability for the number of a card is for no other card. -/
theorem Accountable.is_for {h : History} (ha : h.Accountable) {id : PaymentId}
    {instrument : PaymentInstrument} (hinstrument : h.vault.instruments[id]? = some instrument)
    (capability : SecretCapability) (hhandle : capability.handle = instrument.numberHandle)
    (other : PaymentId) : h.isFor other capability = decide (id = other) := by
  obtain ⟨number, hnumber⟩ := ha.number_deposited id instrument hinstrument
  rw [isFor, Account.ownerOf, hhandle, hnumber]
  exact decide_eq_decide.mpr ⟨Option.some.inj, congrArg some⟩

/-- So does an authorization. -/
theorem Accountable.authorize {h : History} (ha : h.Accountable) {reference : CapabilityReference}
    (hfresh : reference ∉ h.account.known) (now : UInt64) (id : PaymentId) (profile : ProfileId)
    (merchantOrigin : Text) (confirmed : Bool) :
    (h.authorize reference now id profile merchantOrigin confirmed).Accountable := by
  rw [History.authorize]
  obtain ⟨error, hcall⟩ | ⟨instrument, secretEvents, rfl, hinstrument, rfl, rfl, hcall⟩ :=
    authorize_cases h.vault reference now id profile merchantOrigin confirmed
  · rw [hcall]
    refine ha.more (List.subset_cons_self _ _) ?_
    split_ifs
    · exact List.sublist_cons_self _ _
    · exact List.Sublist.refl _
  rw [hcall]
  have hfor := fun other => ha.is_for hinstrument ⟨reference, instrument.numberHandle,
    instrument.profile, instrument.merchantOrigin, "payment", true, none⟩ rfl other
  obtain ⟨number, hnumber⟩ := ha.number_deposited id instrument hinstrument
  constructor
  case sound => exact ha.sound.grant hfresh rfl ⟨_, hnumber⟩ secretEvents
  case known =>
    exact fun other found hfound => List.mem_cons_of_mem _ (ha.known other found hfound)
  case number_deposited => exact ha.number_deposited
  case deposit_listed => exact ha.deposit_listed
  case as_granted => exact fun used hused => List.mem_cons_of_mem _ (ha.as_granted hused)
  case authorized_count =>
    intro other
    rw [trail_concat, List.countP_append, List.countP_singleton, is_authorized_authorized,
      ha.authorized_count, ← hfor other]
    exact List.countP_cons.symm
  case released_count =>
    intro other
    rw [trail_concat, List.countP_append, List.countP_singleton, is_released_authorized]
    exact ha.released_count other
  case confirmed =>
    intro other found hfound
    rw [trail_concat, List.countP_append, List.countP_singleton, is_authorized_authorized]
    have hcount := ha.confirmed other found hfound
    show _ ≤ ((id, instrument.profile, instrument.merchantOrigin) :: h.confirmations).count _
    rw [List.count_cons]
    by_cases hsame : id = other
    · cases hsame
      cases hinstrument.symm.trans hfound
      simpa using hcount
    · simpa [hsame] using hcount
  case leads =>
    intro other
    rw [trail_concat]
    exact (ha.leads other).concat (is_released_authorized id other)

/-! ## Releasing a number -/

/-- The vault finds the card that a deposit belongs to. -/
theorem Accountable.find_eq {h : History} (ha : h.Accountable) {handle : SecretHandle}
    {deposit : Deposit PaymentId} (hdeposit : h.account.shelf[handle]? = some deposit) :
    ∃ instrument, h.vault.find handle = some (deposit.owner, instrument) ∧
      h.vault.instruments[deposit.owner]? = some instrument ∧ instrument.numberHandle = handle := by
  obtain ⟨instrument, hinstrument, hhandle⟩ := ha.deposit_listed handle deposit hdeposit
  refine ⟨instrument, ?_, hinstrument, hhandle⟩
  refine OrdMap.find_to_list (p := fun instrument : PaymentInstrument =>
    instrument.numberHandle = handle) hinstrument (decide_eq_true hhandle) fun id other hother heq => ?_
  obtain ⟨number, hnumber⟩ := ha.number_deposited id other hother
  rw [of_decide_eq_true heq, hdeposit] at hnumber
  cases hnumber
  rfl

/-- A release fails and only logs it, or hands out the number of a card and adds it to the trail. -/
theorem Accountable.with_card_number_cases {h : History} (ha : h.Accountable) {T : Type}
    (now : UInt64) {capability : SecretCapability} (hgranted : capability ∈ h.account.granted)
    (profile : ProfileId) (origin : Text) (useNumber : Bytes → T) :
    (∃ error events, h.vault.withCardNumber now capability profile origin useNumber =
        (.error error, { h.vault with broker := { h.vault.broker with events } })) ∨
      ∃ id instrument plaintext events,
        h.vault.broker.Opens now capability profile origin plaintext ∧
        h.vault.instruments[id]? = some instrument ∧ capability.handle = instrument.numberHandle ∧
        h.vault.withCardNumber now capability profile origin useNumber = (.ok (useNumber plaintext),
          { h.vault with
            broker := { h.vault.broker with
              consumed := if capability.oneTime then
                h.vault.broker.consumed.insert capability.reference else h.vault.broker.consumed
              events }
            events := h.vault.events ++ [⟨id, "payment_released"⟩] }) := by
  rw [PaymentVault.withCardNumber]
  obtain ⟨error, events, hcall⟩ | ⟨plaintext, events, hopens, hcall⟩ :=
    h.vault.broker.with_secret_cases now capability profile origin useNumber
  · rw [hcall]
    exact .inl ⟨error, events, rfl⟩
  · rw [hcall]
    obtain ⟨deposit, hdeposit⟩ := ha.sound.deposited capability hgranted
    obtain ⟨instrument, hfind, hinstrument, hhandle⟩ := ha.find_eq hdeposit
    dsimp only
    rw [hfind]
    exact .inr ⟨deposit.owner, instrument, plaintext, events, hopens, hinstrument, hhandle.symm, rfl⟩

/-- So does a release. -/
theorem Accountable.withCardNumber {h : History} (ha : h.Accountable) (now : UInt64)
    {capability : SecretCapability} (hgranted : capability ∈ h.account.granted)
    (profile : ProfileId) (origin : Text) :
    (h.withCardNumber now capability profile origin).Accountable := by
  rw [History.withCardNumber]
  obtain ⟨error, events, hcall⟩ |
      ⟨id, instrument, plaintext, events, hopens, hinstrument, hhandle, hcall⟩ :=
    ha.with_card_number_cases now hgranted profile origin fun number => number
  · rw [hcall]
    exact ⟨ha.sound.refuse events, ha.known, ha.number_deposited, ha.deposit_listed, ha.as_granted,
      ha.authorized_count, ha.released_count, ha.confirmed, ha.leads⟩
  rw [hcall]
  have hfor := fun other => ha.is_for hinstrument _ hhandle other
  have hsound := ha.sound.release hopens events
  have hsub : capability :: h.account.released ⊆ h.account.granted :=
    List.cons_subset.mpr ⟨hgranted, ha.as_granted⟩
  constructor
  case sound => exact hsound
  case known => exact ha.known
  case number_deposited => exact ha.number_deposited
  case deposit_listed => exact ha.deposit_listed
  case as_granted => exact hsub
  case authorized_count =>
    intro other
    rw [trail_concat, List.countP_append, List.countP_singleton, is_authorized_released]
    exact ha.authorized_count other
  case released_count =>
    intro other
    rw [trail_concat, List.countP_append, List.countP_singleton, is_released_released,
      ha.released_count, ← hfor other]
    exact List.countP_cons.symm
  case confirmed =>
    intro other found hfound
    rw [trail_concat, List.countP_append, List.countP_singleton, is_authorized_released]
    exact ha.confirmed other found hfound
  case leads =>
    intro other
    rw [trail_concat]
    by_cases hsame : id = other
    · -- the capability that is used now was granted and not used before
      refine (ha.leads other).concat_of_lt ?_ _
      have hcount := hsound.count_released_le hsub (h.isFor other)
      rw [List.countP_cons, hfor other, if_pos (decide_eq_true hsame)] at hcount
      rw [ha.authorized_count, ha.released_count]
      exact hcount
    · refine (ha.leads other).concat ?_
      rw [is_released_released]
      exact decide_eq_false hsame

/-- Every call keeps the invariant. -/
theorem Accountable.step {h : History} (ha : h.Accountable) {op : Op}
    (hallowed : machine.Allowed h op) : (h.step op).Accountable := by
  cases op with
  | addCard id handle profile merchantOrigin cardNumber =>
      have hfresh := List.nodup_cons.mp hallowed.1
      exact ha.addCard hfresh.1 (List.nodup_cons.mp hfresh.2).1 profile merchantOrigin cardNumber
  | authorize reference now id profile merchantOrigin confirmed =>
      exact ha.authorize (List.nodup_cons.mp hallowed.1).1 now id profile merchantOrigin confirmed
  | withCardNumber now capability profile origin =>
      exact ha.withCardNumber now (hallowed.2 capability rfl) profile origin
  | drainEvents =>
      have htrail : (h.step .drainEvents).trail = h.trail := List.append_nil _
      exact ⟨ha.sound, ha.known, ha.number_deposited, ha.deposit_listed, ha.as_granted,
        fun id => htrail ▸ ha.authorized_count id, fun id => htrail ▸ ha.released_count id,
        fun id instrument hinstrument => htrail ▸ ha.confirmed id instrument hinstrument,
        fun id => htrail ▸ ha.leads id⟩

/-- In every run that presents capabilities as they were granted, every release of a card's number
is in the trail, behind an authorization of its own, and no card was authorized more often than a
call with the card's own profile and merchant was confirmed. -/
theorem released_only_confirmed (key : Key) (h : History)
    (hrun : machine.Reaches (start key) h) (id : PaymentId) (instrument : PaymentInstrument)
    (hinstrument : h.vault.instruments[id]? = some instrument) :
    h.account.released.countP (fun used => used.handle = instrument.numberHandle) =
        h.trail.countP (isReleased id) ∧
      h.trail.Leads (isAuthorized id) (isReleased id) ∧
      h.trail.countP (isAuthorized id) ≤
        h.confirmations.count (id, instrument.profile, instrument.merchantOrigin) := by
  have ha : h.Accountable :=
    hrun.invariant (accountable_start key) fun t op ha hallowed => ha.step hallowed
  refine ⟨?_, ha.leads id, ha.confirmed id instrument hinstrument⟩
  rw [ha.released_count]
  refine List.countP_congr fun used hused => ?_
  rw [decide_eq_true_eq]
  constructor
  · intro hhandle
    rw [ha.is_for hinstrument _ hhandle]
    exact decide_eq_true rfl
  · intro hfor
    obtain ⟨deposit, hdeposit⟩ := ha.sound.deposited used (ha.as_granted hused)
    obtain ⟨found, hfound, hhandle⟩ := ha.deposit_listed _ _ hdeposit
    rw [owner_of_is_for hdeposit hfor, hinstrument] at hfound
    cases hfound
    exact hhandle.symm

/-! ## A card that is used once -/

/-- The capability for the number of a card. -/
def cardCapability : SecretCapability := ⟨3, 2, 7, "https://shop.test", "payment", true, none⟩

/-- A card is added, authorized with a confirmation, and used twice. -/
def cardOps : List Op :=
  [.addCard 1 2 7 "https://shop.test" [52, 50], .authorize 3 5 1 7 "https://shop.test" true,
    .withCardNumber 6 cardCapability 7 "https://shop.test",
    .withCardNumber 6 cardCapability 7 "https://shop.test"]

omit [ChaCha20Poly1305] in
/-- A card whose number is released once. -/
theorem card_released_once :
    let _ := ChaCha20Poly1305.labelled
    (machine.run (start 0) cardOps).trail.Leads (isAuthorized 1) (isReleased 1) ∧
      (machine.run (start 0) cardOps).account.released = [cardCapability] := by
  intro cipher
  have hallowed : machine.AllowedRun (start 0) cardOps := by
    refine ⟨⟨(by decide : [(1 : Uuid), 2].Nodup), nofun⟩,
      ⟨(by decide : [(3 : Uuid), 1, 2].Nodup), nofun⟩, ⟨(by decide : [(3 : Uuid), 1, 2].Nodup), ?_⟩,
      ⟨(by decide : [(3 : Uuid), 1, 2].Nodup), ?_⟩, trivial⟩
    · intro capability hcapability
      cases hcapability
      exact List.mem_singleton.mpr rfl
    · intro capability hcapability
      cases hcapability
      exact List.mem_singleton.mpr rfl
  exact ⟨(released_only_confirmed 0 _ (Machine.Reaches.refl.run hallowed) 1
    ⟨1, 7, "https://shop.test", 2⟩ rfl).2.1, by decide⟩

end History

end BrowsAI.Payments
