import BrowsAI.Library.ByteLines
import BrowsAI.SecretStore.Accounts
import BrowsAI.SecretStore.Broker

/-!
# One-time codes

What `with_code` of `crates/totp` makes of a seed and a time. The decoder for base 32 and the keyed
hash come from outside the repository and are the class `TotpPrimitives`. A code has six digits and is
the number that the hash is truncated to.
-/

namespace BrowsAI.Totp

open Utf8 SecretStore

/-- Decoding of base 32, and HMAC with SHA-1 of a key and a message. -/
class TotpPrimitives where
  decodeBase32 : Bytes → Option Bytes
  hmacSha1 : Bytes → Bytes → Vector UInt8 20

/-- `u64::to_be_bytes`. -/
def toBeBytes (n : UInt64) : Bytes :=
  [56, 48, 40, 32, 24, 16, 8, 0].map fun (shift : UInt64) => (n >>> shift).toUInt8

/-- The low four bits of the last byte. -/
def offset (digest : Vector UInt8 20) : Nat := (digest[19] &&& 0x0f).toNat

theorem offset_lt (digest : Vector UInt8 20) : offset digest < 16 := by
  have h := Nat.and_le_right (n := digest[19].toNat) (m := 15)
  rw [offset, UInt8.toNat_and]
  exact Nat.lt_of_le_of_lt h (by omega)

/-- Four bytes of the digest from the offset on, without the first bit. -/
def binary (digest : Vector UInt8 20) : UInt32 :=
  have h := offset_lt digest
  ((digest[offset digest].toUInt32 &&& 0x7f) <<< 24) |||
    (digest[offset digest + 1].toUInt32 <<< 16) |||
    (digest[offset digest + 2].toUInt32 <<< 8) |||
    digest[offset digest + 3].toUInt32

/-- `format!("{:06}", n)`. -/
def sixDigits (n : UInt32) : Text :=
  List.replicate (6 - (ofNat n.toNat).length) '0' ++ ofNat n.toNat

/-- The code for a seed at a time in Unix seconds. -/
def codeOf [TotpPrimitives] (seed : Bytes) (unixSeconds : UInt64) : Except SecretError Text :=
  match fromUtf8 seed with
  | none => .error .invalidSecret
  | some text =>
      match TotpPrimitives.decodeBase32 (toBytes (asciiUpper text)) with
      | none => .error .invalidSecret
      | some [] => .error .invalidSecret
      | some decoded =>
          let digest := TotpPrimitives.hmacSha1 decoded (toBeBytes (unixSeconds / 30))
          .ok (sixDigits (binary digest % 1000000))

/-! ## What a code is -/

/-- Leading zeros do not change the value. -/
theorem parse_digits_replicate (k n : Nat) :
    parseDigits (List.replicate k '0' ++ ofNat n) = some n := by
  have hne : List.replicate k '0' ++ ofNat n ≠ [] := fun h =>
    Nat.toDigits_ne_nil (List.append_eq_nil_iff.mp h).2
  have hdigits : (List.replicate k '0' ++ ofNat n).all Char.isDigit := by
    rw [List.all_append, List.all_eq_true.mpr (is_digit_of_nat n), Bool.and_true, List.all_eq_true]
    intro c hc
    rw [List.eq_of_mem_replicate hc]
    rfl
  have hzeros : ∀ k, (List.replicate k '0').foldl (fun n c => 10 * n + (c.toNat - '0'.toNat)) 0 = 0 :=
    fun k => by induction k with
    | zero => rfl
    | succ k ih => exact ih
  have hvalue := parse_digits_of_nat n
  rw [parseDigits, if_pos ⟨Nat.toDigits_ne_nil, List.all_eq_true.mpr (is_digit_of_nat n)⟩] at hvalue
  rw [parseDigits, if_pos ⟨hne, hdigits⟩, List.foldl_append, hzeros, hvalue]

/-- A number below a million has six digits. -/
theorem length_six_digits {n : UInt32} (h : n.toNat < 1000000) : (sixDigits n).length = 6 := by
  have hlength : (ofNat n.toNat).length ≤ 6 :=
    (Nat.length_toDigits_le_iff (by omega) (by omega)).mpr h
  rw [sixDigits, List.length_append, List.length_replicate]
  omega

/-- Bytes that are shifted apart and joined stand side by side. -/
theorem or_bytes (a : Nat) {b c d : Nat} (hb : b < 2 ^ 8) (hc : c < 2 ^ 8) (hd : d < 2 ^ 8) :
    a <<< 24 ||| b <<< 16 ||| c <<< 8 ||| d = a * 2 ^ 24 + b * 2 ^ 16 + c * 2 ^ 8 + d := by
  have hcd : c <<< 8 ||| d = c * 2 ^ 8 + d := by
    rw [← Nat.shiftLeft_add_eq_or_of_lt hd, Nat.shiftLeft_eq]
  have hbcd : b <<< 16 ||| (c * 2 ^ 8 + d) = b * 2 ^ 16 + (c * 2 ^ 8 + d) := by
    rw [← Nat.shiftLeft_add_eq_or_of_lt (by omega), Nat.shiftLeft_eq]
  have habcd : a <<< 24 ||| (b * 2 ^ 16 + (c * 2 ^ 8 + d)) =
      a * 2 ^ 24 + (b * 2 ^ 16 + (c * 2 ^ 8 + d)) := by
    rw [← Nat.shiftLeft_add_eq_or_of_lt (by omega), Nat.shiftLeft_eq]
  rw [Nat.or_assoc, Nat.or_assoc, hcd, hbcd, habcd]
  omega

/-- The four bytes side by side. -/
theorem to_nat_binary (digest : Vector UInt8 20) :
    have h := offset_lt digest
    (binary digest).toNat = digest[offset digest].toNat % 128 * 2 ^ 24 +
      digest[offset digest + 1].toNat * 2 ^ 16 + digest[offset digest + 2].toNat * 2 ^ 8 +
      digest[offset digest + 3].toNat := by
  intro h
  have h1 := digest[offset digest + 1].toNat_lt
  have h2 := digest[offset digest + 2].toNat_lt
  have h3 := digest[offset digest + 3].toNat_lt
  have hmask : digest[offset digest].toNat &&& 127 = digest[offset digest].toNat % 128 :=
    Nat.and_two_pow_sub_one_eq_mod _ 7
  -- none of the bytes is shifted out of the word
  have hfits : ∀ {n k : Nat}, n * 2 ^ k < 2 ^ 32 → n <<< k % 2 ^ 32 = n <<< k := fun hlt => by
    rw [Nat.shiftLeft_eq, Nat.mod_eq_of_lt hlt]
  rw [← or_bytes _ h1 h2 h3, ← hmask]
  simp only [binary, UInt32.toNat_or, UInt32.toNat_shiftLeft, UInt32.toNat_and,
    UInt8.toNat_toUInt32, UInt32.toNat_ofNat]
  show (digest[offset digest].toNat &&& 127) <<< 24 % 2 ^ 32 |||
    digest[offset digest + 1].toNat <<< 16 % 2 ^ 32 |||
    digest[offset digest + 2].toNat <<< 8 % 2 ^ 32 ||| digest[offset digest + 3].toNat = _
  rw [hfits (by omega), hfits (by omega), hfits (by omega)]

/-- The key of the hash: the seed in upper case, decoded, if that is not empty. -/
def keyOf [TotpPrimitives] (seed : Bytes) : Option Bytes :=
  ((fromUtf8 seed).bind fun text => TotpPrimitives.decodeBase32 (toBytes (asciiUpper text))).filter
    fun decoded => decoded ≠ []

/-- What a code is: six digits, whose value is that of the hash's four bytes, cut to six digits. -/
structure IsCode (digest : Vector UInt8 20) (code : Text) : Prop where
  length : code.length = 6
  value :
    have h := offset_lt digest
    parseDigits code = some ((digest[offset digest].toNat % 128 * 2 ^ 24 +
      digest[offset digest + 1].toNat * 2 ^ 16 + digest[offset digest + 2].toNat * 2 ^ 8 +
      digest[offset digest + 3].toNat) % 1000000)

theorem is_code (digest : Vector UInt8 20) :
    IsCode digest (sixDigits (binary digest % 1000000)) where
  length := by
    refine length_six_digits ?_
    rw [UInt32.toNat_mod]
    exact Nat.mod_lt _ (by decide)
  value := by
    intro h
    rw [sixDigits, parse_digits_replicate, UInt32.toNat_mod, to_nat_binary]
    rfl

end BrowsAI.Totp

/-!
## The broker of one-time codes

`TotpBroker` of `crates/totp`: records by id, each with the handle of its seed. A `History` is a broker
with the account of its secrets, and the capabilities that were presented for their own profile and
origin. In every run each granted capability makes one code, of the seed it was granted for; a seed
that makes no code uses the capability up all the same.
-/

namespace BrowsAI.Totp

open Utf8 Std Profiles SecretStore

/-- The id of a seed, drawn at random. -/
abbrev TotpId := Uuid

/-- A seed, by its handle. -/
structure TotpRecord where
  id : TotpId
  profile : ProfileId
  origin : Text
  handle : SecretHandle

/-- The seeds over the store of their bytes. -/
structure TotpBroker where
  secrets : SecretBroker
  records : OrdMap TotpId TotpRecord

namespace TotpBroker

/-- `TotpBroker::default()`, with the key that its secret broker draws. -/
def new (key : Key) : TotpBroker := ⟨.new key, ∅⟩

/-- `capability`, with the reference that it generates. -/
def capability (b : TotpBroker) (reference : CapabilityReference) (now : UInt64) (id : TotpId)
    (profile : ProfileId) (origin : Text) : Except SecretError SecretCapability × TotpBroker :=
  match b.records[id]? with
  | none => (.error .unknownHandle, b)
  | some record =>
      if record.profile ≠ profile then (.error .profileMismatch, b)
      else if record.origin ≠ origin then (.error .originMismatch, b)
      else
        let (result, secrets) :=
          b.secrets.grant reference now record.handle profile origin "totp" true
        (result, { b with secrets })

variable [ChaCha20Poly1305]

/-- `save_seed`, with the ids that it generates. -/
def saveSeed (b : TotpBroker) (handle : SecretHandle) (id : TotpId) (profile : ProfileId)
    (origin : Text) (seedBase32 : Bytes) : TotpId × TotpBroker :=
  let (handle, secrets) := b.secrets.store handle profile origin seedBase32
  (id, { secrets, records := b.records.insert id { id, profile, origin, handle } })

/-- `with_code` at a time in Unix seconds. -/
def withCode [TotpPrimitives] {T : Type} (b : TotpBroker) (now : UInt64)
    (capability : SecretCapability) (profile : ProfileId) (origin : Text) (unixSeconds : UInt64)
    (useCode : Text → T) : Except SecretError T × TotpBroker :=
  let (result, secrets) := b.secrets.withSecret now capability profile origin fun seed =>
    (codeOf seed unixSeconds).map useCode
  (result.bind id, { b with secrets })

end TotpBroker

/-! ## Histories -/

/-- A call with its arguments, and the ids that it generates. -/
inductive Op where
  | saveSeed (handle : SecretHandle) (id : TotpId) (profile : ProfileId) (origin : Text)
      (seedBase32 : Bytes)
  | grant (reference : CapabilityReference) (now : UInt64) (id : TotpId) (profile : ProfileId)
      (origin : Text)
  | withCode (now : UInt64) (capability : SecretCapability) (profile : ProfileId) (origin : Text)
      (unixSeconds : UInt64)

/-- The ids that a call generates. -/
def Op.generated : Op → List Uuid
  | .saveSeed handle id _ _ _ => [handle, id]
  | .grant reference _ _ _ _ => [reference]
  | .withCode _ _ _ _ _ => []

/-- The capability that a call presents. -/
def Op.presented : Op → Option SecretCapability
  | .withCode _ capability _ _ _ => some capability
  | _ => none

/-- The broker, the account of its secrets, and the capabilities that gave codes. -/
structure History where
  broker : TotpBroker
  account : Account TotpId
  used : List SecretCapability

namespace History

/-- No seed yet. -/
def start (key : Key) : History := ⟨.new key, .empty, []⟩

variable [ChaCha20Poly1305] [TotpPrimitives]

/-- A call, and what it adds to the history. -/
def step (h : History) : Op → History
  | .saveSeed handle id profile origin seedBase32 =>
      { h with
        broker := (h.broker.saveSeed handle id profile origin seedBase32).2
        account := { h.account with
          shelf := h.account.shelf.insert handle ⟨id, profile, origin, seedBase32⟩
          known := id :: handle :: h.account.known } }
  | .grant reference now id profile origin =>
      let known := reference :: h.account.known
      match h.broker.capability reference now id profile origin with
      | (.ok capability, broker) =>
          { h with
            broker
            account := { h.account with granted := capability :: h.account.granted, known } }
      | (.error _, broker) => { h with broker, account := { h.account with known } }
  | .withCode now capability profile origin unixSeconds =>
      { h with
        broker := (h.broker.withCode now capability profile origin unixSeconds fun code => code).2
        used := if capability.profile = profile ∧ capability.origin = origin then
          capability :: h.used else h.used }

/-- The runs in which generated ids are fresh and capabilities are presented as granted. -/
def machine : Machine History Op where
  step := step
  Allowed h op := (op.generated ++ h.account.known).Nodup ∧
    ∀ capability ∈ op.presented, capability ∈ h.account.granted

/-- A capability is for a seed of its profile and origin, and never expires. -/
structure Scoped (h : History) (capability : SecretCapability) (deposit : Deposit TotpId) : Prop where
  deposit_eq : h.account.shelf[capability.handle]? = some deposit
  scope : deposit.profile = capability.profile ∧ deposit.origin = capability.origin
  expires : capability.expiresAtUnixSeconds = none
  listed : ∃ record : TotpRecord, h.broker.records[deposit.owner]? = some record ∧
    record.handle = capability.handle

omit [ChaCha20Poly1305] [TotpPrimitives] in
theorem Scoped.of_eq {h h' : History} {capability : SecretCapability} {deposit : Deposit TotpId}
    (hscoped : h.Scoped capability deposit) (hshelf : h'.account.shelf = h.account.shelf)
    (hrecords : h'.broker.records = h.broker.records) : h'.Scoped capability deposit :=
  ⟨hshelf ▸ hscoped.deposit_eq, hscoped.scope, hscoped.expires, hrecords ▸ hscoped.listed⟩

/-- The invariant: the account is sound, seeds are deposited, and capabilities are consumed by use
only. -/
structure Sound (h : History) : Prop where
  account : h.account.Sound h.broker.secrets
  known : ∀ (id : TotpId) (record : TotpRecord), h.broker.records[id]? = some record →
    id ∈ h.account.known
  seed_deposited : ∀ (id : TotpId) (record : TotpRecord), h.broker.records[id]? = some record →
    ∃ seed, h.account.shelf[record.handle]? = some ⟨id, record.profile, record.origin, seed⟩
  granted_scope : ∀ capability ∈ h.account.granted, ∃ deposit, h.Scoped capability deposit
  released : h.account.released = []
  used_granted : h.used ⊆ h.account.granted
  consumed : ∀ reference, reference ∈ h.broker.secrets.consumed ↔
    ∃ capability ∈ h.used, capability.reference = reference

omit [TotpPrimitives] in
theorem sound_start (key : Key) : (start key).Sound where
  account := Account.sound_empty key
  known id record hrecord := by simp [start, TotpBroker.new] at hrecord
  seed_deposited id record hrecord := by simp [start, TotpBroker.new] at hrecord
  granted_scope capability hmem := by cases hmem
  released := rfl
  used_granted := List.Subset.refl _
  consumed reference := by simp [start, TotpBroker.new, SecretBroker.new]

/-! ## The steps -/

/-- A new seed keeps the invariant. -/
theorem Sound.save_seed {h : History} (hs : h.Sound) {handle : SecretHandle} {id : TotpId}
    (hid : id ∉ h.account.known) (hhandle : handle ∉ h.account.known) (profile : ProfileId)
    (origin : Text) (seedBase32 : Bytes) :
    (h.step (.saveSeed handle id profile origin seedBase32)).Sound where
  account := (hs.account.store hhandle ⟨id, profile, origin, seedBase32⟩).learn
    (List.subset_cons_self _ _)
  known other record hrecord := by
    change (h.broker.records.insert id ⟨id, profile, origin, handle⟩)[other]? = some record at hrecord
    rw [OrdMap.get_insert] at hrecord
    split_ifs at hrecord with hsame
    · exact hsame ▸ List.mem_cons_self
    · exact List.mem_cons_of_mem _ (List.mem_cons_of_mem _ (hs.known other record hrecord))
  seed_deposited other record hrecord := by
    change (h.broker.records.insert id ⟨id, profile, origin, handle⟩)[other]? = some record at hrecord
    rw [OrdMap.get_insert] at hrecord
    split_ifs at hrecord with hsame
    · cases hrecord
      cases hsame
      exact ⟨seedBase32, OrdMap.get_insert_self _ _ _⟩
    · obtain ⟨seed, hseed⟩ := hs.seed_deposited other record hrecord
      have hne : handle ≠ record.handle :=
        fun heq => hhandle (heq ▸ hs.account.shelf_known _ _ hseed)
      exact ⟨seed, (OrdMap.get_insert_ne _ hne _).trans hseed⟩
  granted_scope capability hmem := by
    obtain ⟨deposit, hscoped⟩ := hs.granted_scope capability hmem
    obtain ⟨record, hrecord, heq⟩ := hscoped.listed
    have hne : handle ≠ capability.handle :=
      fun heq => hhandle (heq ▸ hs.account.shelf_known _ _ hscoped.deposit_eq)
    have howner : id ≠ deposit.owner := fun heq => hid (heq ▸ hs.known _ record hrecord)
    exact ⟨deposit, (OrdMap.get_insert_ne _ hne _).trans hscoped.deposit_eq, hscoped.scope,
      hscoped.expires, record, (OrdMap.get_insert_ne _ howner _).trans hrecord, heq⟩
  released := hs.released
  used_granted := hs.used_granted
  consumed := hs.consumed

omit [ChaCha20Poly1305] [TotpPrimitives] in
/-- A capability is granted for the seed of a record of this profile and origin. -/
theorem grant_cases (b : TotpBroker) (reference : CapabilityReference) (now : UInt64)
    (id : TotpId) (profile : ProfileId) (origin : Text) :
    (∃ error, b.capability reference now id profile origin = (.error error, b)) ∨
      ∃ record events, b.records[id]? = some record ∧ record.profile = profile ∧
        record.origin = origin ∧ b.capability reference now id profile origin =
          (.ok ⟨reference, record.handle, profile, origin, "totp", true, none⟩,
            { b with secrets := { b.secrets with events } }) := by
  rw [TotpBroker.capability]
  cases hrecord : b.records[id]? with
  | none => exact .inl ⟨_, rfl⟩
  | some record =>
      dsimp only
      split_ifs with hprofile horigin
      · exact .inl ⟨_, rfl⟩
      · exact .inl ⟨_, rfl⟩
      · rw [SecretBroker.grant]
        obtain ⟨error, hgrant⟩ | ⟨found, events, -, -, -, hgrant⟩ :=
          b.secrets.grant_cases reference now record.handle profile origin "totp" true none true
        · rw [hgrant]
          exact .inl ⟨error, rfl⟩
        · rw [hgrant]
          exact .inr ⟨record, events, rfl, not_not.mp hprofile, not_not.mp horigin, rfl⟩

/-- So does a capability that is granted. -/
theorem Sound.grant {h : History} (hs : h.Sound) {reference : CapabilityReference}
    (hfresh : reference ∉ h.account.known) (now : UInt64) (id : TotpId) (profile : ProfileId)
    (origin : Text) : (h.step (.grant reference now id profile origin)).Sound := by
  rw [step]
  obtain ⟨error, hcall⟩ | ⟨record, events, hrecord, rfl, rfl, hcall⟩ :=
    grant_cases h.broker reference now id profile origin
  · rw [hcall]
    exact ⟨hs.account.learn (List.subset_cons_self _ _),
      fun other found hfound => List.mem_cons_of_mem _ (hs.known other found hfound),
      hs.seed_deposited,
      fun other hmem => (hs.granted_scope other hmem).imp fun _ hscoped => hscoped.of_eq rfl rfl,
      hs.released, hs.used_granted, hs.consumed⟩
  · rw [hcall]
    obtain ⟨seed, hseed⟩ := hs.seed_deposited id record hrecord
    refine ⟨hs.account.grant hfresh rfl ⟨_, hseed⟩ events,
      fun other found hfound => List.mem_cons_of_mem _ (hs.known other found hfound),
      hs.seed_deposited, fun other hmem => ?_, hs.released,
      fun other hused => List.mem_cons_of_mem _ (hs.used_granted hused), hs.consumed⟩
    rcases List.mem_cons.mp hmem with rfl | hmem
    · exact ⟨_, hseed, ⟨rfl, rfl⟩, rfl, record, hrecord, rfl⟩
    · exact (hs.granted_scope other hmem).imp fun _ hscoped => hscoped.of_eq rfl rfl

omit [TotpPrimitives] in
/-- A granted capability was used exactly if its reference is remembered. -/
theorem Sound.used_iff {h : History} (hs : h.Sound) {capability : SecretCapability}
    (hgranted : capability ∈ h.account.granted) :
    h.broker.secrets.consumed.contains capability.reference = true ↔ capability ∈ h.used := by
  rw [← ExtTreeSet.mem_iff_contains, hs.consumed]
  constructor
  · rintro ⟨other, hused, heq⟩
    have hsame := List.inj_on_of_nodup_map hs.account.distinct (hs.used_granted hused) hgranted heq
    exact hsame ▸ hused
  · exact fun hused => ⟨capability, hused, rfl⟩

/-- A granted capability makes the code of its seed, once. -/
theorem Sound.with_code_eq {h : History} (hs : h.Sound) (hcipher : ChaCha20Poly1305.Inverts)
    {T : Type} {capability : SecretCapability} (hgranted : capability ∈ h.account.granted)
    {deposit : Deposit TotpId} (hscoped : h.Scoped capability deposit) (now : UInt64)
    (profile : ProfileId) (origin : Text) (unixSeconds : UInt64) (useCode : Text → T) :
    h.broker.withCode now capability profile origin unixSeconds useCode =
      if capability.profile ≠ profile then (.error .profileMismatch, h.broker)
      else if capability.origin ≠ origin then (.error .originMismatch, h.broker)
      else if capability ∈ h.used then (.error .alreadyConsumed, h.broker)
      else
        ((codeOf deposit.secret unixSeconds).map useCode,
          { h.broker with secrets := { h.broker.secrets with
              consumed := h.broker.secrets.consumed.insert capability.reference
              events := h.broker.secrets.events ++ [.released capability.profile capability.origin
                capability.purpose true] } }) := by
  rw [TotpBroker.withCode, hs.account.with_secret_eq hcipher hscoped.deposit_eq hscoped.scope
    (hs.account.one_time capability hgranted) hscoped.expires]
  simp only [hs.used_iff hgranted]
  split_ifs
  · rfl
  · rfl
  · rfl
  · rfl

/-- So does a code. -/
theorem Sound.with_code {h : History} (hs : h.Sound) (hcipher : ChaCha20Poly1305.Inverts)
    {capability : SecretCapability} (hgranted : capability ∈ h.account.granted) (now : UInt64)
    (profile : ProfileId) (origin : Text) (unixSeconds : UInt64) :
    (h.step (.withCode now capability profile origin unixSeconds)).Sound := by
  obtain ⟨deposit, hscoped⟩ := hs.granted_scope capability hgranted
  rw [step, hs.with_code_eq hcipher hgranted hscoped]
  by_cases hprofile : capability.profile = profile
  case neg =>
    rw [if_pos hprofile, if_neg fun h => hprofile h.1]
    exact hs
  by_cases horigin : capability.origin = origin
  case neg =>
    rw [if_neg (not_not.mpr hprofile), if_pos horigin, if_neg fun h => horigin h.2]
    exact hs
  have hown : capability.profile = profile ∧ capability.origin = origin := ⟨hprofile, horigin⟩
  rw [if_neg (not_not.mpr hprofile), if_neg (not_not.mpr horigin), if_pos hown]
  have hsub : capability :: h.used ⊆ h.account.granted :=
    List.cons_subset.mpr ⟨hgranted, hs.used_granted⟩
  by_cases hused : capability ∈ h.used
  · rw [if_pos hused]
    refine ⟨hs.account, hs.known, hs.seed_deposited, fun other hmem =>
      (hs.granted_scope other hmem).imp fun _ hscoped => hscoped.of_eq rfl rfl, hs.released, hsub,
      fun reference => ?_⟩
    rw [hs.consumed, List.exists_mem_cons_iff]
    exact ⟨.inr, fun h => h.elim (fun heq => ⟨capability, hused, heq⟩) fun h => h⟩
  · rw [if_neg hused]
    have hnone : h.account.usedOnce = [] := by
      rw [Account.usedOnce, hs.released]
      rfl
    have haccount := hs.account
    refine ⟨⟨haccount.records, haccount.shelf_known, haccount.granted_known, haccount.one_time,
        haccount.deposited, haccount.distinct,
        fun reference hmem => absurd (hnone ▸ hmem) List.not_mem_nil, haccount.once⟩,
      hs.known, hs.seed_deposited, fun other hmem =>
      (hs.granted_scope other hmem).imp fun _ hscoped => hscoped.of_eq rfl rfl, hs.released, hsub,
      fun reference => ?_⟩
    rw [List.exists_mem_cons_iff, ← hs.consumed]
    exact ExtTreeSet.mem_insert.trans (or_congr_left compare_eq_iff_eq)

/-- Every call keeps the invariant. -/
theorem Sound.step {h : History} (hs : h.Sound) (hcipher : ChaCha20Poly1305.Inverts) {op : Op}
    (hallowed : machine.Allowed h op) : (h.step op).Sound := by
  cases op with
  | saveSeed handle id profile origin seedBase32 =>
      have hfresh := List.nodup_cons.mp hallowed.1
      exact hs.save_seed (List.nodup_cons.mp hfresh.2).1
        (fun hmem => hfresh.1 (List.mem_cons_of_mem _ hmem)) profile origin seedBase32
  | grant reference now id profile origin =>
      exact hs.grant (List.nodup_cons.mp hallowed.1).1 now id profile origin
  | withCode now capability profile origin unixSeconds =>
      exact hs.with_code hcipher (hallowed.2 capability rfl) now profile origin unixSeconds

omit [ChaCha20Poly1305] in
/-- What a seed makes is the code of its key, and a seed without a key makes none. -/
theorem code_of_eq (seed : Bytes) (unixSeconds : UInt64) :
    match keyOf seed with
    | none => codeOf seed unixSeconds = .error .invalidSecret
    | some key => ∃ code, codeOf seed unixSeconds = .ok code ∧
        IsCode (TotpPrimitives.hmacSha1 key (toBeBytes (unixSeconds / 30))) code := by
  rw [keyOf, codeOf]
  cases fromUtf8 seed with
  | none => rfl
  | some text =>
      rw [Option.bind_some]
      dsimp only
      cases TotpPrimitives.decodeBase32 (toBytes (asciiUpper text)) with
      | none => rfl
      | some decoded =>
          cases decoded with
          | nil => rfl
          | cons byte rest => exact ⟨_, rfl, is_code _⟩

/-- In every run in which capabilities are presented as granted, `with_code` of a granted capability is
determined: it makes the code of the seed that the capability was granted for, if this is the first
time that the capability is presented for its own profile and origin, and fails otherwise. The code of
a seed is six digits of the hash, keyed with the decoded seed, of the number of the half minute; a seed
that is not decoded has none. -/
theorem with_code_of_granted (hcipher : ChaCha20Poly1305.Inverts) (key : Key) (h : History)
    (hrun : machine.Reaches (start key) h) (capability : SecretCapability)
    (hgranted : capability ∈ h.account.granted) :
    ∃ deposit, h.Scoped capability deposit ∧
      ∀ (T : Type) (now : UInt64) (profile : ProfileId) (origin : Text) (unixSeconds : UInt64)
        (useCode : Text → T),
        (h.broker.withCode now capability profile origin unixSeconds useCode).1 =
            (if capability.profile ≠ profile then .error .profileMismatch
            else if capability.origin ≠ origin then .error .originMismatch
            else if capability ∈ h.used then .error .alreadyConsumed
            else (codeOf deposit.secret unixSeconds).map useCode) ∧
          match keyOf deposit.secret with
          | none => codeOf deposit.secret unixSeconds = .error .invalidSecret
          | some key => ∃ code, codeOf deposit.secret unixSeconds = .ok code ∧
              IsCode (TotpPrimitives.hmacSha1 key (toBeBytes (unixSeconds / 30))) code := by
  have hs : h.Sound :=
    hrun.invariant (sound_start key) fun t op hs hallowed => hs.step hcipher hallowed
  obtain ⟨deposit, hscoped⟩ := hs.granted_scope capability hgranted
  refine ⟨deposit, hscoped, fun T now profile origin unixSeconds useCode =>
    ⟨?_, code_of_eq deposit.secret unixSeconds⟩⟩
  rw [hs.with_code_eq hcipher hgranted hscoped]
  split_ifs
  · rfl
  · rfl
  · rfl
  · rfl

/-! ## A seed that is used once -/

/-- A decoder that takes a seed as it is, and a digest of zeros. -/
@[reducible] def plainPrimitives : TotpPrimitives where
  decodeBase32 seed := some seed
  hmacSha1 _ _ := Vector.replicate 20 0

/-- The capability of the example. -/
def seedCapability : SecretCapability := ⟨3, 1, 7, "https://example.test", "totp", true, none⟩

/-- A seed is saved, and a capability for it is used. -/
def seedOps : List Op :=
  [.saveSeed 1 2 7 "https://example.test" [71, 69], .grant 3 5 2 7 "https://example.test",
    .withCode 6 seedCapability 7 "https://example.test" 59]

omit [ChaCha20Poly1305] [TotpPrimitives] in
/-- A seed whose capability is used once. -/
theorem seed_used_once :
    let _ := ChaCha20Poly1305.labelled
    let _ := plainPrimitives
    ∃ deposit, (machine.run (start 0) seedOps).Scoped seedCapability deposit ∧
      ((machine.run (start 0) seedOps).broker.withCode 6 seedCapability 7 "https://example.test" 59
        (fun code => code)).1 = .error .alreadyConsumed := by
  intro cipher primitives
  have hallowed : machine.AllowedRun (start 0) seedOps := by
    refine ⟨⟨(by decide : [(1 : Uuid), 2].Nodup), nofun⟩,
      ⟨(by decide : [(3 : Uuid), 2, 1].Nodup), nofun⟩, ⟨(by decide : [(3 : Uuid), 2, 1].Nodup), ?_⟩,
      trivial⟩
    intro capability hcapability
    cases hcapability
    exact List.mem_singleton.mpr rfl
  obtain ⟨deposit, hscoped, hcode⟩ := with_code_of_granted ChaCha20Poly1305.labelled_inverts 0 _
    (Machine.Reaches.refl.run hallowed) seedCapability (List.mem_singleton.mpr rfl)
  exact ⟨deposit, hscoped, (hcode Text 6 7 "https://example.test" 59 fun code => code).1⟩

end History

end BrowsAI.Totp
