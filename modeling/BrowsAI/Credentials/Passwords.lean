import BrowsAI.Credentials.Broker
import BrowsAI.SecretStore.Releases

/-!
# The released password is the current one

Calls change a history in one of four ways, `Change`, when each record is under its own id and
decryption inverts encryption. `Sound` is what every history with fresh ids has: the current password
of a credential is the one under its handle, and a granted capability has this handle or one that
is gone.
-/

namespace BrowsAI.Credentials

open Utf8 Std Profiles SecretStore

namespace History

/-! ## Replaced secrets -/

/-- A modified credential differs from the one before in its handle only. -/
theorem get_modify_handle {records : OrdMap CredentialId CredentialRecord} {id other : CredentialId}
    {passwordHandle : SecretHandle} {found : CredentialRecord}
    (hfound : (records.modify id fun record => { record with passwordHandle })[other]? = some found) :
    ∃ record, records[other]? = some record ∧
      found = if id = other then { record with passwordHandle } else record := by
  rw [OrdMap.get_modify] at hfound
  split_ifs at hfound with hsame
  · obtain ⟨record, hrecord, heq⟩ := Option.map_eq_some_iff.mp hfound
    exact ⟨record, hsame ▸ hrecord, by rw [if_pos hsame, heq]⟩
  · exact ⟨found, hfound, by rw [if_neg hsame]⟩

/-- What a replaced secret leaves under another handle was there before. -/
theorem get_replaced {secrets : OrdMap SecretHandle SecretRecord} {old new handle : SecretHandle}
    {secret found : SecretRecord} (hnew : new ≠ handle)
    (hfound : ((secrets.insert new secret).erase old)[handle]? = some found) :
    old ≠ handle ∧ secrets[handle]? = some found := by
  rw [OrdMap.get_erase] at hfound
  split_ifs at hfound with hold
  exact ⟨hold, (OrdMap.get_insert_ne _ hnew _).symm.trans hfound⟩

variable [ChaCha20Poly1305] {h h' : History} {op : Op}

/-! ## The changes -/

/-- The ways in which a call changes a history. -/
inductive Change (h : History) : Op → History → Prop
  | quiet (op : Op) (consumed : ExtTreeSet CapabilityReference compare) (events : List SecretEvent) :
      Change h op
        { h with broker := { h.broker with secrets := { h.broker.secrets with consumed, events } } }
  | save (record : CredentialRecord) (password : Bytes) (secret : SecretRecord)
      (events : List SecretEvent)
      (hsecret : ChaCha20Poly1305.decrypt h.broker.secrets.key secret.nonce secret.ciphertext =
        some password) :
      Change h (.savePassword record.passwordHandle record.id record.profile record.origin
          record.username password)
        { h with
          broker :=
            { secrets := { h.broker.secrets with
                records := h.broker.secrets.records.insert record.passwordHandle secret
                events }
              records := h.broker.records.insert record.id record }
          latest := h.latest.insert record.id password }
  | update (passwordHandle : SecretHandle) (id : CredentialId) (password : Bytes)
      (record : CredentialRecord) (secret : SecretRecord) (events : List SecretEvent)
      (hrecord : h.broker.records[id]? = some record)
      (hsecret : ChaCha20Poly1305.decrypt h.broker.secrets.key secret.nonce secret.ciphertext =
        some password) :
      Change h (.updatePassword passwordHandle id password)
        { h with
          broker :=
            { secrets := { h.broker.secrets with
                records := (h.broker.secrets.records.insert passwordHandle secret).erase
                  record.passwordHandle
                events }
              records := h.broker.records.modify id fun record => { record with passwordHandle } }
          latest := h.latest.insert id password
          stale := h.grantedFor id ++ h.stale }
  | grant (reference : CapabilityReference) (now : UInt64) (id : CredentialId) (profile : ProfileId)
      (origin purpose : Text) (consent : Bool) (record : CredentialRecord)
      (capability : SecretCapability) (events : List SecretEvent)
      (hrecord : h.broker.records[id]? = some record)
      (hhandle : capability.handle = record.passwordHandle) :
      Change h (.grantPassword reference now id profile origin purpose consent)
        { h with
          broker := { h.broker with secrets := { h.broker.secrets with events } }
          granted := (id, capability) :: h.granted }

/-! ## The invariant -/

/-- The credential's handle leads to the password. -/
def Holds (h : History) (record : CredentialRecord) (password : Bytes) : Prop :=
  ∃ secret, h.broker.secrets.records[record.passwordHandle]? = some secret ∧
    ChaCha20Poly1305.decrypt h.broker.secrets.key secret.nonce secret.ciphertext = some password

/-- The invariant: every credential holds its last password under a handle of its own, and what is
stored or granted is known. -/
structure Sound (h : History) : Prop where
  record_id : ∀ (id : CredentialId) (record : CredentialRecord),
    h.broker.records[id]? = some record → record.id = id
  record_known : ∀ (id : CredentialId) (record : CredentialRecord),
    h.broker.records[id]? = some record → id ∈ h.known
  secret_known : ∀ (handle : SecretHandle) (secret : SecretRecord),
    h.broker.secrets.records[handle]? = some secret → handle ∈ h.known
  granted_known : ∀ entry ∈ h.granted, entry.2.handle ∈ h.known
  stale_known : ∀ capability ∈ h.stale, capability.handle ∈ h.known
  current : ∀ (id : CredentialId) (record : CredentialRecord),
    h.broker.records[id]? = some record →
      ∃ password, h.latest[id]? = some password ∧ h.Holds record password
  distinct : ∀ (first second : CredentialId) (record other : CredentialRecord),
    h.broker.records[first]? = some record → h.broker.records[second]? = some other →
      record.passwordHandle = other.passwordHandle → first = second
  granted : ∀ entry ∈ h.granted, ∀ secret : SecretRecord,
    h.broker.secrets.records[entry.2.handle]? = some secret →
      ∃ record : CredentialRecord, h.broker.records[entry.1]? = some record ∧
        record.passwordHandle = entry.2.handle
  stale : ∀ capability ∈ h.stale, h.broker.secrets.records[capability.handle]? = none

/-- It holds at the start. -/
theorem sound_start (key : Key) : (start key).Sound where
  record_id id record hrecord := by simp [start, CredentialBroker.new] at hrecord
  record_known id record hrecord := by simp [start, CredentialBroker.new] at hrecord
  secret_known handle secret hsecret := by
    simp [start, CredentialBroker.new, SecretBroker.new] at hsecret
  granted_known entry hmem := by simp [start] at hmem
  stale_known capability hmem := by simp [start] at hmem
  current id record hrecord := by simp [start, CredentialBroker.new] at hrecord
  distinct first second record other hrecord := by simp [start, CredentialBroker.new] at hrecord
  granted entry hmem := by simp [start] at hmem
  stale capability hmem := by simp [start] at hmem

/-- A call saves, updates, grants or does none of it. -/
theorem Sound.perform_change (hs : h.Sound) (hinverts : ChaCha20Poly1305.Inverts) (op : Op) :
    Change h op (h.perform op) := by
  cases op with
  | savePassword handle id profile origin username password =>
      exact .save ⟨id, profile, origin, username, handle⟩ password _ _ (hinverts _ _ password)
  | updatePassword handle id password =>
      rw [perform, updatePassword, CredentialBroker.updatePassword]
      cases hrecord : h.broker.records[id]? with
      | none => exact .quiet _ h.broker.secrets.consumed h.broker.secrets.events
      | some record =>
          obtain ⟨events, hrevoke⟩ := (h.broker.secrets.store handle record.profile record.origin
            password).2.revoke_eq record.passwordHandle
          dsimp only [SecretBroker.store] at hrevoke ⊢
          rw [hrevoke]
          exact .update handle id password record _ events hrecord (hinverts _ _ password)
  | grantPassword reference now id profile origin purpose consent =>
      rw [perform, grantPassword]
      obtain ⟨error, hgrant⟩ | ⟨record, capability, events, hrecord, hhandle, hgrant⟩ :=
        grant_password_cases h.broker reference now id profile origin purpose consent
      · rw [hgrant]
        exact .quiet _ h.broker.secrets.consumed h.broker.secrets.events
      · rw [hgrant]
        exact .grant reference now id profile origin purpose consent record capability events hrecord
          hhandle
  | withPassword now capability profile origin =>
      rw [perform, withPassword, CredentialBroker.withPassword]
      obtain ⟨error, events, hcall⟩ | ⟨plaintext, events, -, hcall⟩ :=
        h.broker.secrets.with_secret_cases now capability profile origin id
      · rw [hcall]
        exact .quiet _ h.broker.secrets.consumed events
      · rw [hcall]
        exact .quiet _ _ events
  | restart =>
      rw [perform, restart, from_snapshot_export _ _ hs.record_id]
      exact .quiet _ h.broker.secrets.consumed []

/-- More ids may be known, and more references consumed. -/
theorem Sound.learn (hs : h.Sound) (consumed : ExtTreeSet CapabilityReference compare)
    (events : List SecretEvent) (ids : List Uuid) :
    Sound { h with
      broker := { h.broker with secrets := { h.broker.secrets with consumed, events } }
      known := ids ++ h.known } where
  record_id := hs.record_id
  record_known id record hrecord := List.mem_append_right ids (hs.record_known id record hrecord)
  secret_known handle secret hsecret :=
    List.mem_append_right ids (hs.secret_known handle secret hsecret)
  granted_known entry hmem := List.mem_append_right ids (hs.granted_known entry hmem)
  stale_known capability hmem := List.mem_append_right ids (hs.stale_known capability hmem)
  current := hs.current
  distinct := hs.distinct
  granted := hs.granted
  stale := hs.stale

/-- The handle of a credential is known. -/
theorem Sound.handle_known (hs : h.Sound) {id : CredentialId} {record : CredentialRecord}
    (hrecord : h.broker.records[id]? = some record) : record.passwordHandle ∈ h.known := by
  obtain ⟨password, -, secret, hsecret, -⟩ := hs.current id record hrecord
  exact hs.secret_known _ secret hsecret

/-- A new credential keeps the invariant. -/
theorem Sound.save (hs : h.Sound) {record : CredentialRecord} {password : Bytes}
    {secret : SecretRecord} (events : List SecretEvent)
    (hhandle : record.passwordHandle ∉ h.known) (hid : record.id ∉ h.known)
    (hsecret : ChaCha20Poly1305.decrypt h.broker.secrets.key secret.nonce secret.ciphertext =
      some password) :
    Sound { h with
      broker :=
        { secrets := { h.broker.secrets with
            records := h.broker.secrets.records.insert record.passwordHandle secret
            events }
          records := h.broker.records.insert record.id record }
      latest := h.latest.insert record.id password
      known := record.passwordHandle :: record.id :: h.known } where
  record_id := OrdMap.KeyedBy.insert (f := CredentialRecord.id) hs.record_id rfl
  record_known id found hfound := by
    rw [OrdMap.get_insert] at hfound
    split_ifs at hfound with hsame
    · exact hsame ▸ List.mem_cons_of_mem _ List.mem_cons_self
    · exact List.mem_cons_of_mem _ (List.mem_cons_of_mem _ (hs.record_known id found hfound))
  secret_known handle found hfound := by
    rw [OrdMap.get_insert] at hfound
    split_ifs at hfound with hsame
    · exact hsame ▸ List.mem_cons_self
    · exact List.mem_cons_of_mem _ (List.mem_cons_of_mem _ (hs.secret_known handle found hfound))
  granted_known entry hmem :=
    List.mem_cons_of_mem _ (List.mem_cons_of_mem _ (hs.granted_known entry hmem))
  stale_known capability hmem :=
    List.mem_cons_of_mem _ (List.mem_cons_of_mem _ (hs.stale_known capability hmem))
  current id found hfound := by
    rw [OrdMap.get_insert] at hfound
    split_ifs at hfound with hsame
    · cases hfound
      exact ⟨password, hsame ▸ OrdMap.get_insert_self _ _ _, secret, OrdMap.get_insert_self _ _ _,
        hsecret⟩
    · obtain ⟨kept, hlatest, other, hother, hplain⟩ := hs.current id found hfound
      have hne : record.passwordHandle ≠ found.passwordHandle := fun heq =>
        hhandle (heq ▸ hs.handle_known hfound)
      exact ⟨kept, (OrdMap.get_insert_ne _ hsame _).trans hlatest, other,
        (OrdMap.get_insert_ne _ hne _).trans hother, hplain⟩
  distinct first second found other hfound hother heq := by
    rw [OrdMap.get_insert] at hfound hother
    split_ifs at hfound hother with hfirst hsecond hsecond
    · exact hfirst.symm.trans hsecond
    · cases hfound
      exact absurd (heq ▸ hs.handle_known hother) hhandle
    · cases hother
      exact absurd (heq ▸ hs.handle_known hfound) hhandle
    · exact hs.distinct first second found other hfound hother heq
  granted entry hmem found hfound := by
    have hne : record.passwordHandle ≠ entry.2.handle := fun heq =>
      hhandle (heq ▸ hs.granted_known entry hmem)
    rw [OrdMap.get_insert_ne _ hne] at hfound
    obtain ⟨kept, hkept, hsame⟩ := hs.granted entry hmem found hfound
    have hother : record.id ≠ entry.1 := fun heq => hid (heq ▸ hs.record_known _ _ hkept)
    exact ⟨kept, (OrdMap.get_insert_ne _ hother _).trans hkept, hsame⟩
  stale capability hmem := by
    have hne : record.passwordHandle ≠ capability.handle := fun heq =>
      hhandle (heq ▸ hs.stale_known capability hmem)
    exact (OrdMap.get_insert_ne _ hne _).trans (hs.stale capability hmem)

/-- A capability granted for a credential has its handle, if that still has a secret. -/
theorem Sound.handle_eq (hs : h.Sound) {id : CredentialId}
    {record : CredentialRecord} (hrecord : h.broker.records[id]? = some record)
    {capability : SecretCapability} (hgranted : (id, capability) ∈ h.granted)
    {secret : SecretRecord}
    (hsecret : h.broker.secrets.records[capability.handle]? = some secret) :
    record.passwordHandle = capability.handle := by
  obtain ⟨holder, hholder, hsame⟩ := hs.granted (id, capability) hgranted secret hsecret
  cases Option.some.inj (hrecord.symm.trans hholder)
  exact hsame

/-- So does a new password. -/
theorem Sound.update (hs : h.Sound) {passwordHandle : SecretHandle} {id : CredentialId}
    {password : Bytes} {record : CredentialRecord} {secret : SecretRecord}
    (events : List SecretEvent) (hnew : ∀ handle ∈ h.known, passwordHandle ≠ handle)
    (hrecord : h.broker.records[id]? = some record)
    (hsecret : ChaCha20Poly1305.decrypt h.broker.secrets.key secret.nonce secret.ciphertext =
      some password) :
    Sound { h with
      broker :=
        { secrets := { h.broker.secrets with
            records := (h.broker.secrets.records.insert passwordHandle secret).erase
              record.passwordHandle
            events }
          records := h.broker.records.modify id fun record => { record with passwordHandle } }
      latest := h.latest.insert id password
      stale := h.grantedFor id ++ h.stale
      known := passwordHandle :: h.known } where
  record_id other found hfound := by
    obtain ⟨before, hbefore, rfl⟩ := get_modify_handle hfound
    split_ifs <;> exact hs.record_id other before hbefore
  record_known other found hfound := by
    obtain ⟨before, hbefore, -⟩ := get_modify_handle hfound
    exact List.mem_cons_of_mem _ (hs.record_known other before hbefore)
  secret_known handle found hfound := by
    by_cases hsame : passwordHandle = handle
    · exact hsame ▸ List.mem_cons_self
    · exact List.mem_cons_of_mem _ (hs.secret_known handle found (get_replaced hsame hfound).2)
  granted_known entry hmem := List.mem_cons_of_mem _ (hs.granted_known entry hmem)
  stale_known capability hmem := by
    refine List.mem_cons_of_mem _ ?_
    rcases List.mem_append.mp hmem with hmem | hmem
    · obtain ⟨entry, hentry, rfl⟩ := List.mem_map.mp hmem
      exact hs.granted_known entry (List.mem_filter.mp hentry).1
    · exact hs.stale_known capability hmem
  current other found hfound := by
    obtain ⟨before, hbefore, rfl⟩ := get_modify_handle hfound
    split_ifs with hsame
    · have hne : record.passwordHandle ≠ passwordHandle := (hnew _ (hs.handle_known hrecord)).symm
      refine ⟨password, hsame ▸ OrdMap.get_insert_self _ _ _, secret, ?_, hsecret⟩
      exact (OrdMap.get_erase _ _ _).trans ((if_neg hne).trans (OrdMap.get_insert_self _ _ _))
    · obtain ⟨kept, hlatest, held, hheld, hplain⟩ := hs.current other before hbefore
      have hother : record.passwordHandle ≠ before.passwordHandle := fun heq =>
        hsame (hs.distinct id other record before hrecord hbefore heq)
      have hfresh : passwordHandle ≠ before.passwordHandle := hnew _ (hs.handle_known hbefore)
      refine ⟨kept, (OrdMap.get_insert_ne _ hsame _).trans hlatest, held, ?_, hplain⟩
      exact (OrdMap.get_erase _ _ _).trans ((if_neg hother).trans
        ((OrdMap.get_insert_ne _ hfresh _).trans hheld))
  distinct first second found other hfound hother heq := by
    obtain ⟨before, hbefore, rfl⟩ := get_modify_handle hfound
    obtain ⟨after, hafter, rfl⟩ := get_modify_handle hother
    split_ifs at heq with hfirst hsecond hsecond
    · exact hfirst.symm.trans hsecond
    · exact absurd heq (hnew _ (hs.handle_known hafter))
    · exact absurd heq.symm (hnew _ (hs.handle_known hbefore))
    · exact hs.distinct first second before after hbefore hafter heq
  granted entry hmem found hfound := by
    obtain ⟨hother, hbefore⟩ := get_replaced (hnew _ (hs.granted_known entry hmem)) hfound
    obtain ⟨holder, hholder, hsame⟩ := hs.granted entry hmem found hbefore
    have hid : id ≠ entry.1 := by
      rintro rfl
      exact hother (hs.handle_eq hrecord hmem hbefore)
    exact ⟨holder, (OrdMap.get_modify _ _ _ _).trans ((if_neg hid).trans hholder), hsame⟩
  stale capability hmem := by
    rw [Option.eq_none_iff_forall_ne_some]
    intro found hfound
    rcases List.mem_append.mp hmem with hmem | hmem
    · obtain ⟨⟨other, granted⟩, hentry, rfl⟩ := List.mem_map.mp hmem
      obtain ⟨hgranted, hid⟩ := List.mem_filter.mp hentry
      obtain rfl : other = id := of_decide_eq_true hid
      obtain ⟨hold, hbefore⟩ := get_replaced (hnew _ (hs.granted_known _ hgranted)) hfound
      exact hold (hs.handle_eq hrecord hgranted hbefore)
    · obtain ⟨-, hbefore⟩ := get_replaced (hnew _ (hs.stale_known capability hmem)) hfound
      rw [hs.stale capability hmem] at hbefore
      cases hbefore

/-- So does a capability that is granted. -/
theorem Sound.grant (hs : h.Sound) {id : CredentialId} {record : CredentialRecord}
    {capability : SecretCapability} (events : List SecretEvent)
    (hrecord : h.broker.records[id]? = some record)
    (hhandle : capability.handle = record.passwordHandle) (ids : List Uuid) :
    Sound { h with
      broker := { h.broker with secrets := { h.broker.secrets with events } }
      granted := (id, capability) :: h.granted
      known := ids ++ h.known } :=
  have hlearn := hs.learn h.broker.secrets.consumed events ids
  { hlearn with
    granted_known := by
      intro entry hmem
      rcases List.mem_cons.mp hmem with rfl | hmem
      · exact List.mem_append_right ids (hhandle ▸ hs.handle_known hrecord)
      · exact hlearn.granted_known entry hmem
    granted := by
      intro entry hmem found hfound
      rcases List.mem_cons.mp hmem with rfl | hmem
      · exact ⟨record, hrecord, hhandle.symm⟩
      · exact hlearn.granted entry hmem found hfound }

/-- Every call keeps the invariant. -/
theorem Sound.step (hs : h.Sound) (hinverts : ChaCha20Poly1305.Inverts)
    (hfresh : (op.generated ++ h.known).Nodup) : (h.step op).Sound := by
  have hchange := hs.perform_change hinverts op
  have hunknown : ∀ id ∈ op.generated, id ∉ h.known := fun id hid hknown =>
    (List.nodup_append.mp hfresh).2.2 id hid id hknown rfl
  rw [History.step]
  generalize h.perform op = h' at hchange
  cases hchange with
  | quiet _ consumed events => exact hs.learn consumed events op.generated
  | save record password secret events hsecret =>
      exact hs.save events (hunknown _ List.mem_cons_self)
        (hunknown _ (List.mem_cons_of_mem _ List.mem_cons_self)) hsecret
  | update passwordHandle id password record secret events hrecord hsecret =>
      refine hs.update events (fun handle hknown heq => ?_) hrecord hsecret
      exact hunknown passwordHandle List.mem_cons_self (heq ▸ hknown)
  | grant reference now id profile origin purpose consent record capability events hrecord hhandle =>
      exact hs.grant events hrecord hhandle [reference]

theorem reaches_sound (hinverts : ChaCha20Poly1305.Inverts) {key : Key}
    (hrun : machine.Reaches (start key) h) : h.Sound :=
  hrun.invariant (sound_start key) fun _ _ hs hallowed => hs.step hinverts hallowed.1

/-! ## Released passwords -/

/-- Whenever `with_password` releases bytes for a granted capability, they are the password last
saved or updated for its credential; a capability granted before an update releases nothing. -/
theorem released_latest (hinverts : ChaCha20Poly1305.Inverts) (key : Key) (h : History)
    (hrun : machine.Reaches (start key) h) (id : CredentialId) (capability : SecretCapability)
    (hgranted : (id, capability) ∈ h.granted) (now : UInt64) (profile : ProfileId) (origin : Text)
    (T : Type) (usePassword : Bytes → T) (result : T)
    (hresult : (h.broker.withPassword now capability profile origin usePassword).1 = .ok result) :
    capability ∉ h.stale ∧
      ∃ password, h.latest[id]? = some password ∧ result = usePassword password := by
  have hs := reaches_sound hinverts hrun
  obtain ⟨plaintext, hopens, rfl⟩ := SecretBroker.opens_of_with_secret hresult
  obtain ⟨secret, hsecret, -, -, hplain⟩ := hopens.found
  constructor
  · intro hstale
    rw [hs.stale capability hstale] at hsecret
    cases hsecret
  · obtain ⟨record, hrecord, hhandle⟩ := hs.granted (id, capability) hgranted secret hsecret
    obtain ⟨password, hlatest, held, hheld, hpassword⟩ := hs.current id record hrecord
    rw [hhandle, hsecret] at hheld
    cases hheld
    rw [hplain] at hpassword
    cases hpassword
    exact ⟨plaintext, hlatest, rfl⟩

/-! ## A replaced password -/

/-- A password is saved and granted, replaced, and granted again. -/
def replaceOps : List Op :=
  [.savePassword 1 2 7 "https://example.test" "alice" [1],
    .grantPassword 3 0 2 7 "https://example.test" "login" true,
    .updatePassword 4 2 [2],
    .grantPassword 5 0 2 7 "https://example.test" "login" true]

/-- The history after the password was replaced. -/
def replaceHistory : History :=
  let _ := ChaCha20Poly1305.labelled
  machine.run (start 0) replaceOps

omit [ChaCha20Poly1305] in
/-- A password that is replaced in a run. -/
theorem replace_reached :
    let _ := ChaCha20Poly1305.labelled
    machine.Reaches (start 0) replaceHistory := by
  intro cipher
  have hallowed : machine.AllowedRun (start 0) replaceOps := by
    refine ⟨⟨?_, nofun⟩, ⟨?_, nofun⟩, ⟨?_, nofun⟩, ⟨?_, nofun⟩, trivial⟩
    · show ([1, 2] : List Uuid).Nodup
      decide
    · show ([3, 1, 2] : List Uuid).Nodup
      decide
    · show ([4, 3, 1, 2] : List Uuid).Nodup
      decide
    · show ([5, 4, 3, 1, 2] : List Uuid).Nodup
      decide
  exact Machine.Reaches.refl.run hallowed

omit [ChaCha20Poly1305] in
/-- The capability granted after the replacement releases the new password. -/
theorem replace_released_latest :
    let _ := ChaCha20Poly1305.labelled
    ⟨5, 4, 7, "https://example.test", "login", true, none⟩ ∉ replaceHistory.stale ∧
      ∃ password, replaceHistory.latest[(2 : CredentialId)]? = some password ∧ [2] = id password := by
  intro cipher
  exact released_latest ChaCha20Poly1305.labelled_inverts 0 replaceHistory replace_reached 2 _
    (by decide) 0 7 "https://example.test" Bytes id [2] (by decide)

end History

end BrowsAI.Credentials
