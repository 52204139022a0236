import BrowsAI.Recovery.Printed
import BrowsAI.Recovery.Rotation

/-!
# The checkpoints that are kept

A `History` is a file system with the checkpoints whose save was accepted, the last one first. In
every run of saves from an empty directory the files hold the first of these: the main file the last
checkpoint, and each backup the one before.
-/

namespace BrowsAI.Recovery

open Utf8 Profiles

variable {codec : Codec} {store : FileRecoveryStore}

namespace FileRecoveryStore

/-- There is no main file, no lock, and no backup. -/
structure Clean (store : FileRecoveryStore) (fs : FileSystem) : Prop where
  main : fs store.path = none
  lock : fs store.lockPath = none
  backup : ∀ index, fs (store.backupPath index) = none

end FileRecoveryStore

/-- The file holds the envelope of the checkpoint. -/
def FileSystem.Holds (fs : FileSystem) (codec : Codec) (path : Path)
    (checkpoint : SessionCheckpoint) : Prop :=
  ∃ bytes, fs path = some bytes ∧ codec.fromSlice bytes = some (codec.envelope checkpoint)

/-! ## Histories -/

/-- The files, and the checkpoints that were saved, last one first. -/
structure History where
  files : FileSystem
  accepted : List SessionCheckpoint

namespace History

/-- A save that succeeds is noted. -/
def save (codec : Codec) (store : FileRecoveryStore) (h : History) (suffix : Nat)
    (checkpoint : SessionCheckpoint) : History :=
  match store.save codec suffix checkpoint h.files with
  | (.ok (), files) => ⟨files, checkpoint :: h.accepted⟩
  | (.error _, files) => { h with files }

/-- The runs that save checkpoints which are read back. -/
def machine (codec : Codec) (store : FileRecoveryStore) :
    Machine History (Nat × SessionCheckpoint) where
  step h call := h.save codec store call.1 call.2
  Allowed _ call := codec.ReadsBack call.2

/-! ## The invariant -/

/-- The contents of the files are those of the accepted checkpoints. -/
structure Kept (codec : Codec) (store : FileRecoveryStore) (h : History) : Prop where
  main : h.files store.path = h.accepted.head?.bind fun checkpoint =>
    codec.toVec (codec.envelope checkpoint)
  backups : ∀ index, h.files (store.backupPath index) =
    if index < store.options.backupRetention then
      h.accepted[index + 1]?.bind fun checkpoint => codec.toVec (codec.envelope checkpoint)
    else none
  lock : h.files store.lockPath = none
  acceptable : ∀ checkpoint ∈ h.accepted, store.Acceptable checkpoint
  reads_back : ∀ checkpoint ∈ h.accepted, codec.ReadsBack checkpoint

theorem kept_start {fs : FileSystem} (hclean : store.Clean fs) : Kept codec store ⟨fs, []⟩ where
  main := hclean.main
  backups index := (hclean.backup index).trans (by simp)
  lock := hclean.lock
  acceptable := nofun
  reads_back := nofun

variable {h : History}

/-- A checkpoint that was accepted is in the file that was written for it. -/
theorem Kept.encoded (hk : Kept codec store h) {index : Nat} {checkpoint : SessionCheckpoint}
    (hindex : h.accepted[index]? = some checkpoint) :
    ∃ bytes, (h.accepted[index]?.bind fun checkpoint =>
        codec.toVec (codec.envelope checkpoint)) = some bytes ∧
      codec.fromSlice bytes = some (codec.envelope checkpoint) := by
  rw [hindex]
  exact hk.reads_back checkpoint (List.mem_of_getElem? hindex)

/-- The backups have no gap. -/
theorem Kept.packed (hk : Kept codec store h) : store.Packed h.files := by
  intro index hnone
  rw [hk.backups] at hnone ⊢
  by_cases hnext : index + 1 < store.options.backupRetention
  · rw [if_pos (Nat.lt_of_succ_lt hnext)] at hnone
    rw [if_pos hnext]
    cases hlast : h.accepted[index + 1]? with
    | none =>
        have hshort := List.getElem?_eq_none_iff.mp hlast
        rw [List.getElem?_eq_none (Nat.le_succ_of_le hshort), Option.bind_none]
    | some checkpoint =>
        obtain ⟨bytes, hbytes, -⟩ := hk.encoded hlast
        rw [hbytes] at hnone
        cases hnone
  · rw [if_neg hnext]

/-- Without a main file no checkpoint was accepted. -/
theorem Kept.accepted_eq_nil (hk : Kept codec store h) (hmain : h.files store.path = none) :
    h.accepted = [] := by
  rw [List.eq_nil_iff_forall_not_mem]
  intro checkpoint hmem
  obtain ⟨first, hfirst⟩ : ∃ first, h.accepted[0]? = some first :=
    ⟨_, List.getElem?_eq_getElem (List.length_pos_of_mem hmem)⟩
  obtain ⟨bytes, hbytes, -⟩ := hk.encoded hfirst
  rw [hk.main, List.head?_eq_getElem?, hbytes] at hmain
  cases hmain

/-- What a rotation puts in the place of a backup. -/
theorem Kept.shifted_eq (hk : Kept codec store h) {index : Nat}
    (hindex : index < store.options.backupRetention) :
    store.shifted h.files index = h.accepted[index]?.bind fun checkpoint =>
      codec.toVec (codec.envelope checkpoint) := by
  cases index with
  | zero => rw [FileRecoveryStore.shifted, hk.main, List.head?_eq_getElem?]
  | succ index =>
      rw [FileRecoveryStore.shifted, hk.backups, if_pos (Nat.lt_of_succ_lt hindex)]

/-- Every save keeps the last checkpoints. -/
theorem Kept.step (hs : store.Separate) (hk : Kept codec store h)
    {call : Nat × SessionCheckpoint} (hallowed : (machine codec store).Allowed h call) :
    Kept codec store ((machine codec store).step h call) := by
  obtain ⟨suffix, checkpoint⟩ := call
  show Kept codec store (h.save codec store suffix checkpoint)
  rw [save]
  obtain ⟨error, hcall, -⟩ | ⟨haccept, bytes, files, hbytes, hcall, hmain, hlock, hbackups⟩ :=
    store.save_cases codec hs hk.packed hk.lock suffix checkpoint
  · rw [hcall]
    exact hk
  · rw [hcall]
    constructor
    case main => exact hmain.trans hbytes.symm
    case backups =>
      intro index
      refine (hbackups index).trans ?_
      rw [List.getElem?_cons_succ]
      split_ifs with hrotated hindex hindex
      · exact hk.shifted_eq hindex
      · exact absurd hrotated.2 hindex
      · have hnone : h.files store.path = none := by
          rw [← Option.not_isSome_iff_eq_none]
          exact fun hsome => hrotated ⟨hsome, hindex⟩
        rw [hk.backups, hk.accepted_eq_nil hnone]
        simp
      · rw [hk.backups, if_neg hindex]
    case lock => exact hlock
    case acceptable => exact List.forall_mem_cons.mpr ⟨haccept, hk.acceptable⟩
    case reads_back => exact List.forall_mem_cons.mpr ⟨hallowed, hk.reads_back⟩

/-! ## What is kept -/

/-- A file with an acceptable checkpoint passes the checks of `load`. -/
theorem read_envelope_eq {checkpoint : SessionCheckpoint} (haccept : store.Acceptable checkpoint)
    {bytes : Bytes} (hbytes : codec.fromSlice bytes = some (codec.envelope checkpoint)) :
    store.readEnvelope codec bytes = .ok (codec.envelope checkpoint) := by
  have hversion : ¬ (codec.envelope checkpoint).checkpoint.schemaVersion >
      store.options.supportedVersion := UInt16.not_lt.mpr haccept.1
  have hvalid : (codec.envelope checkpoint).checkpoint.state.validate = .ok () := haccept.2
  rw [FileRecoveryStore.readEnvelope, hbytes]
  dsimp only
  have hchecksum : ¬ codec.checksum (codec.envelope checkpoint).checkpoint ≠
      (codec.envelope checkpoint).checksum := not_not.mpr rfl
  rw [if_neg hversion, if_neg hchecksum, hvalid]

theorem load_eq {fs : FileSystem} {checkpoint : SessionCheckpoint}
    (haccept : store.Acceptable checkpoint) (hholds : fs.Holds codec store.path checkpoint) :
    store.load codec fs = .ok (some checkpoint) := by
  obtain ⟨bytes, hmain, hbytes⟩ := hholds
  rw [FileRecoveryStore.load, hmain]
  dsimp only
  rw [read_envelope_eq haccept hbytes]
  rfl

/-- A restore puts the checkpoint of the first backup into the main file. -/
theorem restore_backup_eq {fs : FileSystem} {checkpoint : SessionCheckpoint}
    (haccept : store.Acceptable checkpoint)
    (hholds : fs.Holds codec (store.backupPath 0) checkpoint) (suffix : Nat) :
    ∃ fs', store.restoreBackup codec suffix fs = (.ok true, fs') ∧
      fs'.Holds codec store.path checkpoint := by
  obtain ⟨bytes, hbackup, hbytes⟩ := hholds
  obtain ⟨fs', hrename, hnew, -⟩ := FileRecoveryStore.rename_spec store.path
    (fs.write_self (store.restorePath suffix) bytes)
  refine ⟨fs', ?_, bytes, hnew, hbytes⟩
  rw [FileRecoveryStore.restoreBackup, hbackup]
  dsimp only
  rw [read_envelope_eq haccept hbytes]
  dsimp only
  rw [hrename]

/-- The first backup holds an accepted checkpoint. -/
theorem Kept.acceptable_of_holds (hk : Kept codec store h) {checkpoint : SessionCheckpoint}
    (hholds : h.files.Holds codec (store.backupPath 0) checkpoint) :
    store.Acceptable checkpoint := by
  obtain ⟨bytes, hbackup, hbytes⟩ := hholds
  rw [hk.backups] at hbackup
  split_ifs at hbackup
  obtain ⟨kept, hkept, hencoded⟩ := Option.bind_eq_some_iff.mp hbackup
  obtain ⟨bytes', hbytes', hread⟩ := hk.encoded hkept
  rw [hbackup] at hbytes'
  cases hbytes'
  have hsame : kept = checkpoint :=
    congrArg CheckpointEnvelope.checkpoint (Option.some.inj (hread.symm.trans hbytes))
  exact hsame ▸ hk.acceptable kept (List.mem_of_getElem? hkept)

/-- After the accepted saves of any run from a clean directory: `load` returns the last checkpoint,
the backups hold those before it, up to the retention, and no other backup exists. A save is accepted
exactly when the version is supported and the state valid, and changes nothing otherwise.
`restore_backup` makes `load` return what the first backup held. -/
theorem saved_kept (codec : Codec) (store : FileRecoveryStore) (hs : store.Separate)
    (fs : FileSystem) (hclean : store.Clean fs) (h : History)
    (hrun : (machine codec store).Reaches ⟨fs, []⟩ h) :
    store.load codec h.files = .ok h.accepted.head? ∧
      (∀ index checkpoint, index < store.options.backupRetention →
        h.accepted[index + 1]? = some checkpoint →
          h.files.Holds codec (store.backupPath index) checkpoint) ∧
      (∀ index, store.options.backupRetention ≤ index ∨ h.accepted.length ≤ index + 1 →
        h.files (store.backupPath index) = none) ∧
      (∀ suffix checkpoint, codec.ReadsBack checkpoint →
        ((store.save codec suffix checkpoint h.files).1 = .ok () ↔ store.Acceptable checkpoint)) ∧
      (∀ suffix checkpoint error, (store.save codec suffix checkpoint h.files).1 = .error error →
        (store.save codec suffix checkpoint h.files).2 = h.files) ∧
      ∀ suffix checkpoint, h.files.Holds codec (store.backupPath 0) checkpoint →
        (store.restoreBackup codec suffix h.files).1 = .ok true ∧
          store.load codec (store.restoreBackup codec suffix h.files).2 = .ok (some checkpoint) := by
  have hk : Kept codec store h :=
    hrun.invariant (kept_start hclean) fun _ _ hk hallowed => hk.step hs hallowed
  refine ⟨?_, fun index checkpoint hlt hindex => ?_, fun index hindex => ?_,
    fun suffix checkpoint hreads => ?_, fun suffix checkpoint error herror => ?_,
    fun suffix checkpoint hholds => ?_⟩
  · cases haccepted : h.accepted with
    | nil =>
        have hnone : h.files store.path = none := by rw [hk.main, haccepted]; rfl
        rw [FileRecoveryStore.load, hnone]
        rfl
    | cons checkpoint accepted =>
        have hfirst : h.accepted[0]? = some checkpoint := by rw [haccepted]; rfl
        obtain ⟨bytes, hencoded, hread⟩ := hk.encoded hfirst
        rw [← List.head?_eq_getElem?, ← hk.main] at hencoded
        exact load_eq (hk.acceptable checkpoint (List.mem_of_getElem? hfirst))
          ⟨bytes, hencoded, hread⟩
  · obtain ⟨bytes, hencoded, hread⟩ := hk.encoded hindex
    exact ⟨bytes, by rw [hk.backups, if_pos hlt, hencoded], hread⟩
  · rw [hk.backups]
    split_ifs with hlt
    · rw [List.getElem?_eq_none (hindex.resolve_left (Nat.not_le_of_lt hlt)), Option.bind_none]
    · rfl
  · obtain ⟨error, hcall, hwhy⟩ | ⟨haccept, bytes, files, -, hcall, -⟩ :=
      store.save_cases codec hs hk.packed hk.lock suffix checkpoint
    · rw [hcall]
      refine iff_of_false nofun fun haccept => ?_
      obtain ⟨bytes, hbytes, -⟩ := hreads
      rw [hwhy haccept] at hbytes
      cases hbytes
    · rw [hcall]
      exact iff_of_true rfl haccept
  · obtain ⟨_, hcall, -⟩ | ⟨-, _, _, -, hcall, -⟩ :=
      store.save_cases codec hs hk.packed hk.lock suffix checkpoint
    · rw [hcall]
    · rw [hcall] at herror
      cases herror
  · have haccept := hk.acceptable_of_holds hholds
    obtain ⟨restored, hcall, hrestored⟩ := restore_backup_eq haccept hholds suffix
    rw [hcall]
    exact ⟨rfl, load_eq haccept hrestored⟩

/-! ## Two saves -/

/-- The store of the example. -/
def sessionStore : FileRecoveryStore := ⟨⟨"/var/lib/browsai", some "session.json"⟩, default⟩

/-- The path has another character after the dot than `session.json` has. -/
theorem session_path_ne (first : Char) (rest : Text) (hfirst : some first ≠ some 'j') :
    sessionStore.path.withExtension (first :: rest) ≠ sessionStore.path := by
  intro h
  have hchar : some first = some 'j' :=
    congrArg (fun path : Path => (path.fileName.getD [])[8]?) h
  exact hfirst hchar

theorem session_separate : sessionStore.Separate where
  lock := session_path_ne _ _ (by decide)
  backup _ := session_path_ne _ _ (by decide)
  temporary _ := session_path_ne _ _ (by decide)
  restore _ := session_path_ne _ _ (by decide)

/-- A checkpoint with one profile. -/
def profileCheckpoint (id : Uuid) (name : Text) : SessionCheckpoint where
  id
  schemaVersion := 1
  profiles := [name]
  windows := []
  tabs := []
  locks := []
  pendingConfirmations := []
  state := default

/-- The first checkpoint of the example. -/
def firstCheckpoint : SessionCheckpoint := profileCheckpoint 1 "first"

/-- The second one. -/
def secondCheckpoint : SessionCheckpoint := profileCheckpoint 2 "second"

/-- The printed text of both checkpoints. -/
def sessionCodec : Codec := .printed [firstCheckpoint, secondCheckpoint]

/-- The two checkpoints are saved one after the other. -/
def sessionHistory : History :=
  (machine sessionCodec sessionStore).run ⟨fun _ => none, []⟩
    [(1, firstCheckpoint), (2, secondCheckpoint)]

/-- Both are saved in a run. -/
theorem session_reached :
    (machine sessionCodec sessionStore).Reaches ⟨fun _ => none, []⟩ sessionHistory := by
  have hne : Codec.envelopeBytes (Codec.printedEnvelope firstCheckpoint) ≠
      Codec.envelopeBytes (Codec.printedEnvelope secondCheckpoint) := fun h =>
    absurd (congrArg (List.take 70) h) (by decide)
  have hfirst : sessionCodec.ReadsBack firstCheckpoint := by
    refine Codec.printed_reads_back (by simp) fun other hother => ?_
    rcases List.mem_pair.mp hother with rfl | rfl
    · exact .inl rfl
    · exact .inr hne
  have hsecond : sessionCodec.ReadsBack secondCheckpoint := by
    refine Codec.printed_reads_back (by simp) fun other hother => ?_
    rcases List.mem_pair.mp hother with rfl | rfl
    · exact .inr hne.symm
    · exact .inl rfl
  have hallowed : (machine sessionCodec sessionStore).AllowedRun ⟨fun _ => none, []⟩
      [(1, firstCheckpoint), (2, secondCheckpoint)] := ⟨hfirst, hsecond, trivial⟩
  exact Machine.Reaches.refl.run hallowed

/-- The main file has the second checkpoint, and the first backup the first. -/
theorem session_saved_kept :
    sessionStore.load sessionCodec sessionHistory.files = .ok (some secondCheckpoint) ∧
      sessionHistory.files.Holds sessionCodec (sessionStore.backupPath 0) firstCheckpoint := by
  obtain ⟨hload, hbackups, -⟩ := saved_kept sessionCodec sessionStore session_separate
    (fun _ => none) ⟨rfl, rfl, fun _ => rfl⟩ sessionHistory session_reached
  exact ⟨hload, hbackups 0 firstCheckpoint (by decide) rfl⟩

end History

end BrowsAI.Recovery
