import BrowsAI.Recovery.Checkpoints
import BrowsAI.Recovery.Interleaving

/-!
# Crashes and races of saves and restores

The file operations of any number of saves and restores come in any order, and any process may crash
between two of its own. The main file always holds a whole checkpoint, the last one that was put
there, `crash_safe`; the lock keeps all but one save out, and a save that crashes inside keeps the
others out for good, `lock_exclusive`.
-/

namespace BrowsAI.Recovery

open Utf8 History

variable {codec : Codec} {store : FileRecoveryStore}

/-- The text of a checkpoint is not read as an envelope when it is cut short. -/
def Codec.Complete (codec : Codec) : Prop :=
  ∀ checkpoint bytes content, codec.ReadsBack checkpoint →
    codec.toVec (codec.envelope checkpoint) = some bytes → content <+: bytes →
    (codec.fromSlice content).isSome → content = bytes

/-! ## File operations -/

namespace FileSystem

theorem rename_of_ne (fs : FileSystem) {source destination path : Path} (hsource : path ≠ source)
    (hdestination : path ≠ destination) : (fs.rename source destination).2 path = fs path := by
  rw [rename]
  cases fs source with
  | none => rfl
  | some bytes => exact (write_of_ne _ hdestination bytes).trans (fs.remove_of_ne hsource)

end FileSystem

namespace FileRecoveryStore

theorem Separate.restore_inj (hs : store.Separate) {first second : Nat}
    (h : store.restorePath first = store.restorePath second) : first = second :=
  of_nat_inj (List.append_cancel_left (Path.with_extension_inj (hs.restore first) h))

theorem Separate.restore_ne_lock (hs : store.Separate) (suffix : Nat) :
    store.restorePath suffix ≠ store.lockPath := fun h =>
  absurd (congrArg List.head? (Path.with_extension_inj (hs.restore suffix) h)) (by simp)

theorem Separate.restore_ne_backup (hs : store.Separate) (suffix index : Nat) :
    store.restorePath suffix ≠ store.backupPath index := fun h =>
  absurd (congrArg List.head? (Path.with_extension_inj (hs.restore suffix) h)) (by simp)

theorem Separate.restore_ne_temporary (hs : store.Separate) (suffix other : Nat) :
    store.restorePath suffix ≠ store.temporaryPath other := fun h =>
  absurd (congrArg List.head? (Path.with_extension_inj (hs.restore suffix) h)) (by simp)

/-- The files that only the holder of the lock changes. -/
inductive Guarded (store : FileRecoveryStore) : Path → Prop
  | lock : store.Guarded store.lockPath
  | backup (index : Nat) : store.Guarded (store.backupPath index)
  | temporary (suffix : Nat) : store.Guarded (store.temporaryPath suffix)

theorem Separate.guarded_ne_main (hs : store.Separate) {path : Path} (h : store.Guarded path) :
    path ≠ store.path := by
  cases h with
  | lock => exact hs.lock
  | backup index => exact hs.backup index
  | temporary suffix => exact hs.temporary suffix

theorem Separate.guarded_ne_restore (hs : store.Separate) {path : Path} (h : store.Guarded path)
    (suffix : Nat) : path ≠ store.restorePath suffix := by
  cases h with
  | lock => exact (hs.restore_ne_lock suffix).symm
  | backup index => exact (hs.restore_ne_backup suffix index).symm
  | temporary other => exact (hs.restore_ne_temporary suffix other).symm

/-! ## What a turn leaves alone -/

/-- The files that a process may change in a turn. -/
def Touches (store : FileRecoveryStore) (stage : Stage) (path : Path) : Prop :=
  (path = store.path ∧ (stage.inside = true ∨ stage.restoreSuffix.isSome)) ∨
    (store.Guarded path ∧ stage.inside = true) ∨
    (∃ suffix, stage.restoreSuffix = some suffix ∧ path = store.restorePath suffix)

theorem write_untouched (disk : Disk) {stage : Stage} {written path : Path}
    (htouches : store.Touches stage written) (bytes : Bytes) (hpath : ¬ store.Touches stage path) :
    (disk.files.write written bytes) path = disk.files path := by
  refine disk.files.write_of_ne ?_ bytes
  rintro rfl
  exact hpath htouches

/-- A rename leaves the files alone that its stage does not touch. -/
theorem rename_untouched (disk : Disk) {stage : Stage} {source destination path : Path}
    (hsource : store.Touches stage source) (hdestination : store.Touches stage destination)
    (failed : RecoveryError → Stage) {done : Disk → Disk × Stage}
    (hdone : ∀ disk, (done disk).1.files = disk.files) (hpath : ¬ store.Touches stage path) :
    (renameTurn disk source destination failed done).1.files path = disk.files path := by
  have hne : ∀ {other}, store.Touches stage other → path ≠ other := by
    rintro other h rfl
    exact hpath h
  rw [renameTurn, ← disk.files.rename_of_ne (hne hsource) (hne hdestination)]
  cases disk.files.rename source destination with
  | mk result files =>
      cases result with
      | error error => rfl
      | ok => exact congrFun (hdone _) path

/-- A turn changes no other files, but for the lock that a save takes when it is free. -/
theorem go_on_untouched (disk : Disk) (count : Nat) {stage : Stage} {path : Path}
    (hpath : ¬ store.Touches stage path)
    (hlock : path ≠ store.lockPath ∨ (disk.files store.lockPath).isSome) :
    (store.goOn codec disk count stage).1.files path = disk.files path := by
  have hguarded : ∀ {path}, stage.inside = true → store.Guarded path → store.Touches stage path :=
    fun hinside h => .inr (.inl ⟨h, hinside⟩)
  cases stage with
  | idle => rfl
  | locking suffix checkpoint =>
      rw [goOn]
      split_ifs with hheld
      · rfl
      · exact disk.files.write_of_ne (hlock.resolve_right hheld) []
  | creating suffix checkpoint =>
      simp only [goOn]
      split_ifs
      · rfl
      · split
        · rfl
        · split
          · rfl
          · exact write_untouched disk (hguarded rfl (.temporary suffix)) [] hpath
  | writing suffix checkpoint bytes written =>
      exact write_untouched disk (hguarded rfl (.temporary suffix)) _ hpath
  | checking suffix checkpoint =>
      rw [goOn]
      split_ifs <;> rfl
  | rotating suffix checkpoint indexes =>
      cases indexes with
      | nil =>
          rw [goOn]
          split_ifs <;> rfl
      | cons index indexes =>
          rw [goOn]
          split_ifs <;> rfl
  | moving suffix checkpoint index indexes =>
      exact rename_untouched disk (hguarded rfl (.backup _)) (hguarded rfl (.backup _)) _
        (fun _ => rfl) hpath
  | opening suffix checkpoint =>
      simp only [goOn]
      split
      · rfl
      · exact write_untouched disk (hguarded rfl (.backup 0)) [] hpath
  | copying suffix checkpoint bytes written =>
      exact write_untouched disk (hguarded rfl (.backup 0)) _ hpath
  | committing suffix checkpoint =>
      exact rename_untouched disk (hguarded rfl (.temporary suffix)) (.inl ⟨rfl, .inl rfl⟩) _
        (fun _ => rfl) hpath
  | unlocking checkpoint result =>
      exact disk.files.remove_of_ne fun heq => hpath (heq ▸ hguarded rfl .lock)
  | looking suffix =>
      simp only [goOn]
      split
      · rfl
      · split <;> rfl
  | restoring suffix checkpoint bytes =>
      exact write_untouched disk (.inr (.inr ⟨suffix, rfl, rfl⟩)) [] hpath
  | refilling suffix checkpoint bytes written =>
      exact write_untouched disk (.inr (.inr ⟨suffix, rfl, rfl⟩)) _ hpath
  | replacing suffix checkpoint =>
      exact rename_untouched disk (.inr (.inr ⟨suffix, rfl, rfl⟩)) (.inl ⟨rfl, .inr rfl⟩) _
        (fun _ => rfl) hpath

end FileRecoveryStore

/-! ## What holds of the files -/

/-- The main file holds what became it last, and the first backup a part of something that was. -/
structure Sound (codec : Codec) (store : FileRecoveryStore) (disk : Disk) : Prop where
  main : disk.files store.path = disk.committed.head?.bind fun checkpoint =>
    codec.toVec (codec.envelope checkpoint)
  backup : ∀ content, disk.files (store.backupPath 0) = some content →
    ∃ checkpoint ∈ disk.committed, ∃ bytes,
      codec.toVec (codec.envelope checkpoint) = some bytes ∧ content <+: bytes
  acceptable : ∀ checkpoint ∈ disk.committed, store.Acceptable checkpoint
  offered : disk.committed ⊆ disk.offered
  reads_back : ∀ checkpoint ∈ disk.offered, codec.ReadsBack checkpoint
  answered : ∀ checkpoint, (checkpoint, .ok ()) ∈ disk.answered → checkpoint ∈ disk.committed

/-- The checkpoint of a save, and what its temporary file is to hold. -/
structure Draft (codec : Codec) (store : FileRecoveryStore) (disk : Disk)
    (checkpoint : SessionCheckpoint) (bytes : Bytes) : Prop where
  offered : checkpoint ∈ disk.offered
  acceptable : store.Acceptable checkpoint
  encoded : codec.toVec (codec.envelope checkpoint) = some bytes

/-- The checkpoint of a backup that a restore read. -/
structure Recovered (codec : Codec) (disk : Disk) (checkpoint : SessionCheckpoint)
    (bytes : Bytes) : Prop where
  committed : checkpoint ∈ disk.committed
  encoded : codec.toVec (codec.envelope checkpoint) = some bytes

/-- The temporary file of a save is complete. -/
def Drafted (codec : Codec) (store : FileRecoveryStore) (disk : Disk) (suffix : Nat)
    (checkpoint : SessionCheckpoint) : Prop :=
  ∃ bytes, Draft codec store disk checkpoint bytes ∧
    disk.files (store.temporaryPath suffix) = some bytes

/-- What a process may rely on. -/
def Own (codec : Codec) (store : FileRecoveryStore) (disk : Disk) : Stage → Prop
  | .idle | .looking _ => True
  | .locking _ checkpoint => checkpoint ∈ disk.offered
  | .creating _ checkpoint =>
      (disk.files store.lockPath).isSome ∧ checkpoint ∈ disk.offered
  | .writing suffix checkpoint bytes written =>
      (disk.files store.lockPath).isSome ∧ Draft codec store disk checkpoint bytes ∧
        written ≤ bytes.length ∧
        disk.files (store.temporaryPath suffix) = some (bytes.take written)
  | .checking suffix checkpoint | .rotating suffix checkpoint _ | .moving suffix checkpoint _ _
  | .opening suffix checkpoint | .committing suffix checkpoint =>
      (disk.files store.lockPath).isSome ∧ Drafted codec store disk suffix checkpoint
  | .copying suffix checkpoint old written =>
      (disk.files store.lockPath).isSome ∧ Drafted codec store disk suffix checkpoint ∧
        (∃ saved, Recovered codec disk saved old) ∧ written ≤ old.length ∧
        disk.files (store.backupPath 0) = some (old.take written)
  | .unlocking checkpoint result =>
      (disk.files store.lockPath).isSome ∧ (result = .ok () → checkpoint ∈ disk.committed)
  | .restoring _ checkpoint bytes => Recovered codec disk checkpoint bytes
  | .refilling suffix checkpoint bytes written =>
      Recovered codec disk checkpoint bytes ∧ written ≤ bytes.length ∧
        disk.files (store.restorePath suffix) = some (bytes.take written)
  | .replacing suffix checkpoint =>
      ∃ bytes, Recovered codec disk checkpoint bytes ∧
        disk.files (store.restorePath suffix) = some bytes

/-- At most one process is inside, and the restores read different times on the clock. -/
def Apart (first second : Stage) : Prop :=
  ¬ (first.inside = true ∧ second.inside = true) ∧
    ∀ suffix, first.restoreSuffix = some suffix → second.restoreSuffix ≠ some suffix

/-- What is shared, what the owner of the lock may rely on, and that there is one owner. -/
def assertion (codec : Codec) (store : FileRecoveryStore) : Processes.Assertion Disk Stage where
  Shared := Sound codec store
  Own := Own codec store
  Apart := Apart

/-- The files that a process relies on. -/
def Stage.Reads (store : FileRecoveryStore) (stage : Stage) (path : Path) : Prop :=
  (store.Guarded path ∧ stage.inside = true) ∨
    ∃ suffix, stage.restoreSuffix = some suffix ∧ path = store.restorePath suffix

/-- What a process relies on stays when its files do, and nothing is forgotten. -/
theorem Own.frame {disk disk' : Disk} {stage : Stage} (h : Own codec store disk stage)
    (hoffered : disk.offered ⊆ disk'.offered) (hcommitted : disk.committed ⊆ disk'.committed)
    (hfiles : ∀ path, stage.Reads store path → disk'.files path = disk.files path) :
    Own codec store disk' stage := by
  have hguarded : stage.inside = true → ∀ path, store.Guarded path →
      disk'.files path = disk.files path := fun hinside path hpath => hfiles path (.inl ⟨hpath, hinside⟩)
  have hrestore : ∀ suffix, stage.restoreSuffix = some suffix →
      disk'.files (store.restorePath suffix) = disk.files (store.restorePath suffix) :=
    fun suffix hsuffix => hfiles _ (.inr ⟨suffix, hsuffix, rfl⟩)
  have hdraft : ∀ {checkpoint bytes}, Draft codec store disk checkpoint bytes →
      Draft codec store disk' checkpoint bytes := fun h => { h with offered := hoffered h.offered }
  have hrecovered : ∀ {checkpoint bytes}, Recovered codec disk checkpoint bytes →
      Recovered codec disk' checkpoint bytes :=
    fun h => { h with committed := hcommitted h.committed }
  have hdrafted : ∀ {suffix checkpoint}, stage.inside = true →
      Drafted codec store disk suffix checkpoint → Drafted codec store disk' suffix checkpoint := by
    rintro suffix checkpoint hinside ⟨bytes, hbytes, htemporary⟩
    exact ⟨bytes, hdraft hbytes, (hguarded hinside _ (.temporary suffix)).trans htemporary⟩
  cases stage with
  | idle | looking => trivial
  | locking => exact hoffered h
  | creating =>
      obtain ⟨hlock, hmem⟩ := h
      exact ⟨by rwa [hguarded rfl _ .lock], hoffered hmem⟩
  | writing suffix =>
      obtain ⟨hlock, hbytes, hwritten, htemporary⟩ := h
      exact ⟨by rwa [hguarded rfl _ .lock], hdraft hbytes, hwritten,
        (hguarded rfl _ (.temporary suffix)).trans htemporary⟩
  | checking | rotating | moving | opening | committing =>
      obtain ⟨hlock, htemporary⟩ := h
      exact ⟨by rwa [hguarded rfl _ .lock], hdrafted rfl htemporary⟩
  | copying =>
      obtain ⟨hlock, htemporary, ⟨saved, hsaved⟩, hwritten, hbackup⟩ := h
      exact ⟨by rwa [hguarded rfl _ .lock], hdrafted rfl htemporary, ⟨saved, hrecovered hsaved⟩,
        hwritten, (hguarded rfl _ (.backup 0)).trans hbackup⟩
  | unlocking =>
      obtain ⟨hlock, hresult⟩ := h
      exact ⟨by rwa [hguarded rfl _ .lock], fun hok => hcommitted (hresult hok)⟩
  | restoring => exact hrecovered h
  | refilling suffix =>
      obtain ⟨hbytes, hwritten, hrestored⟩ := h
      exact ⟨hrecovered hbytes, hwritten, (hrestore suffix rfl).trans hrestored⟩
  | replacing suffix =>
      obtain ⟨bytes, hbytes, hrestored⟩ := h
      exact ⟨bytes, hrecovered hbytes, (hrestore suffix rfl).trans hrestored⟩

/-! ## A turn keeps what holds -/

/-- Files that change elsewhere leave the disk sound. -/
theorem Sound.with_files {disk : Disk} (h : Sound codec store disk) (files : FileSystem)
    (hmain : files store.path = disk.files store.path)
    (hbackup : ∀ content, files (store.backupPath 0) = some content →
      disk.files (store.backupPath 0) = some content) : Sound codec store { disk with files } :=
  { h with
    main := hmain.trans h.main
    backup := fun content hcontent => h.backup content (hbackup content hcontent) }

/-- A file that is neither the main file nor the first backup is written. -/
theorem Sound.write {disk : Disk} (h : Sound codec store disk) {path : Path}
    (hmain : path ≠ store.path) (hbackup : path ≠ store.backupPath 0) (bytes : Bytes) :
    Sound codec store { disk with files := disk.files.write path bytes } :=
  h.with_files _ (disk.files.write_of_ne hmain.symm bytes) fun _ hcontent =>
    (disk.files.write_of_ne hbackup.symm bytes).symm.trans hcontent

theorem Draft.with_files {disk : Disk} {checkpoint : SessionCheckpoint} {bytes : Bytes}
    (h : Draft codec store disk checkpoint bytes) (files : FileSystem) :
    Draft codec store { disk with files } checkpoint bytes := { h with }

theorem Recovered.with_files {disk : Disk} {checkpoint : SessionCheckpoint} {bytes : Bytes}
    (h : Recovered codec disk checkpoint bytes) (files : FileSystem) :
    Recovered codec { disk with files } checkpoint bytes := { h with }

namespace FileRecoveryStore

/-- A piece is written, and is the last one or not. -/
theorem write_piece_cases {disk : Disk} {path : Path} {bytes : Bytes} {written : Nat}
    (hwritten : written ≤ bytes.length) (hpath : disk.files path = some (bytes.take written))
    (count : Nat) (more : Nat → Stage) (done : Stage) :
    (written + count ≤ bytes.length ∧
      writePiece disk path bytes written count more done =
        ({ disk with files := disk.files.write path (bytes.take (written + count)) },
          more (written + count))) ∨
    writePiece disk path bytes written count more done =
      ({ disk with files := disk.files.write path bytes }, done) := by
  rw [writePiece, hpath, Option.getD_some, write_at_take hwritten]
  by_cases hmore : written + count < bytes.length
  · exact .inl ⟨Nat.le_of_lt hmore, by rw [if_pos hmore]⟩
  · rw [if_neg hmore, List.take_of_length_le (Nat.le_of_not_lt hmore)]
    exact .inr rfl

/-- A file that is there is renamed. -/
theorem rename_turn_eq {disk : Disk} {source : Path} {bytes : Bytes}
    (hsource : disk.files source = some bytes) (destination : Path)
    (failed : RecoveryError → Stage) (done : Disk → Disk × Stage) :
    renameTurn disk source destination failed done =
      done { disk with files := (disk.files.remove source).write destination bytes } := by
  rw [renameTurn, FileSystem.rename, hsource]

/-- A file that is not there is not. -/
theorem rename_turn_missing {disk : Disk} {source : Path} (hsource : disk.files source = none)
    (destination : Path) (failed : RecoveryError → Stage) (done : Disk → Disk × Stage) :
    renameTurn disk source destination failed done = (disk, failed .io) := by
  rw [renameTurn, FileSystem.rename, hsource]

/-- What passes the checks is what the reader read. -/
theorem from_slice_of_read_envelope {bytes : Bytes} {envelope : CheckpointEnvelope}
    (h : store.readEnvelope codec bytes = .ok envelope) : codec.fromSlice bytes = some envelope := by
  rw [readEnvelope] at h
  cases hread : codec.fromSlice bytes with
  | none =>
      rw [hread] at h
      cases h
  | some read =>
      rw [hread] at h
      dsimp only at h
      split_ifs at h
      split at h
      · cases h
      · cases h
        rfl

end FileRecoveryStore

section Turns

variable {disk : Disk}

/-- The main file, when there is one, holds something that was committed. -/
theorem Sound.recovered (h : Sound codec store disk) {bytes : Bytes}
    (hmain : disk.files store.path = some bytes) :
    ∃ checkpoint, Recovered codec disk checkpoint bytes := by
  obtain ⟨checkpoint, hhead, hencoded⟩ := Option.bind_eq_some_iff.mp (h.main.symm.trans hmain)
  exact ⟨checkpoint, List.mem_of_head? hhead, hencoded⟩

/-- A complete file becomes the main file. -/
theorem Sound.commit (hs : store.Separate) (h : Sound codec store disk) {source : Path}
    (hbackup : source ≠ store.backupPath 0)
    {checkpoint : SessionCheckpoint} {bytes : Bytes}
    (hdraft : Draft codec store disk checkpoint bytes) :
    Sound codec store { disk with
      files := (disk.files.remove source).write store.path bytes
      committed := checkpoint :: disk.committed } where
  main := (FileSystem.write_self _ _ bytes).trans hdraft.encoded.symm
  backup content hcontent := by
    have hsame : disk.files (store.backupPath 0) = some content := by
      rw [← hcontent]
      exact ((FileSystem.write_of_ne _ (hs.backup 0) bytes).trans
        (disk.files.remove_of_ne hbackup.symm)).symm
    obtain ⟨saved, hsaved, hrest⟩ := h.backup content hsame
    exact ⟨saved, List.mem_cons_of_mem _ hsaved, hrest⟩
  acceptable := List.forall_mem_cons.mpr ⟨hdraft.acceptable, h.acceptable⟩
  offered := List.cons_subset.mpr ⟨hdraft.offered, h.offered⟩
  reads_back := h.reads_back
  answered other hother := List.mem_cons_of_mem _ (h.answered other hother)

/-- A part of what was recovered is written into the first backup. -/
theorem Sound.back_up (hs : store.Separate) (h : Sound codec store disk)
    {saved : SessionCheckpoint} {old content : Bytes} (hsaved : Recovered codec disk saved old)
    (hpart : content <+: old) :
    Sound codec store { disk with files := disk.files.write (store.backupPath 0) content } :=
  { h with
    main := (disk.files.write_of_ne (hs.backup 0).symm content).trans h.main
    backup := fun found hfound => by
      obtain rfl := Option.some.inj ((disk.files.write_self _ _).symm.trans hfound)
      exact ⟨saved, hsaved.committed, old, hsaved.encoded, hpart⟩ }

/-- A backup is moved one place on; the first backup is not changed otherwise. -/
theorem Sound.move (hs : store.Separate) (h : Sound codec store disk) (index : Nat)
    {bytes : Bytes} (hsource : disk.files (store.backupPath (index - 1)) = some bytes) :
    Sound codec store { disk with
      files := (disk.files.remove (store.backupPath (index - 1))).write
        (store.backupPath index) bytes } := by
  refine h.with_files _ ((FileSystem.write_of_ne _ (hs.backup index).symm bytes).trans
    (disk.files.remove_of_ne (hs.backup _).symm)) fun content hcontent => ?_
  rcases Nat.eq_zero_or_pos index with rfl | hindex
  · rw [FileSystem.write_self] at hcontent
    exact hsource.trans hcontent
  · rw [FileSystem.write_of_ne _ fun heq => Nat.ne_of_lt hindex (hs.backup_inj heq)] at hcontent
    by_cases hfirst : store.backupPath 0 = store.backupPath (index - 1)
    · rw [hfirst, FileSystem.remove_self] at hcontent
      cases hcontent
    · rwa [FileSystem.remove_of_ne _ hfirst] at hcontent

/-- A file operation keeps what holds of the files, and gives its process what the next stage
relies on. -/
theorem Sound.go_on (hs : store.Separate) (hcomplete : codec.Complete)
    (h : Sound codec store disk) {stage : Stage} (hown : Own codec store disk stage) (count : Nat) :
    Sound codec store (store.goOn codec disk count stage).1 ∧
      Own codec store (store.goOn codec disk count stage).1
        (store.goOn codec disk count stage).2 := by
  have hlocked : ∀ {path} bytes, path ≠ store.lockPath → (disk.files store.lockPath).isSome →
      ((disk.files.write path bytes) store.lockPath).isSome := by
    intro path bytes hne hlock
    rwa [disk.files.write_of_ne hne.symm]
  cases stage with
  | idle => exact ⟨h, trivial⟩
  | locking suffix checkpoint =>
      rw [FileRecoveryStore.goOn]
      split_ifs
      · refine ⟨{ h with answered := fun other hother => ?_ }, trivial⟩
        exact h.answered other ((List.mem_cons.mp hother).resolve_left fun heq => by cases heq)
      · exact ⟨h.write hs.lock (hs.lock_ne_backup 0) [],
          Option.isSome_of_eq_some (disk.files.write_self _ _), hown⟩
  | creating suffix checkpoint =>
      obtain ⟨hlock, hmem⟩ := hown
      simp only [FileRecoveryStore.goOn]
      split_ifs with hversion
      · exact ⟨h, hlock, fun hanswer => by cases hanswer⟩
      · split
        · exact ⟨h, hlock, fun hanswer => by cases hanswer⟩
        · rename_i hvalid
          split
          · exact ⟨h, hlock, fun hanswer => by cases hanswer⟩
          · rename_i bytes hbytes
            refine ⟨h.write (hs.temporary suffix) (hs.temporary_ne_backup suffix 0) [],
              hlocked _ (hs.temporary_ne_lock suffix) hlock, ?_, Nat.zero_le _,
              disk.files.write_self _ _⟩
            exact ⟨hmem, ⟨UInt16.not_lt.mp hversion, hvalid⟩, hbytes⟩
  | writing suffix checkpoint bytes written =>
      obtain ⟨hlock, hdraft, hwritten, htemporary⟩ := hown
      have hsound := fun content => h.write (hs.temporary suffix)
        (hs.temporary_ne_backup suffix 0) content
      have hstill := fun content => hlocked content (hs.temporary_ne_lock suffix) hlock
      rw [FileRecoveryStore.goOn]
      obtain ⟨hmore, heq⟩ | heq := FileRecoveryStore.write_piece_cases hwritten htemporary count
        (.writing suffix checkpoint bytes) (.checking suffix checkpoint)
      · rw [heq]
        exact ⟨hsound _, hstill _, hdraft.with_files _, hmore, disk.files.write_self _ _⟩
      · rw [heq]
        exact ⟨hsound _, hstill _, bytes, hdraft.with_files _, disk.files.write_self _ _⟩
  | checking suffix checkpoint =>
      rw [FileRecoveryStore.goOn]
      split_ifs <;> exact ⟨h, hown⟩
  | rotating suffix checkpoint indexes =>
      cases indexes with
      | nil =>
          rw [FileRecoveryStore.goOn]
          split_ifs <;> exact ⟨h, hown⟩
      | cons index indexes =>
          rw [FileRecoveryStore.goOn]
          split_ifs <;> exact ⟨h, hown⟩
  | moving suffix checkpoint index indexes =>
      obtain ⟨hlock, bytes, hdraft, htemporary⟩ := hown
      rw [FileRecoveryStore.goOn]
      cases hsource : disk.files (store.backupPath (index - 1)) with
      | none =>
          rw [FileRecoveryStore.rename_turn_missing hsource]
          exact ⟨h, hlock, fun hanswer => by cases hanswer⟩
      | some old =>
          rw [FileRecoveryStore.rename_turn_eq hsource]
          have hkept : ∀ {path}, (∀ other, path ≠ store.backupPath other) →
              ((disk.files.remove (store.backupPath (index - 1))).write
                (store.backupPath index) old) path = disk.files path := fun hne =>
            (FileSystem.write_of_ne _ (hne _) old).trans (disk.files.remove_of_ne (hne _))
          refine ⟨h.move hs index hsource, ?_, bytes, hdraft.with_files _,
            (hkept (hs.temporary_ne_backup suffix)).trans htemporary⟩
          rw [← hkept hs.lock_ne_backup] at hlock
          exact hlock
  | opening suffix checkpoint =>
      obtain ⟨hlock, bytes, hdraft, htemporary⟩ := hown
      simp only [FileRecoveryStore.goOn]
      split
      · exact ⟨h, hlock, fun hanswer => by cases hanswer⟩
      · rename_i old hmain
        obtain ⟨saved, hsaved⟩ := h.recovered hmain
        exact ⟨h.back_up hs hsaved List.nil_prefix, hlocked _ (hs.lock_ne_backup 0).symm hlock,
          ⟨bytes, hdraft.with_files _,
            (disk.files.write_of_ne (hs.temporary_ne_backup suffix 0) _).trans htemporary⟩,
          ⟨saved, hsaved.with_files _⟩, Nat.zero_le _, disk.files.write_self _ _⟩
  | copying suffix checkpoint old written =>
      obtain ⟨hlock, ⟨bytes, hdraft, htemporary⟩, ⟨saved, hsaved⟩, hwritten, hbackup⟩ := hown
      have hstill := fun content => hlocked content (hs.lock_ne_backup 0).symm hlock
      have hdrafted : ∀ content, Drafted codec store
          { disk with files := disk.files.write (store.backupPath 0) content } suffix checkpoint :=
        fun content => ⟨bytes, hdraft.with_files _,
          (disk.files.write_of_ne (hs.temporary_ne_backup suffix 0) _).trans htemporary⟩
      rw [FileRecoveryStore.goOn]
      obtain ⟨hmore, heq⟩ | heq := FileRecoveryStore.write_piece_cases hwritten hbackup count
        (.copying suffix checkpoint old) (.committing suffix checkpoint)
      · rw [heq]
        exact ⟨h.back_up hs hsaved (List.take_prefix _ _), hstill _, hdrafted _,
          ⟨saved, hsaved.with_files _⟩, hmore, disk.files.write_self _ _⟩
      · rw [heq]
        exact ⟨h.back_up hs hsaved List.prefix_rfl, hstill _, hdrafted _⟩
  | committing suffix checkpoint =>
      obtain ⟨hlock, bytes, hdraft, htemporary⟩ := hown
      rw [FileRecoveryStore.goOn, FileRecoveryStore.rename_turn_eq htemporary]
      refine ⟨h.commit hs (hs.temporary_ne_backup suffix 0) hdraft, ?_,
        fun _ => List.mem_cons_self⟩
      show (((disk.files.remove _).write store.path bytes) store.lockPath).isSome
      rwa [FileSystem.write_of_ne _ hs.lock,
        FileSystem.remove_of_ne _ (hs.temporary_ne_lock suffix).symm]
  | unlocking checkpoint result =>
      obtain ⟨-, hresult⟩ := hown
      refine ⟨?_, trivial⟩
      have hfiles := h.with_files (disk.files.remove store.lockPath)
        (disk.files.remove_of_ne hs.lock.symm) fun content hcontent =>
          (disk.files.remove_of_ne (hs.lock_ne_backup 0).symm).symm.trans hcontent
      refine { hfiles with answered := fun other hother => ?_ }
      rcases List.mem_cons.mp hother with heq | hother
      · cases heq
        exact hresult rfl
      · exact h.answered other hother
  | looking suffix =>
      simp only [FileRecoveryStore.goOn]
      split
      · exact ⟨h, trivial⟩
      · rename_i content hcontent
        split
        · exact ⟨h, trivial⟩
        · rename_i envelope hread
          have hslice := FileRecoveryStore.from_slice_of_read_envelope hread
          obtain ⟨saved, hsaved, bytes, hencoded, hpart⟩ := h.backup content hcontent
          have hreads := h.reads_back saved (h.offered hsaved)
          obtain rfl := hcomplete saved bytes content hreads hencoded hpart
            (Option.isSome_of_eq_some hslice)
          obtain ⟨bytes, hbytes, hback⟩ := hreads
          obtain rfl := Option.some.inj (hencoded.symm.trans hbytes)
          obtain rfl := Option.some.inj (hslice.symm.trans hback)
          exact ⟨h, hsaved, hencoded⟩
  | restoring suffix checkpoint bytes =>
      exact ⟨h.write (hs.restore suffix) (hs.restore_ne_backup suffix 0) [], hown.with_files _,
        Nat.zero_le _, disk.files.write_self _ _⟩
  | refilling suffix checkpoint bytes written =>
      obtain ⟨hrecovered, hwritten, hrestored⟩ := hown
      have hsound := fun content => h.write (hs.restore suffix) (hs.restore_ne_backup suffix 0)
        content
      rw [FileRecoveryStore.goOn]
      obtain ⟨hmore, heq⟩ | heq := FileRecoveryStore.write_piece_cases hwritten hrestored count
        (.refilling suffix checkpoint bytes) (.replacing suffix checkpoint)
      · rw [heq]
        exact ⟨hsound _, hrecovered.with_files _, hmore, disk.files.write_self _ _⟩
      · rw [heq]
        exact ⟨hsound _, bytes, hrecovered.with_files _, disk.files.write_self _ _⟩
  | replacing suffix checkpoint =>
      obtain ⟨bytes, hrecovered, hrestored⟩ := hown
      rw [FileRecoveryStore.goOn, FileRecoveryStore.rename_turn_eq hrestored]
      exact ⟨h.commit hs (hs.restore_ne_backup suffix 0)
        ⟨h.offered hrecovered.committed, h.acceptable _ hrecovered.committed, hrecovered.encoded⟩,
        trivial⟩

/-! ## The other processes -/

namespace FileRecoveryStore

/-- Only the lock lets a process in. -/
theorem go_on_inside {count : Nat} {stage : Stage}
    (h : (store.goOn codec disk count stage).2.inside = true) :
    stage.inside = true ∨ disk.files store.lockPath = none := by
  cases stage with
  | idle => cases h
  | locking suffix checkpoint =>
      rw [goOn] at h
      split_ifs at h with hheld
      · cases h
      · exact .inr (Option.not_isSome_iff_eq_none.mp hheld)
  | creating | writing | checking | rotating | moving | opening | copying | committing
  | unlocking => exact .inl rfl
  | looking suffix =>
      simp only [goOn] at h
      split at h
      · cases h
      · split at h <;> cases h
  | restoring => cases h
  | refilling suffix checkpoint bytes written =>
      simp only [goOn, writePiece] at h
      split_ifs at h <;> cases h
  | replacing suffix checkpoint =>
      simp only [goOn, renameTurn] at h
      split at h <;> cases h

/-- A restore keeps its temporary file. -/
theorem go_on_restore_suffix {count suffix : Nat} {stage : Stage}
    (h : (store.goOn codec disk count stage).2.restoreSuffix = some suffix) :
    stage.restoreSuffix = some suffix := by
  cases stage with
  | idle => exact h
  | locking =>
      rw [goOn] at h
      split_ifs at h <;> cases h
  | creating =>
      simp only [goOn] at h
      split_ifs at h
      · cases h
      · split at h
        · cases h
        · split at h <;> cases h
  | writing =>
      simp only [goOn, writePiece] at h
      split_ifs at h <;> cases h
  | checking =>
      rw [goOn] at h
      split_ifs at h <;> cases h
  | rotating _ _ indexes =>
      cases indexes with
      | nil =>
          rw [goOn] at h
          split_ifs at h <;> cases h
      | cons =>
          rw [goOn] at h
          split_ifs at h <;> cases h
  | moving | committing =>
      simp only [goOn, renameTurn] at h
      split at h <;> cases h
  | opening =>
      simp only [goOn] at h
      split at h <;> cases h
  | copying =>
      simp only [goOn, writePiece] at h
      split_ifs at h <;> cases h
  | unlocking => cases h
  | looking =>
      simp only [goOn] at h
      split at h
      · cases h
      · split at h
        · cases h
        · exact h
  | restoring => exact h
  | refilling =>
      simp only [goOn, writePiece] at h
      split_ifs at h <;> exact h
  | replacing =>
      simp only [goOn, renameTurn] at h
      split at h <;> cases h

/-- What was offered stays, and what was committed stays behind what is committed now. -/
theorem go_on_grows (count : Nat) (stage : Stage) :
    (store.goOn codec disk count stage).1.offered = disk.offered ∧
      disk.committed <:+ (store.goOn codec disk count stage).1.committed := by
  cases stage with
  | idle | restoring | unlocking => exact ⟨rfl, List.suffix_rfl⟩
  | locking =>
      rw [goOn]
      split_ifs <;> exact ⟨rfl, List.suffix_rfl⟩
  | creating =>
      simp only [goOn]
      split_ifs
      · exact ⟨rfl, List.suffix_rfl⟩
      · split
        · exact ⟨rfl, List.suffix_rfl⟩
        · split <;> exact ⟨rfl, List.suffix_rfl⟩
  | writing | copying | refilling => exact ⟨rfl, List.suffix_rfl⟩
  | checking =>
      rw [goOn]
      split_ifs <;> exact ⟨rfl, List.suffix_rfl⟩
  | rotating _ _ indexes =>
      cases indexes with
      | nil =>
          rw [goOn]
          split_ifs <;> exact ⟨rfl, List.suffix_rfl⟩
      | cons =>
          rw [goOn]
          split_ifs <;> exact ⟨rfl, List.suffix_rfl⟩
  | moving =>
      simp only [goOn, renameTurn]
      split <;> exact ⟨rfl, List.suffix_rfl⟩
  | opening =>
      simp only [goOn]
      split <;> exact ⟨rfl, List.suffix_rfl⟩
  | committing | replacing =>
      simp only [goOn, renameTurn]
      split
      · exact ⟨rfl, List.suffix_rfl⟩
      · exact ⟨rfl, List.suffix_cons _ _⟩
  | looking =>
      simp only [goOn]
      split
      · exact ⟨rfl, List.suffix_rfl⟩
      · split <;> exact ⟨rfl, List.suffix_rfl⟩

/-- What a turn can be. -/
theorem act_cases (codec : Codec) (store : FileRecoveryStore) (disk : Disk) (stage : Stage)
    (turn : Turn) :
    (∃ suffix checkpoint, stage = .idle ∧ turn = .save suffix checkpoint ∧
      store.act codec disk stage turn =
        ({ disk with offered := checkpoint :: disk.offered }, .locking suffix checkpoint)) ∨
    (∃ suffix, stage = .idle ∧ turn = .restore suffix ∧
      store.act codec disk stage turn = (disk, .looking suffix)) ∨
    (∃ count, store.act codec disk stage turn = store.goOn codec disk count stage) ∨
    store.act codec disk stage turn = (disk, .idle) ∨
    store.act codec disk stage turn = (disk, stage) := by
  cases turn with
  | save suffix checkpoint =>
      cases stage with
      | idle => exact .inl ⟨suffix, checkpoint, rfl, rfl, rfl⟩
      | _ => exact .inr (.inr (.inr (.inr rfl)))
  | restore suffix =>
      cases stage with
      | idle => exact .inr (.inl ⟨suffix, rfl, rfl, rfl⟩)
      | _ => exact .inr (.inr (.inr (.inr rfl)))
  | go count => exact .inr (.inr (.inl ⟨count, by cases stage <;> rfl⟩))
  | crash => exact .inr (.inr (.inr (.inl (by cases stage <;> rfl))))

end FileRecoveryStore

/-- The lock is there while a process is inside. -/
theorem Own.locked {stage : Stage} (h : Own codec store disk stage) (hinside : stage.inside = true) :
    (disk.files store.lockPath).isSome := by
  cases stage with
  | idle | locking | looking | restoring | refilling | replacing => cases hinside
  | creating | writing | checking | rotating | moving | opening | copying | committing
  | unlocking => exact h.1

end Turns

/-- A file operation of one process does not touch the files of another. -/
theorem go_on_frame (hs : store.Separate) {disk : Disk} {stage other : Stage}
    (hother : Own codec store disk other) (hapart : Apart stage other) (count : Nat) (path : Path)
    (hpath : other.Reads store path) :
    (store.goOn codec disk count stage).1.files path = disk.files path := by
  apply FileRecoveryStore.go_on_untouched
  · rcases hpath with ⟨hguarded, hinside⟩ | ⟨suffix, hsuffix, rfl⟩
    · rintro (⟨heq, -⟩ | ⟨-, hstage⟩ | ⟨suffix, -, heq⟩)
      · exact hs.guarded_ne_main hguarded heq
      · exact hapart.1 ⟨hstage, hinside⟩
      · exact hs.guarded_ne_restore hguarded suffix heq
    · rintro (⟨heq, -⟩ | ⟨hguarded, -⟩ | ⟨same, hsame, heq⟩)
      · exact hs.restore suffix heq
      · exact hs.guarded_ne_restore hguarded suffix rfl
      · exact hapart.2 same hsame (hs.restore_inj heq ▸ hsuffix)
  · rcases hpath with ⟨-, hinside⟩ | ⟨suffix, -, rfl⟩
    · exact .inr (hother.locked hinside)
    · exact .inl (hs.restore_ne_lock suffix)

theorem Apart.symm {first second : Stage} (h : Apart first second) : Apart second first :=
  ⟨fun hinside => h.1 hinside.symm, fun suffix hsecond hfirst => h.2 suffix hfirst hsecond⟩

/-- A process that is not inside is apart from one with another clock reading. -/
theorem Apart.of_outside {first second : Stage} (hinside : first.inside = false)
    (hsuffix : ∀ suffix, first.restoreSuffix = some suffix → second.restoreSuffix ≠ some suffix) :
    Apart first second :=
  ⟨fun hboth => Bool.false_ne_true (hinside.symm.trans hboth.1), hsuffix⟩

/-- A turn of one process does not take away what another relies on, and leaves the two apart. -/
theorem act_others (hs : store.Separate) {disk : Disk} {stage other : Stage} {turn : Turn}
    (hother : Own codec store disk other) (hapart : Apart stage other)
    (hclock : ∀ suffix, turn = .restore suffix → other.restoreSuffix ≠ some suffix) :
    Own codec store (store.act codec disk stage turn).1 other ∧
      Apart (store.act codec disk stage turn).2 other := by
  obtain ⟨suffix, checkpoint, -, -, heq⟩ | ⟨suffix, -, rfl, heq⟩ | ⟨count, heq⟩ | heq | heq :=
    store.act_cases codec disk stage turn
  · rw [heq]
    exact ⟨hother.frame (List.subset_cons_self _ _) (List.Subset.refl _) fun _ _ => rfl,
      .of_outside rfl fun _ hsuffix => by cases hsuffix⟩
  · rw [heq]
    refine ⟨hother, .of_outside rfl fun same hsame => ?_⟩
    cases hsame
    exact hclock suffix rfl
  · rw [heq]
    have hgrows : (store.goOn codec disk count stage).1.offered = disk.offered ∧
        disk.committed <:+ (store.goOn codec disk count stage).1.committed :=
      store.go_on_grows count stage
    obtain ⟨hoffered, hcommitted⟩ := hgrows
    have hstill : disk.offered ⊆ (store.goOn codec disk count stage).1.offered :=
      hoffered ▸ List.Subset.refl _
    refine ⟨hother.frame hstill hcommitted.subset (go_on_frame hs hother hapart count),
      fun hinside => ?_, fun suffix hsuffix =>
        hapart.2 suffix (FileRecoveryStore.go_on_restore_suffix hsuffix)⟩
    obtain hstage | hfree := FileRecoveryStore.go_on_inside hinside.1
    · exact hapart.1 ⟨hstage, hinside.2⟩
    · have hheld := hother.locked hinside.2
      rw [hfree] at hheld
      cases hheld
  · rw [heq]
    exact ⟨hother, .of_outside rfl fun _ hsuffix => by cases hsuffix⟩
  · rw [heq]
    exact ⟨hother, hapart⟩

/-- A turn keeps what holds of the files, and gives its process what the next stage relies on. -/
theorem Sound.act (hs : store.Separate) (hcomplete : codec.Complete) {disk : Disk}
    (h : Sound codec store disk) {stage : Stage} (hown : Own codec store disk stage) {turn : Turn}
    (hreads : ∀ suffix checkpoint, turn = .save suffix checkpoint → codec.ReadsBack checkpoint) :
    Sound codec store (store.act codec disk stage turn).1 ∧
      Own codec store (store.act codec disk stage turn).1 (store.act codec disk stage turn).2 := by
  obtain ⟨suffix, checkpoint, -, rfl, heq⟩ | ⟨suffix, -, -, heq⟩ | ⟨count, heq⟩ | heq | heq :=
    store.act_cases codec disk stage turn
  · rw [heq]
    have hsound : Sound codec store { disk with offered := checkpoint :: disk.offered } := { h with
      offered := fun _ hmem => List.mem_cons_of_mem _ (h.offered hmem)
      reads_back := List.forall_mem_cons.mpr ⟨hreads suffix checkpoint rfl, h.reads_back⟩ }
    exact ⟨hsound, List.mem_cons_self⟩
  · rw [heq]
    exact ⟨h, trivial⟩
  · rw [heq]
    exact h.go_on hs hcomplete hown count
  · rw [heq]
    exact ⟨h, trivial⟩
  · rw [heq]
    exact ⟨h, hown⟩

/-- The files and the stages of all processes are sound in every run. -/
theorem recovery_proof (hs : store.Separate) (hcomplete : codec.Complete) :
    (store.processes codec).Proof (assertion codec store) where
  symm _ _ := Apart.symm
  act w p turn h hallowed := by
    refine h.shared.act hs hcomplete (h.own p) fun suffix checkpoint hturn => ?_
    subst hturn
    exact hallowed
  others w p q turn hpq h hallowed := by
    refine act_others hs (h.own q) (h.apart p q hpq) fun suffix hturn => ?_
    subst hturn
    exact hallowed q hpq.symm

/-- A sound disk loads the last checkpoint that was committed. -/
theorem Sound.load {disk : Disk} (h : Sound codec store disk) :
    store.load codec disk.files = .ok disk.committed.head? := by
  cases hhead : disk.committed.head? with
  | none =>
      have hnone : disk.files store.path = none := by rw [h.main, hhead]; rfl
      rw [FileRecoveryStore.load, hnone]
  | some checkpoint =>
      have hmem := List.mem_of_head? hhead
      obtain ⟨bytes, hbytes, hread⟩ := h.reads_back checkpoint (h.offered hmem)
      have hmain : disk.files store.path = some bytes := by rw [h.main, hhead]; exact hbytes
      exact load_eq (h.acceptable checkpoint hmem) ⟨bytes, hmain, hread⟩

end BrowsAI.Recovery
