import BrowsAI.Library.Processes
import BrowsAI.Recovery.Rotation

/-!
# Saves and restores, one file operation at a time

`FileRecoveryStore::save` and `restore_backup` as processes that share the file system. A turn of a
process is one file operation: a file is written in pieces of any size, a rename is one turn, and a
crash stops a process between any two of its turns and leaves the files as they are. A file is looked
at and read in one turn.
-/

namespace BrowsAI.Recovery

open Utf8

/-- The files, with what was handed to a save, what became the main file, and what saves answered,
the last one first. -/
structure Disk where
  files : FileSystem
  offered : List SessionCheckpoint
  committed : List SessionCheckpoint
  answered : List (SessionCheckpoint × Except RecoveryError Unit)

/-- Where a process is in `save` or `restore_backup`. The number is the reading of the clock that
names its temporary file. -/
inductive Stage where
  | idle
  | locking (suffix : Nat) (checkpoint : SessionCheckpoint)
  | creating (suffix : Nat) (checkpoint : SessionCheckpoint)
  | writing (suffix : Nat) (checkpoint : SessionCheckpoint) (bytes : Bytes) (written : Nat)
  | checking (suffix : Nat) (checkpoint : SessionCheckpoint)
  | rotating (suffix : Nat) (checkpoint : SessionCheckpoint) (indexes : List Nat)
  | moving (suffix : Nat) (checkpoint : SessionCheckpoint) (index : Nat) (indexes : List Nat)
  | opening (suffix : Nat) (checkpoint : SessionCheckpoint)
  | copying (suffix : Nat) (checkpoint : SessionCheckpoint) (bytes : Bytes) (written : Nat)
  | committing (suffix : Nat) (checkpoint : SessionCheckpoint)
  | unlocking (checkpoint : SessionCheckpoint) (result : Except RecoveryError Unit)
  | looking (suffix : Nat)
  | restoring (suffix : Nat) (checkpoint : SessionCheckpoint) (bytes : Bytes)
  | refilling (suffix : Nat) (checkpoint : SessionCheckpoint) (bytes : Bytes) (written : Nat)
  | replacing (suffix : Nat) (checkpoint : SessionCheckpoint)

namespace Stage

/-- Between taking the lock and removing it. -/
def inside : Stage → Bool
  | .creating _ _ | .writing _ _ _ _ | .checking _ _ | .rotating _ _ _ | .moving _ _ _ _
  | .opening _ _ | .copying _ _ _ _ | .committing _ _ | .unlocking _ _ => true
  | .idle | .locking _ _ | .looking _ | .restoring _ _ _ | .refilling _ _ _ _
  | .replacing _ _ => false

/-- The clock reading of a restore. -/
def restoreSuffix : Stage → Option Nat
  | .looking suffix | .restoring suffix _ _ | .refilling suffix _ _ _ | .replacing suffix _ =>
      some suffix
  | .idle | .locking _ _ | .creating _ _ | .writing _ _ _ _ | .checking _ _ | .rotating _ _ _
  | .moving _ _ _ _ | .opening _ _ | .copying _ _ _ _ | .committing _ _ | .unlocking _ _ => none

end Stage

/-- What happens next to a process. -/
inductive Turn where
  | save (suffix : Nat) (checkpoint : SessionCheckpoint)
  | restore (suffix : Nat)
  | go (count : Nat)
  | crash

namespace FileRecoveryStore

section Codecs

variable (codec : Codec) (store : FileRecoveryStore)

/-- A file after a piece was written into it at an offset. -/
def writeAt (content : Bytes) (offset : Nat) (piece : Bytes) : Bytes :=
  content.take offset ++ List.replicate (offset - content.length) 0 ++ piece ++
    content.drop (offset + piece.length)

/-- A piece written behind the first bytes of a file gives more of its first bytes. -/
theorem write_at_take {bytes : Bytes} {written : Nat} (h : written ≤ bytes.length) (count : Nat) :
    writeAt (bytes.take written) written ((bytes.drop written).take count) =
      bytes.take (written + count) := by
  have hlength : (bytes.take written).length = written := List.length_take_of_le h
  have hbehind : (bytes.take written).drop
      (written + ((bytes.drop written).take count).length) = [] :=
    List.drop_eq_nil_of_le (hlength.trans_le (Nat.le_add_right _ _))
  rw [writeAt, hlength, Nat.sub_self, List.take_take, Nat.min_self, hbehind, List.append_nil,
    List.replicate_zero, List.append_nil, ← List.take_add]

/-- The next bytes of a file are written behind those that were, and the process goes on when these
were the last ones. -/
def writePiece (disk : Disk) (path : Path) (bytes : Bytes) (written count : Nat)
    (more : Nat → Stage) (done : Stage) : Disk × Stage :=
  let content := writeAt ((disk.files path).getD []) written ((bytes.drop written).take count)
  ({ disk with files := disk.files.write path content },
    if written + count < bytes.length then more (written + count) else done)

/-- A file is renamed; with an error the call goes on as `failed` says. -/
def renameTurn (disk : Disk) (source destination : Path) (failed : RecoveryError → Stage)
    (done : Disk → Disk × Stage) : Disk × Stage :=
  match disk.files.rename source destination with
  | (.error error, files) => ({ disk with files }, failed error)
  | (.ok (), files) => done { disk with files }

/-- The turns of the loop of `rotate_backups`. -/
def rotationTurns : List Nat := (List.range' 1 (store.options.backupRetention - 1)).reverse

/-- The next file operation of a process. -/
def goOn (disk : Disk) (count : Nat) : Stage → Disk × Stage
  | .idle => (disk, .idle)
  | .locking suffix checkpoint =>
      if disk.files.pathExists store.lockPath then
        ({ disk with answered := (checkpoint, .error .lockHeld) :: disk.answered }, .idle)
      else
        ({ disk with files := disk.files.write store.lockPath [] }, .creating suffix checkpoint)
  | .creating suffix checkpoint =>
      if checkpoint.schemaVersion > store.options.supportedVersion then
        (disk, .unlocking checkpoint (.error .unsupportedVersion))
      else
        match checkpoint.state.validate with
        | .error error => (disk, .unlocking checkpoint (.error error))
        | .ok () =>
            match codec.toVec (codec.envelope checkpoint) with
            | none => (disk, .unlocking checkpoint (.error .serialization))
            | some bytes =>
                ({ disk with files := disk.files.write (store.temporaryPath suffix) [] },
                  .writing suffix checkpoint bytes 0)
  | .writing suffix checkpoint bytes written =>
      writePiece disk (store.temporaryPath suffix) bytes written count
        (.writing suffix checkpoint bytes) (.checking suffix checkpoint)
  | .checking suffix checkpoint =>
      -- `rotate_backups` returns at once when no backups are kept
      if disk.files.pathExists store.path ∧ store.options.backupRetention ≠ 0 then
        (disk, .rotating suffix checkpoint store.rotationTurns)
      else (disk, .committing suffix checkpoint)
  | .rotating suffix checkpoint [] =>
      if disk.files.pathExists store.path then (disk, .opening suffix checkpoint)
      else (disk, .committing suffix checkpoint)
  | .rotating suffix checkpoint (index :: indexes) =>
      if disk.files.pathExists (store.backupPath (index - 1)) then
        (disk, .moving suffix checkpoint index indexes)
      else (disk, .rotating suffix checkpoint indexes)
  | .moving suffix checkpoint index indexes =>
      renameTurn disk (store.backupPath (index - 1)) (store.backupPath index)
        (fun error => .unlocking checkpoint (.error error))
        (fun disk => (disk, .rotating suffix checkpoint indexes))
  | .opening suffix checkpoint =>
      match disk.files store.path with
      | none => (disk, .unlocking checkpoint (.error .io))
      | some bytes =>
          ({ disk with files := disk.files.write (store.backupPath 0) [] },
            .copying suffix checkpoint bytes 0)
  | .copying suffix checkpoint bytes written =>
      writePiece disk (store.backupPath 0) bytes written count
        (.copying suffix checkpoint bytes) (.committing suffix checkpoint)
  | .committing suffix checkpoint =>
      renameTurn disk (store.temporaryPath suffix) store.path
        (fun error => .unlocking checkpoint (.error error))
        (fun disk => ({ disk with committed := checkpoint :: disk.committed },
          .unlocking checkpoint (.ok ())))
  | .unlocking checkpoint result =>
      ({ disk with
          files := disk.files.remove store.lockPath
          answered := (checkpoint, result) :: disk.answered }, .idle)
  | .looking suffix =>
      match disk.files (store.backupPath 0) with
      | none => (disk, .idle)
      | some bytes =>
          match store.readEnvelope codec bytes with
          | .error _ => (disk, .idle)
          | .ok envelope => (disk, .restoring suffix envelope.checkpoint bytes)
  | .restoring suffix checkpoint bytes =>
      ({ disk with files := disk.files.write (store.restorePath suffix) [] },
        .refilling suffix checkpoint bytes 0)
  | .refilling suffix checkpoint bytes written =>
      writePiece disk (store.restorePath suffix) bytes written count
        (.refilling suffix checkpoint bytes) (.replacing suffix checkpoint)
  | .replacing suffix checkpoint =>
      renameTurn disk (store.restorePath suffix) store.path (fun _ => .idle)
        (fun disk => ({ disk with committed := checkpoint :: disk.committed }, .idle))

/-- What a process does in its turn. -/
def act (disk : Disk) : Stage → Turn → Disk × Stage
  | .idle, .save suffix checkpoint =>
      ({ disk with offered := checkpoint :: disk.offered }, .locking suffix checkpoint)
  | .idle, .restore suffix => (disk, .looking suffix)
  | stage, .go count => store.goOn codec disk count stage
  | _, .crash => (disk, .idle)
  -- a process that is busy begins no other call
  | stage, _ => (disk, stage)

/-- The processes of the store, with any number as the name of a process. What is saved is read
back, and no two restores that run at the same time read the same time on the clock. -/
def processes : Processes Nat Disk Stage Turn where
  act := store.act codec
  Allowed _ stage p
    | .save _ checkpoint => codec.ReadsBack checkpoint
    | .restore suffix => ∀ q, q ≠ p → (stage q).restoreSuffix ≠ some suffix
    | .go _ | .crash => True

end Codecs

end FileRecoveryStore

/-- No process is in a call, and nothing happened yet. -/
def fresh (files : FileSystem) : Processes.World Nat Disk Stage :=
  ⟨⟨files, [], [], []⟩, fun _ => .idle⟩

end BrowsAI.Recovery

/-!
## A save that is not interrupted

The file operations of one save, with none of another process in between, leave the files as the
call `FileRecoveryStore.save` leaves them, and give its answer, into however many pieces the writes
are cut.
-/

namespace BrowsAI.Recovery

open Utf8

variable {codec : Codec} {store : FileRecoveryStore} {last : Disk}

/-- However many bytes each write writes, the file operations of one process end its call, with this
disk. -/
inductive Settles (codec : Codec) (store : FileRecoveryStore) (last : Disk) : Disk × Stage → Prop
  | idle : Settles codec store last (last, .idle)
  | step {s : Disk × Stage}
      (next : ∀ count, Settles codec store last (store.goOn codec s.1 (count + 1) s.2)) :
      Settles codec store last s

/-- A file operation that writes no piece. -/
theorem Settles.single {disk : Disk} {stage : Stage} {t : Disk × Stage}
    (hgo : ∀ count, store.goOn codec disk count stage = t) (ht : Settles codec store last t) :
    Settles codec store last (disk, stage) :=
  .step fun count => (hgo (count + 1)).symm ▸ ht

/-- The process may take its turns with any pieces, and any number of turns after the call. -/
theorem Settles.exists_turns {s : Disk × Stage} (h : Settles codec store last s)
    (stages : Nat → Stage) (p : Nat) (counts : Nat → Nat) :
    ∃ n, ∀ m ≥ n, (store.processes codec).machine.run ⟨s.1, Function.update stages p s.2⟩
        ((List.range m).map fun i => (p, .go (counts i + 1))) =
      ⟨last, Function.update stages p .idle⟩ := by
  have hturn : ∀ s : Disk × Stage, ∀ count,
      (store.processes codec).machine.step ⟨s.1, Function.update stages p s.2⟩ (p, .go count) =
        ⟨(store.goOn codec s.1 count s.2).1,
          Function.update stages p (store.goOn codec s.1 count s.2).2⟩ := by
    intro s count
    have hact : store.act codec s.1 s.2 (.go count) = store.goOn codec s.1 count s.2 := by
      cases s.2 <;> rfl
    rw [← hact]
    exact (store.processes codec).turn_update s.1 stages p s.2 (.go count)
  induction h generalizing counts with
  | idle =>
      refine ⟨0, fun m hm => ?_⟩
      induction m generalizing counts with
      | zero => rfl
      | succ m ih =>
          rw [List.range_succ_eq_map, List.map_cons, List.map_map, Machine.run,
            hturn (last, .idle)]
          exact ih (fun i => counts (i + 1)) (Nat.zero_le m)
  | @step s _ ih =>
      obtain ⟨n, hn⟩ := ih (counts 0) fun i => counts (i + 1)
      refine ⟨n + 1, fun m hm => ?_⟩
      obtain ⟨m, rfl⟩ := Nat.exists_eq_add_of_le' (Nat.le_of_add_left_le hm)
      rw [List.range_succ_eq_map, List.map_cons, List.map_map, Machine.run, hturn s]
      exact hn m (Nat.le_of_succ_le_succ hm)

namespace FileRecoveryStore

/-- A file of which some bytes are written is written in the end. -/
theorem settles_write_piece {disk : Disk} {path : Path} {bytes : Bytes} {done : Stage}
    {more : Nat → Stage}
    (hstage : ∀ disk written count, store.goOn codec disk count (more written) =
      writePiece disk path bytes written count more done)
    (hdone : Settles codec store last
      ({ disk with files := disk.files.write path bytes }, done))
    {written : Nat} (hwritten : written ≤ bytes.length) :
    Settles codec store last
      ({ disk with files := disk.files.write path (bytes.take written) }, more written) := by
  refine .step fun count => ?_
  rw [hstage, writePiece]
  dsimp only
  rw [disk.files.write_self, Option.getD_some, write_at_take hwritten]
  simp only [FileSystem.write, Function.update_idem]
  split_ifs with hmore
  · exact settles_write_piece hstage hdone hmore.le
  · rw [List.take_of_length_le (Nat.le_of_not_lt hmore)]
    exact hdone
termination_by bytes.length - written

/-- The turns of the loop move the files as the loop does. -/
theorem settles_rotate_from (suffix : Nat) (checkpoint : SessionCheckpoint) (indexes : List Nat)
    (disk : Disk)
    (hnext : Settles codec store last
      (match store.rotateFrom indexes disk.files with
        | (.error error, files) => ({ disk with files }, .unlocking checkpoint (.error error))
        | (.ok (), files) => ({ disk with files }, .rotating suffix checkpoint []))) :
    Settles codec store last (disk, .rotating suffix checkpoint indexes) := by
  induction indexes generalizing disk with
  | nil => exact hnext
  | cons index indexes ih =>
      rw [rotateFrom] at hnext
      by_cases hexists : disk.files.pathExists (store.backupPath (index - 1)) = true
      · rw [if_pos hexists] at hnext
        refine .single (fun _ => by rw [goOn, if_pos hexists]) ?_
        cases hrename : disk.files.rename (store.backupPath (index - 1)) (store.backupPath index) with
        | mk result files =>
            rw [hrename] at hnext
            cases result with
            | error error => exact .single (fun _ => by rw [goOn, renameTurn, hrename]) hnext
            | ok =>
                refine .single (fun _ => ?_) (ih { disk with files } hnext)
                rw [goOn, renameTurn, hrename]
      · rw [if_neg hexists] at hnext
        exact .single (fun _ => by rw [goOn, if_neg hexists]) (ih disk hnext)

/-- The turns behind the loop copy the main file as the call does. -/
theorem settles_copy (suffix : Nat) (checkpoint : SessionCheckpoint) (disk : Disk)
    (hnext : Settles codec store last
      (match (if disk.files.pathExists store.path then
          disk.files.copy store.path (store.backupPath 0) else (.ok (), disk.files)) with
        | (.error error, files) => ({ disk with files }, .unlocking checkpoint (.error error))
        | (.ok (), files) => ({ disk with files }, .committing suffix checkpoint))) :
    Settles codec store last (disk, .rotating suffix checkpoint []) := by
  by_cases hexists : disk.files.pathExists store.path = true
  · rw [if_pos hexists, FileSystem.copy] at hnext
    refine .single (fun _ => by rw [goOn, if_pos hexists]) ?_
    cases hmain : disk.files store.path with
    | none =>
        rw [hmain] at hnext
        exact .single (fun _ => by simp only [goOn, hmain]) hnext
    | some bytes =>
        rw [hmain] at hnext
        have hopen : ∀ count, store.goOn codec disk count (.opening suffix checkpoint) =
            ({ disk with files := disk.files.write (store.backupPath 0) [] },
              .copying suffix checkpoint bytes 0) := by
          intro count
          simp only [goOn, hmain]
        exact .single hopen (settles_write_piece (fun _ _ _ => rfl) hnext (Nat.zero_le _))
  · rw [if_neg hexists] at hnext
    exact .single (fun _ => by rw [goOn, if_neg hexists]) hnext

/-- The turns from the check of the main file on rotate the backups as the call does. -/
theorem settles_rotate (suffix : Nat) (checkpoint : SessionCheckpoint) (disk : Disk)
    (hnext : Settles codec store last
      (match (if disk.files.pathExists store.path then store.rotateBackups disk.files
          else (.ok (), disk.files)) with
        | (.error error, files) => ({ disk with files }, .unlocking checkpoint (.error error))
        | (.ok (), files) => ({ disk with files }, .committing suffix checkpoint))) :
    Settles codec store last (disk, .checking suffix checkpoint) := by
  by_cases hexists : disk.files.pathExists store.path = true
  · rw [if_pos hexists, rotateBackups] at hnext
    by_cases hretention : store.options.backupRetention = 0
    · rw [if_pos hretention] at hnext
      exact .single (fun _ => by rw [goOn, if_neg fun h => h.2 hretention]) hnext
    · rw [if_neg hretention] at hnext
      refine .single (fun _ => by rw [goOn, if_pos ⟨hexists, hretention⟩]) ?_
      refine settles_rotate_from suffix checkpoint store.rotationTurns disk ?_
      rw [rotationTurns]
      revert hnext
      cases store.rotateFrom (List.range' 1 (store.options.backupRetention - 1)).reverse
          disk.files with
      | mk result files =>
          intro hnext
          cases result with
          | error error => exact hnext
          | ok => exact settles_copy suffix checkpoint { disk with files } hnext
  · rw [if_neg hexists] at hnext
    exact .single (fun _ => by rw [goOn, if_neg fun h => hexists h.1]) hnext

end FileRecoveryStore

/-- The disk after a save: its files, and the checkpoint among those that became the main file, if
the save succeeded. -/
def Disk.saved (disk : Disk) (checkpoint : SessionCheckpoint) :
    Except RecoveryError Unit × FileSystem → Disk
  | (.ok (), files) => { disk with files, committed := checkpoint :: disk.committed }
  | (.error _, files) => { disk with files }

namespace FileRecoveryStore

/-- The turns of `save_locked` leave the files as the call does, and have its result. -/
theorem settles_save_locked (suffix : Nat) (checkpoint : SessionCheckpoint) (disk : Disk)
    (hnext : Settles codec store last
      (disk.saved checkpoint (store.saveLocked codec suffix checkpoint disk.files),
        .unlocking checkpoint (store.saveLocked codec suffix checkpoint disk.files).1)) :
    Settles codec store last (disk, .creating suffix checkpoint) := by
  rw [saveLocked] at hnext
  by_cases hversion : checkpoint.schemaVersion > store.options.supportedVersion
  · rw [if_pos hversion] at hnext
    exact .single (t := (disk, .unlocking checkpoint (.error .unsupportedVersion)))
      (fun _ => by rw [goOn, if_pos hversion]) hnext
  rw [if_neg hversion] at hnext
  cases hvalid : checkpoint.state.validate with
  | error error =>
      rw [hvalid] at hnext
      exact .single (t := (disk, .unlocking checkpoint (.error error)))
        (fun _ => by simp only [goOn, if_neg hversion, hvalid]) hnext
  | ok =>
      rw [hvalid] at hnext
      dsimp only at hnext
      cases hbytes : codec.toVec (codec.envelope checkpoint) with
      | none =>
          rw [hbytes] at hnext
          exact .single (t := (disk, .unlocking checkpoint (.error .serialization)))
            (fun _ => by simp only [goOn, if_neg hversion, hvalid, hbytes]) hnext
      | some bytes =>
          rw [hbytes] at hnext
          dsimp only at hnext
          have hcreate : ∀ count, store.goOn codec disk count (.creating suffix checkpoint) =
              ({ disk with files := disk.files.write (store.temporaryPath suffix) [] },
                .writing suffix checkpoint bytes 0) := by
            intro count
            simp only [goOn, if_neg hversion, hvalid, hbytes]
          refine .single hcreate (settles_write_piece (fun _ _ _ => rfl) ?_ (Nat.zero_le _))
          refine settles_rotate suffix checkpoint
            { disk with files := disk.files.write (store.temporaryPath suffix) bytes } ?_
          dsimp only
          revert hnext
          cases (if (disk.files.write (store.temporaryPath suffix) bytes).pathExists store.path then
            store.rotateBackups (disk.files.write (store.temporaryPath suffix) bytes)
            else (.ok (), disk.files.write (store.temporaryPath suffix) bytes)) with
          | mk result files =>
              intro hnext
              cases result with
              | error error => exact hnext
              | ok =>
                  dsimp only at hnext ⊢
                  cases hrename : files.rename (store.temporaryPath suffix) store.path with
                  | mk result files' =>
                      rw [hrename] at hnext
                      refine .single (fun _ => ?_) hnext
                      cases result with
                      | error error => simp only [goOn, renameTurn, hrename, Disk.saved]
                      | ok => simp only [goOn, renameTurn, hrename, Disk.saved]

/-- The turns of a save leave the files as the call does, and give its answer. -/
theorem settles_save (suffix : Nat) (checkpoint : SessionCheckpoint) (disk : Disk) :
    Settles codec store
      { disk.saved checkpoint (store.save codec suffix checkpoint disk.files) with
        answered :=
          (checkpoint, (store.save codec suffix checkpoint disk.files).1) :: disk.answered }
      (disk, .locking suffix checkpoint) := by
  rw [save]
  by_cases hheld : disk.files.pathExists store.lockPath = true
  · rw [if_pos hheld]
    exact .single (fun _ => by rw [goOn, if_pos hheld]; rfl) .idle
  · rw [if_neg hheld]
    refine .single (fun _ => by rw [goOn, if_neg hheld]) ?_
    refine settles_save_locked suffix checkpoint
      { disk with files := disk.files.write store.lockPath [] } ?_
    dsimp only
    cases store.saveLocked codec suffix checkpoint (disk.files.write store.lockPath []) with
    | mk result files =>
        refine .single (fun _ => rfl) ?_
        cases result with
        | error error => exact .idle
        | ok => exact .idle

end FileRecoveryStore

/-- In any world where a process is in no call, a save by it whose file operations are not
interrupted, however many bytes each of its writes writes, comes to its end with the files and the
answer of the call, and with the other processes where they were. The checkpoint became the main file
exactly if the answer is a success. -/
theorem save_uninterrupted (codec : Codec) (store : FileRecoveryStore) (disk : Disk)
    (stages : Nat → Stage) (p suffix : Nat) (checkpoint : SessionCheckpoint)
    (counts : Nat → Nat) :
    ∃ n, ∀ m ≥ n,
      (store.processes codec).machine.run ⟨disk, Function.update stages p .idle⟩
          ((p, .save suffix checkpoint) ::
            (List.range m).map fun i => (p, .go (counts i + 1))) =
        ⟨{ disk.saved checkpoint (store.save codec suffix checkpoint disk.files) with
            offered := checkpoint :: disk.offered
            answered :=
              (checkpoint, (store.save codec suffix checkpoint disk.files).1) :: disk.answered },
          Function.update stages p .idle⟩ := by
  have hsettles : Settles codec store _ (_, .locking suffix checkpoint) :=
    FileRecoveryStore.settles_save suffix checkpoint { disk with
      offered := checkpoint :: disk.offered }
  obtain ⟨n, hn⟩ := hsettles.exists_turns stages p counts
  refine ⟨n, fun m hm => ?_⟩
  have hcall : (store.processes codec).machine.step ⟨disk, Function.update stages p .idle⟩
      (p, .save suffix checkpoint) = ⟨{ disk with offered := checkpoint :: disk.offered },
        Function.update stages p (.locking suffix checkpoint)⟩ :=
    (store.processes codec).turn_update disk stages p .idle _
  rw [Machine.run, hcall, hn m hm]
  dsimp only
  cases store.save codec suffix checkpoint disk.files with
  | mk result files =>
      cases result with
      | error error => rfl
      | ok => rfl

end BrowsAI.Recovery
