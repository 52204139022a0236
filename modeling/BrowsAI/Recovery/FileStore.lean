import BrowsAI.Profiles.Identity
import BrowsAI.Recovery.State
import Mathlib.Data.List.Infix
import Mathlib.Logic.Function.Basic

/-!
# The recovery store in files

`FileRecoveryStore` of `crates/recovery`, over a file system that is a map from paths to contents.
Writing, copying, and renaming a file succeed there when the file is there, and directories always
exist. The checkpoint library and the hash are the parameter `Codec`; a reading of the clock is an
argument.
-/

namespace BrowsAI.Recovery

open Utf8 Profiles

/-- The contents of a file. -/
abbrev Bytes := List UInt8

/-! ## Checkpoints -/

/-- A session as it is saved. -/
structure SessionCheckpoint where
  id : Uuid
  schemaVersion : UInt16
  profiles : List Text
  windows : List Text
  tabs : List Text
  locks : List Text
  pendingConfirmations : List Text
  state : SessionRecoveryState

/-- A checkpoint with its checksum. -/
structure CheckpointEnvelope where
  checkpoint : SessionCheckpoint
  checksum : UInt64

/-- `serde_json` at checkpoints and envelopes, and the hash of the standard library. -/
structure Codec where
  checkpointToVec : SessionCheckpoint → Bytes
  hash : Bytes → UInt64
  toVec : CheckpointEnvelope → Option Bytes
  fromSlice : Bytes → Option CheckpointEnvelope

namespace Codec

/-- The hash of a checkpoint's bytes. -/
def checksum (codec : Codec) (checkpoint : SessionCheckpoint) : UInt64 :=
  codec.hash (codec.checkpointToVec checkpoint)

/-- The envelope of a checkpoint, with its checksum. -/
def envelope (codec : Codec) (checkpoint : SessionCheckpoint) : CheckpointEnvelope :=
  ⟨checkpoint, codec.checksum checkpoint⟩

/-- The envelope of the checkpoint is written and read back. -/
def ReadsBack (codec : Codec) (checkpoint : SessionCheckpoint) : Prop :=
  ∃ bytes, codec.toVec (codec.envelope checkpoint) = some bytes ∧
    codec.fromSlice bytes = some (codec.envelope checkpoint)

end Codec

/-! ## Files -/

/-- A path: what is before the file name, and the file name, if it has one. -/
structure Path where
  parent : Text
  fileName : Option Text
  deriving DecidableEq

/-- The file name without its extension. -/
def fileStem (name : Text) : Text :=
  match name.reverse.dropWhile fun c => c ≠ '.' with
  | [] => name
  | _ :: before => if before = [] then name else before.reverse

/-- `Path::with_extension`, for an extension that is not empty. -/
def Path.withExtension (path : Path) (extension : Text) : Path :=
  { path with fileName := path.fileName.map fun name => fileStem name ++ '.' :: extension }

/-- The files by path. -/
abbrev FileSystem := Path → Option Bytes

namespace FileSystem

/-- There is a file. -/
def pathExists (fs : FileSystem) (path : Path) : Bool := (fs path).isSome

/-- Writes a file. -/
def write (fs : FileSystem) (path : Path) (bytes : Bytes) : FileSystem :=
  Function.update fs path (some bytes)

/-- Removes a file. -/
def remove (fs : FileSystem) (path : Path) : FileSystem := Function.update fs path none

/-- Moves a file over another one. -/
def rename (fs : FileSystem) (source destination : Path) : Except RecoveryError Unit × FileSystem :=
  match fs source with
  | none => (.error .io, fs)
  | some bytes => (.ok (), (fs.remove source).write destination bytes)

/-- Copies a file over another one. -/
def copy (fs : FileSystem) (source destination : Path) : Except RecoveryError Unit × FileSystem :=
  match fs source with
  | none => (.error .io, fs)
  | some bytes => (.ok (), fs.write destination bytes)

theorem write_self (fs : FileSystem) (path : Path) (bytes : Bytes) :
    fs.write path bytes path = some bytes :=
  Function.update_self _ _ _

theorem write_of_ne (fs : FileSystem) {path other : Path} (h : other ≠ path) (bytes : Bytes) :
    fs.write path bytes other = fs other :=
  Function.update_of_ne h _ _

theorem remove_self (fs : FileSystem) (path : Path) : fs.remove path path = none :=
  Function.update_self _ _ _

theorem remove_of_ne (fs : FileSystem) {path other : Path} (h : other ≠ path) :
    fs.remove path other = fs other :=
  Function.update_of_ne h _ _

end FileSystem

/-! ## The store -/

/-- The newest version that is read, and how many backups are kept. -/
structure RecoveryFileOptions where
  supportedVersion : UInt16
  backupRetention : Nat

/-- `RecoveryFileOptions::default()`. -/
instance : Inhabited RecoveryFileOptions := ⟨⟨1, 2⟩⟩

/-- Where sessions are saved. -/
structure FileRecoveryStore where
  path : Path
  options : RecoveryFileOptions

namespace FileRecoveryStore

/-- The file that marks a save. -/
def lockPath (store : FileRecoveryStore) : Path := store.path.withExtension "lock"

/-- The backup with a number; the newest is 0. -/
def backupPath (store : FileRecoveryStore) (index : Nat) : Path :=
  store.path.withExtension ("bak" ++ ofNat index)

/-- The temporary file of a save at a reading of the clock. -/
def temporaryPath (store : FileRecoveryStore) (suffix : Nat) : Path :=
  store.path.withExtension ("tmp-" ++ ofNat suffix)

/-- The temporary file of a restore at a reading of the clock. -/
def restorePath (store : FileRecoveryStore) (suffix : Nat) : Path :=
  store.path.withExtension ("restore-tmp-" ++ ofNat suffix)

/-- The loop of `rotate_backups`. -/
def rotateFrom (store : FileRecoveryStore) :
    List Nat → FileSystem → Except RecoveryError Unit × FileSystem
  | [], fs => (.ok (), fs)
  | index :: indexes, fs =>
      if fs.pathExists (store.backupPath (index - 1)) then
        match fs.rename (store.backupPath (index - 1)) (store.backupPath index) with
        | (.error error, fs) => (.error error, fs)
        | (.ok (), fs) => store.rotateFrom indexes fs
      else store.rotateFrom indexes fs

/-- Moves every backup on by one, and copies the file to the first. -/
def rotateBackups (store : FileRecoveryStore) (fs : FileSystem) :
    Except RecoveryError Unit × FileSystem :=
  if store.options.backupRetention = 0 then (.ok (), fs)
  else
    match store.rotateFrom (List.range' 1 (store.options.backupRetention - 1)).reverse fs with
    | (.error error, fs) => (.error error, fs)
    | (.ok (), fs) =>
        if fs.pathExists store.path then fs.copy store.path (store.backupPath 0) else (.ok (), fs)

section Codecs

variable (codec : Codec)

/-- A save by the owner of the lock. -/
def saveLocked (store : FileRecoveryStore) (suffix : Nat) (checkpoint : SessionCheckpoint)
    (fs : FileSystem) : Except RecoveryError Unit × FileSystem :=
  if checkpoint.schemaVersion > store.options.supportedVersion then
    (.error .unsupportedVersion, fs)
  else
    match checkpoint.state.validate with
    | .error error => (.error error, fs)
    | .ok () =>
        match codec.toVec (codec.envelope checkpoint) with
        | none => (.error .serialization, fs)
        | some bytes =>
            let fs := fs.write (store.temporaryPath suffix) bytes
            let (rotated, fs) :=
              if fs.pathExists store.path then store.rotateBackups fs else (.ok (), fs)
            match rotated with
            | .error error => (.error error, fs)
            | .ok () => fs.rename (store.temporaryPath suffix) store.path

/-- A save, which takes the lock and gives it back however it ends. -/
def save (store : FileRecoveryStore) (suffix : Nat) (checkpoint : SessionCheckpoint)
    (fs : FileSystem) : Except RecoveryError Unit × FileSystem :=
  if fs.pathExists store.lockPath then (.error .lockHeld, fs)
  else
    let (result, fs) := store.saveLocked codec suffix checkpoint (fs.write store.lockPath [])
    (result, fs.remove store.lockPath)

/-- What `load` and `restore_backup` check of the bytes of a file. -/
def readEnvelope (store : FileRecoveryStore) (bytes : Bytes) :
    Except RecoveryError CheckpointEnvelope :=
  match codec.fromSlice bytes with
  | none => .error .serialization
  | some envelope =>
      if envelope.checkpoint.schemaVersion > store.options.supportedVersion then
        .error .unsupportedVersion
      else if codec.checksum envelope.checkpoint ≠ envelope.checksum then .error .corruptCheckpoint
      else
        match envelope.checkpoint.state.validate with
        | .error error => .error error
        | .ok () => .ok envelope

/-- The checkpoint of the file. -/
def load (store : FileRecoveryStore) (fs : FileSystem) :
    Except RecoveryError (Option SessionCheckpoint) :=
  match fs store.path with
  | none => .ok none
  | some bytes =>
      match store.readEnvelope codec bytes with
      | .error error => .error error
      | .ok envelope => .ok (some envelope.checkpoint)

/-- Puts the newest backup in the place of the file, if it can be read. -/
def restoreBackup (store : FileRecoveryStore) (suffix : Nat) (fs : FileSystem) :
    Except RecoveryError Bool × FileSystem :=
  match fs (store.backupPath 0) with
  | none => (.ok false, fs)
  | some bytes =>
      match store.readEnvelope codec bytes with
      | .error error => (.error error, fs)
      | .ok _ =>
          let fs := fs.write (store.restorePath suffix) bytes
          match fs.rename (store.restorePath suffix) store.path with
          | (.error error, fs) => (.error error, fs)
          | (.ok (), fs) => (.ok true, fs)

end Codecs

end FileRecoveryStore

end BrowsAI.Recovery
