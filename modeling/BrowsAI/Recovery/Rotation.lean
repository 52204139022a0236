import BrowsAI.Library.Runs
import BrowsAI.Recovery.FileStore
import Std.Data.String.ToNat

/-!
# The rotation of backups

A save moves every backup one place on, from the oldest to the newest, and the main file into the
first place. After any saves the main file has the checkpoint accepted last, and the backups have
those before it, up to the retention.
-/

namespace BrowsAI.Recovery

open Utf8 Profiles

/-! ## Paths -/

/-- Files that differ in their extension differ. -/
theorem Path.with_extension_inj {path : Path} {first second : Text}
    (hpath : path.withExtension first ≠ path)
    (heq : path.withExtension first = path.withExtension second) : first = second := by
  obtain ⟨parent, _ | name⟩ := path
  · exact absurd rfl hpath
  · have hname := Option.some.inj (congrArg Path.fileName heq)
    exact (List.cons.inj (List.append_cancel_left hname)).2

namespace FileRecoveryStore

variable {store : FileRecoveryStore}

/-- The lock, the backups, and the temporary files are not the main file. -/
structure Separate (store : FileRecoveryStore) : Prop where
  lock : store.lockPath ≠ store.path
  backup : ∀ index, store.backupPath index ≠ store.path
  temporary : ∀ suffix, store.temporaryPath suffix ≠ store.path
  restore : ∀ suffix, store.restorePath suffix ≠ store.path

theorem Separate.backup_inj (hs : store.Separate) {first second : Nat}
    (h : store.backupPath first = store.backupPath second) : first = second :=
  of_nat_inj (List.append_cancel_left (Path.with_extension_inj (hs.backup first) h))

theorem Separate.lock_ne_backup (hs : store.Separate) (index : Nat) :
    store.lockPath ≠ store.backupPath index := fun h =>
  absurd (congrArg List.head? (Path.with_extension_inj hs.lock h)) (by simp)

theorem Separate.temporary_ne_backup (hs : store.Separate) (suffix index : Nat) :
    store.temporaryPath suffix ≠ store.backupPath index := fun h =>
  absurd (congrArg List.head? (Path.with_extension_inj (hs.temporary suffix) h)) (by simp)

theorem Separate.temporary_ne_lock (hs : store.Separate) (suffix : Nat) :
    store.temporaryPath suffix ≠ store.lockPath := fun h =>
  absurd (congrArg List.head? (Path.with_extension_inj (hs.temporary suffix) h)) (by simp)

/-! ## Moving the backups -/

/-- A backup is followed by no other once one is missing. -/
def Packed (store : FileRecoveryStore) (fs : FileSystem) : Prop :=
  ∀ index, fs (store.backupPath index) = none → fs (store.backupPath (index + 1)) = none

/-- What the backup of an index gets in a rotation. -/
def shifted (store : FileRecoveryStore) (fs : FileSystem) : Nat → Option Bytes
  | 0 => fs store.path
  | index + 1 => fs (store.backupPath index)

/-- The loop moves the backups below an index one place on, and touches no others. -/
theorem rotate_from_spec (hs : store.Separate) (count : Nat) (fs : FileSystem)
    (hpacked : ∀ index < count, fs (store.backupPath index) = none →
      fs (store.backupPath (index + 1)) = none) :
    ∃ fs', store.rotateFrom (List.range' 1 count).reverse fs = (.ok (), fs') ∧
      (∀ index < count, fs' (store.backupPath (index + 1)) = fs (store.backupPath index)) ∧
      ∀ path, (∀ index ≤ count, path ≠ store.backupPath index) → fs' path = fs path := by
  -- the loop begins with the oldest backup, so the induction is on the number of turns
  induction count generalizing fs with
  | zero => exact ⟨fs, rfl, nofun, fun _ _ => rfl⟩
  | succ count ih =>
      have hne : ∀ {index other : Nat}, index ≠ other →
          store.backupPath index ≠ store.backupPath other := fun h heq => h (hs.backup_inj heq)
      have hturns : (List.range' 1 (count + 1)).reverse =
          (count + 1) :: (List.range' 1 count).reverse := by
        rw [List.range'_concat, List.reverse_concat, Nat.one_mul, Nat.add_comm]
      rw [hturns, rotateFrom, Nat.add_sub_cancel]
      cases hsource : fs (store.backupPath count) with
      | none =>
          obtain ⟨fs', hrun, hmoved, hkept⟩ := ih fs fun index hlt =>
            hpacked index (Nat.lt_succ_of_lt hlt)
          refine ⟨fs', ?_, fun index hlt => ?_, fun path hpath => ?_⟩
          · simp [FileSystem.pathExists, hsource, hrun]
          · rcases Nat.lt_succ_iff_lt_or_eq.mp hlt with hlt | rfl
            · exact hmoved index hlt
            · rw [hkept _ fun other hle => hne (by omega), hsource,
                hpacked index (Nat.lt_succ_self index) hsource]
          · exact hkept path fun index hle => hpath index (Nat.le_succ_of_le hle)
      | some bytes =>
          let moved := (fs.remove (store.backupPath count)).write (store.backupPath (count + 1)) bytes
          have hother : ∀ index < count,
              moved (store.backupPath index) = fs (store.backupPath index) := fun index hlt =>
            (FileSystem.write_of_ne _ (hne (by omega)) bytes).trans
              (fs.remove_of_ne (hne (Nat.ne_of_lt hlt)))
          have hgone : moved (store.backupPath count) = none :=
            (FileSystem.write_of_ne _ (hne (by omega)) bytes).trans (fs.remove_self _)
          obtain ⟨fs', hrun, hmoved, hkept⟩ := ih moved fun index hlt hnone => by
            rcases Nat.lt_or_eq_of_le (Nat.succ_le_of_lt hlt) with hlt' | heq
            · rw [hother _ hlt']
              exact hpacked index (Nat.lt_succ_of_lt hlt) ((hother index hlt).symm.trans hnone)
            · rw [← Nat.succ_eq_add_one, heq]
              exact hgone
          refine ⟨fs', ?_, fun index hlt => ?_, fun path hpath => ?_⟩
          · simp only [FileSystem.pathExists, hsource, Option.isSome_some, if_true, FileSystem.rename]
            exact hrun
          · rcases Nat.lt_succ_iff_lt_or_eq.mp hlt with hlt | rfl
            · exact (hmoved index hlt).trans (hother index hlt)
            · rw [hkept _ fun other hle => hne (by omega), hsource]
              exact FileSystem.write_self _ _ bytes
          · rw [hkept path fun index hle => hpath index (Nat.le_succ_of_le hle)]
            exact (FileSystem.write_of_ne _ (hpath _ (Nat.le_refl _)) bytes).trans
              (fs.remove_of_ne (hpath _ (Nat.le_succ _)))

/-- A rotation moves the main file into the first backup and every backup one place on, and drops
the last. -/
theorem rotate_backups_spec (hs : store.Separate) {fs : FileSystem} (hpacked : store.Packed fs)
    {bytes : Bytes} (hmain : fs store.path = some bytes) :
    ∃ fs', store.rotateBackups fs = (.ok (), fs') ∧
      (∀ index, fs' (store.backupPath index) =
        if index < store.options.backupRetention then store.shifted fs index
        else fs (store.backupPath index)) ∧
      ∀ path, (∀ index, path ≠ store.backupPath index) → fs' path = fs path := by
  rw [rotateBackups]
  split_ifs with hnone
  · exact ⟨fs, rfl, fun index => by rw [hnone, if_neg (Nat.not_lt_zero _)], fun _ _ => rfl⟩
  · obtain ⟨rotated, hrun, hmoved, hkept⟩ := rotate_from_spec hs
      (store.options.backupRetention - 1) fs fun index _ => hpacked index
    have hstill : rotated store.path = some bytes :=
      (hkept store.path fun index _ => (hs.backup index).symm).trans hmain
    refine ⟨rotated.write (store.backupPath 0) bytes, ?_, fun index => ?_, fun path hpath => ?_⟩
    · rw [hrun]
      simp [FileSystem.pathExists, FileSystem.copy, hstill]
    · cases index with
      | zero =>
          rw [if_pos (Nat.pos_of_ne_zero hnone), shifted, hmain]
          exact rotated.write_self _ bytes
      | succ index =>
          have hne : store.backupPath (index + 1) ≠ store.backupPath 0 := fun h =>
            Nat.succ_ne_zero index (hs.backup_inj h)
          rw [rotated.write_of_ne hne]
          split_ifs with hlt
          · exact hmoved index (by omega)
          · exact hkept _ fun other hle h => by have := hs.backup_inj h; omega
    · rw [rotated.write_of_ne (hpath 0)]
      exact hkept path fun index _ => hpath index

/-! ## A save -/

/-- The version of a checkpoint is supported, and its state valid. -/
def Acceptable (store : FileRecoveryStore) (checkpoint : SessionCheckpoint) : Prop :=
  checkpoint.schemaVersion ≤ store.options.supportedVersion ∧ checkpoint.state.validate = .ok ()

/-- A renamed file has the contents of the other one. -/
theorem rename_spec {fs : FileSystem} {source : Path} (destination : Path) {bytes : Bytes}
    (hsource : fs source = some bytes) :
    ∃ fs', fs.rename source destination = (.ok (), fs') ∧ fs' destination = some bytes ∧
      ∀ path, path ≠ source → path ≠ destination → fs' path = fs path := by
  refine ⟨(fs.remove source).write destination bytes, ?_, FileSystem.write_self _ _ bytes,
    fun path hsame hother => ?_⟩
  · rw [FileSystem.rename, hsource]
  · exact (FileSystem.write_of_ne _ hother bytes).trans (fs.remove_of_ne hsame)

/-- Before the rename the backups are rotated if there is a main file. -/
theorem rotate_if_exists (hs : store.Separate) (fs : FileSystem) (hpacked : store.Packed fs) :
    ∃ fs', (if fs.pathExists store.path then store.rotateBackups fs else (.ok (), fs)) =
        (.ok (), fs') ∧
      (∀ index, fs' (store.backupPath index) =
        if (fs store.path).isSome ∧ index < store.options.backupRetention then
          store.shifted fs index
        else fs (store.backupPath index)) ∧
      ∀ path, (∀ index, path ≠ store.backupPath index) → fs' path = fs path := by
  rw [FileSystem.pathExists]
  cases hmain : fs store.path with
  | none => exact ⟨fs, rfl, fun index => by simp, fun _ _ => rfl⟩
  | some bytes =>
      obtain ⟨fs', hrun, hmoved, hkept⟩ := rotate_backups_spec hs hpacked hmain
      exact ⟨fs', hrun, fun index => by simp [hmoved], hkept⟩

/-- A save fails and changes nothing, or writes the file behind a rotation of the backups. -/
theorem save_locked_cases (codec : Codec) (hs : store.Separate) {fs : FileSystem}
    (hpacked : store.Packed fs) (suffix : Nat) (checkpoint : SessionCheckpoint) :
    (∃ error, store.saveLocked codec suffix checkpoint fs = (.error error, fs) ∧
        (store.Acceptable checkpoint → codec.toVec (codec.envelope checkpoint) = none)) ∨
      store.Acceptable checkpoint ∧ ∃ bytes fs',
        codec.toVec (codec.envelope checkpoint) = some bytes ∧
        store.saveLocked codec suffix checkpoint fs = (.ok (), fs') ∧
        fs' store.path = some bytes ∧ fs' store.lockPath = fs store.lockPath ∧
        ∀ index, fs' (store.backupPath index) =
          if (fs store.path).isSome ∧ index < store.options.backupRetention then
            store.shifted fs index
          else fs (store.backupPath index) := by
  by_cases hversion : checkpoint.schemaVersion > store.options.supportedVersion
  · exact .inl ⟨_, if_pos hversion, fun h => absurd hversion (UInt16.not_lt.mpr h.1)⟩
  rw [saveLocked, if_neg hversion]
  cases hvalid : checkpoint.state.validate with
  | error error =>
      refine .inl ⟨error, rfl, fun h => ?_⟩
      rw [h.2] at hvalid
      cases hvalid
  | ok =>
      cases hbytes : codec.toVec (codec.envelope checkpoint) with
      | none => exact .inl ⟨_, rfl, fun _ => rfl⟩
      | some bytes =>
          refine .inr ⟨⟨UInt16.not_lt.mp hversion, hvalid⟩, bytes, ?_⟩
          dsimp only
          have htemporary : ∀ index, (fs.write (store.temporaryPath suffix) bytes)
              (store.backupPath index) = fs (store.backupPath index) := fun index =>
            fs.write_of_ne (hs.temporary_ne_backup suffix index).symm bytes
          have hmain : (fs.write (store.temporaryPath suffix) bytes) store.path = fs store.path :=
            fs.write_of_ne (hs.temporary suffix).symm bytes
          have hlock : (fs.write (store.temporaryPath suffix) bytes) store.lockPath =
              fs store.lockPath :=
            fs.write_of_ne (hs.temporary_ne_lock suffix).symm bytes
          have hshifted : ∀ index, store.shifted (fs.write (store.temporaryPath suffix) bytes)
              index = store.shifted fs index := by
            rintro (_ | index)
            · exact hmain
            · exact htemporary index
          obtain ⟨rotated, hrotate, hbackups, hkept⟩ := rotate_if_exists hs
            (fs.write (store.temporaryPath suffix) bytes) fun index hnone => by
              rw [htemporary] at hnone ⊢
              exact hpacked index hnone
          obtain ⟨fs', hrename, hnew, hother⟩ := rename_spec store.path
            ((hkept _ (hs.temporary_ne_backup suffix)).trans (fs.write_self _ bytes))
          refine ⟨fs', rfl, ?_, hnew, ?_, fun index => ?_⟩
          · rw [hrotate]
            exact hrename
          · rw [hother _ (hs.temporary_ne_lock suffix).symm hs.lock,
              hkept _ hs.lock_ne_backup, hlock]
          · rw [hother _ (hs.temporary_ne_backup suffix index).symm (hs.backup index), hbackups,
              hshifted, htemporary, hmain]

/-- A save changes nothing, or puts the checkpoint into the main file and rotates the backups. -/
theorem save_cases (codec : Codec) (hs : store.Separate) {fs : FileSystem}
    (hpacked : store.Packed fs) (hlock : fs store.lockPath = none) (suffix : Nat)
    (checkpoint : SessionCheckpoint) :
    (∃ error, store.save codec suffix checkpoint fs = (.error error, fs) ∧
        (store.Acceptable checkpoint → codec.toVec (codec.envelope checkpoint) = none)) ∨
      store.Acceptable checkpoint ∧ ∃ bytes fs',
        codec.toVec (codec.envelope checkpoint) = some bytes ∧
        store.save codec suffix checkpoint fs = (.ok (), fs') ∧
        fs' store.path = some bytes ∧ fs' store.lockPath = none ∧
        ∀ index, fs' (store.backupPath index) =
          if (fs store.path).isSome ∧ index < store.options.backupRetention then
            store.shifted fs index
          else fs (store.backupPath index) := by
  have hbackup : ∀ index, (fs.write store.lockPath []) (store.backupPath index) =
      fs (store.backupPath index) := fun index =>
    fs.write_of_ne (hs.lock_ne_backup index).symm []
  have hmain : (fs.write store.lockPath []) store.path = fs store.path :=
    fs.write_of_ne hs.lock.symm []
  have hshifted : ∀ index,
      store.shifted (fs.write store.lockPath []) index = store.shifted fs index := by
    rintro (_ | index)
    · exact hmain
    · exact hbackup index
  have hpacked' : store.Packed (fs.write store.lockPath []) := fun index hnone => by
    rw [hbackup] at hnone ⊢
    exact hpacked index hnone
  have hfree : ¬ fs.pathExists store.lockPath := by simp [FileSystem.pathExists, hlock]
  rw [save, if_neg hfree]
  obtain ⟨error, hcall, hwhy⟩ | ⟨haccept, bytes, fs', hbytes, hcall, hnew, -, hbackups⟩ :=
    save_locked_cases codec hs hpacked' suffix checkpoint
  · refine .inl ⟨error, ?_, hwhy⟩
    have hsame : (fs.write store.lockPath []).remove store.lockPath = fs := by
      funext path
      by_cases hpath : path = store.lockPath
      · rw [hpath, FileSystem.remove_self, hlock]
      · rw [FileSystem.remove_of_ne _ hpath, FileSystem.write_of_ne _ hpath]
    rw [hcall]
    exact congrArg _ hsame
  · refine .inr ⟨haccept, bytes, fs'.remove store.lockPath, hbytes, ?_, ?_,
      fs'.remove_self _, fun index => ?_⟩
    · rw [hcall]
    · rw [fs'.remove_of_ne hs.lock.symm, hnew]
    · rw [fs'.remove_of_ne (hs.lock_ne_backup index).symm, hbackups, hshifted, hbackup, hmain]

end FileRecoveryStore

end BrowsAI.Recovery
