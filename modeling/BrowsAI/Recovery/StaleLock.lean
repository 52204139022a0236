import BrowsAI.Recovery.CrashSafety

/-!
# The lock of the recovery store

The lock file lets one save in at a time. A save that crashes inside leaves the lock behind, and
nothing ever removes it: from then on every save is refused, and only restores still change the main
file.
-/

namespace BrowsAI.Recovery

open Utf8 History

variable {codec : Codec} {store : FileRecoveryStore}

/-- The files that only a holder of the lock changes are as they were, nothing new was committed,
and the new answers are refusals. -/
structure Blocked (store : FileRecoveryStore) (before disk : Disk) : Prop where
  locked : (disk.files store.lockPath).isSome
  backups : ∀ index, disk.files (store.backupPath index) = before.files (store.backupPath index)
  committed : ∀ checkpoint ∈ disk.committed, checkpoint ∈ before.committed
  answered : ∀ answer ∈ disk.answered,
    answer ∈ before.answered ∨ answer.2 = .error .lockHeld

/-- Outside the lock no guarded file is touched. -/
theorem go_on_guarded (hs : store.Separate) {disk : Disk} {stage : Stage}
    (houtside : stage.inside = false) (hlocked : (disk.files store.lockPath).isSome) (count : Nat)
    {path : Path} (hpath : store.Guarded path) :
    (store.goOn codec disk count stage).1.files path = disk.files path := by
  refine FileRecoveryStore.go_on_untouched disk count ?_ (.inr hlocked)
  rintro (⟨heq, -⟩ | ⟨-, hinside⟩ | ⟨suffix, -, heq⟩)
  · exact hs.guarded_ne_main hpath heq
  · exact Bool.false_ne_true (houtside.symm.trans hinside)
  · exact hs.guarded_ne_restore hpath suffix heq

/-- Outside the lock only a restore commits, what was committed before, and a save is refused. -/
theorem go_on_outside {disk : Disk} {stage : Stage} (houtside : stage.inside = false)
    (hlocked : (disk.files store.lockPath).isSome) (hown : Own codec store disk stage)
    (count : Nat) :
    (∀ checkpoint ∈ (store.goOn codec disk count stage).1.committed,
      checkpoint ∈ disk.committed) ∧
    ∀ answer ∈ (store.goOn codec disk count stage).1.answered,
      answer ∈ disk.answered ∨ answer.2 = .error .lockHeld := by
  cases stage with
  | creating | writing | checking | rotating | moving | opening | copying | committing
  | unlocking => cases houtside
  | idle | restoring | refilling => exact ⟨fun _ h => h, fun _ h => .inl h⟩
  | locking suffix checkpoint =>
      have hexists : disk.files.pathExists store.lockPath = true := hlocked
      rw [FileRecoveryStore.goOn, if_pos hexists]
      refine ⟨fun _ h => h, fun answer hanswer => ?_⟩
      rcases List.mem_cons.mp hanswer with rfl | hold
      · exact .inr rfl
      · exact .inl hold
  | looking suffix =>
      simp only [FileRecoveryStore.goOn]
      split
      · exact ⟨fun _ h => h, fun _ h => .inl h⟩
      · split <;> exact ⟨fun _ h => h, fun _ h => .inl h⟩
  | replacing suffix checkpoint =>
      obtain ⟨bytes, hrecovered, hrestored⟩ := hown
      rw [FileRecoveryStore.goOn, FileRecoveryStore.rename_turn_eq hrestored]
      refine ⟨fun other hother => ?_, fun _ h => .inl h⟩
      rcases List.mem_cons.mp hother with rfl | hold
      · exact hrecovered.committed
      · exact hold

/-- A turn of a process outside leaves it outside, and the others blocked. -/
theorem Blocked.act (hs : store.Separate) {before disk : Disk} (h : Blocked store before disk)
    {stage : Stage} (houtside : stage.inside = false) (hown : Own codec store disk stage)
    (turn : Turn) :
    Blocked store before (store.act codec disk stage turn).1 ∧
      (store.act codec disk stage turn).2.inside = false := by
  obtain ⟨suffix, checkpoint, -, -, heq⟩ | ⟨suffix, -, -, heq⟩ | ⟨count, heq⟩ | heq | heq :=
    store.act_cases codec disk stage turn
  · rw [heq]
    exact ⟨{ h with }, rfl⟩
  · rw [heq]
    exact ⟨h, rfl⟩
  · rw [heq]
    have hguarded : ∀ {path}, store.Guarded path →
        (store.goOn codec disk count stage).1.files path = disk.files path :=
      go_on_guarded hs houtside h.locked count
    obtain ⟨hcommitted, hanswered⟩ := go_on_outside houtside h.locked hown count
    refine ⟨⟨?_, fun index => ?_, fun checkpoint hmem => ?_, fun answer hmem => ?_⟩, ?_⟩
    · rw [hguarded .lock]
      exact h.locked
    · rw [hguarded (.backup index)]
      exact h.backups index
    · exact h.committed checkpoint (hcommitted checkpoint hmem)
    · exact (hanswered answer hmem).elim (h.answered answer) .inr
    · rw [Bool.eq_false_iff]
      intro hinside
      obtain hstage | hfree := FileRecoveryStore.go_on_inside hinside
      · exact Bool.false_ne_true (houtside.symm.trans hstage)
      · have hlocked := h.locked
        rw [hfree] at hlocked
        cases hlocked
  · rw [heq]
    exact ⟨h, rfl⟩
  · rw [heq]
    exact ⟨h, houtside⟩

/-- All processes are sound and outside, and the lock is there. -/
structure Stuck (codec : Codec) (store : FileRecoveryStore) (before : Disk)
    (w : Processes.World Nat Disk Stage) : Prop where
  holds : (assertion codec store).Holds w
  blocked : Blocked store before w.shared
  outside : ∀ p, (w.stage p).inside = false

/-- A lock without an owner stays. -/
theorem Stuck.reaches (hs : store.Separate) (hcomplete : codec.Complete) {before : Disk}
    {w w' : Processes.World Nat Disk Stage} (h : Stuck codec store before w)
    (hrun : (store.processes codec).machine.Reaches w w') : Stuck codec store before w' := by
  refine hrun.invariant h fun t i ht hallowed => ?_
  obtain ⟨hblocked, houtside⟩ := ht.blocked.act hs (ht.outside i.1) (ht.holds.own i.1) i.2
  refine ⟨(recovery_proof hs hcomplete).holds_turn ht.holds hallowed, hblocked, fun p => ?_⟩
  show (Function.update t.stage i.1 _ p).inside = false
  rcases eq_or_ne p i.1 with rfl | hp
  · rw [Function.update_self]
    exact houtside
  · rw [Function.update_of_ne hp]
    exact ht.outside p

end BrowsAI.Recovery
