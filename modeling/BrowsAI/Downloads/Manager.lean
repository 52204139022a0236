import BrowsAI.Library.OrdMap
import BrowsAI.Library.Runs
import BrowsAI.Library.Saturating
import BrowsAI.Library.Utf8
import BrowsAI.Permissions.Manager
import BrowsAI.Profiles.Identity

/-!
# Downloads

`DownloadManager` of `crates/downloads`: the records of the downloads and the log of their changes.
A record only moves on (`DownloadRecord.MovesTo`), what it says is in keeping with its state
(`DownloadRecord.Consistent`), and the last event of a download says what its record does.
-/

namespace BrowsAI.Downloads

open Utf8 Std Saturating Permissions Profiles

/-- What is to be downloaded, and how many bytes it has. -/
structure DownloadHandle where
  id : Uuid
  profile : ProfileId
  origin : Text
  filename : Text
  bytes : UInt64
  deriving DecidableEq

/-- How far a download is. -/
inductive DownloadState where
  | pending | inProgress | completed | cancelled | quarantined
  deriving DecidableEq

/-- The states that a download does not leave. -/
def DownloadState.ended : DownloadState → Bool
  | .completed | .cancelled | .quarantined => true
  | .pending | .inProgress => false

/-- A download, and the bytes that have come. -/
structure DownloadRecord where
  handle : DownloadHandle
  state : DownloadState
  received : UInt64
  deriving DecidableEq

/-- What is told when a download changes. -/
structure DownloadEvent where
  id : Uuid
  state : DownloadState
  received : UInt64
  deriving DecidableEq

/-- The downloads by id, and the events so far. -/
structure DownloadManager where
  records : OrdMap Uuid DownloadRecord
  events : List DownloadEvent

/-- `DownloadManager::default()`. -/
instance : Inhabited DownloadManager := ⟨⟨∅, []⟩⟩

/-- Why a call is refused. -/
inductive DownloadError where
  | permission (decision : PermissionDecision)
  | invalidFilename
  | tooLarge
  | notFound
  | invalidState
  deriving DecidableEq

/-- The event of a record. -/
def DownloadRecord.event (record : DownloadRecord) (id : Uuid) : DownloadEvent :=
  ⟨id, record.state, record.received⟩

namespace DownloadManager

variable (manager : DownloadManager)

/-- A record is written, and its event is logged. -/
def write (id : Uuid) (record : DownloadRecord) : DownloadManager where
  records := manager.records.insert id record
  events := manager.events ++ [record.event id]

/-- A new download, of which nothing has come. -/
def add (handle : DownloadHandle) : Uuid × DownloadManager :=
  (handle.id, manager.write handle.id ⟨handle, .pending, 0⟩)

/-- The common part of the changes: a record that is there and in none of the states that the
change refuses is replaced. -/
def change (refused : DownloadState → Bool) (next : DownloadRecord → DownloadRecord) (id : Uuid) :
    Except DownloadError DownloadRecord × DownloadManager :=
  match manager.records[id]? with
  | none => (.error .notFound, manager)
  | some record =>
      if refused record.state then (.error .invalidState, manager)
      else (.ok (next record), manager.write id (next record))

/-- Counts bytes that came, up to the size of the download, which is then completed. -/
def progress (id : Uuid) (bytes : UInt64) :
    Except DownloadError DownloadRecord × DownloadManager :=
  manager.change (fun state => state = .completed ∨ state = .cancelled ∨ state = .quarantined)
    (fun record =>
      let received := min (saturatingAdd record.received bytes) record.handle.bytes
      { record with
        state := if received = record.handle.bytes then .completed else .inProgress
        received }) id

/-- Cancels a download that is not over. -/
def cancel (id : Uuid) : Except DownloadError DownloadRecord × DownloadManager :=
  manager.change (fun state => state = .completed ∨ state = .cancelled ∨ state = .quarantined)
    (fun record => { record with state := .cancelled }) id

/-- A download in quarantine may be put there again. -/
def quarantine (id : Uuid) : Except DownloadError DownloadRecord × DownloadManager :=
  manager.change (fun state => state = .completed ∨ state = .cancelled)
    (fun record => { record with state := .quarantined }) id

/-- The download with an id. -/
def get (id : Uuid) : Option DownloadRecord := manager.records[id]?

/-- The last event of a download. -/
def lastEvent (id : Uuid) : Option DownloadEvent :=
  manager.events.reverse.find? fun event => event.id = id

theorem get_write (id : Uuid) (record : DownloadRecord) (other : Uuid) :
    (manager.write id record).get other = if id = other then some record else manager.get other :=
  OrdMap.get_insert _ _ _ _

theorem last_event_write (id : Uuid) (record : DownloadRecord) (other : Uuid) :
    (manager.write id record).lastEvent other =
      if id = other then some (record.event id) else manager.lastEvent other := by
  rw [lastEvent, write, List.reverse_concat, List.find?_cons]
  by_cases hid : id = other
  · simp [DownloadRecord.event, hid]
  · simp [DownloadRecord.event, hid, lastEvent]

/-- A change refuses and leaves all as it is, or replaces one record. -/
theorem change_cases (refused : DownloadState → Bool) (next : DownloadRecord → DownloadRecord)
    (id : Uuid) :
    (∃ error, manager.change refused next id = (.error error, manager)) ∨
    ∃ record, manager.get id = some record ∧ refused record.state = false ∧
      manager.change refused next id = (.ok (next record), manager.write id (next record)) := by
  rw [change, get]
  cases manager.records[id]? with
  | none => exact .inl ⟨_, rfl⟩
  | some record =>
      by_cases hrefused : refused record.state = true
      · exact .inl ⟨_, if_pos hrefused⟩
      · exact .inr ⟨record, rfl, by simpa using hrefused, if_neg hrefused⟩

end DownloadManager

/-! ## What a change of a record keeps -/

namespace DownloadRecord

/-- What a record says is in keeping with its state. -/
structure Consistent (record : DownloadRecord) : Prop where
  received_le : record.received ≤ record.handle.bytes
  completed : record.state = .completed → record.received = record.handle.bytes
  inProgress : record.state = .inProgress → record.received < record.handle.bytes

/-- A record as it was, or a later one of the same download. -/
structure MovesTo (record later : DownloadRecord) : Prop where
  handle : later.handle = record.handle
  received : record.received ≤ later.received
  ended : record.state.ended = true → later = record

theorem MovesTo.refl (record : DownloadRecord) : record.MovesTo record :=
  ⟨rfl, UInt64.le_refl _, fun _ => rfl⟩

theorem MovesTo.trans {record later last : DownloadRecord} (h : record.MovesTo later)
    (h' : later.MovesTo last) : record.MovesTo last where
  handle := h'.handle.trans h.handle
  received := UInt64.le_trans h.received h'.received
  ended hended := by
    have hlater := h.ended hended
    rw [h'.ended (hlater ▸ hended), hlater]

end DownloadRecord

namespace DownloadManager

variable {manager : DownloadManager}

/-- Every record is consistent, and the last event of a download is that of its record. -/
structure Coherent (manager : DownloadManager) : Prop where
  consistent : ∀ id record, manager.get id = some record → record.Consistent
  lastEvent : ∀ id, manager.lastEvent id = (manager.get id).map fun record => record.event id

/-- A consistent download keeps the manager coherent. -/
theorem Coherent.write (h : manager.Coherent) (id : Uuid) {record : DownloadRecord}
    (hrecord : record.Consistent) : (manager.write id record).Coherent where
  consistent other found hfound := by
    rw [get_write] at hfound
    split_ifs at hfound with hid
    · cases hfound
      exact hrecord
    · exact h.consistent other found hfound
  lastEvent other := by
    rw [last_event_write, get_write]
    split_ifs with hid
    · rw [hid, Option.map_some]
    · exact h.lastEvent other

/-- The records of one manager move on to those of another. -/
def MovesTo (manager later : DownloadManager) : Prop :=
  ∀ id record, manager.get id = some record →
    ∃ next, later.get id = some next ∧ record.MovesTo next

theorem moves_to_write {id : Uuid} {record next : DownloadRecord}
    (hrecord : manager.get id = some record) (hnext : record.MovesTo next) :
    manager.MovesTo (manager.write id next) := by
  intro other found hfound
  rw [get_write]
  by_cases hid : id = other
  · subst hid
    obtain rfl := Option.some.inj (hrecord.symm.trans hfound)
    exact ⟨next, if_pos rfl, hnext⟩
  · exact ⟨found, by rw [if_neg hid, hfound], .refl found⟩

theorem moves_to_write_new {id : Uuid} (hnew : manager.get id = none) (record : DownloadRecord) :
    manager.MovesTo (manager.write id record) := by
  intro other found hfound
  have hid : id ≠ other := by
    rintro rfl
    rw [hnew] at hfound
    cases hfound
  exact ⟨found, by rw [get_write, if_neg hid, hfound], .refl found⟩

/-- A call keeps the manager coherent and moves its records on, and an error leaves it as it is. -/
structure Keeps (manager : DownloadManager)
    (result : Except DownloadError DownloadRecord × DownloadManager) : Prop where
  coherent : result.2.Coherent
  moves : manager.MovesTo result.2
  failed : result.1.isOk = false → result.2 = manager

/-- So does a change that moves consistent downloads on. -/
theorem change_keeps (h : manager.Coherent) {refused : DownloadState → Bool}
    {next : DownloadRecord → DownloadRecord} {id : Uuid}
    (hconsistent : ∀ record : DownloadRecord, record.Consistent → (next record).Consistent)
    (hmoves : ∀ record : DownloadRecord, record.Consistent → refused record.state = false →
      record.MovesTo (next record)) : manager.Keeps (manager.change refused next id) := by
  obtain ⟨error, hchange⟩ | ⟨record, hrecord, hrefused, hchange⟩ :=
    manager.change_cases refused next id
  · rw [hchange]
    exact ⟨h, fun _ record hrecord => ⟨record, hrecord, .refl record⟩, fun _ => rfl⟩
  · have hrecord' := h.consistent id record hrecord
    rw [hchange]
    exact ⟨h.write id (hconsistent record hrecord'),
      moves_to_write hrecord (hmoves record hrecord' hrefused), fun herror => nomatch herror⟩

/-- What a download has received after some progress. -/
theorem received_progress {record : DownloadRecord} (h : record.Consistent) (bytes : UInt64) :
    record.received ≤ min (saturatingAdd record.received bytes) record.handle.bytes ∧
      min (saturatingAdd record.received bytes) record.handle.bytes ≤ record.handle.bytes := by
  have hadd := le_saturating_add record.received bytes
  have hle := h.received_le
  rw [show min (saturatingAdd record.received bytes) record.handle.bytes =
    if saturatingAdd record.received bytes ≤ record.handle.bytes then
      saturatingAdd record.received bytes
    else record.handle.bytes from rfl]
  split_ifs with hmin
  · exact ⟨hadd, hmin⟩
  · exact ⟨hle, UInt64.le_refl _⟩

/-- Bytes that come move a download on. -/
theorem progress_keeps (h : manager.Coherent) (id : Uuid) (bytes : UInt64) :
    manager.Keeps (manager.progress id bytes) := by
  refine change_keeps h (fun record hrecord => ?_) fun record hrecord hrefused => ?_
  · obtain ⟨-, hbytes⟩ := received_progress hrecord bytes
    refine ⟨hbytes, fun hstate => ?_, fun hstate => ?_⟩
    · by_contra hne
      dsimp only at hstate hne
      rw [if_neg hne] at hstate
      cases hstate
    · refine UInt64.lt_of_le_of_ne hbytes fun heq => ?_
      dsimp only at hstate heq
      rw [if_pos heq] at hstate
      cases hstate
  · refine ⟨rfl, (received_progress hrecord bytes).1, fun hended => ?_⟩
    cases hstate : record.state <;> simp [hstate, DownloadState.ended] at hended hrefused

theorem cancel_keeps (h : manager.Coherent) (id : Uuid) : manager.Keeps (manager.cancel id) := by
  refine change_keeps h (fun record hrecord => ?_) fun record _ hrefused => ?_
  · exact ⟨hrecord.received_le, (nomatch ·), (nomatch ·)⟩
  · refine ⟨rfl, UInt64.le_refl _, fun hended => ?_⟩
    cases hstate : record.state <;> simp [hstate, DownloadState.ended] at hended hrefused

theorem quarantine_keeps (h : manager.Coherent) (id : Uuid) :
    manager.Keeps (manager.quarantine id) := by
  refine change_keeps h (fun record hrecord => ?_) fun record _ hrefused => ?_
  · exact ⟨hrecord.received_le, (nomatch ·), (nomatch ·)⟩
  · refine ⟨rfl, UInt64.le_refl _, fun hended => ?_⟩
    -- only a download in quarantine has ended and may still be put there
    cases hstate : record.state <;> simp [hstate, DownloadState.ended] at hended hrefused
    rw [← hstate]

theorem add_spec (h : manager.Coherent) {handle : DownloadHandle}
    (hnew : manager.get handle.id = none) :
    (manager.add handle).2.Coherent ∧ manager.MovesTo (manager.add handle).2 :=
  ⟨h.write handle.id ⟨UInt64.zero_le, (nomatch ·), (nomatch ·)⟩, moves_to_write_new hnew _⟩

end DownloadManager

/-! ## Runs -/

/-- A call that may change a download. -/
inductive Call where
  | add (handle : DownloadHandle)
  | progress (id : Uuid) (bytes : UInt64)
  | cancel (id : Uuid)
  | quarantine (id : Uuid)

namespace Call

variable (manager : DownloadManager)

/-- The manager after a call. -/
def apply : Call → DownloadManager
  | .add handle => (manager.add handle).2
  | .progress id bytes => (manager.progress id bytes).2
  | .cancel id => (manager.cancel id).2
  | .quarantine id => (manager.quarantine id).2

/-- The call returns an error. -/
def fails : Call → Bool
  | .add _ => false
  | .progress id bytes => !(manager.progress id bytes).1.isOk
  | .cancel id => !(manager.cancel id).1.isOk
  | .quarantine id => !(manager.quarantine id).1.isOk

/-- A handle that is added has an id of its own. -/
def Fresh : Call → Prop
  | .add handle => manager.get handle.id = none
  | _ => True

end Call

/-- The calls of the engine, in any order. -/
def machine : Machine DownloadManager Call where
  step := Call.apply
  Allowed := Call.Fresh

/-- Every call keeps the manager coherent, moves downloads on, and changes nothing if it fails. -/
theorem Call.apply_spec {manager : DownloadManager} (h : manager.Coherent) {call : Call}
    (hfresh : call.Fresh manager) :
    (call.apply manager).Coherent ∧ manager.MovesTo (call.apply manager) ∧
      (call.fails manager = true → call.apply manager = manager) := by
  cases call with
  | add handle =>
      obtain ⟨hcoherent, hmoves⟩ := DownloadManager.add_spec h hfresh
      exact ⟨hcoherent, hmoves, (nomatch ·)⟩
  | progress id bytes =>
      obtain ⟨hcoherent, hmoves, hfailed⟩ := DownloadManager.progress_keeps h id bytes
      exact ⟨hcoherent, hmoves, fun hfails => hfailed (by simpa [fails] using hfails)⟩
  | cancel id =>
      obtain ⟨hcoherent, hmoves, hfailed⟩ := DownloadManager.cancel_keeps h id
      exact ⟨hcoherent, hmoves, fun hfails => hfailed (by simpa [fails] using hfails)⟩
  | quarantine id =>
      obtain ⟨hcoherent, hmoves, hfailed⟩ := DownloadManager.quarantine_keeps h id
      exact ⟨hcoherent, hmoves, fun hfails => hfailed (by simpa [fails] using hfails)⟩

theorem coherent_of_reaches {manager : DownloadManager}
    (h : machine.Reaches default manager) : manager.Coherent := by
  refine h.invariant ⟨fun _ _ hget => ?_, fun _ => rfl⟩ fun _ _ hcoherent hfresh =>
    (Call.apply_spec hcoherent hfresh).1
  cases ExtTreeMap.getElem?_empty.symm.trans hget

theorem moves_to_of_reaches {manager later : DownloadManager} (hcoherent : manager.Coherent)
    (h : machine.Reaches manager later) : manager.MovesTo later := by
  refine (h.invariant (P := fun later => later.Coherent ∧ manager.MovesTo later)
    ⟨hcoherent, fun _ record hrecord => ⟨record, hrecord, .refl record⟩⟩
    fun later call hlater hfresh => ?_).2
  obtain ⟨hnext, hmoves, -⟩ := Call.apply_spec hlater.1 hfresh
  refine ⟨hnext, fun id record hrecord => ?_⟩
  obtain ⟨found, hfound, hto⟩ := hlater.2 id record hrecord
  obtain ⟨next, hget, hnext⟩ := hmoves id found hfound
  exact ⟨next, hget, hto.trans hnext⟩

/-- In every manager that some calls lead to, the records are consistent and the last events say
what they say; whatever is called from there on, the records only move on, and a call that returns
an error changes nothing. -/
theorem downloads_move_on {manager later : DownloadManager}
    (h : machine.Reaches default manager) (hlater : machine.Reaches manager later) :
    manager.Coherent ∧ manager.MovesTo later ∧
      ∀ call, call.fails manager = true → machine.step manager call = manager := by
  have hcoherent := coherent_of_reaches h
  refine ⟨hcoherent, moves_to_of_reaches hcoherent hlater, fun call hfails => ?_⟩
  have hfresh : call.Fresh manager := by
    cases call with
    | add handle => cases hfails
    | progress | cancel | quarantine => trivial
  exact (Call.apply_spec hcoherent hfresh).2.2 hfails

/-- A report of ten bytes. -/
def report : DownloadHandle := ⟨1, 2, "https://example.test", "report.pdf", 10⟩

/-- The report is loaded in part, and then in full. -/
theorem downloads_move_on_report :
    (machine.run default [.add report, .progress 1 4]).Coherent ∧
      (machine.run default [.add report, .progress 1 4]).MovesTo
        (machine.run (machine.run default [.add report, .progress 1 4]) [.progress 1 20]) ∧
      ∀ call, call.fails (machine.run default [.add report, .progress 1 4]) = true →
        machine.step (machine.run default [.add report, .progress 1 4]) call =
          machine.run default [.add report, .progress 1 4] :=
  downloads_move_on (Machine.Reaches.refl.run ⟨rfl, trivial, trivial⟩)
    (Machine.Reaches.refl.run ⟨trivial, trivial⟩)

end BrowsAI.Downloads
