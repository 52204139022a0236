import BrowsAI.Library.Cells
import BrowsAI.Library.Runs
import Mathlib.Algebra.Order.Ring.Nat
import Mathlib.Tactic.SplitIfs

/-!
# Idle shutdown of the server

`ServerControl` and `idle_loop` of the `serve` command of `browsai-cli`. The accept loop and the
sweeper hold a control each, and a mutex or an atomic of a control is a cell. A clone shares the
exit flag and copies the stamp of the last activity, so the sweeper never sees a request:
`exits_justified_iff` says in which runs its decision to exit is right all the same.

Time is a count of nanoseconds that only the steps of a run move on. An idle check is one step.
-/

namespace BrowsAI.Serve

open Cells (Ref)

/-- `std::time::Instant`, in nanoseconds. -/
abbrev Instant := Nat

/-- `Duration::from_secs`. -/
def fromSecs (seconds : UInt64) : Nat := seconds.toNat * 10 ^ 9

/-- As far as the sweeper reads it. -/
structure ServerConfig where
  idleShutdownSeconds : Option UInt64

/-- What the server shares between its tasks, by reference. -/
structure ServerControl where
  config : ServerConfig
  lastActivity : Ref
  shouldExit : Ref
  activeDomains : Ref

/-- The cells behind the mutexes and atomics. -/
structure Memory where
  instants : Cells Instant
  flags : Cells Bool
  counts : Cells Nat

namespace ServerControl

/-- The clock starts with the server. -/
def new (config : ServerConfig) (now : Instant) (memory : Memory) : ServerControl × Memory :=
  let (lastActivity, instants) := memory.instants.alloc now
  let (shouldExit, flags) := memory.flags.alloc false
  let (activeDomains, counts) := memory.counts.alloc 0
  (⟨config, lastActivity, shouldExit, activeDomains⟩, ⟨instants, flags, counts⟩)

/-- A new mutex with the stamp, the same flag, and a new counter with the count. -/
def clone (control : ServerControl) (memory : Memory) : ServerControl × Memory :=
  let (lastActivity, instants) := memory.instants.alloc (memory.instants.read control.lastActivity)
  let (activeDomains, counts) := memory.counts.alloc (memory.counts.read control.activeDomains)
  ({ control with lastActivity, activeDomains }, { memory with instants, counts })

/-- Stamps the time of a request. -/
def recordActivity (control : ServerControl) (now : Instant) (memory : Memory) : Memory :=
  { memory with instants := memory.instants.write control.lastActivity now }

end ServerControl

namespace ServerControl

theorem new_allocated (config : ServerConfig) (now : Instant) (memory : Memory) :
    (new config now memory).2.instants.Allocated (new config now memory).1.lastActivity :=
  Cells.allocated_alloc _ _

theorem new_stamp (config : ServerConfig) (now : Instant) (memory : Memory) :
    (new config now memory).2.instants.read (new config now memory).1.lastActivity = now :=
  Cells.read_alloc_self _ _

/-- The stamp of a clone is another cell, with what was in the first. -/
theorem clone_apart {control : ServerControl} {memory : Memory}
    (h : memory.instants.Allocated control.lastActivity) :
    (control.clone memory).1.lastActivity ≠ control.lastActivity :=
  h.alloc_ne (memory.instants.read control.lastActivity)

theorem clone_stamp (control : ServerControl) (memory : Memory) :
    (control.clone memory).2.instants.read (control.clone memory).1.lastActivity =
      memory.instants.read control.lastActivity :=
  Cells.read_alloc_self _ _

theorem clone_shares (control : ServerControl) (memory : Memory) :
    (control.clone memory).1.shouldExit = control.shouldExit := rfl

end ServerControl

/-- The process: the controls of the accept loop and the sweeper, and the clock. `started`,
`received` and `exited` record when the server started, the times of the requests, and the time of
the decision to exit. -/
structure Server where
  memory : Memory
  control : ServerControl
  sweeper : ServerControl
  now : Instant
  started : Instant
  received : List Instant
  exited : Option Instant

namespace Server

/-- `run`, up to the accept loop and the sweeper thread. -/
def run (config : ServerConfig) (now : Instant) : Server :=
  let (control, memory) := ServerControl.new config now ⟨.empty 0, .empty false, .empty 0⟩
  let (sweeper, memory) := control.clone memory
  { memory, control, sweeper, now, started := now, received := [], exited := none }

/-- A turn of the accept loop with an incoming request. -/
def handleRequest (s : Server) : Server :=
  if s.memory.flags.read s.control.shouldExit then s
  else
    { s with
      memory := s.control.recordActivity s.now s.memory, received := s.now :: s.received }

/-- A turn of `idle_loop`. -/
def idleCheck (s : Server) : Server :=
  match s.sweeper.config.idleShutdownSeconds with
  | none => s
  | some idleSecs =>
      let last := s.memory.instants.read s.sweeper.lastActivity
      if s.now - last ≥ fromSecs idleSecs then
        { s with
          memory := { s.memory with flags := s.memory.flags.write s.sweeper.shouldExit true }
          exited := some s.now }
      else s

/-- What happens next. -/
inductive Op where
  | wait (elapsed : Nat)
  | request
  | idleCheck

/-- What the server does then. -/
def turn (s : Server) : Op → Server
  | .wait elapsed => { s with now := s.now + elapsed }
  | .request => s.handleRequest
  | .idleCheck => s.idleCheck

/-- A process that has exited makes no more steps. -/
def perform (s : Server) (op : Op) : Server := if s.exited.isSome then s else s.turn op

/-- The system whose steps are such turns. -/
def machine : Machine Server Op where
  step := perform
  Allowed _ _ := True

/-- No request was received in the last seconds before an exit. -/
def ExitJustified (s : Server) : Prop :=
  ∀ exit, s.exited = some exit → ∀ seconds, s.control.config.idleShutdownSeconds = some seconds →
    ∀ request ∈ s.received, request + fromSecs seconds ≤ exit

/-- An idle check that comes late enough after the start comes late enough after every request. -/
def CheckedLate (s : Server) : Op → Prop
  | .idleCheck => s.exited = none →
      ∀ seconds, s.control.config.idleShutdownSeconds = some seconds →
        s.started + fromSecs seconds ≤ s.now →
          ∀ request ∈ s.received, request + fromSecs seconds ≤ s.now
  | _ => True

/-- The sweeper has a stamp of its own, that of the start, and shares the exit flag. -/
structure Split (s : Server) : Prop where
  config : s.sweeper.config = s.control.config
  shared : s.sweeper.shouldExit = s.control.shouldExit
  apart : s.control.lastActivity ≠ s.sweeper.lastActivity
  stamp : s.memory.instants.read s.sweeper.lastActivity = s.started
  elapsed : s.started ≤ s.now

theorem split_run (config : ServerConfig) (now : Instant) : (run config now).Split where
  config := rfl
  shared := ServerControl.clone_shares _ _
  apart := (ServerControl.clone_apart (ServerControl.new_allocated config now _)).symm
  stamp := (ServerControl.clone_stamp _ _).trans (ServerControl.new_stamp config now _)
  elapsed := Nat.le_refl now

variable {s : Server}

theorem perform_of_exited {exit : Instant} (h : s.exited = some exit) (op : Op) :
    s.perform op = s := by
  rw [perform, h]
  rfl

theorem perform_of_running (h : s.exited = none) (op : Op) : s.perform op = s.turn op := by
  rw [perform, h]
  rfl

/-- A request writes the stamp of the accept loop, which is not that of the sweeper. -/
theorem Split.handle_request (h : s.Split) : s.handleRequest.Split := by
  rw [handleRequest]
  split_ifs
  · exact h
  · refine ⟨h.config, h.shared, h.apart, ?_, h.elapsed⟩
    rw [← h.stamp]
    exact Cells.read_write_of_ne _ h.apart _

theorem elapsed_iff {started now idle : Nat} (h : started ≤ now) :
    now - started ≥ idle ↔ started + idle ≤ now := by
  omega

/-- Once the server has run for the seconds of the configuration, a check decides to exit. -/
theorem Split.idle_check_cases (h : s.Split) :
    (∃ seconds, s.control.config.idleShutdownSeconds = some seconds ∧
      s.started + fromSecs seconds ≤ s.now ∧
      s.idleCheck =
        { s with
          memory := { s.memory with flags := s.memory.flags.write s.sweeper.shouldExit true }
          exited := some s.now }) ∨
    (∀ seconds, s.control.config.idleShutdownSeconds = some seconds →
        ¬ s.started + fromSecs seconds ≤ s.now) ∧ s.idleCheck = s := by
  rw [idleCheck, h.config]
  cases s.control.config.idleShutdownSeconds with
  | none =>
      refine .inr ⟨fun _ hnone => ?_, rfl⟩
      cases hnone
  | some seconds =>
      dsimp only
      rw [h.stamp]
      simp only [elapsed_iff h.elapsed]
      by_cases hlate : s.started + fromSecs seconds ≤ s.now
      · rw [if_pos hlate]
        exact .inl ⟨seconds, rfl, hlate, rfl⟩
      · rw [if_neg hlate]
        refine .inr ⟨fun other hother => ?_, rfl⟩
        rwa [← Option.some.inj hother]

/-- The sweeper's stamp stays apart from the one of the requests. -/
theorem Split.perform (h : s.Split) (op : Op) : (s.perform op).Split := by
  rw [Server.perform]
  split_ifs
  · exact h
  · cases op with
    | wait elapsed =>
        exact ⟨h.config, h.shared, h.apart, h.stamp, Nat.le_add_right_of_le h.elapsed⟩
    | request => exact h.handle_request
    | idleCheck =>
        show s.idleCheck.Split
        rcases h.idle_check_cases with ⟨_, _, _, hexit⟩ | ⟨_, hstays⟩
        · rw [hexit]
          exact ⟨h.config, h.shared, h.apart, h.stamp, h.elapsed⟩
        · rw [hstays]
          exact h

theorem exit_justified_of_running (h : s.exited = none) : s.ExitJustified := by
  intro exit hexit
  rw [h] at hexit
  cases hexit

theorem handle_request_exited (s : Server) : s.handleRequest.exited = s.exited := by
  rw [handleRequest]
  split_ifs <;> rfl

/-- A step decides rightly exactly when it is not a check that comes too early after a request. -/
theorem Split.exit_justified_iff (h : s.Split) (hjustified : s.ExitJustified) (op : Op) :
    (s.perform op).ExitJustified ↔ s.CheckedLate op := by
  cases hexited : s.exited with
  | some exit =>
      rw [perform_of_exited hexited]
      refine iff_of_true hjustified ?_
      cases op with
      | idleCheck =>
          intro hrunning
          rw [hexited] at hrunning
          cases hrunning
      | wait | request => trivial
  | none =>
      rw [perform_of_running hexited]
      cases op with
      | wait elapsed => exact iff_of_true (exit_justified_of_running hexited) trivial
      | request =>
          refine iff_of_true (exit_justified_of_running ?_) trivial
          exact (handle_request_exited s).trans hexited
      | idleCheck =>
          show s.idleCheck.ExitJustified ↔ _
          rcases h.idle_check_cases with ⟨seconds, hseconds, hlate, hexit⟩ | ⟨hearly, hstays⟩
          · rw [hexit]
            constructor
            · intro hafter _ other hother _
              exact hafter s.now rfl other hother
            · intro hchecked exit hexit' other hother
              obtain rfl := Option.some.inj hexit'
              have hsame : seconds = other := Option.some.inj (hseconds.symm.trans hother)
              exact hchecked hexited other hother (hsame ▸ hlate)
          · rw [hstays]
            refine iff_of_true hjustified fun _ other hother hlate => ?_
            exact absurd hlate (hearly other hother)

/-- The exits of a run are justified exactly when every check that comes late enough after the start
comes late enough after every request. -/
theorem exits_justified_iff (config : ServerConfig) (start : Instant) (ops : List Op) :
    machine.Always ExitJustified (run config start) ops ↔
      machine.Throughout CheckedLate (run config start) ops :=
  Machine.always_iff (I := Split) (fun _ op h hjustified _ => h.exit_justified_iff hjustified op)
    (fun _ op h _ => h.perform op) (split_run config start) (exit_justified_of_running rfl)
    (Machine.allowed_run_of_forall (fun _ _ => trivial) _ ops)

/-- A request one second before the check, on a server that started two seconds before it. -/
def busyOps : List Op := [.wait (10 ^ 9), .request, .wait (10 ^ 9), .idleCheck]

/-- The server exits one second after a request, with two seconds to wait. -/
theorem busy_server_exits :
    ¬ ∀ (config : ServerConfig) (start : Instant) (ops : List Op),
      machine.Always ExitJustified (run config start) ops := by
  intro h
  have hjustified : (machine.run (run ⟨some 2⟩ 0) busyOps).ExitJustified :=
    (h ⟨some 2⟩ 0 busyOps).2.2.2.2
  have hexit : (machine.run (run ⟨some 2⟩ 0) busyOps).exited = some (2 * 10 ^ 9) := by
    decide
  have hreceived : (machine.run (run ⟨some 2⟩ 0) busyOps).received = [10 ^ 9] := by
    decide
  have hlate := hjustified (2 * 10 ^ 9) hexit 2 rfl (10 ^ 9)
    (hreceived ▸ List.mem_singleton_self _)
  exact absurd hlate (by decide)

end Server

end BrowsAI.Serve
