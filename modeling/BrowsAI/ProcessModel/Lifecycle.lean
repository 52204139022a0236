import BrowsAI.Library.Utf8
import BrowsAI.ProcessModel.Supervisor

/-!
# Process lifecycles

The processes of `ProcessTopology` and the children of `ProcessSupervisor` of
`crates/process-model`: `launch`, `poll`, `stop` and `restart_after_crash`. What the operating
system answers to `spawn`, `try_wait`, `kill` and `wait` is an argument of each call.
-/

namespace BrowsAI.ProcessModel.Lifecycle

open Std Ipc Utf8

/-- How a process is. -/
inductive ProcessState where
  | starting | running | stopping | crashed | stopped
  deriving DecidableEq

/-- When a process is started again. -/
inductive RestartPolicy where
  | never | onFailure | always
  deriving DecidableEq

/-- What is known of a process. -/
structure ProcessSpec where
  kind : ProcessKind
  state : ProcessState
  restart : RestartPolicy
  isolated : Bool
  deriving DecidableEq

/-! ## The topology -/

/-- With the processes themselves. -/
structure ProcessTopology extends ProcessModel.ProcessTopology where
  processes : OrdMap ProcessKind ProcessSpec

namespace ProcessTopology

/-- The processes of the browser. -/
def productionKinds : List (ProcessKind × RestartPolicy × Bool) :=
  [(.host, .always, false), (.browserBroker, .onFailure, true),
    (.credentialBroker, .onFailure, true), (.profileManager, .onFailure, true),
    (.permissionManager, .onFailure, true), (.network, .onFailure, true),
    (.fileBroker, .onFailure, true), (.downloadBroker, .onFailure, true),
    (.audit, .onFailure, true), (.workspaceManager, .onFailure, true),
    (.renderer, .onFailure, true), (.worker, .onFailure, true), (.agentRuntime, .onFailure, true),
    (.compositor, .onFailure, true)]

/-- All processes about to start. -/
def production (protocolVersion : UInt16) : ProcessTopology :=
  { ProcessModel.ProcessTopology.production protocolVersion with
    processes := .ofList (productionKinds.map fun (kind, restart, isolated) =>
      (kind, (⟨kind, .starting, restart, isolated⟩ : ProcessSpec))) }

variable (t : ProcessTopology)

/-- A process by its kind. -/
def process (kind : ProcessKind) : Option ProcessSpec := t.processes[kind]?

/-- A write to the state of a process, if it is there. -/
def setState (kind : ProcessKind) (state : ProcessState) : ProcessTopology :=
  { t with processes := t.processes.modify kind fun process => { process with state } }

/-- Notes that a process runs. -/
def markRunning (kind : ProcessKind) : Bool × ProcessTopology :=
  ((t.process kind).isSome, t.setState kind .running)

/-- Notes a crash, and tells what is to be done. -/
def markCrashed (kind : ProcessKind) : RestartPolicy × ProcessTopology :=
  (((t.process kind).map ProcessSpec.restart).getD .never, t.setState kind .crashed)

/-- A process that crashed may start again, by its policy. -/
def restartAfterCrash (kind : ProcessKind) : Bool × ProcessTopology :=
  match t.process kind with
  | some process =>
      if process.state = .crashed ∧ process.restart ≠ .never then (true, t.setState kind .starting)
      else (false, t)
  | none => (false, t)

end ProcessTopology

/-! ## The supervisor -/

/-- How a process is started. -/
structure ProcessLaunch where
  kind : ProcessKind
  program : Text
  args : List Text
  deriving DecidableEq

/-- `std::io::Error`, by its text. -/
abbrev IoError := Text

/-- `std::process::Child`, by its process id. -/
structure Child where
  id : UInt32
  deriving DecidableEq

/-- `std::process::ExitStatus`, by its code. -/
structure ExitStatus where
  code : Int
  deriving DecidableEq

/-- Why a call is refused. -/
inductive ProcessSupervisorError where
  | unknownProcess (kind : ProcessKind)
  | alreadyRunning (kind : ProcessKind)
  | hostLaunchDenied
  | spawn (error : IoError)
  | ipc (error : IpcError)
  | noLaunchSpec (kind : ProcessKind)
  deriving DecidableEq

/-- A process that runs. -/
structure ProcessHandle where
  kind : ProcessKind
  pid : UInt32
  deriving DecidableEq

/-- The processes that run, and how they were started. -/
structure ProcessSupervisor where
  topology : ProcessTopology
  children : OrdMap ProcessKind Child
  launches : OrdMap ProcessKind ProcessLaunch
  channels : OrdMap (ProcessKind × ProcessKind) IpcChannel

namespace ProcessSupervisor

/-- No process runs. -/
def new (topology : ProcessTopology) : ProcessSupervisor := ⟨topology, ∅, ∅, ∅⟩

variable (s : ProcessSupervisor)

/-- Starts a process that does not run. -/
def launch (request : ProcessLaunch) (spawn : Except IoError Child) :
    Except ProcessSupervisorError ProcessHandle × ProcessSupervisor :=
  if request.kind = .host then (.error .hostLaunchDenied, s)
  else
    match s.topology.process request.kind with
    | none => (.error (.unknownProcess request.kind), s)
    | some process =>
        if s.children.contains request.kind ∨ process.state = .running then
          (.error (.alreadyRunning request.kind), s)
        else
          match spawn with
          | .error e => (.error (.spawn e), s)
          | .ok child =>
              (.ok ⟨request.kind, child.id⟩,
                { s with
                  launches := s.launches.insert request.kind request
                  children := s.children.insert request.kind child
                  topology := (s.topology.markRunning request.kind).2 })

/-- Looks whether a process has ended. -/
def poll (kind : ProcessKind) (tryWait : Except IoError (Option ExitStatus)) :
    Except ProcessSupervisorError (Option ExitStatus) × ProcessSupervisor :=
  match s.children[kind]?, tryWait with
  | none, _ => (.error (.unknownProcess kind), s)
  | some _, .error e => (.error (.spawn e), s)
  | some _, .ok none => (.ok none, s)
  | some _, .ok (some status) =>
      (.ok (some status),
        { s with
          children := s.children.erase kind
          topology := (s.topology.markCrashed kind).2 })

/-- The child is gone from the map before `kill` and `wait` are tried. -/
def stop (kind : ProcessKind) (kill : Except IoError Unit) (wait : Except IoError ExitStatus) :
    Except ProcessSupervisorError Unit × ProcessSupervisor :=
  match s.children[kind]? with
  | none => (.error (.unknownProcess kind), s)
  | some _ =>
      let removed := { s with children := s.children.erase kind }
      match kill, wait with
      | .error e, _ => (.error (.spawn e), removed)
      | .ok (), .error e => (.error (.spawn e), removed)
      | .ok (), .ok _ =>
          (.ok (),
            { removed with
              launches := s.launches.erase kind
              topology := s.topology.setState kind .stopped })

/-- Starts a process again that crashed. The state is set before the process is spawned. -/
def restartAfterCrash (kind : ProcessKind) (spawn : Except IoError Child) :
    Except ProcessSupervisorError ProcessHandle × ProcessSupervisor :=
  if s.children.contains kind then (.error (.alreadyRunning kind), s)
  else
    match s.launches[kind]? with
    | none => (.error (.noLaunchSpec kind), s)
    | some request =>
        match s.topology.restartAfterCrash kind with
        | (false, _) => (.error (.unknownProcess kind), s)
        | (true, topology) => launch { s with topology } request spawn

/-! ## States of processes -/

/-- The state of a process. -/
def state (kind : ProcessKind) : Option ProcessState :=
  (s.topology.process kind).map ProcessSpec.state

/-- The routes and channels that `route` and `receive` work on. -/
def routing : ProcessModel.ProcessSupervisor := ⟨s.topology.toProcessTopology, s.channels⟩

/-- Sets the state of a process. -/
def setState (kind : ProcessKind) (state : ProcessState) : ProcessSupervisor :=
  { s with topology := s.topology.setState kind state }

variable {s : ProcessSupervisor} {kind : ProcessKind}

theorem state_set_state (s : ProcessSupervisor) (kind other : ProcessKind) (state : ProcessState) :
    (s.setState kind state).state other =
      if kind = other then (s.state other).map fun _ => state else s.state other := by
  show ((s.topology.processes.modify kind _)[other]?).map _ = _
  rw [OrdMap.get_modify]
  split_ifs with hkind
  · subst hkind
    rw [ProcessSupervisor.state, ProcessTopology.process, Option.map_map, Option.map_map]
    rfl
  · rfl

/-- Writing the state twice is writing it once. -/
theorem set_state_set_state (s : ProcessSupervisor) (kind : ProcessKind)
    (first second : ProcessState) :
    (s.setState kind first).setState kind second = s.setState kind second := by
  have hprocesses : ((s.topology.processes.modify kind fun process =>
        { process with state := first }).modify kind fun process =>
        { process with state := second }) =
      s.topology.processes.modify kind fun process => { process with state := second } := by
    refine ExtTreeMap.ext_getElem? fun other => ?_
    simp only [OrdMap.get_modify]
    by_cases hkind : kind = other
    · subst hkind
      simp only [if_true, Option.map_map]
      rfl
    · simp only [if_neg hkind]
  simp only [setState, ProcessTopology.setState, hprocesses]

/-! ## What a call can do -/

/-- The supervisor after a launch. -/
def launched (s : ProcessSupervisor) (request : ProcessLaunch) (child : Child) :
    ProcessSupervisor :=
  { s.setState request.kind .running with
    launches := s.launches.insert request.kind request
    children := s.children.insert request.kind child }

theorem mem_children_iff : kind ∈ s.children ↔ s.children.contains kind = true :=
  ExtTreeMap.mem_iff_contains

/-- A launch that fails changes nothing. -/
theorem launch_cases (s : ProcessSupervisor) (request : ProcessLaunch)
    (spawn : Except IoError Child) :
    (∃ e, s.launch request spawn = (.error e, s)) ∨
      ∃ child, spawn = .ok child ∧ request.kind ≠ .host ∧ request.kind ∉ s.children ∧
        s.launch request spawn = (.ok ⟨request.kind, child.id⟩, s.launched request child) := by
  unfold launch
  by_cases hhost : request.kind = .host
  · rw [if_pos hhost]
    exact .inl ⟨_, rfl⟩
  rw [if_neg hhost]
  cases s.topology.process request.kind with
  | none => exact .inl ⟨_, rfl⟩
  | some process =>
      dsimp only
      by_cases hrunning : s.children.contains request.kind ∨ process.state = .running
      · rw [if_pos hrunning]
        exact .inl ⟨_, rfl⟩
      · rw [if_neg hrunning]
        cases spawn with
        | error e => exact .inl ⟨_, rfl⟩
        | ok child =>
            refine .inr ⟨child, rfl, hhost, fun hmem => hrunning (.inl ?_), rfl⟩
            exact mem_children_iff.mp hmem

/-- A kind that has no child and is not marked as running can be launched. -/
theorem launch_ok (hhost : kind ≠ .host) (hchild : kind ∉ s.children) {state : ProcessState}
    (hstate : s.state kind = some state) (hrunning : state ≠ .running) (program : Text)
    (args : List Text) (child : Child) :
    s.launch ⟨kind, program, args⟩ (.ok child) =
      (.ok ⟨kind, child.id⟩, s.launched ⟨kind, program, args⟩ child) := by
  obtain ⟨process, hprocess, hspec⟩ := Option.map_eq_some_iff.mp hstate
  have hidle : ¬ (s.children.contains kind = true ∨ process.state = .running) := by
    rw [hspec, ← mem_children_iff]
    exact fun h => h.elim hchild hrunning
  unfold launch
  rw [if_neg hhost]
  dsimp only
  rw [hprocess]
  dsimp only
  rw [if_neg hidle]
  rfl

/-- A topology restarts what crashed and may be restarted. -/
theorem topology_restart_cases (t : ProcessTopology) (kind : ProcessKind) :
    t.restartAfterCrash kind = (false, t) ∨
      (∃ process, t.process kind = some process ∧ process.state = .crashed) ∧
        t.restartAfterCrash kind = (true, t.setState kind .starting) := by
  rw [ProcessTopology.restartAfterCrash]
  cases hprocess : t.process kind with
  | none => exact .inl rfl
  | some process =>
      dsimp only
      by_cases hcrashed : process.state = .crashed ∧ process.restart ≠ .never
      · rw [if_pos hcrashed]
        exact .inr ⟨⟨process, rfl, hcrashed.1⟩, rfl⟩
      · rw [if_neg hcrashed]
        exact .inl rfl

/-- A restart that is not refused marks the process as starting before it launches. -/
theorem restart_cases (s : ProcessSupervisor) (kind : ProcessKind)
    (spawn : Except IoError Child) :
    (∃ e, (∀ io, e ≠ .spawn io) ∧ s.restartAfterCrash kind spawn = (.error e, s)) ∨
      ∃ request, kind ∉ s.children ∧ s.launches[kind]? = some request ∧
        s.state kind = some .crashed ∧
        s.restartAfterCrash kind spawn = (s.setState kind .starting).launch request spawn := by
  rw [restartAfterCrash]
  by_cases hchild : s.children.contains kind = true
  · rw [if_pos hchild]
    exact .inl ⟨.alreadyRunning kind, fun io => ProcessSupervisorError.noConfusion, rfl⟩
  rw [if_neg hchild]
  cases hlaunch : s.launches[kind]? with
  | none => exact .inl ⟨.noLaunchSpec kind, fun io => ProcessSupervisorError.noConfusion, rfl⟩
  | some request =>
      dsimp only
      rcases topology_restart_cases s.topology kind with hrefused | ⟨⟨process, hget, hstate⟩, hok⟩
      · rw [hrefused]
        exact .inl ⟨.unknownProcess kind, fun io => ProcessSupervisorError.noConfusion, rfl⟩
      · rw [hok]
        refine .inr ⟨request, fun hmem => hchild (mem_children_iff.mp hmem), rfl, ?_, rfl⟩
        rw [state, hget, Option.map_some, hstate]

end ProcessSupervisor

end BrowsAI.ProcessModel.Lifecycle
