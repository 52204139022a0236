import BrowsAI.Library.Runs
import BrowsAI.ProcessModel.Lifecycle

/-!
# Supervision over whole runs

Two calls lose a process when the operating system fails. A restart whose spawn fails leaves the
process marked as starting, which no later restart accepts, `restart_spawn_error`. A stop whose
`kill` or `wait` fails has already dropped the child, `in_step_iff`: the topology and the children
agree all along exactly in the runs without such a stop.
-/

namespace BrowsAI.ProcessModel.Lifecycle

open Std Ipc Utf8

namespace ProcessSupervisor

section Restart

/-! ## A restart whose spawn fails -/

variable {s : ProcessSupervisor} {kind : ProcessKind}

/-- A restart fails in the spawn with the process marked as starting. -/
theorem restart_of_spawn_error {e io : IoError}
    (h : (s.restartAfterCrash kind (.error e)).1 = .error (.spawn io)) :
    s.state kind = some .crashed ∧
      (s.restartAfterCrash kind (.error e)).2 = s.setState kind .starting := by
  rcases restart_cases s kind (.error e) with ⟨error, hne, heq⟩ | ⟨request, _, _, hcrashed, heq⟩
  · rw [heq] at h
    exact absurd (Except.error.inj h) (hne io)
  · rw [heq]
    refine ⟨hcrashed, ?_⟩
    rcases launch_cases (s.setState kind .starting) request (.error e) with
      ⟨error, hlaunch⟩ | ⟨child, hspawn, _⟩
    · rw [hlaunch]
    · cases hspawn

/-- No process but a crashed one is restarted. -/
theorem restart_refused (h : s.state kind ≠ some .crashed) (spawn : Except IoError Child) :
    ∃ error, s.restartAfterCrash kind spawn = (.error error, s) := by
  rcases restart_cases s kind spawn with ⟨error, _, heq⟩ | ⟨request, _, _, hcrashed, _⟩
  · exact ⟨error, heq⟩
  · exact absurd hcrashed h

/-- A restart whose spawn fails has changed the topology, and no later restart succeeds. -/
theorem restart_spawn_error {e io : IoError}
    (h : (s.restartAfterCrash kind (.error e)).1 = .error (.spawn io)) :
    let after := (s.restartAfterCrash kind (.error e)).2
    after.topology ≠ s.topology ∧ after.children = s.children ∧ after.launches = s.launches ∧
      after.state kind = some .starting ∧
      ∀ spawn, ∃ error, after.restartAfterCrash kind spawn = (.error error, after) := by
  obtain ⟨hcrashed, hafter⟩ := restart_of_spawn_error h
  have hstarting : (s.setState kind .starting).state kind = some .starting := by
    rw [state_set_state, if_pos rfl, hcrashed]
    rfl
  dsimp only
  rw [hafter]
  refine ⟨fun htopology => ?_, rfl, rfl, hstarting, fun spawn => restart_refused ?_ spawn⟩
  · have hstate : (s.setState kind .starting).state kind = s.state kind := by
      rw [state, htopology, state]
    rw [hstarting, hcrashed] at hstate
    cases hstate
  · rw [hstarting]
    exact fun hcrashed => by cases hcrashed

/-- A renderer that was launched and has crashed. -/
def crashedRenderer : ProcessSupervisor :=
  (((new (.production 1)).launch ⟨.renderer, "renderer", []⟩ (.ok ⟨7⟩)).2.poll .renderer
    (.ok (some ⟨1⟩))).2

theorem crashed_renderer_restart :
    (crashedRenderer.restartAfterCrash .renderer (.error "out of memory")).1 =
      .error (.spawn "out of memory") := by
  decide

theorem crashed_renderer_sticks :
    let after := (crashedRenderer.restartAfterCrash .renderer (.error "out of memory")).2
    after.topology ≠ crashedRenderer.topology ∧ after.children = crashedRenderer.children ∧
      after.launches = crashedRenderer.launches ∧ after.state .renderer = some .starting ∧
      ∀ spawn, ∃ error, after.restartAfterCrash .renderer spawn = (.error error, after) :=
  restart_spawn_error crashed_renderer_restart

/-- A failed restart does not keep the topology as it was. -/
theorem crashed_renderer_not_kept :
    ¬ ∀ (s : ProcessSupervisor) (kind : ProcessKind) (e io : IoError),
      s.state kind = some .crashed →
      (s.restartAfterCrash kind (.error e)).1 = .error (.spawn io) →
        (s.restartAfterCrash kind (.error e)).2.topology = s.topology ∧
        (s.restartAfterCrash kind (.error e)).2.children = s.children ∧
        (s.restartAfterCrash kind (.error e)).2.launches = s.launches ∧
        ∀ child, ∃ handle,
          ((s.restartAfterCrash kind (.error e)).2.restartAfterCrash kind (.ok child)).1 =
            .ok handle := by
  intro h
  have hspawn := crashed_renderer_restart
  obtain ⟨hcrashed, hafter⟩ := restart_of_spawn_error hspawn
  obtain ⟨_, _, _, hlater⟩ := h crashedRenderer .renderer "out of memory" "out of memory" hcrashed
    hspawn
  obtain ⟨handle, hok⟩ := hlater ⟨8⟩
  have hfails : ((crashedRenderer.setState .renderer .starting).restartAfterCrash .renderer
      (.ok ⟨8⟩)).1 = .error (.unknownProcess .renderer) := by decide
  rw [hafter, hfails] at hok
  cases hok

end Restart

/-! ## Runs -/

/-- A call with what the operating system answers. -/
inductive Op where
  | launch (request : ProcessLaunch) (spawn : Except IoError Child)
  | poll (kind : ProcessKind) (tryWait : Except IoError (Option ExitStatus))
  | stop (kind : ProcessKind) (kill : Except IoError Unit) (wait : Except IoError ExitStatus)
  | restartAfterCrash (kind : ProcessKind) (spawn : Except IoError Child)

/-- The kind that a call is about. -/
def Op.kind : Op → ProcessKind
  | .launch request _ => request.kind
  | .poll kind _ | .stop kind _ _ | .restartAfterCrash kind _ => kind

/-- A call, with what the operating system answered. -/
def perform (s : ProcessSupervisor) : Op → ProcessSupervisor
  | .launch request spawn => (s.launch request spawn).2
  | .poll kind tryWait => (s.poll kind tryWait).2
  | .stop kind kill wait => (s.stop kind kill wait).2
  | .restartAfterCrash kind spawn => (s.restartAfterCrash kind spawn).2

/-- The system whose steps are calls. -/
def machine : Machine ProcessSupervisor Op where
  step := perform
  Allowed _ _ := True

/-- A stop of a child that is there kills it and waits for it. -/
def StopsCleanly (s : ProcessSupervisor) : Op → Prop
  | .stop kind kill wait => kind ∈ s.children → kill = .ok () ∧ ∃ status, wait = .ok status
  | _ => True

/-- The host has no child, launches are stored under their kinds, and every kind is defined. -/
structure Wired (s : ProcessSupervisor) : Prop where
  host : ProcessKind.host ∉ s.children
  launches : ∀ (kind : ProcessKind) (request : ProcessLaunch),
    s.launches[kind]? = some request → request.kind = kind
  defined : ∀ kind, (s.state kind).isSome

/-- The supervisor after the child of a kind has gone, with the state that is written then. -/
def gone (s : ProcessSupervisor) (kind : ProcessKind) (state : ProcessState) :
    ProcessSupervisor :=
  { s.setState kind state with children := s.children.erase kind }

/-- Everything that a call can do to a wired supervisor. -/
inductive Effect (s : ProcessSupervisor) (op : Op) : ProcessSupervisor → Prop
  | none (hclean : s.StopsCleanly op) : Effect s op s
  | starting (hclean : s.StopsCleanly op) (hcrashed : s.state op.kind = some .crashed) :
      Effect s op (s.setState op.kind .starting)
  | launched (hclean : s.StopsCleanly op) (request : ProcessLaunch) (child : Child)
      (hhost : request.kind ≠ .host) : Effect s op (s.launched request child)
  | crashed (hclean : s.StopsCleanly op) : Effect s op (s.gone op.kind .crashed)
  | stopped (hclean : s.StopsCleanly op) :
      Effect s op { s.gone op.kind .stopped with launches := s.launches.erase op.kind }
  | dropped (hunclean : ¬ s.StopsCleanly op) (hchild : op.kind ∈ s.children) :
      Effect s op { s with children := s.children.erase op.kind }

variable {s : ProcessSupervisor}

theorem launched_set_state (s : ProcessSupervisor) (request : ProcessLaunch) (child : Child)
    (state : ProcessState) :
    (s.setState request.kind state).launched request child = s.launched request child := by
  rw [ProcessSupervisor.launched, set_state_set_state]
  rfl

theorem effect_launch (s : ProcessSupervisor) (request : ProcessLaunch)
    (spawn : Except IoError Child) :
    s.Effect (.launch request spawn) (s.launch request spawn).2 := by
  rcases launch_cases s request spawn with ⟨e, heq⟩ | ⟨child, _, hhost, _, heq⟩
  · rw [heq]
    exact .none trivial
  · rw [heq]
    refine .launched ?_ request child hhost
    trivial

/-- What a look does. -/
theorem effect_poll (s : ProcessSupervisor) (kind : ProcessKind)
    (tryWait : Except IoError (Option ExitStatus)) :
    s.Effect (.poll kind tryWait) (s.poll kind tryWait).2 := by
  unfold poll
  cases s.children[kind]? with
  | none => exact .none trivial
  | some child =>
      cases tryWait with
      | error e => exact .none trivial
      | ok status =>
          cases status with
          | none => exact .none trivial
          | some status => exact .crashed trivial

/-- What a stop does. -/
theorem effect_stop (s : ProcessSupervisor) (kind : ProcessKind) (kill : Except IoError Unit)
    (wait : Except IoError ExitStatus) :
    s.Effect (.stop kind kill wait) (s.stop kind kill wait).2 := by
  unfold stop
  cases hchild : s.children[kind]? with
  | none =>
      refine .none fun hmem => ?_
      rw [← ExtTreeMap.isSome_getElem?_iff_mem, hchild] at hmem
      cases hmem
  | some child =>
      have hmem : kind ∈ s.children := by
        rw [← ExtTreeMap.isSome_getElem?_iff_mem, hchild]
        rfl
      cases kill with
      | error e =>
          refine .dropped (fun hclean => ?_) hmem
          cases (hclean hmem).1
      | ok u =>
          cases wait with
          | error e =>
              refine .dropped (fun hclean => ?_) hmem
              obtain ⟨status, hstatus⟩ := (hclean hmem).2
              cases hstatus
          | ok status => exact .stopped fun _ => ⟨rfl, status, rfl⟩

/-- What a restart does. -/
theorem effect_restart (h : s.Wired) (kind : ProcessKind) (spawn : Except IoError Child) :
    s.Effect (.restartAfterCrash kind spawn) (s.restartAfterCrash kind spawn).2 := by
  rcases restart_cases s kind spawn with ⟨e, _, heq⟩ | ⟨request, _, hlaunch, hcrashed, heq⟩
  · rw [heq]
    exact .none trivial
  · rw [heq]
    obtain rfl := h.launches kind request hlaunch
    rcases launch_cases (s.setState request.kind .starting) request spawn with
      ⟨e, hfails⟩ | ⟨child, _, hhost, _, hok⟩
    · rw [hfails]
      exact .starting trivial hcrashed
    · rw [hok, launched_set_state]
      refine .launched ?_ request child hhost
      trivial

theorem Wired.effect (h : s.Wired) (op : Op) : s.Effect op (s.perform op) := by
  cases op with
  | launch request spawn => exact effect_launch s request spawn
  | poll kind tryWait => exact effect_poll s kind tryWait
  | stop kind kill wait => exact effect_stop s kind kill wait
  | restartAfterCrash kind spawn => exact effect_restart h kind spawn

/-! ## The state and the children after a call -/

/-- A process that is launched runs. -/
theorem state_launched (s : ProcessSupervisor) (request : ProcessLaunch) (child : Child)
    (kind : ProcessKind) :
    (s.launched request child).state kind =
      if request.kind = kind then (s.state kind).map fun _ => .running else s.state kind :=
  state_set_state s request.kind kind .running

theorem mem_launched {request : ProcessLaunch} {child : Child} {kind : ProcessKind} :
    kind ∈ (s.launched request child).children ↔ request.kind = kind ∨ kind ∈ s.children := by
  show kind ∈ s.children.insert _ _ ↔ _
  rw [ExtTreeMap.mem_insert, LawfulEqCmp.compare_eq_iff_eq]

theorem state_gone (s : ProcessSupervisor) (gone kind : ProcessKind) (state : ProcessState) :
    (s.gone gone state).state kind =
      if gone = kind then (s.state kind).map fun _ => state else s.state kind :=
  state_set_state s gone kind state

theorem mem_erase_child {gone kind : ProcessKind} :
    kind ∈ s.children.erase gone ↔ gone ≠ kind ∧ kind ∈ s.children := by
  rw [ExtTreeMap.mem_erase, ne_eq, LawfulEqCmp.compare_eq_iff_eq]

/-- A write to a state keeps every kind defined. -/
theorem Wired.defined_write (h : s.Wired) {s' : ProcessSupervisor} {written : ProcessKind}
    {state : ProcessState} (hstate : ∀ kind, s'.state kind =
      if written = kind then (s.state kind).map fun _ => state else s.state kind)
    (kind : ProcessKind) : (s'.state kind).isSome := by
  rw [hstate]
  split_ifs
  · rw [Option.isSome_map]
    exact h.defined kind
  · exact h.defined kind

/-- Every call keeps the launches in step. -/
theorem Wired.after (h : s.Wired) {op : Op} {s' : ProcessSupervisor} (heffect : s.Effect op s') :
    s'.Wired := by
  have hgone (kind : ProcessKind) : ProcessKind.host ∉ s.children.erase kind :=
    fun hmem => h.host (mem_erase_child.mp hmem).2
  cases heffect with
  | none _ => exact h
  | starting _ _ =>
      exact ⟨h.host, h.launches, h.defined_write fun kind => state_set_state s _ kind _⟩
  | launched _ request child hhost =>
      have hkeyed := OrdMap.KeyedBy.insert (f := ProcessLaunch.kind) h.launches
        (show request.kind = request.kind from rfl)
      exact ⟨fun hmem => (mem_launched.mp hmem).elim hhost h.host, hkeyed,
        h.defined_write (state_launched s _ _)⟩
  | crashed _ => exact ⟨hgone _, h.launches, h.defined_write fun kind => state_gone s _ kind _⟩
  | stopped _ =>
      have hkeyed := OrdMap.KeyedBy.erase (f := ProcessLaunch.kind) h.launches op.kind
      exact ⟨hgone _, hkeyed, h.defined_write fun kind => state_gone s _ kind _⟩
  | dropped _ _ => exact ⟨hgone _, h.launches, h.defined⟩

/-- No call touches what messages are routed by. -/
theorem routing_after {op : Op} {s' : ProcessSupervisor} (heffect : s.Effect op s') :
    s'.routing = s.routing := by
  cases heffect <;> rfl

/-- The topology says that a process runs when the supervisor owns it, and what it does not own can
be launched. -/
structure InStep (s : ProcessSupervisor) : Prop where
  running_iff : ∀ kind, kind ≠ .host → (s.state kind = some .running ↔ kind ∈ s.children)
  relaunch : ∀ kind, kind ≠ .host → kind ∉ s.children →
    ∀ (program : Text) (args : List Text) (child : Child),
      ∃ handle, (s.launch ⟨kind, program, args⟩ (.ok child)).1 = .ok handle

/-- In a wired supervisor the states decide what can be launched. -/
theorem Wired.in_step (h : s.Wired)
    (hrunning : ∀ kind, kind ≠ .host → (s.state kind = some .running ↔ kind ∈ s.children)) :
    s.InStep := by
  refine ⟨hrunning, fun kind hhost hchild program args child => ?_⟩
  obtain ⟨state, hstate⟩ := Option.isSome_iff_exists.mp (h.defined kind)
  refine ⟨⟨kind, child.id⟩, ?_⟩
  rw [launch_ok hhost hchild hstate fun hrun => ?_]
  rw [hrun] at hstate
  exact hchild ((hrunning kind hhost).mp hstate)

/-- A write of a state other than running, to a kind whose child is gone, keeps the others. -/
theorem InStep.running_iff_gone (hstep : s.InStep) {s' : ProcessSupervisor} {gone : ProcessKind}
    {state : ProcessState} (hidle : state ≠ .running)
    (hstate : ∀ kind, s'.state kind =
      if gone = kind then (s.state kind).map fun _ => state else s.state kind)
    (hchild : ∀ kind, kind ∈ s'.children ↔ gone ≠ kind ∧ kind ∈ s.children) (kind : ProcessKind)
    (hhost : kind ≠ .host) : s'.state kind = some .running ↔ kind ∈ s'.children := by
  rw [hstate, hchild]
  split_ifs with hkind
  · refine iff_of_false (fun hrunning => ?_) fun h => h.1 hkind
    obtain ⟨_, _, heq⟩ := Option.map_eq_some_iff.mp hrunning
    exact hidle heq
  · exact (hstep.running_iff kind hhost).trans ⟨fun h => ⟨hkind, h⟩, fun h => h.2⟩

/-- A call keeps topology and children in step exactly when it is not an unclean stop. -/
theorem Wired.in_step_after_iff (h : s.Wired) (hstep : s.InStep) {op : Op}
    {s' : ProcessSupervisor} (heffect : s.Effect op s') : s'.InStep ↔ s.StopsCleanly op := by
  have hwired := h.after heffect
  cases heffect with
  | none hclean => exact iff_of_true hstep hclean
  | starting hclean hcrashed =>
      have hchild : op.kind ∉ s.children := fun hmem => by
        have hhost : op.kind ≠ .host := fun hkind => h.host (hkind ▸ hmem)
        rw [← hstep.running_iff _ hhost, hcrashed] at hmem
        cases hmem
      refine iff_of_true (hwired.in_step (hstep.running_iff_gone (by decide)
        (fun kind => state_set_state s _ kind .starting) fun kind => ?_)) hclean
      exact ⟨fun hmem => ⟨fun hkind => hchild (hkind ▸ hmem), hmem⟩, fun hmem => hmem.2⟩
  | launched hclean request child hhost =>
      refine iff_of_true (hwired.in_step fun kind hkind => ?_) hclean
      rw [state_launched, mem_launched]
      split_ifs with hlaunched
      · obtain ⟨state, hstate⟩ := Option.isSome_iff_exists.mp (h.defined kind)
        rw [hstate]
        exact iff_of_true rfl (.inl hlaunched)
      · exact (hstep.running_iff kind hkind).trans ⟨.inr, fun hmem => hmem.resolve_left hlaunched⟩
  | crashed hclean =>
      exact iff_of_true (hwired.in_step (hstep.running_iff_gone (by decide)
        (fun kind => state_gone s _ kind .crashed) fun _ => mem_erase_child)) hclean
  | stopped hclean =>
      exact iff_of_true (hwired.in_step (hstep.running_iff_gone (by decide)
        (fun kind => state_gone s _ kind .stopped) fun _ => mem_erase_child)) hclean
  | dropped hunclean hchild =>
      refine iff_of_false (fun hafter => ?_) hunclean
      have hhost : op.kind ≠ .host := fun hkind => h.host (hkind ▸ hchild)
      have hrunning : s.state op.kind = some .running := (hstep.running_iff _ hhost).mpr hchild
      have hmem := (hafter.running_iff op.kind hhost).mp hrunning
      exact (mem_erase_child.mp hmem).1 rfl

theorem state_production (v : UInt16) (kind : ProcessKind) :
    (new (.production v)).state kind = some .starting := by
  cases kind <;> rfl

theorem wired_new (v : UInt16) : (new (.production v)).Wired where
  host hmem := by simp [new] at hmem
  launches kind request hget := by simp [new] at hget
  defined kind := by rw [state_production, Option.isSome_some]

theorem in_step_new (v : UInt16) : (new (.production v)).InStep :=
  (wired_new v).in_step fun kind _ => by
    rw [state_production]
    refine iff_of_false (fun h => by cases h) fun hmem => ?_
    simp [new] at hmem

/-- Over a whole run, topology and children stay in step exactly when every stop of a child kills it
and waits for it. -/
theorem in_step_iff (v : UInt16) (ops : List Op) :
    machine.Always InStep (new (.production v)) ops ↔
      machine.Throughout StopsCleanly (new (.production v)) ops :=
  Machine.always_iff (I := Wired) (fun _ op h hstep _ => h.in_step_after_iff hstep (h.effect op))
    (fun _ op h _ => h.after (h.effect op)) (wired_new v) (in_step_new v)
    (Machine.allowed_run_of_forall (fun _ _ => trivial) _ ops)

/-- A launch, and a stop whose `kill` fails. -/
def failedStop : List Op :=
  [.launch ⟨.renderer, "renderer", []⟩ (.ok ⟨7⟩),
    .stop .renderer (.error "permission denied") (.ok ⟨0⟩)]

/-- After a stop that fails the renderer counts as running, and cannot be launched. -/
theorem failed_stop_not_in_step :
    ¬ ∀ (v : UInt16) (ops : List Op), machine.Always InStep (new (.production v)) ops := by
  intro h
  have hstep : (machine.run (new (.production 1)) failedStop).InStep := (h 1 failedStop).2.2
  have hchild : ProcessKind.renderer ∉ (machine.run (new (.production 1)) failedStop).children := by
    decide
  obtain ⟨handle, hok⟩ := hstep.relaunch .renderer (by decide) hchild "renderer" [] ⟨8⟩
  have hrefused : ((machine.run (new (.production 1)) failedStop).launch
      ⟨.renderer, "renderer", []⟩ (.ok ⟨8⟩)).1 = .error (.alreadyRunning .renderer) := by
    decide
  rw [hrefused] at hok
  cases hok

end ProcessSupervisor

end BrowsAI.ProcessModel.Lifecycle
