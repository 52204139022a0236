import BrowsAI.AgentTree.Basic

/-!
# The runtime observer

`RuntimeObserver` of `crates/runtime-observer`: a queue of events that three drains consume. A call
that panics has no result. Read `lossless_iff` first: a run of calls loses nothing, exactly if no
bounded drain asks for more events than are queued.
-/

namespace BrowsAI.RuntimeEvents

open Utf8 AgentTree

/-- What the runtime of a page tells. -/
inductive RuntimeEvent where
  | taskStarted (taskId : UInt64)
  | taskCompleted (taskId : UInt64)
  | microtaskQueued (taskId : UInt64)
  | promiseSettled (promiseId : UInt64) (fulfilled : Bool)
  | workerStarted (workerId : UInt64)
  | workerStopped (workerId : UInt64)
  | exception (message : Text)
  | domMutation (nodeId : UInt64)
  deriving DecidableEq

/-- An event with where it is known from. -/
structure RuntimeEvidence where
  event : RuntimeEvent
  provenance : List ProvenanceSource
  deriving DecidableEq

/-- The events that wait, and the next ids. -/
structure RuntimeObserver where
  nextTask : UInt64
  nextWorker : UInt64
  events : List RuntimeEvidence
  deriving DecidableEq

/-- `RuntimeObserver::default()`. -/
instance : Inhabited RuntimeObserver := ⟨⟨0, 0, []⟩⟩

namespace RuntimeObserver

variable (observer : RuntimeObserver)

/-- Keeps an event. -/
def observeWithProvenance (event : RuntimeEvent) (source : ProvenanceSource) : RuntimeObserver :=
  { observer with events := observer.events ++ [⟨event, [source]⟩] }

/-- Keeps an event of the observer itself. -/
def observe (event : RuntimeEvent) : RuntimeObserver :=
  observer.observeWithProvenance event ⟨.javaScript, "runtime-observer", none⟩

/-- A new task. -/
def startTask : UInt64 × RuntimeObserver :=
  let id := observer.nextTask + 1
  (id, { observer with nextTask := id }.observe (.taskStarted id))

/-- The end of a task. -/
def completeTask (taskId : UInt64) : RuntimeObserver := observer.observe (.taskCompleted taskId)

/-- A microtask of a task. -/
def queueMicrotask (taskId : UInt64) : RuntimeObserver := observer.observe (.microtaskQueued taskId)

/-- A promise that is settled. -/
def settlePromise (promiseId : UInt64) (fulfilled : Bool) : RuntimeObserver :=
  observer.observe (.promiseSettled promiseId fulfilled)

/-- A new worker. -/
def startWorker : UInt64 × RuntimeObserver :=
  let id := observer.nextWorker + 1
  (id, { observer with nextWorker := id }.observe (.workerStarted id))

/-- The end of a worker. -/
def stopWorker (workerId : UInt64) : RuntimeObserver := observer.observe (.workerStopped workerId)

/-- An exception. -/
def observeException (message : Text) : RuntimeObserver := observer.observe (.exception message)

/-- A change of a node. -/
def observeDomMutation (nodeId : UInt64) : RuntimeObserver := observer.observe (.domMutation nodeId)

/-- `VecDeque::drain` panics when the end of the range is beyond the end of the queue. -/
def drainBounded (limit : Nat) : Option (List RuntimeEvent × RuntimeObserver) :=
  if observer.events.length < limit then none
  else
    some ((observer.events.take limit).map RuntimeEvidence.event,
      { observer with events := observer.events.drop limit })

/-- The events that wait. -/
def drain : List RuntimeEvent × RuntimeObserver :=
  (observer.events.map RuntimeEvidence.event, { observer with events := [] })

/-- The events with where they are known from. -/
def drainEvidence : List RuntimeEvidence × RuntimeObserver :=
  (observer.events, { observer with events := [] })

/-- The events that wait in the queue. -/
def queued : List RuntimeEvent := observer.events.map RuntimeEvidence.event

end RuntimeObserver

/-! ## Runs of calls -/

/-- A call. -/
inductive Call where
  | startTask
  | completeTask (taskId : UInt64)
  | queueMicrotask (taskId : UInt64)
  | settlePromise (promiseId : UInt64) (fulfilled : Bool)
  | startWorker
  | stopWorker (workerId : UInt64)
  | observeException (message : Text)
  | observeDomMutation (nodeId : UInt64)
  | observe (event : RuntimeEvent)
  | observeWithProvenance (event : RuntimeEvent) (source : ProvenanceSource)
  | drainBounded (limit : Nat)
  | drain
  | drainEvidence

namespace Call

/-- The events that a call drains, and the observer after it. -/
def perform (observer : RuntimeObserver) : Call → Option (List RuntimeEvent × RuntimeObserver)
  | startTask => some ([], observer.startTask.2)
  | completeTask taskId => some ([], observer.completeTask taskId)
  | queueMicrotask taskId => some ([], observer.queueMicrotask taskId)
  | settlePromise promiseId fulfilled => some ([], observer.settlePromise promiseId fulfilled)
  | startWorker => some ([], observer.startWorker.2)
  | stopWorker workerId => some ([], observer.stopWorker workerId)
  | observeException message => some ([], observer.observeException message)
  | observeDomMutation nodeId => some ([], observer.observeDomMutation nodeId)
  | observe event => some ([], observer.observe event)
  | observeWithProvenance event source => some ([], observer.observeWithProvenance event source)
  | drainBounded limit => observer.drainBounded limit
  | drain => some observer.drain
  | drainEvidence =>
      some (observer.drainEvidence.1.map RuntimeEvidence.event, observer.drainEvidence.2)

/-- The numbers of the last task and the last worker after a call. -/
def counters (task worker : UInt64) : Call → UInt64 × UInt64
  | startTask => (task + 1, worker)
  | startWorker => (task, worker + 1)
  | _ => (task, worker)

/-- What a call observes, after so many tasks and workers. -/
def observed (task worker : UInt64) : Call → List RuntimeEvent
  | startTask => [.taskStarted (task + 1)]
  | completeTask taskId => [.taskCompleted taskId]
  | queueMicrotask taskId => [.microtaskQueued taskId]
  | settlePromise promiseId fulfilled => [.promiseSettled promiseId fulfilled]
  | startWorker => [.workerStarted (worker + 1)]
  | stopWorker workerId => [.workerStopped workerId]
  | observeException message => [.exception message]
  | observeDomMutation nodeId => [.domMutation nodeId]
  | observe event | observeWithProvenance event _ => [event]
  | drainBounded _ | drain | drainEvidence => []

/-- How many events wait after a call, if so many waited before it. -/
def waiting (count : Nat) : Call → Nat
  | drainBounded limit => count - limit
  | drain | drainEvidence => 0
  | _ => count + 1

/-- The call does not ask for more events than wait. -/
def Within (count : Nat) : Call → Prop
  | drainBounded limit => limit ≤ count
  | _ => True

end Call

/-- The drained events call by call, and the observer after all of them. -/
def replay (observer : RuntimeObserver) :
    List Call → Option (List (List RuntimeEvent) × RuntimeObserver)
  | [] => some ([], observer)
  | call :: calls => do
      let (drained, observer) ← call.perform observer
      let (rest, observer) ← replay observer calls
      pure (drained :: rest, observer)

/-- All that the calls observe, in order. -/
def observed (task worker : UInt64) : List Call → List RuntimeEvent
  | [] => []
  | call :: calls =>
      call.observed task worker ++
        observed (call.counters task worker).1 (call.counters task worker).2 calls

/-- No call asks for more events than wait in its turn. -/
def Within (count : Nat) : List Call → Prop
  | [] => True
  | call :: calls => call.Within count ∧ Within (call.waiting count) calls

/-- All calls return; what they drain and what is left in the queue is what was in the queue and
what they observe; and each bounded drain gives the first events of the queue in its turn, as many
as it asks for or as there are. -/
structure Lossless (observer : RuntimeObserver) (calls : List Call) : Prop where
  returns : ∃ drained last, replay observer calls = some (drained, last) ∧
    drained.flatten ++ last.queued =
      observer.queued ++ observed observer.nextTask observer.nextWorker calls
  bounded : ∀ before limit after, calls = before ++ .drainBounded limit :: after →
    ∃ drained turn events next, replay observer before = some (drained, turn) ∧
      turn.drainBounded limit = some (events, next) ∧
      events = turn.queued.take (min limit turn.queued.length)

/-- What a call within its bound does. -/
theorem Call.perform_spec {observer : RuntimeObserver} {call : Call}
    (h : call.Within observer.events.length) :
    ∃ drained next, call.perform observer = some (drained, next) ∧
      drained ++ next.queued =
        observer.queued ++ call.observed observer.nextTask observer.nextWorker ∧
      (next.nextTask, next.nextWorker) =
        call.counters observer.nextTask observer.nextWorker ∧
      next.events.length = call.waiting observer.events.length := by
  cases call with
  | drainBounded limit =>
      refine ⟨_, _, if_neg (Nat.not_lt.mpr h), ?_, rfl, List.length_drop⟩
      rw [Call.observed, List.append_nil, RuntimeObserver.queued, RuntimeObserver.queued,
        ← List.map_append, List.take_append_drop]
  | drain | drainEvidence =>
      exact ⟨_, _, rfl, by rw [Call.observed, List.append_nil]; exact List.append_nil _, rfl, rfl⟩
  | startTask | completeTask | queueMicrotask | settlePromise | startWorker | stopWorker
  | observeException | observeDomMutation | observe | observeWithProvenance =>
      exact ⟨_, _, rfl, List.map_append, rfl, List.length_append⟩

section

variable {observer : RuntimeObserver} {calls : List Call}

/-- Calls within their bounds return, and what they observe joins the queue before it is drained. -/
theorem replay_of_within (h : Within observer.events.length calls) :
    ∃ drained last, replay observer calls = some (drained, last) ∧
      drained.flatten ++ last.queued =
        observer.queued ++ observed observer.nextTask observer.nextWorker calls := by
  induction calls generalizing observer with
  | nil => exact ⟨[], observer, rfl, (List.append_nil _).symm⟩
  | cons call calls ih =>
      obtain ⟨first, next, hperform, hqueued, hcounters, hlength⟩ := Call.perform_spec h.1
      obtain ⟨rest, last, hreplay, hrest⟩ := ih (hlength ▸ h.2)
      refine ⟨first :: rest, last, by rw [replay, hperform]; simp [hreplay], ?_⟩
      calc (first :: rest).flatten ++ last.queued
          = first ++ (rest.flatten ++ last.queued) := List.append_assoc _ _ _
        _ = (first ++ next.queued) ++ observed next.nextTask next.nextWorker calls := by
            rw [hrest, List.append_assoc]
        _ = observer.queued ++ observed observer.nextTask observer.nextWorker (call :: calls) := by
            rw [hqueued, observed, ← hcounters, List.append_assoc]

/-- Calls that return are within their bounds. -/
theorem within_of_replay {drained : List (List RuntimeEvent)} {last : RuntimeObserver}
    (h : replay observer calls = some (drained, last)) : Within observer.events.length calls := by
  induction calls generalizing observer drained last with
  | nil => trivial
  | cons call calls ih =>
      rw [replay] at h
      obtain ⟨⟨first, next⟩, hperform, h⟩ := Option.bind_eq_some_iff.mp h
      obtain ⟨⟨rest, last'⟩, hreplay, -⟩ := Option.bind_eq_some_iff.mp h
      have hwithin : call.Within observer.events.length := by
        cases call with
        | drainBounded limit =>
            refine Nat.le_of_not_lt fun hlimit => ?_
            rw [Call.perform, RuntimeObserver.drainBounded, if_pos hlimit] at hperform
            cases hperform
        | _ => trivial
      obtain ⟨_, _, hperform', -, -, hlength⟩ := Call.perform_spec hwithin
      cases hperform.symm.trans hperform'
      exact ⟨hwithin, hlength ▸ ih hreplay⟩

theorem within_of_append {count : Nat} {before after : List Call}
    (h : Within count (before ++ after)) : Within count before := by
  induction before generalizing count with
  | nil => trivial
  | cons call before ih => exact ⟨h.1, ih h.2⟩

/-- What is left to do after some of the calls. -/
theorem within_after {before after : List Call} {drained : List (List RuntimeEvent)}
    {turn : RuntimeObserver} (hreplay : replay observer before = some (drained, turn))
    (h : Within observer.events.length (before ++ after)) : Within turn.events.length after := by
  induction before generalizing observer drained with
  | nil => cases hreplay; exact h
  | cons call before ih =>
      rw [replay] at hreplay
      obtain ⟨⟨first, next⟩, hperform, hreplay⟩ := Option.bind_eq_some_iff.mp hreplay
      obtain ⟨⟨rest, last⟩, hrest, hlast⟩ := Option.bind_eq_some_iff.mp hreplay
      cases hlast
      obtain ⟨_, _, hperform', -, -, hlength⟩ := Call.perform_spec h.1
      cases hperform.symm.trans hperform'
      exact ih hrest (hlength ▸ h.2)

end

/-- A run loses nothing, exactly if every bounded drain asks for no more events than are queued in
its turn. -/
theorem lossless_iff (observer : RuntimeObserver) (calls : List Call) :
    Lossless observer calls ↔ Within observer.events.length calls := by
  constructor
  · intro h
    obtain ⟨drained, last, hreplay, -⟩ := h.returns
    exact within_of_replay hreplay
  · intro h
    refine ⟨replay_of_within h, ?_⟩
    rintro before limit after rfl
    obtain ⟨drained, turn, hreplay, -⟩ := replay_of_within (within_of_append h)
    have hlimit : limit ≤ turn.events.length := (within_after hreplay h).1
    refine ⟨drained, turn, _, _, hreplay, if_neg (Nat.not_lt.mpr hlimit), ?_⟩
    rw [RuntimeObserver.queued, List.length_map, Nat.min_eq_left hlimit, List.map_take]

/-- One event is asked of an empty queue. -/
theorem drain_bounded_panics :
    ¬ ∀ observer calls, Lossless observer calls := by
  intro h
  obtain ⟨drained, last, hreplay, -⟩ := (h default [.drainBounded 1]).returns
  cases hreplay

end BrowsAI.RuntimeEvents
