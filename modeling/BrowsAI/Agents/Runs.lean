import BrowsAI.Agents.Challenges
import BrowsAI.Agents.Sessions

/-!
# Agent scripts

`AgentScriptRuntime` of `crates/agent-runtime`: the scripts in execution, each charged to a session
of the runtime that the methods borrow.
-/

namespace BrowsAI.Agents

open Utf8 Saturating

/-- A script that an agent wants to run. -/
structure AgentScriptRequest where
  source : Text
  provenanceReference : Text
  timeoutMillis : UInt64
  deriving DecidableEq

/-- The number of an execution. -/
abbrev AgentScriptId := UInt64

/-- A script that runs. -/
structure AgentScriptExecution where
  id : AgentScriptId
  session : AgentSessionId
  sourceBytes : UInt64
  timeoutMillis : UInt64
  provenanceReference : Text
  deriving DecidableEq

/-- What a script gave. -/
structure AgentScriptResult where
  id : AgentScriptId
  output : Text
  provenanceReference : Text
  deriving DecidableEq

/-- Why a script is not started or not ended. -/
inductive AgentScriptError where
  | runtime (error : AgentRuntimeError)
  | emptySource | missingProvenance | timeoutExceeded | unknownExecution
  deriving DecidableEq

/-- The scripts that run, and the next number. -/
structure AgentScriptRuntime where
  nextId : UInt64
  active : OrdMap AgentScriptId AgentScriptExecution

/-- `AgentScriptRuntime::default()`. -/
instance : Inhabited AgentScriptRuntime := ⟨⟨0, ∅⟩⟩

namespace AgentScriptRuntime

/-- Starts a script: it must have a source and a provenance, the session must allow it, and its time
must fit in what is left. -/
def start (scripts : AgentScriptRuntime) (r : AgentRuntime) (session : AgentSessionId)
    (request : AgentScriptRequest) :
    Except AgentScriptError AgentScriptId × AgentScriptRuntime × AgentRuntime :=
  if trim request.source = [] then (.error .emptySource, scripts, r)
  else if trim request.provenanceReference = [] then (.error .missingProvenance, scripts, r)
  else
    match r.sessions[session]? with
    | none => (.error (.runtime .unknownSession), scripts, r)
    | some found =>
        if request.timeoutMillis = 0 ∨ found.limits.maxRuntimeMillis < request.timeoutMillis then
          (.error .timeoutExceeded, scripts, r)
        else
          match r.consumeAction session .executeAgentScript with
          | (.error error, r) => (.error (.runtime error), scripts, r)
          | (.ok (), r) =>
              let id := saturatingAdd scripts.nextId 1
              (.ok id,
                { nextId := id
                  active := scripts.active.insert id
                    { id
                      session
                      sourceBytes := UInt64.ofNat (len request.source)
                      timeoutMillis := request.timeoutMillis
                      provenanceReference := request.provenanceReference } },
                r)

/-- Ends a script with its output, which counts towards the session's. -/
def finish (scripts : AgentScriptRuntime) (r : AgentRuntime) (session : AgentSessionId)
    (id : AgentScriptId) (output : Text) :
    Except AgentScriptError AgentScriptResult × AgentScriptRuntime × AgentRuntime :=
  match r.requireRunning session with
  | (.error error, r) => (.error (.runtime error), scripts, r)
  | (.ok (), r) =>
      match scripts.active[id]? with
      | none => (.error .unknownExecution, scripts, r)
      | some execution =>
          -- the execution is taken out first, and put back when a check below fails
          let removed := { scripts with active := scripts.active.erase id }
          let restored := { removed with active := removed.active.insert id execution }
          if execution.session ≠ session then (.error .unknownExecution, restored, r)
          else
            let bytes := UInt64.ofNat (len output)
            match r.sessions[session]? with
            | none => (.error (.runtime .unknownSession), removed, r)
            | some found =>
                if found.limits.maxOutputBytes < saturatingAdd found.outputBytes bytes then
                  (.error (.runtime (.quotaExceeded "output bytes")), restored, r)
                else
                  (.ok ⟨id, output, execution.provenanceReference⟩, removed,
                    r.setSession session
                      { found with outputBytes := found.outputBytes + bytes })

/-- Ends a script without output, for the session that started it. -/
def cancel (scripts : AgentScriptRuntime) (session : AgentSessionId) (id : AgentScriptId) :
    Bool × AgentScriptRuntime :=
  match scripts.active[id]? with
  | none => (false, scripts)
  | some execution =>
      if execution.session = session then
        (true, { scripts with active := scripts.active.erase id })
      else (false, scripts)

end AgentScriptRuntime

end BrowsAI.Agents

/-!
## Runs of the agent runtime

A `System` is a runtime with the scripts it executes. `Op` collects the calls, `perform` makes one,
and `Steps` is a step of a run. The ids of new sessions come from a generator outside the
repository; a step uses one that no session has.
-/

namespace BrowsAI.Agents

open Utf8 AgentTree Relation

/-- The sessions and their scripts. -/
structure System where
  runtime : AgentRuntime
  scripts : AgentScriptRuntime

/-- A call with its arguments. -/
inductive Op where
  | openSession (id : AgentSessionId) (capabilities : List Capability) (limits : AgentLimits)
  | start (id : AgentSessionId)
  | pause (id : AgentSessionId)
  | cancel (id : AgentSessionId)
  | consumeAction (id : AgentSessionId) (capability : Capability)
  | recordEvent (id : AgentSessionId)
  | capturePageData (id : AgentSessionId) (text source : Text)
  | advanceTime (elapsedMillis : UInt64)
  | startScript (session : AgentSessionId) (request : AgentScriptRequest)
  | finishScript (session : AgentSessionId) (id : AgentScriptId) (output : Text)
  | cancelScript (session : AgentSessionId) (id : AgentScriptId)
  | attemptSolveChallenge (id : AgentSessionId) (provider : Text)
      (takeoverId : Option TakeoverId) (takeovers : TakeoverManager) (now : UInt64)
  | attemptChallengeClick (id : AgentSessionId) (pageId : UInt64) (provider : Text)
      (targetNodeId : Option AgentNodeId) (takeoverId : Option TakeoverId)
      (takeovers : TakeoverManager) (now : UInt64)
  | attemptChallengeClickWithTrajectory (id : AgentSessionId) (pageId : UInt64)
      (targetNodeId : Option AgentNodeId) (provider : Text) (takeoverId : Option TakeoverId)
      (takeovers : TakeoverManager) (now : UInt64)
  | solveObservedChallenges (session : AgentSessionId) (pageId : UInt64) (tree : AgentRenderTree)
      (takeovers : TakeoverManager) (now : UInt64) (cursorOrigin : F64 × F64)

/-- How a call ends. -/
inductive Outcome where
  | ok
  | audited (events : List SolveAuditEvent)
  | failed

/-- The call returned a result. -/
def Outcome.succeeded : Outcome → Bool
  | .failed => false
  | _ => true

/-- The audit events that the call returned. -/
def Outcome.audits : Outcome → List SolveAuditEvent
  | .audited events => events
  | _ => []

/-- Whether a call succeeded. -/
def Outcome.of {ε α : Type} : Except ε α → Outcome
  | .ok _ => .ok
  | .error _ => .failed

/-- The events of a call that succeeded. -/
def Outcome.ofAudits {ε : Type} : Except ε (List SolveAuditEvent) → Outcome
  | .ok events => .audited events
  | .error _ => .failed

namespace System

/-- No session and no script. -/
def new (policy : SandboxPolicy) : System := ⟨.new policy, default⟩

/-- A call on the runtime alone. -/
def onRuntime {ε α : Type} (s : System) (result : Except ε α × AgentRuntime) : Outcome × System :=
  (.of result.1, { s with runtime := result.2 })

/-- A call of a gate. -/
def onGate {ε : Type} (s : System) (result : Except ε (List SolveAuditEvent) × AgentRuntime) :
    Outcome × System :=
  (.ofAudits result.1, { s with runtime := result.2 })

/-- An attempt at one challenge as an attempt at several. -/
def single {ε : Type} (result : Except ε SolveAuditEvent × AgentRuntime) :
    Except ε (List SolveAuditEvent) × AgentRuntime :=
  (result.1.map fun event => [event], result.2)

variable [Pointer]

/-- A call, and what it told. -/
def perform (s : System) : Op → Outcome × System
  | .openSession id capabilities limits =>
      (.ok, { s with runtime := s.runtime.openSession id capabilities limits })
  | .start id => s.onRuntime (s.runtime.start id)
  | .pause id => s.onRuntime (s.runtime.pause id)
  | .cancel id => s.onRuntime (s.runtime.cancel id)
  | .consumeAction id capability => s.onRuntime (s.runtime.consumeAction id capability)
  | .recordEvent id => s.onRuntime (s.runtime.recordEvent id)
  | .capturePageData id text source => s.onRuntime (s.runtime.capturePageData id text source)
  | .advanceTime elapsedMillis =>
      (.ok, { s with runtime := s.runtime.advanceTime elapsedMillis })
  | .startScript session request =>
      let (result, scripts, runtime) := s.scripts.start s.runtime session request
      (.of result, ⟨runtime, scripts⟩)
  | .finishScript session id output =>
      let (result, scripts, runtime) := s.scripts.finish s.runtime session id output
      (.of result, ⟨runtime, scripts⟩)
  | .cancelScript session id => (.ok, { s with scripts := (s.scripts.cancel session id).2 })
  | .attemptSolveChallenge id provider takeoverId takeovers now =>
      s.onGate (single (s.runtime.attemptSolveChallenge id provider takeoverId takeovers now))
  | .attemptChallengeClick id pageId provider targetNodeId takeoverId takeovers now =>
      s.onGate (single (s.runtime.attemptChallengeClick id pageId provider targetNodeId takeoverId
        takeovers now))
  | .attemptChallengeClickWithTrajectory id pageId targetNodeId provider takeoverId takeovers
      now =>
      s.onGate (single (s.runtime.attemptChallengeClickWithTrajectory id pageId targetNodeId
        provider takeoverId takeovers now))
  | .solveObservedChallenges session pageId tree takeovers now cursorOrigin =>
      s.onGate (s.runtime.solveObservedChallenges pageId tree session takeovers now cursorOrigin)

/-- The id of a new session is not taken. -/
def Fresh (s : System) : Op → Prop
  | .openSession id _ _ => s.runtime.sessions[id]? = none
  | _ => True

/-- A step of a run. -/
def Steps (s s' : System) : Prop := ∃ op, s.Fresh op ∧ s' = (s.perform op).2

end System

end BrowsAI.Agents
