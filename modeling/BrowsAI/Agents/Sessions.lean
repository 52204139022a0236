import BrowsAI.Library.OrdMap
import BrowsAI.Library.Saturating
import BrowsAI.Library.Utf8
import BrowsAI.Profiles.Identity

/-!
# Agent sessions

`AgentRuntime` of `crates/agent-runtime`, with the capabilities and the part of the `SandboxPolicy`
of `crates/sandbox` that it asks. A method returns its result and the runtime after it: a failed one
may have cancelled an expired session. The id of a new session is an argument of `openSession`.
-/

namespace BrowsAI.Agents

open Utf8 Profiles Saturating

/-- What a session may be allowed to do. -/
inductive Capability where
  | readNetwork | writeNetwork | readFiles | writeFiles | readClipboard | writeClipboard | render
  | executePageScript | executeAgentScript | useCredential | spawnProcess | accessOtherOrigins
  | solveChallenge | credentialSolve
  deriving DecidableEq

/-- The variant as `{:?}` prints it. -/
def Capability.debug : Capability → Text
  | .readNetwork => "ReadNetwork"
  | .writeNetwork => "WriteNetwork"
  | .readFiles => "ReadFiles"
  | .writeFiles => "WriteFiles"
  | .readClipboard => "ReadClipboard"
  | .writeClipboard => "WriteClipboard"
  | .render => "Render"
  | .executePageScript => "ExecutePageScript"
  | .executeAgentScript => "ExecuteAgentScript"
  | .useCredential => "UseCredential"
  | .spawnProcess => "SpawnProcess"
  | .accessOtherOrigins => "AccessOtherOrigins"
  | .solveChallenge => "SolveChallenge"
  | .credentialSolve => "CredentialSolve"

/-- The capabilities that a sandbox grants, and whether challenges may be solved without a human. -/
structure SandboxPolicy where
  capabilities : List Capability
  allowUnattendedSolve : Bool
  deriving DecidableEq

namespace SandboxPolicy

/-- The policy of an agent that a human watches. -/
def agent : SandboxPolicy := ⟨[.executeAgentScript, .render], false⟩

/-- The policy of an agent that solves challenges alone. -/
def autonomousAgent : SandboxPolicy := ⟨.solveChallenge :: agent.capabilities, true⟩

/-- The policy has the capability. -/
def allows (policy : SandboxPolicy) (capability : Capability) : Bool :=
  policy.capabilities.contains capability

end SandboxPolicy

/-- The id of a session, drawn at random. -/
abbrev AgentSessionId := Uuid

/-- How far a session is. -/
inductive SessionState where
  | created | running | paused | cancelled | exited
  deriving DecidableEq

/-- The variant as `{:?}` prints it. -/
def SessionState.debug : SessionState → Text
  | .created => "Created"
  | .running => "Running"
  | .paused => "Paused"
  | .cancelled => "Cancelled"
  | .exited => "Exited"

/-- What a session may use up. -/
structure AgentLimits where
  maxActions : UInt64
  maxEvents : UInt64
  maxOutputBytes : UInt64
  maxRuntimeMillis : UInt64
  deriving DecidableEq

/-- `AgentLimits::default()`. -/
instance : Inhabited AgentLimits := ⟨⟨100, 1000, 1048576, 60000⟩⟩

/-- A text of the page, marked as such. -/
structure UntrustedPageData where
  text : Text
  source : Text
  deriving DecidableEq

/-- A session, with what it has used up. -/
structure AgentSession where
  id : AgentSessionId
  state : SessionState
  capabilities : List Capability
  limits : AgentLimits
  actionsUsed : UInt64
  eventsUsed : UInt64
  outputBytes : UInt64
  startedAtMillis : Option UInt64
  deriving DecidableEq

/-- Why a call of a session is refused. -/
inductive AgentRuntimeError where
  | unknownSession
  | invalidState (state : SessionState)
  | capabilityDenied (capability : Capability)
  | quotaExceeded (what : Text)
  | runtimeExceeded
  | untrustedPageContent
  deriving DecidableEq

/-- The error as `{:?}` prints it. -/
def AgentRuntimeError.debug : AgentRuntimeError → Text
  | .unknownSession => "UnknownSession"
  | .invalidState state => "InvalidState(" ++ state.debug ++ ")"
  | .capabilityDenied capability => "CapabilityDenied(" ++ capability.debug ++ ")"
  | .quotaExceeded what => "QuotaExceeded(\"" ++ what ++ "\")"
  | .runtimeExceeded => "RuntimeExceeded"
  | .untrustedPageContent => "UntrustedPageContent"

/-- The runtime of the session has reached its limit. -/
def AgentSession.expired (session : AgentSession) (nowMillis : UInt64) : Bool :=
  session.startedAtMillis.any fun started =>
    session.limits.maxRuntimeMillis ≤ saturatingSub nowMillis started

/-- The sessions under one policy, and the clock. -/
structure AgentRuntime where
  policy : SandboxPolicy
  sessions : OrdMap AgentSessionId AgentSession
  nowMillis : UInt64

namespace AgentRuntime

/-- No session yet. -/
def new (policy : SandboxPolicy) : AgentRuntime := ⟨policy, ∅, 0⟩

/-- `session_mut`, written back. -/
def setSession (r : AgentRuntime) (id : AgentSessionId) (session : AgentSession) : AgentRuntime :=
  { r with sessions := r.sessions.insert id session }

/-- `open`. -/
def openSession (r : AgentRuntime) (id : AgentSessionId) (capabilities : List Capability)
    (limits : AgentLimits) : AgentRuntime :=
  r.setSession id
    { id
      state := .created
      capabilities
      limits
      actionsUsed := 0
      eventsUsed := 0
      outputBytes := 0
      startedAtMillis := none }

/-- Starts a session, or goes on with one that pauses. Its time counts from the first start on. -/
def start (r : AgentRuntime) (id : AgentSessionId) : Except AgentRuntimeError Unit × AgentRuntime :=
  match r.sessions[id]? with
  | none => (.error .unknownSession, r)
  | some session =>
      match session.state with
      | .created | .paused =>
          (.ok (), r.setSession id { session with
            state := .running
            startedAtMillis := session.startedAtMillis.or (some r.nowMillis) })
      | state => (.error (.invalidState state), r)

/-- Pauses a session that runs. -/
def pause (r : AgentRuntime) (id : AgentSessionId) : Except AgentRuntimeError Unit × AgentRuntime :=
  match r.sessions[id]? with
  | none => (.error .unknownSession, r)
  | some session =>
      if session.state ≠ .running then (.error (.invalidState session.state), r)
      else (.ok (), r.setSession id { session with state := .paused })

/-- Cancels a session, once. -/
def cancel (r : AgentRuntime) (id : AgentSessionId) :
    Except AgentRuntimeError Unit × AgentRuntime :=
  match r.sessions[id]? with
  | none => (.error .unknownSession, r)
  | some session =>
      if session.state = .cancelled ∨ session.state = .exited then
        (.error (.invalidState session.state), r)
      else (.ok (), r.setSession id { session with state := .cancelled })

/-- `require_running`. An expired session is cancelled on the way. -/
def requireRunning (r : AgentRuntime) (id : AgentSessionId) :
    Except AgentRuntimeError Unit × AgentRuntime :=
  match r.sessions[id]? with
  | none => (.error .unknownSession, r)
  | some session =>
      if session.state ≠ .running then (.error (.invalidState session.state), r)
      else if session.expired r.nowMillis then
        (.error .runtimeExceeded, r.setSession id { session with state := .cancelled })
      else (.ok (), r)

/-- Counts an action of a session that runs, has the capability and has actions left. -/
def consumeAction (r : AgentRuntime) (id : AgentSessionId) (capability : Capability) :
    Except AgentRuntimeError Unit × AgentRuntime :=
  match r.requireRunning id with
  | (.error error, r) => (.error error, r)
  | (.ok (), r) =>
      match r.sessions[id]? with
      | none => (.error .unknownSession, r)
      | some session =>
          if !session.capabilities.contains capability || !r.policy.allows capability then
            (.error (.capabilityDenied capability), r)
          else if session.limits.maxActions ≤ session.actionsUsed then
            (.error (.quotaExceeded "actions"), r)
          else (.ok (), r.setSession id { session with actionsUsed := session.actionsUsed + 1 })

/-- Counts an event of a session that runs and has events left. -/
def recordEvent (r : AgentRuntime) (id : AgentSessionId) :
    Except AgentRuntimeError Unit × AgentRuntime :=
  match r.requireRunning id with
  | (.error error, r) => (.error error, r)
  | (.ok (), r) =>
      match r.sessions[id]? with
      | none => (.error .unknownSession, r)
      | some session =>
          if session.limits.maxEvents ≤ session.eventsUsed then
            (.error (.quotaExceeded "events"), r)
          else (.ok (), r.setSession id { session with eventsUsed := session.eventsUsed + 1 })

/-- Counts the bytes of a text that a session takes from the page. -/
def capturePageData (r : AgentRuntime) (id : AgentSessionId) (text source : Text) :
    Except AgentRuntimeError UntrustedPageData × AgentRuntime :=
  match r.requireRunning id with
  | (.error error, r) => (.error error, r)
  | (.ok (), r) =>
      let bytes := UInt64.ofNat (len text)
      match r.sessions[id]? with
      | none => (.error .unknownSession, r)
      | some session =>
          if session.limits.maxOutputBytes < saturatingAdd session.outputBytes bytes then
            (.error (.quotaExceeded "output bytes"), r)
          else
            (.ok ⟨text, source⟩,
              r.setSession id { session with outputBytes := session.outputBytes + bytes })

/-- Moves the clock on, and cancels the sessions that run and whose time is over. -/
def advanceTime (r : AgentRuntime) (elapsedMillis : UInt64) : AgentRuntime :=
  let nowMillis := saturatingAdd r.nowMillis elapsedMillis
  let expired := (r.sessions.toList.filter fun (_, session) =>
    session.state = .running && session.expired nowMillis).map fun (_, session) => session.id
  { r with
    nowMillis
    sessions := expired.foldl (fun sessions id =>
      sessions.modify id fun session => { session with state := .cancelled }) r.sessions }

end AgentRuntime

end BrowsAI.Agents
