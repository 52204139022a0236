import BrowsAI.AgentTree.Basic
import BrowsAI.Agents.Sessions

/-!
# Challenges

The gates of `crates/agent-runtime` in front of a human-verification wall: `attemptSolveChallenge`,
the two click variants, and `solveObservedChallenges`, which goes through the challenges of a page.
The gates return audit events; the input events that the caller dispatches between two of them do
not reach the runtime and are left out.
-/

namespace BrowsAI.Agents

open Utf8 Profiles AgentTree

/-- The id of a takeover, drawn at random. -/
abbrev TakeoverId := Uuid

/-- Who has the page in hand. -/
inductive ControlOwner where
  | agent | human
  deriving DecidableEq

/-- How far a takeover is. -/
inductive TakeoverState where
  | requested | active | paused | completed | expired
  deriving DecidableEq

/-- A takeover as the solver reads it. -/
structure TakeoverSession where
  owner : ControlOwner
  state : TakeoverState
  expiresAtTick : UInt64
  deriving DecidableEq

/-- The takeovers by id. -/
structure TakeoverManager where
  sessions : OrdMap TakeoverId TakeoverSession

/-- What is noted of an attempt at a challenge. -/
structure SolveAuditEvent where
  agentId : Text
  provider : Text
  capabilityUsed : Text
  takeoverId : Option Text
  observedAtTick : UInt64
  pageId : Option UInt64
  targetNodeId : Option AgentNodeId
  deriving DecidableEq

/-- The computations on floating-point coordinates in `solveObservedChallenges`: the centre of a
widget, and the test of the distance to the cursor against `SOLVE_NEAR_THRESHOLD_PX`. -/
class Pointer where
  center : Geometry → F64 × F64
  near : F64 × F64 → F64 × F64 → Bool

/-- The computations in exact arithmetic, on finite coordinates. -/
@[reducible] def Pointer.exact : Pointer where
  center geometry :=
    match geometry.x, geometry.y, geometry.width, geometry.height with
    | .finite x, .finite y, .finite width, .finite height =>
        (.finite (x + width / 2), .finite (y + height / 2))
    | _, _, _, _ => (.nan, .nan)
  near
    | (.finite x, .finite y), (.finite x', .finite y') => (x' - x) ^ 2 + (y' - y) ^ 2 ≤ 16 ^ 2
    | _, _ => false

namespace AgentRuntime

/-- A human has taken over, and the takeover has not expired. -/
def takeoverOk (takeoverId : Option TakeoverId) (takeovers : TakeoverManager) (now : UInt64) :
    Bool :=
  match takeoverId with
  | none => false
  | some id =>
      match takeovers.sessions[id]? with
      | none => false
      | some session =>
          session.owner = .human && session.state = .active && now < session.expiresAtTick

/-- An attempt at a challenge: the session must run and have the capability, and a human must have
taken over unless the policy lets agents solve alone. No action is counted. -/
def attemptSolveChallenge (r : AgentRuntime) (id : AgentSessionId) (provider : Text)
    (takeoverId : Option TakeoverId) (takeovers : TakeoverManager) (now : UInt64) :
    Except AgentRuntimeError SolveAuditEvent × AgentRuntime :=
  match r.requireRunning id with
  | (.error error, r) => (.error error, r)
  | (.ok (), r) =>
      let capability := Capability.solveChallenge
      let policyAllows := r.policy.allows capability
      match r.sessions[id]? with
      | none => (.error .unknownSession, r)
      | some session =>
          if !session.capabilities.contains capability || !policyAllows then
            (.error (.capabilityDenied capability), r)
          else
            let takeover := takeoverOk takeoverId takeovers now
            let credential := session.capabilities.contains .credentialSolve
            let unattended := policyAllows && r.policy.allowUnattendedSolve
            -- unlike the budgeted calls, an attempt is charged to no counter
            if !takeover && !credential && !unattended then
              (.error (.capabilityDenied capability), r)
            else
              (.ok
                { agentId := "AgentSessionId(" ++ hyphenated id ++ ")"
                  provider
                  capabilityUsed :=
                    if credential then "CredentialSolve"
                    else if takeover then "SolveChallenge"
                    else "SolveChallenge+Unattended"
                  takeoverId := takeoverId.map fun id => "TakeoverId(" ++ hyphenated id ++ ")"
                  observedAtTick := now
                  pageId := none
                  targetNodeId := none }, r)

/-- The audit event of a click names the page and the widget. -/
def onTarget (pageId : UInt64) (targetNodeId : Option AgentNodeId)
    (result : Except AgentRuntimeError SolveAuditEvent) :
    Except AgentRuntimeError SolveAuditEvent :=
  result.map fun event => { event with pageId := some pageId, targetNodeId }

/-- An attempt that also notes the page and the node of the click. -/
def attemptChallengeClick (r : AgentRuntime) (id : AgentSessionId) (pageId : UInt64)
    (provider : Text) (targetNodeId : Option AgentNodeId) (takeoverId : Option TakeoverId)
    (takeovers : TakeoverManager) (now : UInt64) :
    Except AgentRuntimeError SolveAuditEvent × AgentRuntime :=
  let (result, r) := r.attemptSolveChallenge id provider takeoverId takeovers now
  (onTarget pageId targetNodeId result, r)

/-- The audit event of the call; the trajectory beside it is left out. -/
def attemptChallengeClickWithTrajectory (r : AgentRuntime) (id : AgentSessionId) (pageId : UInt64)
    (targetNodeId : Option AgentNodeId) (provider : Text) (takeoverId : Option TakeoverId)
    (takeovers : TakeoverManager) (now : UInt64) :
    Except AgentRuntimeError SolveAuditEvent × AgentRuntime :=
  let (result, r) := r.attemptSolveChallenge id provider takeoverId takeovers now
  (onTarget pageId targetNodeId result, r)

/-- The challenges of a snapshot that have a place on the page. -/
def observedChallenges (tree : AgentRenderTree) : List (AgentNode × Geometry) :=
  (tree.nodes.filter fun node => node.semanticRole = some .challenge).filterMap fun node =>
    node.geometry.map fun geometry => (node, geometry)

/-- The loop of `solve_observed_challenges` with the audit events so far. -/
def solveChallenges [Pointer] (pageId : UInt64) (session : AgentSessionId)
    (takeovers : TakeoverManager) (now : UInt64) :
    List (AgentNode × Geometry) → F64 × F64 → List SolveAuditEvent → AgentRuntime →
      Except Text (List SolveAuditEvent) × AgentRuntime
  | [], _, audits, r => (.ok audits, r)
  | (challenge, geometry) :: rest, cursor, audits, r =>
      let stop := Pointer.center geometry
      let provider :=
        (challenge.identityKey.bind (stripPrefix "challenge:")).getD challenge.id
      let (result, r) :=
        if Pointer.near cursor stop then
          r.attemptChallengeClick session pageId provider (some challenge.id) none takeovers now
        else
          r.attemptChallengeClickWithTrajectory session pageId (some challenge.id) provider none
            takeovers now
      match result with
      | .error error => (.error ("solve gate denied: " ++ error.debug), r)
      | .ok audit =>
          solveChallenges pageId session takeovers now rest stop (audits ++ [audit]) r

/-- An attempt at every challenge of the tree, in order, up to the first that is refused. -/
def solveObservedChallenges [Pointer] (r : AgentRuntime) (pageId : UInt64)
    (tree : AgentRenderTree) (session : AgentSessionId) (takeovers : TakeoverManager)
    (now : UInt64) (cursorOrigin : F64 × F64) :
    Except Text (List SolveAuditEvent) × AgentRuntime :=
  solveChallenges pageId session takeovers now (observedChallenges tree) cursorOrigin [] r

end AgentRuntime

end BrowsAI.Agents
