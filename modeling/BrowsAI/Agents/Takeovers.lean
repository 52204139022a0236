import BrowsAI.Agents.Challenges
import BrowsAI.Library.Runs
import BrowsAI.Library.StateLog

/-!
# Takeovers

`TakeoverManager` of `crates/agent-runtime` with its transitions and its audit log. Every call but
`request` and `expire` goes through `transition`, which refuses nothing but unknown, completed, and
expired takeovers.
-/

namespace BrowsAI.Agents.Takeovers

open Std Utf8 StateLog Saturating

/-- The state that a takeover got, and when. -/
structure TakeoverAuditEvent where
  takeoverId : TakeoverId
  state : TakeoverState
  tick : UInt64
  deriving DecidableEq

/-- A takeover session with the fields that no gate reads. -/
structure Session extends TakeoverSession where
  id : TakeoverId
  agentId : Text
  reason : Text
  deriving DecidableEq

/-- The takeovers by id, and the log of their states. -/
structure Manager where
  sessions : OrdMap TakeoverId Session
  audit : List TakeoverAuditEvent

/-- Completed and expired takeovers are over. -/
def final : TakeoverState → Bool
  | .completed | .expired => true
  | .requested | .active | .paused => false

namespace Manager

/-- No takeover, and an empty log. -/
def default : Manager := ⟨∅, []⟩

/-- `request`, with the generated id. -/
def request (m : Manager) (id : TakeoverId) (agentId reason : Text) (timeoutTicks now : UInt64) :
    Manager where
  sessions := m.sessions.insert id
    { id
      agentId
      reason
      owner := .agent
      state := .requested
      expiresAtTick := saturatingAdd now (max timeoutTicks 1) }
  audit := m.audit ++ [⟨id, .requested, now⟩]

/-- Gives a takeover that is not final another state and owner, and logs it. -/
def transition (m : Manager) (id : TakeoverId) (owner : ControlOwner) (state : TakeoverState)
    (now : UInt64) : Bool × Manager :=
  match m.sessions[id]? with
  | none => (false, m)
  | some session =>
      if final session.state then (false, m)
      else
        (true,
          { sessions := m.sessions.insert id { session with owner, state }
            audit := m.audit ++ [⟨id, state, now⟩] })

/-- A human takes over. -/
def accept (m : Manager) (id : TakeoverId) (now : UInt64) : Bool × Manager :=
  m.transition id .human .active now

/-- The human pauses. -/
def pause (m : Manager) (id : TakeoverId) (now : UInt64) : Bool × Manager :=
  m.transition id .human .paused now

/-- The human goes on. -/
def resume (m : Manager) (id : TakeoverId) (now : UInt64) : Bool × Manager :=
  m.transition id .human .active now

/-- The human is done. -/
def complete (m : Manager) (id : TakeoverId) (now : UInt64) : Bool × Manager :=
  m.transition id .human .completed now

/-- The ids of the sessions that `expire` goes through. -/
def dueIds (m : Manager) (now : UInt64) : List TakeoverId :=
  ((m.sessions.toList.map Prod.snd).filter fun session =>
    session.state ≠ .completed && session.expiresAtTick ≤ now).map Session.id

/-- Expires every takeover that is due. -/
def expire (m : Manager) (now : UInt64) : Manager :=
  (m.dueIds now).foldl (fun m id => (m.transition id .agent .expired now).2) m

end Manager

/-! ## Calls -/

/-- A call, with the generated id of a request. -/
inductive Op where
  | request (id : TakeoverId) (agentId reason : Text) (timeoutTicks now : UInt64)
  | accept (id : TakeoverId) (now : UInt64)
  | pause (id : TakeoverId) (now : UInt64)
  | resume (id : TakeoverId) (now : UInt64)
  | complete (id : TakeoverId) (now : UInt64)
  | expire (now : UInt64)
  deriving DecidableEq

namespace Op

/-- The clock reading that a call is made with. -/
def tick : Op → UInt64
  | .request _ _ _ _ now | .accept _ now | .pause _ now | .resume _ now | .complete _ now
  | .expire now => now

/-- The takeover that a call names. -/
def target : Op → Option TakeoverId
  | .request id _ _ _ _ | .accept id _ | .pause id _ | .resume id _ | .complete id _ => some id
  | .expire _ => none

end Op

namespace Manager

/-- A call, and whether it returns something other than `false`. -/
def perform (m : Manager) : Op → Bool × Manager
  | .request id agentId reason timeoutTicks now =>
      (true, m.request id agentId reason timeoutTicks now)
  | .accept id now => m.accept id now
  | .pause id now => m.pause id now
  | .resume id now => m.resume id now
  | .complete id now => m.complete id now
  | .expire now => (true, m.expire now)

/-- The state of a takeover. -/
def stateOf (m : Manager) (id : TakeoverId) : Option TakeoverState :=
  m.sessions[id]?.map fun session => session.state

/-- The audit log without its ticks. -/
def log (m : Manager) : List (TakeoverId × TakeoverState) :=
  m.audit.map fun event => (event.takeoverId, event.state)

/-- Every session is stored under its own id. -/
def Keyed (m : Manager) : Prop :=
  ∀ (id : TakeoverId) (session : Session), m.sessions[id]? = some session → session.id = id

variable {m : Manager} {id : TakeoverId} {owner : ControlOwner} {state : TakeoverState}
  {now : UInt64}

theorem state_of_eq_some {session : Session} (h : m.sessions[id]? = some session) :
    m.stateOf id = some session.state := by rw [stateOf, h]; rfl

/-- A transition is refused, and changes nothing, or it writes the owner and the state of a takeover
that is not over, and one event. -/
theorem transition_cases (m : Manager) (id : TakeoverId) (owner : ControlOwner)
    (state : TakeoverState) (now : UInt64) :
    ((∀ session : Session, m.sessions[id]? = some session → final session.state) ∧
      m.transition id owner state now = (false, m)) ∨
    ∃ session : Session, m.sessions[id]? = some session ∧ final session.state = false ∧
      m.transition id owner state now =
        (true,
          { sessions := m.sessions.insert id { session with owner, state }
            audit := m.audit ++ [⟨id, state, now⟩] }) := by
  rw [transition]
  cases hsession : m.sessions[id]? with
  | none => exact .inl ⟨fun session h => (nomatch h), rfl⟩
  | some session =>
      cases hfinal : final session.state with
      | true =>
          refine .inl ⟨fun session' h => ?_, if_pos hfinal⟩
          rw [← Option.some.inj h]
          exact hfinal
      | false =>
          exact .inr ⟨session, rfl, hfinal, if_neg (by rw [hfinal]; exact Bool.false_ne_true)⟩

theorem Keyed.transition (hk : m.Keyed) : (m.transition id owner state now).2.Keyed := by
  obtain ⟨_, htransition⟩ | ⟨session, hsession, _, htransition⟩ :=
    m.transition_cases id owner state now
  · rw [htransition]
    exact hk
  · rw [htransition]
    exact OrdMap.KeyedBy.insert (f := Session.id) hk (hk id session hsession)

theorem Keyed.request (hk : m.Keyed) (id : TakeoverId) (agentId reason : Text)
    (timeoutTicks now : UInt64) : (m.request id agentId reason timeoutTicks now).Keyed :=
  OrdMap.KeyedBy.insert (f := Session.id) hk rfl

end Manager

end BrowsAI.Agents.Takeovers
