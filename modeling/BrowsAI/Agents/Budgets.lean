import BrowsAI.Agents.Steps

/-!
# Budgets

The budgets of a session, the finality of its cancellation, and its deadline, over all runs of a
`System`: `perform_advances` says what one call does, `reaches_old` what any number of them do.
-/

namespace BrowsAI.Agents

open Utf8 Std AgentTree Relation AgentRuntime Saturating

/-! ## Scripts -/

namespace AgentScriptRuntime

/-- The start of a script passes the checks of the session, or leaves it as it is. -/
theorem start_gated (scripts : AgentScriptRuntime) (r : AgentRuntime) (session : AgentSessionId)
    (request : AgentScriptRequest) :
    Gated r (scripts.start r session request).2.2 session
      (.of (scripts.start r session request).1) := by
  simp only [start]
  split_ifs
  · exact .refused (.refl r)
  · exact .refused (.refl r)
  cases hfound : r.sessions[session]? with
  | none => exact .refused (.refl r)
  | some found =>
      dsimp only
      split_ifs
      · exact .refused (.refl r)
      have hgated := r.consume_action_gated session .executeAgentScript
      cases hconsume : r.consumeAction session .executeAgentScript with
      | mk result r' =>
          rw [hconsume] at hgated
          cases result with
          | error error => exact hgated
          | ok => exact ⟨hgated.advances, fun _ => hgated.live rfl⟩

/-- So does its end. -/
theorem finish_gated (scripts : AgentScriptRuntime) (r : AgentRuntime) (session : AgentSessionId)
    (id : AgentScriptId) (output : Text) :
    Gated r (scripts.finish r session id output).2.2 session
      (.of (scripts.finish r session id output).1) := by
  obtain ⟨error, r', h, hadvances⟩ | ⟨found, hlive, h⟩ := r.require_running_cases session
  · simp only [finish, h]
    exact .refused hadvances
  · simp only [finish, h]
    cases scripts.active[id]? with
    | none => exact .refused (.refl r)
    | some execution =>
        dsimp only
        split_ifs
        · exact .refused (.refl r)
        simp only [hlive.found]
        split_ifs with hquota
        · exact .refused (.refl r)
        · have hroom := UInt64.not_lt.mp hquota
          exact .granted hlive (.set_session hlive.found (.output _ _ hlive.not_cancelled hroom)) _

end AgentScriptRuntime

/-! ## Calls -/

/-- The session whose budget the call is charged to. -/
def Op.budgeted : Op → Option AgentSessionId
  | .consumeAction id _ | .recordEvent id | .capturePageData id _ _ | .startScript id _
  | .finishScript id _ _ => some id
  | _ => none

namespace System

variable [Pointer] {s s' : System}

/-- Every call moves the sessions on as they may. -/
theorem perform_advances (s : System) (op : Op) (hfresh : s.Fresh op) :
    Advances s.runtime (s.perform op).2.runtime := by
  cases op with
  | openSession id capabilities limits =>
      exact ⟨rfl, UInt64.le_refl _, .insert_new hfresh ⟨rfl, rfl, rfl⟩⟩
  | start id => exact s.runtime.start_advances id
  | pause id => exact s.runtime.pause_advances id
  | cancel id => exact s.runtime.cancel_advances id
  | consumeAction id capability => exact (s.runtime.consume_action_gated id capability).advances
  | recordEvent id => exact (s.runtime.record_event_gated id).advances
  | capturePageData id text source =>
      exact (s.runtime.capture_page_data_gated id text source).advances
  | advanceTime elapsedMillis => exact s.runtime.advance_time_advances elapsedMillis
  | startScript session request => exact (s.scripts.start_gated s.runtime session request).advances
  | finishScript session id output =>
      exact (s.scripts.finish_gated s.runtime session id output).advances
  | cancelScript session id => exact .refl s.runtime
  | attemptSolveChallenge id provider takeoverId takeovers now =>
      exact s.runtime.attempt_advances id provider takeoverId takeovers now
  | attemptChallengeClick id pageId provider targetNodeId takeoverId takeovers now =>
      exact s.runtime.attempt_advances id provider takeoverId takeovers now
  | attemptChallengeClickWithTrajectory id pageId targetNodeId provider takeoverId takeovers now =>
      exact s.runtime.attempt_advances id provider takeoverId takeovers now
  | solveObservedChallenges session pageId tree takeovers now cursorOrigin =>
      obtain ⟨-, error, r', hsolve, hadvances⟩ | ⟨-, events, -, hsolve⟩ :=
        solve_challenges_cases pageId session takeovers now (observedChallenges tree) cursorOrigin
          [] s.runtime
      · simp only [perform, onGate, solveObservedChallenges, hsolve]
        exact hadvances
      · simp only [perform, onGate, solveObservedChallenges, hsolve]
        exact .refl s.runtime

theorem consume_action_of_succeeded {id : AgentSessionId} {capability : Capability}
    (hok : (s.perform (.consumeAction id capability)).1.succeeded) :
    (s.runtime.consumeAction id capability).1 = .ok () := by
  cases hresult : (s.runtime.consumeAction id capability).1 with
  | ok => rfl
  | error error =>
      simp only [perform, onRuntime, hresult, Outcome.of, Outcome.succeeded] at hok
      cases hok

/-- A budgeted call succeeds for a live session only. -/
theorem perform_live {op : Op} {id : AgentSessionId} (hop : op.budgeted = some id)
    (hok : (s.perform op).1.succeeded) : ∃ session, s.runtime.Live id session := by
  cases op with
  | consumeAction session capability =>
      cases hop
      exact (s.runtime.consume_action_gated id capability).live hok
  | recordEvent session =>
      cases hop
      exact (s.runtime.record_event_gated id).live hok
  | capturePageData session text source =>
      cases hop
      exact (s.runtime.capture_page_data_gated id text source).live hok
  | startScript session request =>
      cases hop
      exact (s.scripts.start_gated s.runtime id request).live hok
  | finishScript session script output =>
      cases hop
      exact (s.scripts.finish_gated s.runtime id script output).live hok
  | _ => cases hop

/-! ## Runs -/

/-- A run of calls from `s` to `s'`. -/
def Reaches : System → System → Prop := ReflTransGen Steps

theorem Steps.advances (h : s.Steps s') : Advances s.runtime s'.runtime := by
  obtain ⟨op, hfresh, rfl⟩ := h
  exact s.perform_advances op hfresh

/-- What a run leaves of a session: it is there, within its limits if it was, and unchanged if it
was cancelled; its limits and its start are the same, and the time has not gone back. -/
theorem reaches_old (h : s.Reaches s') {id : AgentSessionId} {session : AgentSession}
    (hsession : s.runtime.sessions[id]? = some session) :
    s.runtime.nowMillis ≤ s'.runtime.nowMillis ∧ ∃ session',
      s'.runtime.sessions[id]? = some session' ∧
      (session.state = .cancelled → session' = session) ∧
      session'.limits = session.limits ∧
      ∀ started, session.startedAtMillis = some started →
        session'.startedAtMillis = some started := by
  induction h with
  | refl =>
      exact ⟨UInt64.le_refl _, session, hsession, fun _ => rfl, rfl,
        fun started hstarted => hstarted⟩
  | tail _ hstep ih =>
      obtain ⟨hnow, middle, hmiddle, hcancelled, hlimits, hstarted⟩ := ih
      have hadvances := Steps.advances hstep
      obtain ⟨session', hsession', hchange⟩ := hadvances.sessions.old id middle hmiddle
      refine ⟨UInt64.le_trans hnow hadvances.now_le, session', hsession', fun hstate => ?_,
        hchange.fixed.1.trans hlimits, fun started h => ?_⟩
      · have hmiddle := hcancelled hstate
        rw [← hmiddle]
        exact hchange.eq_of_cancelled (hmiddle ▸ hstate)
      · exact hchange.fixed.2 started (hstarted started h)

theorem reaches_policy (h : s.Reaches s') : s'.runtime.policy = s.runtime.policy := by
  induction h with
  | refl => rfl
  | tail _ hstep ih => exact (Steps.advances hstep).policy_eq.trans ih

/-- In every reachable state every session is within its limits. -/
theorem reaches_within {policy : SandboxPolicy} (h : (new policy).Reaches s) :
    ∀ (id : AgentSessionId) (session : AgentSession), s.runtime.sessions[id]? = some session →
      session.Within := by
  induction h with
  | refl =>
      intro id session hsession
      simp [new, AgentRuntime.new] at hsession
  | @tail before after _ hstep ih =>
      intro id session hsession
      have hsessions := (Steps.advances hstep).sessions
      cases hbefore : before.runtime.sessions[id]? with
      | none => exact (hsessions.new id session hbefore hsession).within
      | some earlier =>
          obtain ⟨session', hsession', hchange⟩ := hsessions.old id earlier hbefore
          rw [hsession] at hsession'
          exact Option.some.inj hsession' ▸ hchange.within (ih id earlier hbefore)

omit [Pointer] in
/-- A session whose time is over stays so. -/
theorem expired_mono {session session' : AgentSession} {now now' started : UInt64}
    (hstarted : session'.startedAtMillis = some started)
    (hlimits : session'.limits = session.limits) (hnow : now ≤ now')
    (hover : session.limits.maxRuntimeMillis ≤ saturatingSub now started) :
    session'.expired now' = true := by
  have hlater := UInt64.le_trans hover (saturating_sub_le hnow started)
  simpa [AgentSession.expired, hstarted, hlimits] using hlater

/-- In every state that a run reaches, the counters of every session are within its limits, an
action is granted only for a capability of the session that the policy allows, a cancelled session
stays as it is in every later state, and once the time of a session is over no budgeted call of it
succeeds in any later state. -/
theorem budgets_hold (policy : SandboxPolicy) (s : System) (hs : (new policy).Reaches s) :
    (∀ (id : AgentSessionId) (session : AgentSession), s.runtime.sessions[id]? = some session →
      session.Within) ∧
    (∀ id capability, (s.perform (.consumeAction id capability)).1.succeeded →
      ∃ session, s.runtime.sessions[id]? = some session ∧ capability ∈ session.capabilities ∧
        policy.allows capability) ∧
    ∀ (id : AgentSessionId) (session : AgentSession), s.runtime.sessions[id]? = some session →
      ∀ s', s.Reaches s' →
        (session.state = .cancelled → s'.runtime.sessions[id]? = some session) ∧
        ∀ started, session.startedAtMillis = some started →
          session.limits.maxRuntimeMillis ≤ saturatingSub s.runtime.nowMillis started →
          ∀ op : Op, op.budgeted = some id → ¬ (s'.perform op).1.succeeded := by
  refine ⟨reaches_within hs, fun id capability hok => ?_, fun id session hsession s' hs' => ?_⟩
  · have hconsume := consume_action_of_succeeded hok
    have hpolicy : s.runtime.policy = policy := reaches_policy hs
    exact hpolicy ▸ capability_of_consume_action hconsume
  · obtain ⟨hnow, session', hsession', hcancelled, hlimits, hkept⟩ := reaches_old hs' hsession
    refine ⟨fun hstate => hcancelled hstate ▸ hsession', ?_⟩
    intro started hstarted hover op hop hok
    -- a call that succeeds finds the session in time, and time does not run back
    obtain ⟨live, hlive⟩ := perform_live hop hok
    have hexpired := expired_mono (hkept started hstarted) hlimits hnow hover
    rw [Option.some.inj (hsession'.symm.trans hlive.found), hlive.inTime] at hexpired
    cases hexpired

end System

/-- A runtime with one session, which may act twice. -/
def openedSystem : System where
  runtime := (AgentRuntime.new .agent).openSession 1 [.render] ⟨2, 1000, 1048576, 10⟩
  scripts := default

/-- The session was started and has taken its two actions. -/
def spentSystem (pointer : Pointer) : System :=
  let started := (openedSystem.perform (.start 1)).2
  let acted := (started.perform (.consumeAction 1 .render)).2
  (acted.perform (.consumeAction 1 .render)).2

/-- The counter of the session is at its limit, and when its time is over no budgeted call of it
succeeds. -/
theorem spent_budgets_hold :
    let pointer := Pointer.exact
    (∃ session, (spentSystem pointer).runtime.sessions[(1 : AgentSessionId)]? = some session ∧
        session.actionsUsed = 2 ∧ session.Within) ∧
      ∀ op : Op, op.budgeted = some 1 →
        ¬ (((spentSystem pointer).perform (.advanceTime 10)).2.perform op).1.succeeded := by
  intro pointer
  have hfresh : (System.new .agent).Fresh (.openSession 1 [.render] ⟨2, 1000, 1048576, 10⟩) := by
    simp [System.Fresh, System.new, AgentRuntime.new]
  have hopened : (System.new .agent).Reaches openedSystem := .single ⟨_, hfresh, rfl⟩
  have hspent : (System.new .agent).Reaches (spentSystem pointer) :=
    ((hopened.tail ⟨.start 1, trivial, rfl⟩).tail ⟨.consumeAction 1 .render, trivial, rfl⟩).tail
      ⟨.consumeAction 1 .render, trivial, rfl⟩
  let late := ((spentSystem pointer).perform (.advanceTime 10)).2
  have hlate : (System.new .agent).Reaches late :=
    hspent.tail ⟨.advanceTime 10, trivial, rfl⟩
  obtain ⟨session, hsession, hstarted, hlimit⟩ : ∃ session,
      late.runtime.sessions[(1 : AgentSessionId)]? = some session ∧
        session.startedAtMillis = some 0 ∧ session.limits.maxRuntimeMillis = 10 :=
    ⟨_, rfl, rfl, rfl⟩
  have hover : session.limits.maxRuntimeMillis ≤ saturatingSub late.runtime.nowMillis 0 := by
    rw [hlimit]
    decide
  refine ⟨⟨_, rfl, rfl, (System.budgets_hold .agent _ hspent).1 1 _ rfl⟩, fun op hop => ?_⟩
  exact ((System.budgets_hold .agent late hlate).2.2 1 session hsession late .refl).2 0 hstarted hover
    op hop

end BrowsAI.Agents
