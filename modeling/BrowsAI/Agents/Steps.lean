import BrowsAI.Agents.Runs
import Mathlib.Tactic.SplitIfs

/-!
# What a call does to a session

A call changes a session in one of a few ways, `Change`, and leaves the policy, the other sessions,
and the earlier time alone, `Advances`. Every budgeted call goes through `requireRunning`, so it
succeeds for a running session within its time only, `Gated`. A gate in front of a challenge asks
for more, `MaySolve`, and changes nothing when it lets the call through.
-/

namespace BrowsAI.Agents

open Utf8 Std AgentTree Relation Saturating

theorem add_one_le {a b : UInt64} (h : a < b) : a + 1 ≤ b := by
  have := b.toNat_lt
  rw [UInt64.lt_iff_toNat_lt] at h
  rw [UInt64.le_iff_toNat_le, UInt64.toNat_add, UInt64.toNat_one]
  omega

/-! ## What happens to a session -/

/-- What one call does to a session. -/
inductive Change : AgentSession → AgentSession → Prop
  | same (s : AgentSession) : Change s s
  /-- A start keeps the time of an earlier one. -/
  | state (s : AgentSession) (state : SessionState) (startedAt : Option UInt64)
      (hlive : s.state ≠ .cancelled)
      (hstarted : s.startedAtMillis ≠ none → startedAt = s.startedAtMillis) :
      Change s { s with state, startedAtMillis := startedAt }
  | action (s : AgentSession) (hlive : s.state ≠ .cancelled)
      (hroom : s.actionsUsed < s.limits.maxActions) :
      Change s { s with actionsUsed := s.actionsUsed + 1 }
  | event (s : AgentSession) (hlive : s.state ≠ .cancelled)
      (hroom : s.eventsUsed < s.limits.maxEvents) :
      Change s { s with eventsUsed := s.eventsUsed + 1 }
  | output (s : AgentSession) (bytes : UInt64) (hlive : s.state ≠ .cancelled)
      (hroom : saturatingAdd s.outputBytes bytes ≤ s.limits.maxOutputBytes) :
      Change s { s with outputBytes := s.outputBytes + bytes }

namespace AgentSession

/-- The counters are within the limits. -/
structure Within (s : AgentSession) : Prop where
  actions : s.actionsUsed ≤ s.limits.maxActions
  events : s.eventsUsed ≤ s.limits.maxEvents
  output : s.outputBytes ≤ s.limits.maxOutputBytes

/-- A session as `open` makes it. -/
structure IsNew (s : AgentSession) : Prop where
  actions : s.actionsUsed = 0
  events : s.eventsUsed = 0
  output : s.outputBytes = 0

theorem IsNew.within {s : AgentSession} (h : s.IsNew) : s.Within :=
  ⟨h.actions ▸ UInt64.zero_le, h.events ▸ UInt64.zero_le, h.output ▸ UInt64.zero_le⟩

end AgentSession

namespace Change

variable {s s' : AgentSession}

theorem cancel (s : AgentSession) : Change s { s with state := .cancelled } := by
  by_cases hlive : s.state = .cancelled
  · have hsame : { s with state := .cancelled } = s := by rw [← hlive]
    exact hsame ▸ .same _
  · exact .state s .cancelled s.startedAtMillis hlive fun _ => rfl

theorem within (h : Change s s') (hs : s.Within) : s'.Within := by
  cases h with
  | same => exact hs
  | state => exact ⟨hs.actions, hs.events, hs.output⟩
  | action hlive hroom => exact ⟨add_one_le hroom, hs.events, hs.output⟩
  | event hlive hroom => exact ⟨hs.actions, add_one_le hroom, hs.output⟩
  | output bytes hlive hroom =>
      exact ⟨hs.actions, hs.events, UInt64.le_trans (add_le_saturating_add _ _) hroom⟩

/-- A cancelled session never changes. -/
theorem eq_of_cancelled (h : Change s s') (hs : s.state = .cancelled) : s' = s := by
  cases h with
  | same => rfl
  | state state startedAt hlive | action hlive | event hlive | output bytes hlive =>
      exact absurd hs hlive

/-- The start of a session and its limits are fixed. -/
theorem fixed (h : Change s s') : s'.limits = s.limits ∧
    ∀ started, s.startedAtMillis = some started → s'.startedAtMillis = some started := by
  cases h with
  | same | action | event | output => exact ⟨rfl, fun started hstarted => hstarted⟩
  | state state startedAt hlive hkept =>
      refine ⟨rfl, fun started hstarted => ?_⟩
      exact (hkept (by simp [hstarted])).trans hstarted

end Change

/-! ## What happens to a runtime -/

/-- What one call does to the sessions. -/
structure Evolves (m m' : OrdMap AgentSessionId AgentSession) : Prop where
  old : ∀ (id : AgentSessionId) (session : AgentSession), m[id]? = some session →
    ∃ session', m'[id]? = some session' ∧ Change session session'
  new : ∀ (id : AgentSessionId) (session : AgentSession), m[id]? = none →
    m'[id]? = some session → session.IsNew

namespace Evolves

variable {m : OrdMap AgentSessionId AgentSession} {id : AgentSessionId}

theorem refl (m : OrdMap AgentSessionId AgentSession) : Evolves m m := by
  refine ⟨fun id session h => ⟨session, h, .same session⟩, fun id session hnone hsome => ?_⟩
  rw [hnone] at hsome
  cases hsome

/-- A session that changes as it may. -/
theorem insert {session session' : AgentSession} (h : m[id]? = some session)
    (hchange : Change session session') : Evolves m (m.insert id session') := by
  refine ⟨fun other found hfound => ?_, fun other found hnone hfound => ?_⟩
  · rw [OrdMap.get_insert]
    split_ifs with hother
    · subst hother
      rw [h] at hfound
      exact ⟨session', rfl, Option.some.inj hfound ▸ hchange⟩
    · exact ⟨found, hfound, .same found⟩
  · rw [OrdMap.get_insert] at hfound
    split_ifs at hfound with hother
    · rw [← hother, h] at hnone
      cases hnone
    · rw [hnone] at hfound
      cases hfound

/-- A new session. -/
theorem insert_new {session : AgentSession} (h : m[id]? = none) (hnew : session.IsNew) :
    Evolves m (m.insert id session) := by
  refine ⟨fun other found hfound => ?_, fun other found hnone hfound => ?_⟩
  · have hother : id ≠ other := by
      rintro rfl
      rw [h] at hfound
      cases hfound
    exact ⟨found, by rw [OrdMap.get_insert_ne _ hother, hfound], .same found⟩
  · rw [OrdMap.get_insert] at hfound
    split_ifs at hfound
    · exact Option.some.inj hfound ▸ hnew
    · rw [hnone] at hfound
      cases hfound

/-- The sessions of a list are cancelled, the others kept. -/
theorem get_cancel_all (ids : List AgentSessionId) (m : OrdMap AgentSessionId AgentSession)
    (id : AgentSessionId) :
    (ids.foldl (fun sessions id =>
        sessions.modify id fun session => { session with state := .cancelled }) m)[id]? =
      m[id]?.map fun session =>
        if id ∈ ids then { session with state := .cancelled } else session := by
  induction ids generalizing m with
  | nil => simp
  | cons first ids ih =>
      rw [List.foldl_cons, ih, OrdMap.get_modify]
      by_cases hfirst : first = id
      · subst hfirst
        cases hm : m[first]? with
        | none => simp
        | some session => simp
      · simp [hfirst, Ne.symm hfirst]

/-- Cancelling is a change that sessions may take. -/
theorem cancel_all (ids : List AgentSessionId) (m : OrdMap AgentSessionId AgentSession) :
    Evolves m (ids.foldl (fun sessions id =>
      sessions.modify id fun session => { session with state := .cancelled }) m) := by
  refine ⟨fun id session h => ?_, fun id session hnone hsome => ?_⟩
  · rw [get_cancel_all, h]
    refine ⟨_, rfl, ?_⟩
    split_ifs
    · exact .cancel session
    · exact .same session
  · rw [get_cancel_all, hnone] at hsome
    cases hsome

end Evolves

namespace AgentRuntime

/-- What one call does to the runtime. -/
structure Advances (r r' : AgentRuntime) : Prop where
  policy_eq : r'.policy = r.policy
  now_le : r.nowMillis ≤ r'.nowMillis
  sessions : Evolves r.sessions r'.sessions

/-- The session is running and within its time. -/
structure Live (r : AgentRuntime) (id : AgentSessionId) (session : AgentSession) : Prop where
  found : r.sessions[id]? = some session
  running : session.state = .running
  inTime : session.expired r.nowMillis = false

variable {r : AgentRuntime} {id : AgentSessionId} {session : AgentSession}

theorem Advances.refl (r : AgentRuntime) : Advances r r := ⟨rfl, UInt64.le_refl _, .refl _⟩

theorem Advances.set_session {session' : AgentSession} (h : r.sessions[id]? = some session)
    (hchange : Change session session') : Advances r (r.setSession id session') :=
  ⟨rfl, UInt64.le_refl _, .insert h hchange⟩

theorem Live.not_cancelled (h : r.Live id session) : session.state ≠ .cancelled := by
  rw [h.running]
  decide

/-- How `require_running` ends: it refuses, with an expired session cancelled, or it lets the call
through to a live session. -/
theorem require_running_cases (r : AgentRuntime) (id : AgentSessionId) :
    (∃ error r', r.requireRunning id = (.error error, r') ∧ Advances r r') ∨
      ∃ session, r.Live id session ∧ r.requireRunning id = (.ok (), r) := by
  unfold requireRunning
  cases hfound : r.sessions[id]? with
  | none => exact .inl ⟨_, _, rfl, .refl r⟩
  | some session =>
      dsimp only
      split_ifs with hrunning hexpired
      · exact .inl ⟨_, _, rfl, .refl r⟩
      · exact .inl ⟨_, _, rfl, .set_session hfound (.cancel session)⟩
      · exact .inr ⟨session, ⟨hfound, not_not.mp hrunning, by simpa using hexpired⟩, rfl⟩

theorem Live.require_running (h : r.Live id session) : r.requireRunning id = (.ok (), r) := by
  simp [requireRunning, h.found, h.running, h.inTime]

/-- A call of one of the budgeted methods: what it does, and that it succeeds for a live session
only. -/
structure Gated (r r' : AgentRuntime) (id : AgentSessionId) (outcome : Outcome) : Prop where
  advances : Advances r r'
  live : outcome.succeeded → ∃ session, r.Live id session

theorem Gated.refused {r' : AgentRuntime} (h : Advances r r') : Gated r r' id .failed :=
  ⟨h, fun hsucceeded => by cases hsucceeded⟩

theorem Gated.granted {r' : AgentRuntime} (hlive : r.Live id session) (h : Advances r r')
    (outcome : Outcome) : Gated r r' id outcome :=
  ⟨h, fun _ => ⟨session, hlive⟩⟩

/-- An action is counted behind all checks, or not at all. -/
theorem consume_action_gated (r : AgentRuntime) (id : AgentSessionId) (capability : Capability) :
    Gated r (r.consumeAction id capability).2 id (.of (r.consumeAction id capability).1) := by
  obtain ⟨error, r', h, hadvances⟩ | ⟨session, hlive, h⟩ := r.require_running_cases id
  · simp only [consumeAction, h]
    exact .refused hadvances
  · simp only [consumeAction, h, hlive.found]
    split_ifs with hdenied hquota
    · exact .refused (.refl r)
    · exact .refused (.refl r)
    · have hroom := UInt64.not_le.mp hquota
      exact .granted hlive (.set_session hlive.found (.action _ hlive.not_cancelled hroom)) _

/-- An action is granted for a capability of the session that the policy allows. -/
theorem capability_of_consume_action {capability : Capability}
    (h : (r.consumeAction id capability).1 = .ok ()) :
    ∃ session, r.sessions[id]? = some session ∧ capability ∈ session.capabilities ∧
      r.policy.allows capability := by
  obtain ⟨error, r', hrefused, -⟩ | ⟨session, hlive, hrunning⟩ := r.require_running_cases id
  · simp only [consumeAction, hrefused] at h
    cases h
  · simp only [consumeAction, hrunning, hlive.found] at h
    split_ifs at h with hdenied hquota
    refine ⟨session, hlive.found, ?_⟩
    simpa using hdenied

theorem record_event_gated (r : AgentRuntime) (id : AgentSessionId) :
    Gated r (r.recordEvent id).2 id (.of (r.recordEvent id).1) := by
  obtain ⟨error, r', h, hadvances⟩ | ⟨session, hlive, h⟩ := r.require_running_cases id
  · simp only [recordEvent, h]
    exact .refused hadvances
  · simp only [recordEvent, h, hlive.found]
    split_ifs with hquota
    · exact .refused (.refl r)
    · have hroom := UInt64.not_le.mp hquota
      exact .granted hlive (.set_session hlive.found (.event _ hlive.not_cancelled hroom)) _

theorem capture_page_data_gated (r : AgentRuntime) (id : AgentSessionId) (text source : Text) :
    Gated r (r.capturePageData id text source).2 id (.of (r.capturePageData id text source).1) := by
  obtain ⟨error, r', h, hadvances⟩ | ⟨session, hlive, h⟩ := r.require_running_cases id
  · simp only [capturePageData, h]
    exact .refused hadvances
  · simp only [capturePageData, h, hlive.found]
    split_ifs with hquota
    · exact .refused (.refl r)
    · have hroom := UInt64.not_lt.mp hquota
      exact .granted hlive (.set_session hlive.found (.output _ _ hlive.not_cancelled hroom)) _

/-- The start of a session moves it on. -/
theorem start_advances (r : AgentRuntime) (id : AgentSessionId) : Advances r (r.start id).2 := by
  unfold start
  cases hfound : r.sessions[id]? with
  | none => exact .refl r
  | some session =>
      have hkept : session.startedAtMillis ≠ none →
          session.startedAtMillis.or (some r.nowMillis) = session.startedAtMillis := by
        intro hstarted
        obtain ⟨started, hstarted⟩ := Option.ne_none_iff_exists'.mp hstarted
        simp [hstarted]
      dsimp only
      cases hstate : session.state with
      | created | paused =>
          have hlive : session.state ≠ .cancelled := by simp [hstate]
          exact .set_session hfound (.state session .running _ hlive hkept)
      | running | cancelled | exited => exact .refl r

theorem pause_advances (r : AgentRuntime) (id : AgentSessionId) : Advances r (r.pause id).2 := by
  unfold pause
  cases hfound : r.sessions[id]? with
  | none => exact .refl r
  | some session =>
      dsimp only
      split_ifs with hrunning
      · exact .refl r
      · have hlive : session.state ≠ .cancelled := by simp [not_not.mp hrunning]
        exact .set_session hfound (.state session .paused _ hlive fun _ => rfl)

theorem cancel_advances (r : AgentRuntime) (id : AgentSessionId) : Advances r (r.cancel id).2 := by
  unfold cancel
  cases hfound : r.sessions[id]? with
  | none => exact .refl r
  | some session =>
      dsimp only
      split_ifs
      · exact .refl r
      · exact .set_session hfound (.cancel session)

theorem advance_time_advances (r : AgentRuntime) (elapsedMillis : UInt64) :
    Advances r (r.advanceTime elapsedMillis) :=
  ⟨rfl, le_saturating_add _ _, .cancel_all _ _⟩

/-! ## Challenges -/

/-- What the gate in front of a challenge asks for. -/
def MaySolve (r : AgentRuntime) (id : AgentSessionId) (takeoverId : Option TakeoverId)
    (takeovers : TakeoverManager) (now : UInt64) : Prop :=
  ∃ session, r.Live id session ∧ .solveChallenge ∈ session.capabilities ∧
    r.policy.allows .solveChallenge ∧
    (takeoverOk takeoverId takeovers now ∨ .credentialSolve ∈ session.capabilities ∨
      r.policy.allowUnattendedSolve)

/-- An attempt is granted to those who may solve, and changes nothing then. -/
theorem attempt_solve_cases (r : AgentRuntime) (id : AgentSessionId) (provider : Text)
    (takeoverId : Option TakeoverId) (takeovers : TakeoverManager) (now : UInt64) :
    (¬ r.MaySolve id takeoverId takeovers now ∧ ∃ error r',
        r.attemptSolveChallenge id provider takeoverId takeovers now = (.error error, r') ∧
          Advances r r') ∨
      r.MaySolve id takeoverId takeovers now ∧ ∃ event,
        r.attemptSolveChallenge id provider takeoverId takeovers now = (.ok event, r) := by
  obtain ⟨error, r', h, hadvances⟩ | ⟨session, hlive, h⟩ := r.require_running_cases id
  · refine .inl ⟨?_, error, r', by simp only [attemptSolveChallenge, h], hadvances⟩
    rintro ⟨session, hlive, -⟩
    rw [hlive.require_running] at h
    cases h
  -- the gate is about the session that was found, which is the live one
  · have hmay : r.MaySolve id takeoverId takeovers now ↔
        .solveChallenge ∈ session.capabilities ∧ r.policy.allows .solveChallenge ∧
          (takeoverOk takeoverId takeovers now ∨ .credentialSolve ∈ session.capabilities ∨
            r.policy.allowUnattendedSolve) := by
      constructor
      · rintro ⟨other, hother, hgate⟩
        cases Option.some.inj (hlive.found.symm.trans hother.found)
        exact hgate
      · exact fun hgate => ⟨session, hlive, hgate⟩
    rw [hmay]
    simp only [attemptSolveChallenge, h, hlive.found]
    by_cases hdenied : (!session.capabilities.contains .solveChallenge ||
      !r.policy.allows .solveChallenge) = true
    · rw [if_pos hdenied]
      refine .inl ⟨fun hmay => ?_, _, _, rfl, .refl r⟩
      simp [hmay.1, hmay.2.1] at hdenied
    rw [if_neg hdenied]
    by_cases hgate : (!takeoverOk takeoverId takeovers now &&
      !session.capabilities.contains .credentialSolve &&
        !(r.policy.allows .solveChallenge && r.policy.allowUnattendedSolve)) = true
    · rw [if_pos hgate]
      refine .inl ⟨fun hmay => ?_, _, _, rfl, .refl r⟩
      obtain ⟨-, hallowed, htakeover | hcredential | hunattended⟩ := hmay
      · simp [htakeover] at hgate
      · simp [hcredential] at hgate
      · simp [hallowed, hunattended] at hgate
    · rw [if_neg hgate]
      refine .inr ⟨?_, _, rfl⟩
      simp only [Bool.or_eq_true, Bool.not_eq_true', not_or, Bool.not_eq_false,
        List.contains_iff_mem] at hdenied
      simp only [hdenied.2, Bool.true_and, Bool.and_eq_true, Bool.not_eq_true', not_and,
        Bool.not_eq_false, and_imp] at hgate
      refine ⟨hdenied.1, hdenied.2, ?_⟩
      by_cases htakeover : takeoverOk takeoverId takeovers now
      · exact .inl htakeover
      · by_cases hcredential : .credentialSolve ∈ session.capabilities
        · exact .inr (.inl hcredential)
        · exact .inr (.inr (hgate (by simpa using htakeover) (by simpa using hcredential)))

theorem attempt_advances (r : AgentRuntime) (id : AgentSessionId) (provider : Text)
    (takeoverId : Option TakeoverId) (takeovers : TakeoverManager) (now : UInt64) :
    Advances r (r.attemptSolveChallenge id provider takeoverId takeovers now).2 := by
  obtain ⟨-, error, r', h, hadvances⟩ | ⟨-, event, h⟩ :=
    r.attempt_solve_cases id provider takeoverId takeovers now
  · exact h ▸ hadvances
  · exact h ▸ .refl r

variable [Pointer] in
/-- Going through challenges: each needs the same gate, and changes nothing when it is granted. -/
theorem solve_challenges_cases (pageId : UInt64) (session : AgentSessionId)
    (takeovers : TakeoverManager) (now : UInt64) (challenges : List (AgentNode × Geometry))
    (cursor : F64 × F64) (audits : List SolveAuditEvent) (r : AgentRuntime) :
    ((challenges ≠ [] ∧ ¬ r.MaySolve session none takeovers now) ∧ ∃ error r',
        solveChallenges pageId session takeovers now challenges cursor audits r =
          (.error error, r') ∧ Advances r r') ∨
      (challenges = [] ∨ r.MaySolve session none takeovers now) ∧ ∃ events,
        events.length = audits.length + challenges.length ∧
          solveChallenges pageId session takeovers now challenges cursor audits r =
            (.ok events, r) := by
  induction challenges generalizing cursor audits with
  | nil => exact .inr ⟨.inl rfl, audits, by simp, rfl⟩
  | cons challenge rest ih =>
      obtain ⟨node, geometry⟩ := challenge
      obtain ⟨hmay, error, r', hattempt, hadvances⟩ | ⟨hmay, event, hattempt⟩ :=
        r.attempt_solve_cases session
          ((node.identityKey.bind (stripPrefix "challenge:")).getD node.id) none takeovers now
      · refine .inl ⟨⟨by simp, hmay⟩, "solve gate denied: " ++ error.debug, r', ?_, hadvances⟩
        simp only [solveChallenges, attemptChallengeClick, attemptChallengeClickWithTrajectory,
          hattempt, ite_self]
        rfl
      · refine .inr ⟨.inr hmay, ?_⟩
        -- the first attempt has left the runtime alone, so the rest meets the same gate
        have hrest := ih (Pointer.center geometry) (audits ++
          [{ event with pageId := some pageId, targetNodeId := some node.id }])
        obtain ⟨⟨-, hnot⟩, -⟩ | ⟨-, events, hlength, hsolved⟩ := hrest
        · exact absurd hmay hnot
        · refine ⟨events, ?_, ?_⟩
          · rw [hlength]
            simp only [List.length_append, List.length_cons, List.length_nil]
            omega
          · simp only [solveChallenges, attemptChallengeClick,
              attemptChallengeClickWithTrajectory, hattempt, ite_self]
            exact hsolved

end AgentRuntime

end BrowsAI.Agents
