import BrowsAI.Agents.Steps
import BrowsAI.Input.Trajectory

/-!
# Solving the challenges of a page

`solve_observed_challenges` of `crates/agent-runtime` with the host that calls it: the input events
that it hands to `dispatch`, and the failures that it reports. What the runtime sees of the call is
`AgentRuntime.solveObservedChallenges`, by `solve_along_result`.
-/

namespace BrowsAI.Agents

open Utf8 AgentTree Input

/-- The centre of a widget and the distance to it as the code computes them. -/
instance Pointer.ofArithmetic [F64Arithmetic] : Pointer where
  center geometry := (geometry.x + geometry.width / 2.0, geometry.y + geometry.height / 2.0)
  near cursor stop :=
    let distance := F64Arithmetic.sqrt
      (F64Arithmetic.powi (stop.1 - cursor.1) 2 + F64Arithmetic.powi (stop.2 - cursor.2) 2)
    F64Arithmetic.le distance 16.0

/-- The closures of the caller, on a state that they share. The runtime is not part of it: the call
holds it for itself. -/
structure Host (σ : Type) where
  dispatch : NativeInputEvent → σ → Except Text Unit × σ
  onFailure : Text → σ → σ

/-- The state of the host, and the events that were handed to `dispatch` so far. -/
structure Dispatched (σ : Type) where
  state : σ
  handed : List NativeInputEvent

/-- How a trajectory from a start to an end is made. -/
abbrev TrajectoryMaker := F64 × F64 → F64 × F64 → List NativeInputEvent

/-- The trajectories of the code. -/
def humanTrajectory [F64Arithmetic] : TrajectoryMaker :=
  fun start stop => (generateHumanTrajectory start stop default).events

/-- The events of a click: the discrete ones next to the cursor, else a trajectory from there. -/
def click [Pointer] (trajectory : TrajectoryMaker) (cursor stop : F64 × F64) :
    List NativeInputEvent :=
  if Pointer.near cursor stop then [.pointerDown 0, .pointerUp 0] else trajectory cursor stop

/-- The clicks on the challenges in turn, each from the centre of the one before. -/
def clicks [Pointer] (trajectory : TrajectoryMaker) :
    F64 × F64 → List (AgentNode × Geometry) → List (List NativeInputEvent)
  | _, [] => []
  | cursor, (_, geometry) :: rest =>
      let stop := Pointer.center geometry
      click trajectory cursor stop :: clicks trajectory stop rest

namespace AgentRuntime

/-- The attempt on one challenge: its audit event, and the events to dispatch. -/
def attemptClick [Pointer] (r : AgentRuntime) (trajectory : TrajectoryMaker) (pageId : UInt64)
    (session : AgentSessionId) (takeovers : TakeoverManager) (now : UInt64)
    (challenge : AgentNode) (geometry : Geometry) (cursor : F64 × F64) :
    Except AgentRuntimeError (SolveAuditEvent × List NativeInputEvent) × AgentRuntime :=
  let stop := Pointer.center geometry
  let provider := (challenge.identityKey.bind (stripPrefix "challenge:")).getD challenge.id
  if Pointer.near cursor stop then
    let (result, r) :=
      r.attemptChallengeClick session pageId provider (some challenge.id) none takeovers now
    (result.map fun audit => (audit, [.pointerDown 0, .pointerUp 0]), r)
  else
    let (result, r) :=
      r.attemptChallengeClickWithTrajectory session pageId (some challenge.id) provider none
        takeovers now
    (result.map fun audit => (audit, trajectory cursor stop), r)

end AgentRuntime

namespace Host

variable {σ : Type}

/-- The inner loop: each event is handed over, whatever became of the ones before. -/
def dispatchAll (host : Host σ) : List NativeInputEvent → Dispatched σ → Dispatched σ
  | [], d => d
  | event :: rest, d =>
      let (result, state) := host.dispatch event d.state
      let state :=
        match result with
        | .ok () => state
        | .error error => host.onFailure error state
      dispatchAll host rest ⟨state, d.handed ++ [event]⟩

/-- The loop of `solve_observed_challenges` with the audit events so far. -/
def solveChallenges [Pointer] (host : Host σ) (trajectory : TrajectoryMaker) (pageId : UInt64)
    (session : AgentSessionId) (takeovers : TakeoverManager) (now : UInt64) :
    List (AgentNode × Geometry) → F64 × F64 → List SolveAuditEvent → AgentRuntime →
      Dispatched σ → Except Text (List SolveAuditEvent) × AgentRuntime × Dispatched σ
  | [], _, audits, r, d => (.ok audits, r, d)
  | (challenge, geometry) :: rest, cursor, audits, r, d =>
      match r.attemptClick trajectory pageId session takeovers now challenge geometry cursor with
      | (.error error, r) => (.error ("solve gate denied: " ++ error.debug), r, d)
      | (.ok (audit, events), r) =>
          host.solveChallenges trajectory pageId session takeovers now rest
            (Pointer.center geometry) (audits ++ [audit]) r (host.dispatchAll events d)

/-- `solve_observed_challenges` for some way to make trajectories. -/
def solveAlong [Pointer] (host : Host σ) (trajectory : TrajectoryMaker) (r : AgentRuntime)
    (pageId : UInt64) (tree : AgentRenderTree) (session : AgentSessionId)
    (takeovers : TakeoverManager) (now : UInt64) (cursorOrigin : F64 × F64) (state : σ) :
    Except Text (List SolveAuditEvent) × AgentRuntime × Dispatched σ :=
  host.solveChallenges trajectory pageId session takeovers now
    (AgentRuntime.observedChallenges tree) cursorOrigin [] r ⟨state, []⟩

/-- Solves every challenge of the tree along the trajectories of a human. -/
def solveObservedChallenges [F64Arithmetic] (host : Host σ) (r : AgentRuntime) (pageId : UInt64)
    (tree : AgentRenderTree) (session : AgentSessionId) (takeovers : TakeoverManager)
    (now : UInt64) (cursorOrigin : F64 × F64) (state : σ) :
    Except Text (List SolveAuditEvent) × AgentRuntime × Dispatched σ :=
  host.solveAlong humanTrajectory r pageId tree session takeovers now cursorOrigin state

/-- Failures of `dispatch` do not keep later events from it. -/
@[simp] theorem handed_dispatch_all (host : Host σ) (events : List NativeInputEvent)
    (d : Dispatched σ) : (host.dispatchAll events d).handed = d.handed ++ events := by
  induction events generalizing d with
  | nil => rw [dispatchAll, List.append_nil]
  | cons event rest ih => rw [dispatchAll, ih, List.append_assoc, List.singleton_append]

end Host

/-! ## The gate -/

namespace AgentRuntime

/-- What the gate asks for where no human has taken over. -/
def MaySolveAlone (r : AgentRuntime) (id : AgentSessionId) : Prop :=
  ∃ session, r.Live id session ∧ .solveChallenge ∈ session.capabilities ∧
    r.policy.allows .solveChallenge ∧
    (.credentialSolve ∈ session.capabilities ∨ r.policy.allowUnattendedSolve)

theorem may_solve_none_iff (r : AgentRuntime) (id : AgentSessionId) (takeovers : TakeoverManager)
    (now : UInt64) : r.MaySolve id none takeovers now ↔ r.MaySolveAlone id := by
  simp [MaySolve, MaySolveAlone, takeoverOk]

/-- An attempt is refused, or it is granted with the click and leaves the runtime alone. -/
theorem attempt_click_cases [Pointer] (r : AgentRuntime) (trajectory : TrajectoryMaker)
    (pageId : UInt64) (session : AgentSessionId) (takeovers : TakeoverManager) (now : UInt64)
    (challenge : AgentNode) (geometry : Geometry) (cursor : F64 × F64) :
    (¬ r.MaySolveAlone session ∧ ∃ error r',
        r.attemptClick trajectory pageId session takeovers now challenge geometry cursor =
          (.error error, r')) ∨
      r.MaySolveAlone session ∧ ∃ audit, audit.targetNodeId = some challenge.id ∧
        r.attemptClick trajectory pageId session takeovers now challenge geometry cursor =
          (.ok (audit, click trajectory cursor (Pointer.center geometry)), r) := by
  rw [← r.may_solve_none_iff session takeovers now]
  obtain ⟨hmay, error, r', hattempt, -⟩ | ⟨hmay, event, hattempt⟩ :=
    r.attempt_solve_cases session
      ((challenge.identityKey.bind (stripPrefix "challenge:")).getD challenge.id) none takeovers now
  · refine .inl ⟨hmay, error, r', ?_⟩
    simp only [attemptClick, attemptChallengeClick, attemptChallengeClickWithTrajectory, hattempt]
    exact ite_self _
  · refine .inr ⟨hmay, { event with pageId := some pageId, targetNodeId := some challenge.id },
      rfl, ?_⟩
    simp only [attemptClick, attemptChallengeClick, attemptChallengeClickWithTrajectory, hattempt,
      click]
    by_cases hnear : Pointer.near cursor (Pointer.center geometry) = true
    · rw [if_pos hnear, if_pos hnear]
      rfl
    · rw [if_neg hnear, if_neg hnear]
      rfl

end AgentRuntime

/-! ## All or nothing -/

namespace Host

variable {σ : Type}

section Along

variable [Pointer] (host : Host σ) (trajectory : TrajectoryMaker) (pageId : UInt64)
  (session : AgentSessionId) (takeovers : TakeoverManager) (now : UInt64)

/-- The gate answers every attempt of the loop as it answers the first: a granted one leaves the
runtime alone. -/
theorem solve_challenges_cases (challenges : List (AgentNode × Geometry)) (cursor : F64 × F64)
    (audits : List SolveAuditEvent) (r : AgentRuntime) (d : Dispatched σ) :
    ((challenges ≠ [] ∧ ¬ r.MaySolveAlone session) ∧ ∃ error r',
        host.solveChallenges trajectory pageId session takeovers now challenges cursor audits r d =
          (.error error, r', d)) ∨
      (challenges = [] ∨ r.MaySolveAlone session) ∧ ∃ granted state,
        granted.map SolveAuditEvent.targetNodeId = challenges.map (some ·.1.id) ∧
          host.solveChallenges trajectory pageId session takeovers now challenges cursor audits r
            d = (.ok (audits ++ granted), r,
              ⟨state, d.handed ++ (clicks trajectory cursor challenges).flatten⟩) := by
  induction challenges generalizing cursor audits d with
  | nil =>
      refine .inr ⟨.inl rfl, [], d.state, rfl, ?_⟩
      simp [solveChallenges, clicks]
  | cons challenge rest ih =>
      obtain ⟨node, geometry⟩ := challenge
      obtain ⟨hmay, error, r', hattempt⟩ | ⟨hmay, audit, htarget, hattempt⟩ :=
        r.attempt_click_cases trajectory pageId session takeovers now node geometry cursor
      · refine .inl ⟨⟨by simp, hmay⟩, "solve gate denied: " ++ error.debug, r', ?_⟩
        simp only [solveChallenges, hattempt]
      · refine .inr ⟨.inr hmay, ?_⟩
        have hrest := ih (Pointer.center geometry) (audits ++ [audit])
          (host.dispatchAll (click trajectory cursor (Pointer.center geometry)) d)
        obtain ⟨⟨-, hnot⟩, -⟩ | ⟨-, granted, state, htargets, hsolved⟩ := hrest
        · exact absurd hmay hnot
        · refine ⟨audit :: granted, state, ?_, ?_⟩
          · rw [List.map_cons, List.map_cons, htarget, htargets]
          · simp only [solveChallenges, hattempt, hsolved, handed_dispatch_all, clicks,
              List.flatten_cons, List.append_assoc, List.singleton_append]

/-- The answer of the loop and the runtime after it do not depend on the host. -/
theorem solve_challenges_result (challenges : List (AgentNode × Geometry)) (cursor : F64 × F64)
    (audits : List SolveAuditEvent) (r : AgentRuntime) (d : Dispatched σ) :
    let run :=
      host.solveChallenges trajectory pageId session takeovers now challenges cursor audits r d
    (run.1, run.2.1) =
      AgentRuntime.solveChallenges pageId session takeovers now challenges cursor audits r := by
  induction challenges generalizing cursor audits r d with
  | nil => rfl
  | cons challenge rest ih =>
      obtain ⟨node, geometry⟩ := challenge
      simp only [solveChallenges, AgentRuntime.solveChallenges, AgentRuntime.attemptClick]
      by_cases hnear : Pointer.near cursor (Pointer.center geometry) = true
      · rw [if_pos hnear, if_pos hnear]
        cases (r.attemptChallengeClick session pageId
          ((node.identityKey.bind (stripPrefix "challenge:")).getD node.id) (some node.id) none
          takeovers now).1 with
        | error error => rfl
        | ok audit => exact ih _ _ _ _
      · rw [if_neg hnear, if_neg hnear]
        cases (r.attemptChallengeClickWithTrajectory session pageId (some node.id)
          ((node.identityKey.bind (stripPrefix "challenge:")).getD node.id) none takeovers
          now).1 with
        | error error => rfl
        | ok audit => exact ih _ _ _ _

/-- The answer and the runtime are those of the call as the runtime sees it. -/
theorem solve_along_result (r : AgentRuntime) (tree : AgentRenderTree) (cursorOrigin : F64 × F64)
    (state : σ) :
    let run := host.solveAlong trajectory r pageId tree session takeovers now cursorOrigin state
    (run.1, run.2.1) =
      r.solveObservedChallenges pageId tree session takeovers now cursorOrigin :=
  host.solve_challenges_result trajectory pageId session takeovers now _ cursorOrigin [] r _

end Along

/-- Each click is one press and one release, whichever way the pointer gets there. -/
theorem clicks_shape [Pointer] {trajectory : TrajectoryMaker}
    (htrajectory : ∀ start stop, ClickAfterMoves (trajectory start stop)) (cursor : F64 × F64)
    (challenges : List (AgentNode × Geometry)) :
    List.Forall₂ (fun challenge events => ClickAfterMoves events ∧
      ∃ start, events = click trajectory start (Pointer.center challenge.2)) challenges
      (clicks trajectory cursor challenges) := by
  induction challenges generalizing cursor with
  | nil => exact .nil
  | cons challenge rest ih =>
      refine .cons ⟨?_, cursor, rfl⟩ (ih _)
      unfold click
      split_ifs with hnear
      · exact click_after_moves_discrete
      · exact htrajectory cursor _

/-- The call is refused before anything is dispatched, or each challenge is audited and clicked. -/
theorem solve_all_or_nothing [F64Arithmetic] (host : Host σ) (r : AgentRuntime) (pageId : UInt64)
    (tree : AgentRenderTree) (session : AgentSessionId) (takeovers : TakeoverManager)
    (now : UInt64) (cursorOrigin : F64 × F64) (state : σ) :
    let run :=
      host.solveObservedChallenges r pageId tree session takeovers now cursorOrigin state
    let observed := AgentRuntime.observedChallenges tree
    ((∃ error, run.1 = .error error) ↔ observed ≠ [] ∧ ¬ r.MaySolveAlone session) ∧
      (∀ error, run.1 = .error error → run.2.2.handed = [] ∧ run.2.2.state = state) ∧
      ∀ audits, run.1 = .ok audits →
        audits.map SolveAuditEvent.targetNodeId = observed.map (some ·.1.id) ∧
          ∃ segments, run.2.2.handed = segments.flatten ∧
            List.Forall₂ (fun challenge events =>
              events.countP NativeInputEvent.isPointerDown = 1 ∧
              events.countP NativeInputEvent.isPointerUp = 1 ∧
              ∃ start, events = click humanTrajectory start (Pointer.center challenge.2))
              observed segments := by
  intro run observed
  obtain ⟨hrefused, error, r', hrun⟩ | ⟨hgranted, granted, state', htargets, hrun⟩ :=
    host.solve_challenges_cases humanTrajectory pageId session takeovers now observed cursorOrigin
      [] r ⟨state, []⟩
  · have hrun : run = _ := hrun
    rw [hrun]
    refine ⟨iff_of_true ⟨error, rfl⟩ hrefused, ?_, ?_⟩
    · intro _ _
      exact ⟨rfl, rfl⟩
    · intro audits haudits
      cases haudits
  · have hrun : run = _ := hrun
    rw [hrun]
    refine ⟨iff_of_false ?_ ?_, ?_, ?_⟩
    · intro herror
      obtain ⟨error, herror⟩ := herror
      cases herror
    · intro hrefused
      exact hgranted.elim hrefused.1 hrefused.2
    · intro error herror
      cases herror
    · intro audits haudits
      cases haudits
      refine ⟨htargets, _, rfl, ?_⟩
      have hshape := clicks_shape
        (fun start stop => click_after_moves_trajectory start stop default) cursorOrigin observed
      refine hshape.imp ?_
      intro challenge events hevents
      exact ⟨hevents.1.count_pointer_down, hevents.1.count_pointer_up, hevents.2⟩

end Host

end BrowsAI.Agents
