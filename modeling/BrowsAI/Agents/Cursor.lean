import BrowsAI.AgentTree.Equality
import BrowsAI.Agents.Solving
import BrowsAI.Library.Stretches

/-!
# The cursor of the solving loop

The loop of `solve_observed_challenges` keeps its own cursor, which a click without a trajectory
advances although the pointer stays. The places where the pointer really is when it is pressed are
`presses`; the loop is right about them as long as each stretch of neighbouring challenges stays
close to its start, by `on_target_iff`.
-/

namespace BrowsAI.Agents

open AgentTree Input Stretches

/-! ## The pointer -/

/-- Where the pointer is after an event. -/
def moveTo (here : F64 × F64) : NativeInputEvent → F64 × F64
  | .pointerMove x y => (x, y)
  | _ => here

/-- The places of the pointer at each press. -/
def presses : F64 × F64 → List NativeInputEvent → List (F64 × F64)
  | _, [] => []
  | here, .pointerDown _ :: rest => here :: presses here rest
  | here, event :: rest => presses (moveTo here event) rest

/-- A click whose last move lands on its end. -/
def LandsOn (stop : F64 × F64) (events : List NativeInputEvent) : Prop :=
  ∃ moves, (∀ move ∈ moves, move.isPointerMove = true) ∧
    moves.getLast? = some (.pointerMove stop.1 stop.2) ∧
    events = moves ++ [.pointerDown 0, .pointerUp 0]

/-- Moves before the presses only change where the cursor is. -/
theorem presses_moves {moves : List NativeInputEvent}
    (hmoves : ∀ move ∈ moves, move.isPointerMove = true) (here : F64 × F64)
    (rest : List NativeInputEvent) :
    presses here (moves ++ rest) = presses (moves.foldl moveTo here) rest := by
  induction moves generalizing here with
  | nil => rfl
  | cons move moves ih =>
      rw [List.forall_mem_cons] at hmoves
      cases move with
      | pointerMove x y => exact ih hmoves.2 _
      | _ => cases hmoves.1

/-- Moves that end on a place leave the pointer there. -/
theorem move_to_last {moves : List NativeInputEvent} {stop : F64 × F64}
    (hlast : moves.getLast? = some (.pointerMove stop.1 stop.2)) (here : F64 × F64) :
    moves.foldl moveTo here = stop := by
  obtain ⟨before, rfl⟩ := List.getLast?_eq_some_iff.mp hlast
  rw [List.foldl_append]
  rfl

theorem presses_lands {stop : F64 × F64} {events : List NativeInputEvent}
    (h : LandsOn stop events) (here : F64 × F64) (rest : List NativeInputEvent) :
    presses here (events ++ rest) = stop :: presses stop rest := by
  obtain ⟨moves, hmoves, hlast, rfl⟩ := h
  rw [List.append_assoc, presses_moves hmoves, move_to_last hlast]
  rfl

/-! ## Exact arithmetic -/

/-- The computations of the pointer in exact arithmetic, in which the two zeros are one number. -/
@[reducible] def Pointer.rational : Pointer where
  center geometry := Pointer.exact.center geometry.normalized
  near cursor stop := Pointer.exact.near (cursor.1.normalized, cursor.2.normalized)
    (stop.1.normalized, stop.2.normalized)

/-- Both coordinates are numbers. -/
def IsPoint (place : F64 × F64) : Prop :=
  ∃ x y, place.1.normalized = .finite x ∧ place.2.normalized = .finite y

/-- Two points are near each other exactly if both are finite and at most 16 apart. -/
theorem rational_near_iff {cursor stop : F64 × F64} :
    Pointer.rational.near cursor stop = true ↔
      ∃ x y x' y', (cursor.1.normalized = .finite x ∧ cursor.2.normalized = .finite y) ∧
        (stop.1.normalized = .finite x' ∧ stop.2.normalized = .finite y') ∧
          (x' - x) ^ 2 + (y' - y) ^ 2 ≤ 16 ^ 2 := by
  show Pointer.exact.near (cursor.1.normalized, cursor.2.normalized)
    (stop.1.normalized, stop.2.normalized) = true ↔ _
  generalize cursor.1.normalized = x
  generalize cursor.2.normalized = y
  generalize stop.1.normalized = x'
  generalize stop.2.normalized = y'
  cases x <;> cases y <;> cases x' <;> cases y' <;> simp [Pointer.near]

/-- Nothing is near to a place that is none. -/
theorem is_point_of_near {cursor stop : F64 × F64} (h : Pointer.rational.near cursor stop = true) :
    IsPoint stop := by
  obtain ⟨x, y, x', y', -, hstop, -⟩ := rational_near_iff.mp h
  exact ⟨x', y', hstop⟩

theorem near_self {place : F64 × F64} (h : IsPoint place) :
    Pointer.rational.near place place = true := by
  obtain ⟨x, y, hplace⟩ := h
  refine rational_near_iff.mpr ⟨x, y, x, y, hplace, hplace, ?_⟩
  norm_num

theorem near_self_iff {place : F64 × F64} :
    Pointer.rational.near place place = true ↔ IsPoint place :=
  ⟨is_point_of_near, near_self⟩

instance : DecidablePred IsPoint := fun _ => decidable_of_iff _ near_self_iff

/-! ## The loop -/

/-- Each press finds the pointer close to the centre of the challenge that it is for. -/
def OnTarget (challenges : List (AgentNode × Geometry)) (places : List (F64 × F64)) : Prop :=
  ∀ (i : Nat) (place : F64 × F64), places[i]? = some place →
    ∃ challenge, challenges[i]? = some challenge ∧
      Pointer.rational.near place (Pointer.rational.center challenge.2) = true

/-- Each stretch of neighbours stays close to its start. -/
def StaysClose (places : List (F64 × F64)) : Prop :=
  ∀ stretch ∈ places.splitBy Pointer.rational.near,
    HeadRelated (fun start place => Pointer.rational.near start place = true) stretch

instance : DecidablePred StaysClose := fun places =>
  inferInstanceAs (Decidable (∀ stretch ∈ places.splitBy Pointer.rational.near, _))

/-- All presses hit exactly if the first one and the others do. -/
theorem on_target_cons_iff {challenge : AgentNode × Geometry}
    {challenges : List (AgentNode × Geometry)} {place : F64 × F64} {places : List (F64 × F64)} :
    OnTarget (challenge :: challenges) (place :: places) ↔
      Pointer.rational.near place (Pointer.rational.center challenge.2) = true ∧
        OnTarget challenges places := by
  constructor
  · intro h
    obtain ⟨first, hfirst, hnear⟩ := h 0 place rfl
    cases hfirst
    exact ⟨hnear, fun i later hlater => h (i + 1) later hlater⟩
  · intro h i later hlater
    cases i with
    | zero =>
        cases hlater
        exact ⟨challenge, rfl, h.1⟩
    | succ i => exact h.2 i later hlater

/-- The pointer starts out from `here`, and the loop takes it to be at `cursor`. -/
theorem on_target_clicks_iff {trajectory : TrajectoryMaker}
    (htrajectory : ∀ start stop, LandsOn stop (trajectory start stop)) (cursor here : F64 × F64)
    (challenges : List (AgentNode × Geometry)) :
    OnTarget challenges
        (presses here (@clicks .rational trajectory cursor challenges).flatten) ↔
      (∀ challenge ∈ challenges, IsPoint (Pointer.rational.center challenge.2)) ∧
        FromStart Pointer.rational.near
          (fun start place => Pointer.rational.near start place = true) cursor here
          (challenges.map fun challenge => Pointer.rational.center challenge.2) := by
  induction challenges generalizing cursor here with
  | nil => simp [clicks, presses, OnTarget, FromStart]
  | cons challenge rest ih =>
      obtain ⟨node, geometry⟩ := challenge
      simp only [clicks, List.flatten_cons, List.forall_mem_cons, List.map_cons, FromStart, click]
      by_cases hnear : Pointer.rational.near cursor (Pointer.rational.center geometry) = true
      -- the pointer stays where it is
      · rw [if_pos hnear, if_pos hnear]
        have hpress : presses here ([.pointerDown 0, .pointerUp 0] ++
            (@clicks .rational trajectory (Pointer.rational.center geometry) rest).flatten) =
          here :: presses here
            (@clicks .rational trajectory (Pointer.rational.center geometry) rest).flatten := rfl
        rw [hpress, on_target_cons_iff, ih]
        constructor
        · intro h
          exact ⟨⟨is_point_of_near h.1, h.2.1⟩, h.1, h.2.2⟩
        · intro h
          exact ⟨h.2.1, h.1.2, h.2.2⟩
      · rw [if_neg hnear, if_neg hnear, presses_lands (htrajectory cursor _), on_target_cons_iff,
          near_self_iff, ih, and_assoc]

/-- The pointer is close to every challenge at its press exactly if the gate denies, or the centres
are points and each stretch of neighbours among them, from the origin on, stays close to its
start. -/
theorem on_target_iff {σ : Type} (host : Host σ) {trajectory : TrajectoryMaker}
    (htrajectory : ∀ start stop, LandsOn stop (trajectory start stop)) (r : AgentRuntime)
    (pageId : UInt64) (tree : AgentRenderTree) (session : AgentSessionId)
    (takeovers : TakeoverManager) (now : UInt64) (cursorOrigin : F64 × F64) (state : σ) :
    let run := @Host.solveAlong σ .rational host trajectory r pageId tree session takeovers now
      cursorOrigin state
    let observed := AgentRuntime.observedChallenges tree
    OnTarget observed (presses cursorOrigin run.2.2.handed) ↔
      ¬ r.MaySolveAlone session ∨
        (∀ challenge ∈ observed, IsPoint (Pointer.rational.center challenge.2)) ∧
          StaysClose (cursorOrigin ::
            observed.map fun challenge => Pointer.rational.center challenge.2) := by
  intro run observed
  rw [StaysClose, head_related_iff, ← on_target_clicks_iff htrajectory]
  obtain ⟨hrefused, error, r', hrun⟩ | ⟨hgranted, granted, state', -, hrun⟩ :=
    @Host.solve_challenges_cases σ .rational host trajectory pageId session takeovers now observed
      cursorOrigin [] r ⟨state, []⟩
  · have hrun : run = _ := hrun
    refine iff_of_true ?_ (.inl hrefused.2)
    intro i place hplace
    rw [hrun] at hplace
    cases hplace
  · have hrun : run = _ := hrun
    rw [hrun, List.nil_append]
    constructor
    · exact .inr
    · intro h
      rcases hgranted with hnone | hmay
      · rw [hnone]
        intro i place hplace
        cases hplace
      · exact h.resolve_left (not_not.mpr hmay)

/-- A trajectory of one move. -/
def straight : TrajectoryMaker :=
  fun _ stop => [.pointerMove stop.1 stop.2, .pointerDown 0, .pointerUp 0]

theorem straight_lands (start stop : F64 × F64) : LandsOn stop (straight start stop) := by
  refine ⟨[.pointerMove stop.1 stop.2], ?_, rfl, rfl⟩
  rw [List.forall_mem_singleton]
  rfl

/-- A challenge of ten by ten pixels, in one row with `cursorStart`. -/
def challengeAt (id : AgentNodeId) (x : ℚ) : AgentNode :=
  { AgentNode.plain id .region none [] with
    semanticRole := some .challenge
    geometry := some ⟨.finite x, .finite 95, .finite 10, .finite 10⟩ }

/-- Where the cursor starts in the examples. -/
def cursorStart : F64 × F64 := (.finite 100, .finite 100)

/-- A runtime in which a session may solve alone. -/
def solvingRuntime : AgentRuntime :=
  (((AgentRuntime.new .autonomousAgent).openSession 1 [.solveChallenge] default).start 1).2

/-- A host whose dispatch always succeeds. -/
def willing : Host Unit := ⟨fun _ state => (.ok (), state), fun _ state => state⟩

theorem distant_challenge_on_target :
    let tree : AgentRenderTree :=
      ⟨"page", [challengeAt "near" 105, challengeAt "far" 295], 0, false⟩
    OnTarget (AgentRuntime.observedChallenges tree) (presses cursorStart
      (@Host.solveAlong Unit .rational willing straight solvingRuntime 7 tree 1 ⟨∅⟩ 0 cursorStart
        ()).2.2.handed) := by
  intro tree
  refine (on_target_iff willing straight_lands solvingRuntime 7 tree 1 ⟨∅⟩ 0 cursorStart ()).mpr
    (.inr ?_)
  decide +kernel

/-- Two challenges, each close to the one before: the pointer stays where it was, and the second
press is twenty pixels off. -/
theorem neighbour_off_target :
    ¬ ∀ (trajectory : TrajectoryMaker),
      (∀ start stop, LandsOn stop (trajectory start stop)) →
        ∀ (r : AgentRuntime) (pageId : UInt64) (tree : AgentRenderTree) (session : AgentSessionId)
          (takeovers : TakeoverManager) (now : UInt64) (cursorOrigin : F64 × F64),
          OnTarget (AgentRuntime.observedChallenges tree) (presses cursorOrigin
            (@Host.solveAlong Unit .rational willing trajectory r pageId tree session takeovers now
              cursorOrigin ()).2.2.handed) := by
  intro h
  let tree : AgentRenderTree := ⟨"page", [challengeAt "a" 105, challengeAt "b" 115], 0, false⟩
  have htarget := h straight straight_lands solvingRuntime 7 tree 1 ⟨∅⟩ 0 cursorStart
  obtain ⟨challenge, hfound, hnear⟩ := htarget 1 cursorStart (by decide +kernel)
  have hoff : (AgentRuntime.observedChallenges tree)[1]?.map (fun challenge =>
      Pointer.rational.near cursorStart (Pointer.rational.center challenge.2)) = some false := by
    decide +kernel
  rw [hfound, Option.map_some, hnear] at hoff
  cases hoff

end BrowsAI.Agents
