import BrowsAI.AgentTree.Basic

/-!
# Mouse trajectories

`generate_human_trajectory` of `crates/input`: the moves along a Bezier curve with an overshoot and
a jitter, and the click at its end. The rounded operations on doubles are the `F64Arithmetic`
parameter; nothing is assumed about them, so the results are about the shape of the sequence.
-/

namespace BrowsAI.Input

open Utf8 AgentTree

/-- An event as the engine takes it. -/
inductive NativeInputEvent where
  | pointerMove (x y : F64)
  | pointerDown (button : UInt8)
  | pointerUp (button : UInt8)
  | keyDown (key : Text)
  | keyUp (key : Text)
  | textInput (text : Text)
  | scroll (deltaX deltaY : F64)
  deriving DecidableEq

namespace NativeInputEvent

/-- The event moves the pointer. -/
def isPointerMove : NativeInputEvent → Bool
  | pointerMove _ _ => true
  | _ => false

/-- It presses a button. -/
def isPointerDown : NativeInputEvent → Bool
  | pointerDown _ => true
  | _ => false

/-- It lets a button go. -/
def isPointerUp : NativeInputEvent → Bool
  | pointerUp _ => true
  | _ => false

end NativeInputEvent

/-- The operations of `f64`. `nearest` is the double that a literal and an integer cast denote. -/
class F64Arithmetic extends Add F64, Sub F64, Mul F64, Div F64, Neg F64 where
  nearest : ℚ → F64
  sqrt : F64 → F64
  powi : F64 → Int → F64
  max : F64 → F64 → F64
  clamp : F64 → F64 → F64 → F64
  lt : F64 → F64 → Bool
  le : F64 → F64 → Bool
  toBits : F64 → UInt64

instance [F64Arithmetic] : OfScientific F64 where
  ofScientific mantissa negative exponent :=
    F64Arithmetic.nearest (OfScientific.ofScientific mantissa negative exponent)

/-- What a trajectory is to be like. -/
structure MouseTrajectoryOptions where
  durationMillis : UInt64
  steps : Nat
  curveAmplitude : F64
  overshootPixels : F64
  jitterPixels : F64
  preClickPauseMillis : UInt64

/-- The events of a trajectory. -/
structure HumanMouseTrajectory where
  events : List NativeInputEvent

/-- The state of the generator. -/
structure SplitMix64 where
  state : UInt64

section Generation

variable [F64Arithmetic]

open F64Arithmetic

/-- `MouseTrajectoryOptions::default()`. -/
instance : Inhabited MouseTrajectoryOptions := ⟨⟨600, 32, 0.18, 4.0, 0.6, 80⟩⟩

/-- The point of a cubic curve at a time. -/
def bezierPoint (p0 p1 p2 p3 : F64 × F64) (t : F64) : F64 × F64 :=
  let oneMinusT := 1.0 - t
  let a := oneMinusT * oneMinusT * oneMinusT
  let b := 3.0 * oneMinusT * oneMinusT * t
  let c := 3.0 * oneMinusT * t * t
  let d := t * t * t
  (a * p0.1 + b * p1.1 + c * p2.1 + d * p3.1, a * p0.2 + b * p1.2 + c * p2.2 + d * p3.2)

/-- Slow at the start, and slower at the end. -/
def easeHuman (t : F64) : F64 :=
  let clamped := clamp t 0.0 1.0
  let easeOut := 1.0 - powi (1.0 - clamped) 3
  let easeIn := clamped * clamped
  0.5 * easeIn + 0.5 * easeOut

namespace SplitMix64

omit [F64Arithmetic] in
/-- The next 64 random bits. -/
def nextU64 (rng : SplitMix64) : UInt64 × SplitMix64 :=
  let state := rng.state + 0x9E3779B97F4A7C15
  let z := (state ^^^ (state >>> 30)) * 0xBF58476D1CE4E5B9
  let z := (z ^^^ (z >>> 27)) * 0x94D049BB133111EB
  (z ^^^ (z >>> 31), ⟨state⟩)

/-- The next number from 0 to 1. -/
def nextUnit (rng : SplitMix64) : F64 × SplitMix64 :=
  let (v, rng) := rng.nextU64
  (nearest (v >>> 11).toNat / nearest (2 ^ 53), rng)

/-- The next number from -1 to 1. -/
def nextSymmetric (rng : SplitMix64) : F64 × SplitMix64 :=
  let (unit, rng) := rng.nextUnit
  (unit * 2.0 - 1.0, rng)

end SplitMix64

/-- So far to the side of the way. -/
def perpendicularOffset (start stop : F64 × F64) (amount : F64) : F64 × F64 :=
  let dx := stop.1 - start.1
  let dy := stop.2 - start.2
  let len := max (sqrt (dx * dx + dy * dy)) 1.0
  (-dy / len * amount, dx / len * amount)

/-- The variables that the loop of `generate_human_trajectory` reads. -/
structure Path where
  p0 : F64 × F64
  p1 : F64 × F64
  p2 : F64 × F64
  p3 : F64 × F64
  steps : Nat
  overshoot : F64
  jitter : F64
  overshootTarget : F64 × F64

namespace Path

/-- The point of step `i`. -/
def point (path : Path) (i : Nat) (rng : SplitMix64) : (F64 × F64) × SplitMix64 :=
  let linear := nearest i / (nearest path.steps - 1.0)
  let eased := easeHuman linear
  let point := bezierPoint path.p0 path.p1 path.p2 path.p3 eased
  let target := path.overshootTarget
  let point :=
    if lt 0.0 path.overshoot && lt 0.78 linear && lt linear 0.95 then
      let blend := clamp ((linear - 0.78) / 0.17) 0.0 1.0
      (point.1 + (target.1 - point.1) * blend, point.2 + (target.2 - point.2) * blend)
    else point
  let point :=
    if lt 0.0 path.overshoot && le 0.95 linear then
      let settle := clamp ((linear - 0.95) / 0.05) 0.0 1.0
      (target.1 + (path.p3.1 - target.1) * settle, target.2 + (path.p3.2 - target.2) * settle)
    else point
  if lt 0.0 path.jitter then
    let (jitterX, rng) := rng.nextSymmetric
    let (jitterY, rng) := rng.nextSymmetric
    ((point.1 + jitterX * path.jitter, point.2 + jitterY * path.jitter), rng)
  else (point, rng)

/-- The moves of the steps of a path. -/
def moves (path : Path) : List Nat → SplitMix64 → List NativeInputEvent
  | [], _ => []
  | i :: rest, rng =>
      let (point, rng) := path.point i rng
      .pointerMove point.1 point.2 :: path.moves rest rng

end Path

/-- The point past the end, with the generator after its draws. -/
def overshootTarget (stop : F64 × F64) (dx dy distance overshoot : F64) (rng : SplitMix64) :
    (F64 × F64) × SplitMix64 :=
  if lt 0.0 overshoot then
    let len := max distance 1.0
    let dir := (dx / len, dy / len)
    let perp := (-dir.2, dir.1)
    let (symmetric, rng) := rng.nextSymmetric
    let side : F64 := if le 0.0 symmetric then 1.0 else -1.0
    let (unit, rng) := rng.nextUnit
    let overshootAmount := overshoot * (0.6 + unit * 0.8)
    ((stop.1 + dir.1 * overshootAmount * 0.4 + perp.1 * overshootAmount * 0.6 * side,
      stop.2 + dir.2 * overshootAmount * 0.4 + perp.2 * overshootAmount * 0.6 * side), rng)
  else (stop, rng)

/-- A curve from one point to another, and a click at its end. -/
def generateHumanTrajectory (start stop : F64 × F64) (options : MouseTrajectoryOptions) :
    HumanMouseTrajectory :=
  let dx := stop.1 - start.1
  let dy := stop.2 - start.2
  let distance := sqrt (dx * dx + dy * dy)
  let seed := (toBits start.1 * 0x9E3779B97F4A7C15 + toBits start.2 + toBits stop.1) *
    0xBF58476D1CE4E5B9 + toBits stop.2
  let rng : SplitMix64 := ⟨seed⟩
  let amp := clamp options.curveAmplitude 0.0 1.0
  let (unit, rng) := rng.nextUnit
  let offset1 := perpendicularOffset start stop (distance * amp * (0.6 + unit * 0.4))
  let (unit, rng) := rng.nextUnit
  let offset2 := perpendicularOffset start stop (-(distance * amp * (0.6 + unit * 0.4)))
  let steps := Nat.max options.steps 4
  let overshoot := max options.overshootPixels 0.0
  let jitter := max options.jitterPixels 0.0
  let (overshootTarget, rng) := overshootTarget stop dx dy distance overshoot rng
  let path : Path :=
    { p0 := start
      p1 := (start.1 + dx * 0.25 + offset1.1, start.2 + dy * 0.25 + offset1.2)
      p2 := (start.1 + dx * 0.75 + offset2.1, start.2 + dy * 0.75 + offset2.2)
      p3 := stop
      steps
      overshoot
      jitter
      overshootTarget }
  -- the duration and the pause before the click do not shape the sequence
  ⟨path.moves (List.range steps) rng ++ [.pointerDown 0, .pointerUp 0]⟩

namespace Path

@[simp] theorem length_moves (path : Path) (steps : List Nat) (rng : SplitMix64) :
    (path.moves steps rng).length = steps.length := by
  induction steps generalizing rng with
  | nil => rfl
  | cons i rest ih => simp only [moves, List.length_cons, ih]

/-- The steps of a path are moves only. -/
theorem is_move_of_mem (path : Path) {steps : List Nat} {rng : SplitMix64}
    {event : NativeInputEvent} (hevent : event ∈ path.moves steps rng) :
    event.isPointerMove = true := by
  induction steps generalizing rng with
  | nil => cases hevent
  | cons i rest ih =>
      simp only [moves, List.mem_cons] at hevent
      rcases hevent with heq | hrest
      · rw [heq]
        rfl
      · exact ih hrest

end Path

end Generation

/-- Moves, and one click with the primary button. -/
def ClickAfterMoves (events : List NativeInputEvent) : Prop :=
  ∃ moves, (∀ move ∈ moves, move.isPointerMove = true) ∧
    events = moves ++ [.pointerDown 0, .pointerUp 0]

/-- A trajectory is one move for each step, at least four, and then the click. -/
theorem generate_human_trajectory_shape [F64Arithmetic] (start stop : F64 × F64)
    (options : MouseTrajectoryOptions) :
    ∃ moves, moves.length = Nat.max options.steps 4 ∧
      (∀ move ∈ moves, move.isPointerMove = true) ∧
      (generateHumanTrajectory start stop options).events =
        moves ++ [.pointerDown 0, .pointerUp 0] := by
  refine ⟨_, ?_, ?_, rfl⟩
  · rw [Path.length_moves, List.length_range]
  · intro move hmove
    exact Path.is_move_of_mem _ hmove

theorem click_after_moves_trajectory [F64Arithmetic] (start stop : F64 × F64)
    (options : MouseTrajectoryOptions) :
    ClickAfterMoves (generateHumanTrajectory start stop options).events := by
  obtain ⟨moves, -, hmoves, heq⟩ := generate_human_trajectory_shape start stop options
  exact ⟨moves, hmoves, heq⟩

theorem click_after_moves_discrete : ClickAfterMoves [.pointerDown 0, .pointerUp 0] := by
  refine ⟨[], ?_, rfl⟩
  intro move hmove
  cases hmove

namespace ClickAfterMoves

variable {events : List NativeInputEvent}

/-- What is not counted in moves is counted in the click alone. -/
theorem count_eq (h : ClickAfterMoves events) {p : NativeInputEvent → Bool}
    (hmove : ∀ x y, p (.pointerMove x y) = false) :
    events.countP p = [NativeInputEvent.pointerDown 0, .pointerUp 0].countP p := by
  obtain ⟨moves, hmoves, rfl⟩ := h
  have hnone : moves.countP p = 0 := by
    rw [List.countP_eq_zero]
    intro move hmem
    have hkind := hmoves move hmem
    cases move with
    | pointerMove x y => simp [hmove x y]
    | _ => cases hkind
  rw [List.countP_append, hnone, Nat.zero_add]

theorem count_pointer_down (h : ClickAfterMoves events) :
    events.countP NativeInputEvent.isPointerDown = 1 :=
  h.count_eq fun _ _ => rfl

theorem count_pointer_up (h : ClickAfterMoves events) :
    events.countP NativeInputEvent.isPointerUp = 1 :=
  h.count_eq fun _ _ => rfl

end ClickAfterMoves

end BrowsAI.Input
