import BrowsAI.Library.Runs
import BrowsAI.Library.Utf8

/-!
# The change stream

`ChangeStream` of `crates/event-observer`, a bounded queue that drops its oldest event when it is
full. A `History` counts what was published and what the consumer got. A drain that fails reports
the events dropped before it, and discards the retained ones unreported.
-/

namespace BrowsAI.EventObserver

open Utf8

/-- A change of the page. -/
inductive ChangeEvent where
  | nodeAdded (nodeId : Text)
  | nodeRemoved (nodeId : Text)
  | nodeChanged (nodeId : Text)
  | styleChanged (nodeId : Text)
  | layoutChanged (nodeId : Text)
  | runtimeTaskQueued (taskId : Text)
  | microtaskQueued (taskId : Text)
  | navigationStarted (url : Text)
  | navigationCompleted (url : Text)
  | requestStarted (requestId : Text)
  | requestCompleted (requestId : Text)
  | requestFailed (requestId error : Text)
  | inputDispatched (event : Text)
  | storageChanged (origin key : Text)
  | permissionChanged (origin permission : Text)
  | agentStateChanged (sessionId state : Text)
  | dialogOpened (nodeId : Text)
  | dialogClosed (nodeId : Text)
  | focusChanged (nodeId : Option Text)
  | downloadStarted (downloadId : Text)
  | permissionRequested (permission : Text)
  | credentialRequired (origin : Text)
  | transactionDetected (category : Text)
  | challengeObserved (provider kind url : Text)
  | challengeCleared (provider : Text)
  | profileInconsistency (fingerprintId kind declared : Text)

/-- How many events were lost before a drain. -/
structure StreamError where
  dropped : UInt64
  deriving DecidableEq

/-- The events of a drain, and how many were lost before. -/
structure StreamBatch where
  events : List ChangeEvent
  dropped : UInt64

/-- The events that wait to be drained. -/
structure ChangeStream where
  capacity : Nat
  dropped : UInt64
  events : List ChangeEvent

namespace ChangeStream

/-- An empty stream with room for one event at least. -/
def bounded (capacity : Nat) : ChangeStream := ⟨max capacity 1, 0, []⟩

/-- `pop_front`, counted, when the stream is full. The counter wraps around, as a release build
does. -/
def makeRoom (s : ChangeStream) : ChangeStream :=
  if s.events.length = s.capacity then
    { s with events := s.events.drop 1, dropped := s.dropped + 1 }
  else s

/-- Adds an event; the oldest is dropped when there is no room. -/
def publish (s : ChangeStream) (event : ChangeEvent) : ChangeStream :=
  let s := s.makeRoom
  { s with events := s.events ++ [event] }

/-- All events that wait, or the number of those that were lost. -/
def drain (s : ChangeStream) : Except StreamError (List ChangeEvent) × ChangeStream :=
  -- the events leave the stream in both cases
  if s.dropped = 0 then (.ok s.events, { s with events := [] })
  else (.error ⟨s.dropped⟩, { s with events := [], dropped := 0 })

/-- All events that wait, and the number of those that were lost. -/
def drainWithLoss (s : ChangeStream) : StreamBatch × ChangeStream :=
  (⟨s.events, s.dropped⟩, { s with events := [], dropped := 0 })

end ChangeStream

/-! ## Histories -/

/-- A call. -/
inductive Op where
  | publish (event : ChangeEvent)
  | drain
  | drainWithLoss

/-- A stream, with the number of events published, of those delivered in results and batches, of
those reported as dropped in errors and batches, and the number of drains that failed. -/
structure History where
  stream : ChangeStream
  published : Nat
  delivered : Nat
  reported : Nat
  failedDrains : Nat

namespace History

/-- Nothing was published. -/
def start (capacity : Nat) : History := ⟨.bounded capacity, 0, 0, 0, 0⟩

/-- Counts what is published. -/
def publish (h : History) (event : ChangeEvent) : History :=
  { h with stream := h.stream.publish event, published := h.published + 1 }

/-- Counts what is delivered, what is told as lost, and what a failing drain takes with it. -/
def drain (h : History) : History :=
  match h.stream.drain with
  | (.ok events, stream) => { h with stream, delivered := h.delivered + events.length }
  | (.error error, stream) =>
      { h with
        stream
        reported := h.reported + error.dropped.toNat
        failedDrains := h.failedDrains + 1 }

/-- Counts what is delivered and what is told as lost. -/
def drainWithLoss (h : History) : History :=
  let (batch, stream) := h.stream.drainWithLoss
  { h with
    stream
    delivered := h.delivered + batch.events.length
    reported := h.reported + batch.dropped.toNat }

/-- A call, and what it adds to the counts. -/
def step (h : History) : Op → History
  | .publish event => h.publish event
  | .drain => h.drain
  | .drainWithLoss => h.drainWithLoss

/-- The runs in which every publish satisfies a condition. -/
def machine (Publishes : History → Prop) : Machine History Op where
  step := step
  Allowed h op := ∀ event, op = .publish event → Publishes h

/-- The counter of dropped events does not overflow. -/
def InRange (h : History) : Prop :=
  h.stream.events.length = h.stream.capacity → h.stream.dropped.toNat + 1 < 2 ^ 64

/-- Every event is delivered, reported as dropped, retained, or dropped and not yet reported. -/
def Counted (h : History) : Prop :=
  h.published = h.delivered + h.reported + h.stream.events.length + h.stream.dropped.toNat

/-! ## The invariant -/

/-- A stream that dropped events is full, so a failing drain discards as many events as fit. -/
structure Sound (h : History) : Prop where
  capacity_pos : 0 < h.stream.capacity
  bounded : h.stream.events.length ≤ h.stream.capacity
  full : h.stream.dropped ≠ 0 → h.stream.events.length = h.stream.capacity
  balance : h.published = h.delivered + h.reported + h.stream.events.length +
    h.stream.dropped.toNat + h.stream.capacity * h.failedDrains

variable {h : History}

theorem sound_start (capacity : Nat) : (start capacity).Sound where
  capacity_pos := Nat.lt_of_lt_of_le Nat.one_pos (Nat.le_max_right capacity 1)
  bounded := Nat.zero_le _
  full hdropped := absurd rfl hdropped
  balance := rfl

/-- An event that is published keeps the account. -/
theorem Sound.publish (hs : h.Sound) (hrange : h.InRange) (event : ChangeEvent) :
    (h.publish event).Sound := by
  have hpos := hs.capacity_pos
  have hbound := hs.bounded
  have hbalance := hs.balance
  by_cases hfull : h.stream.events.length = h.stream.capacity
  · have hroom : h.stream.makeRoom =
        { h.stream with events := h.stream.events.drop 1, dropped := h.stream.dropped + 1 } :=
      if_pos hfull
    have hlength : (h.stream.events.drop 1 ++ [event]).length = h.stream.capacity := by
      rw [List.length_append, List.length_drop, List.length_singleton]
      omega
    have hdropped : (h.stream.dropped + 1).toNat = h.stream.dropped.toNat + 1 := by
      have hlt := hrange hfull
      rw [UInt64.toNat_add, UInt64.toNat_one, Nat.mod_eq_of_lt hlt]
    rw [History.publish, ChangeStream.publish, hroom]
    constructor
    case capacity_pos => exact hpos
    case bounded => exact hlength.le
    case full => exact fun _ => hlength
    case balance =>
      dsimp only
      rw [hlength, hdropped]
      omega
  · have hroom : h.stream.makeRoom = h.stream := if_neg hfull
    have hlength : (h.stream.events ++ [event]).length = h.stream.events.length + 1 := by
      rw [List.length_append, List.length_singleton]
    rw [History.publish, ChangeStream.publish, hroom]
    constructor
    case capacity_pos => exact hpos
    case bounded =>
      dsimp only
      omega
    case full => exact fun hdropped => absurd (hs.full hdropped) hfull
    case balance =>
      dsimp only
      omega

/-- So does a drain. -/
theorem Sound.drain (hs : h.Sound) : h.drain.Sound := by
  have hbalance := hs.balance
  rw [History.drain, ChangeStream.drain]
  split_ifs with hdropped
  · constructor
    case capacity_pos => exact hs.capacity_pos
    case bounded => exact Nat.zero_le _
    case full => exact fun hne => absurd hdropped hne
    case balance =>
      dsimp only
      rw [List.length_nil]
      omega
  · have hfull := hs.full hdropped
    constructor
    case capacity_pos => exact hs.capacity_pos
    case bounded => exact Nat.zero_le _
    case full => exact fun hne => absurd rfl hne
    case balance =>
      dsimp only
      rw [List.length_nil, UInt64.toNat_zero, Nat.mul_succ]
      omega

theorem Sound.drainWithLoss (hs : h.Sound) : h.drainWithLoss.Sound where
  capacity_pos := hs.capacity_pos
  bounded := Nat.zero_le _
  full hne := absurd rfl hne
  balance := by
    have hbalance := hs.balance
    dsimp only [History.drainWithLoss, ChangeStream.drainWithLoss]
    rw [List.length_nil, UInt64.toNat_zero]
    omega

theorem Sound.step (hs : h.Sound) {op : Op} (hallowed : (machine InRange).Allowed h op) :
    (h.step op).Sound := by
  cases op with
  | publish event => exact hs.publish (hallowed event rfl) event
  | drain => exact hs.drain
  | drainWithLoss => exact hs.drainWithLoss

theorem reaches_sound {capacity : Nat} (hrun : (machine InRange).Reaches (start capacity) h) :
    h.Sound :=
  hrun.invariant (sound_start capacity) fun _ _ hs hallowed => hs.step hallowed

/-- An event is in no count only after a drain that failed. -/
theorem Sound.counted_iff (hs : h.Sound) : h.Counted ↔ h.failedDrains = 0 := by
  have hbalance := hs.balance
  constructor
  · intro hcounted
    have hdiscarded : h.stream.capacity * h.failedDrains = 0 := by
      rw [Counted] at hcounted
      omega
    exact (Nat.mul_eq_zero.mp hdiscarded).resolve_left hs.capacity_pos.ne'
  · intro hnone
    rw [hnone, Nat.mul_zero] at hbalance
    exact hbalance

/-- In every run whose counter of dropped events does not overflow, the events that are in no count
are those discarded by the drains that failed, each of which discarded a full stream. -/
theorem reaches_balance {capacity : Nat} (hrun : (machine InRange).Reaches (start capacity) h) :
    h.published = h.delivered + h.reported + h.stream.events.length + h.stream.dropped.toNat +
        h.stream.capacity * h.failedDrains ∧
      (h.Counted ↔ h.failedDrains = 0) :=
  ⟨(reaches_sound hrun).balance, (reaches_sound hrun).counted_iff⟩

/-! ## A drain that fails -/

/-- An event. -/
def added : ChangeEvent := .nodeAdded "a"

/-- Two events, of which the stream keeps one, and a drain. -/
def overflow : List Op := [.publish added, .publish added, .drain]

theorem overflow_reached (Publishes : History → Prop) (hfirst : Publishes (start 1))
    (hsecond : Publishes ((start 1).publish added)) :
    (machine Publishes).Reaches (start 1) ⟨⟨1, 0, []⟩, 2, 0, 1, 1⟩ := by
  have hallowed : (machine Publishes).AllowedRun (start 1) overflow :=
    ⟨fun _ _ => hfirst, fun _ _ => hsecond, fun _ hop => (nomatch hop), trivial⟩
  exact Machine.Reaches.run .refl hallowed

/-- One of the two events was reported, the other is in no count. -/
theorem overflow_not_counted :
    ¬ ∀ (capacity : Nat) (h : History),
      (machine fun _ => True).Reaches (start capacity) h → h.Counted := by
  intro hall
  have hcounted := hall 1 _ (overflow_reached (fun _ => True) trivial trivial)
  exact absurd (show 2 = 0 + 1 + 0 + 0 from hcounted) (by decide)

theorem overflow_balance :
    2 = 0 + 1 + 0 + 0 + 1 * 1 ∧
      ((⟨⟨1, 0, []⟩, 2, 0, 1, 1⟩ : History).Counted ↔ 1 = 0) :=
  reaches_balance (overflow_reached InRange (fun hfull => (nomatch hfull)) fun _ => by decide)

end History

end BrowsAI.EventObserver
