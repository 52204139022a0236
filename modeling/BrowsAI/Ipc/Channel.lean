import BrowsAI.Ipc.Router
import BrowsAI.Library.Runs
import Mathlib.Data.List.Perm.Basic

/-!
# Channels between processes

`IpcChannel` of `crates/ipc`, a bounded queue that numbers the messages it accepts. A `History` is
a channel with the messages that it accepted, delivered, and cancelled since the last reconnect.
Nothing is lost, doubled, or reordered. The numbers increase until the counter wraps around.
-/

namespace BrowsAI.Ipc

open Profiles

/-- The messages that wait, and the next number. -/
structure IpcChannel where
  capacity : Nat
  nextSequence : UInt64
  queue : List IpcEnvelope

namespace IpcChannel

/-- An empty channel with room for one message at least. -/
def bounded (capacity : Nat) : IpcChannel := ⟨max capacity 1, 0, []⟩

/-- Numbers a message and queues it, if there is room. -/
def send (c : IpcChannel) (message : IpcEnvelope) : Except IpcError Unit × IpcChannel :=
  if c.capacity ≤ c.queue.length then (.error .backpressure, c)
  else
    let message := { message with sequence := c.nextSequence }
    -- the counter wraps around, as a release build does
    (.ok (), { c with nextSequence := c.nextSequence + 1, queue := c.queue ++ [message] })

/-- The first message that waits. -/
def receive (c : IpcChannel) : Option IpcEnvelope × IpcChannel :=
  match c.queue with
  | [] => (none, c)
  | message :: queue => (some message, { c with queue })

/-- Drops the messages of a request, and counts them. -/
def cancel (c : IpcChannel) (requestId : Uuid) : Nat × IpcChannel :=
  let queue := c.queue.filter fun message => message.requestId ≠ requestId
  (c.queue.length - queue.length, { c with queue })

/-- Drops everything and counts from zero. -/
def reconnect (c : IpcChannel) : IpcChannel := { c with nextSequence := 0, queue := [] }

/-- A refused message changes nothing. -/
theorem send_error {c : IpcChannel} {message : IpcEnvelope} {error : IpcError}
    (h : (c.send message).1 = .error error) : (c.send message).2 = c := by
  by_cases hfull : c.capacity ≤ c.queue.length
  · rw [send, if_pos hfull]
  · rw [send, if_neg hfull] at h
    cases h

end IpcChannel

/-! ## Histories -/

/-- A call. -/
inductive Op where
  | send (message : IpcEnvelope)
  | receive
  | cancel (requestId : Uuid)
  | reconnect

/-- The channel, and the messages that were accepted, received and cancelled. -/
structure History where
  channel : IpcChannel
  accepted : List IpcEnvelope
  received : List IpcEnvelope
  cancelled : List IpcEnvelope

namespace History

/-- No message yet. -/
def start (capacity : Nat) : History := ⟨.bounded capacity, [], [], []⟩

/-- An accepted message has the number that the channel gave it. -/
def send (h : History) (message : IpcEnvelope) : History :=
  match h.channel.send message with
  | (.ok (), channel) =>
      { h with
        channel
        accepted := h.accepted ++ [{ message with sequence := h.channel.nextSequence }] }
  | (.error _, channel) => { h with channel }

/-- A message that is received is noted. -/
def receive (h : History) : History :=
  match h.channel.receive with
  | (some message, channel) => { h with channel, received := h.received ++ [message] }
  | (none, channel) => { h with channel }

/-- So are those that are cancelled. -/
def cancel (h : History) (requestId : Uuid) : History :=
  { h with
    channel := (h.channel.cancel requestId).2
    cancelled := h.cancelled ++ h.channel.queue.filter fun message =>
      message.requestId = requestId }

/-- A reconnect begins a new history. -/
def reconnect (h : History) : History := ⟨h.channel.reconnect, [], [], []⟩

/-- A call, and what it adds to the history. -/
def step (h : History) : Op → History
  | .send message => h.send message
  | .receive => h.receive
  | .cancel requestId => h.cancel requestId
  | .reconnect => h.reconnect

/-- The runs in which every sent message satisfies a condition. -/
def machine (Sends : History → IpcEnvelope → Prop) : Machine History Op where
  step := step
  Allowed h op := ∀ message, op = .send message → Sends h message

/-- Fewer than 2^64 messages were accepted so far. -/
def InRange (h : History) (_ : IpcEnvelope) : Prop := h.accepted.length < 2 ^ 64

/-- The received messages are the accepted ones without the cancelled and the queued ones, in the
order in which they were sent, with increasing numbers. -/
structure Delivered (h : History) : Prop where
  complete : (h.received ++ h.channel.queue ++ h.cancelled).Perm h.accepted
  ordered : (h.received ++ h.channel.queue).Sublist h.accepted
  increasing : (h.received.map IpcEnvelope.sequence).Pairwise (· < ·)

/-! ## The invariant -/

/-- The invariant: every accepted message is received, waits or was cancelled, in the order of the
numbers. -/
structure Sound (h : History) : Prop where
  complete : (h.received ++ h.channel.queue ++ h.cancelled).Perm h.accepted
  ordered : (h.received ++ h.channel.queue).Sublist h.accepted
  numbered : h.accepted.map IpcEnvelope.sequence = (List.range h.accepted.length).map UInt64.ofNat
  next : h.channel.nextSequence = UInt64.ofNat h.accepted.length
  range : h.accepted.length ≤ 2 ^ 64

variable {h : History}

theorem sound_empty {c : IpcChannel} (hqueue : c.queue = []) (hnext : c.nextSequence = 0) :
    Sound ⟨c, [], [], []⟩ where
  complete := by rw [hqueue]; exact .refl []
  ordered := by rw [hqueue]; exact .refl []
  numbered := rfl
  next := hnext
  range := Nat.zero_le _

/-- A message that is sent keeps the invariant. -/
theorem Sound.send (hs : h.Sound) {message : IpcEnvelope} (hrange : h.InRange message) :
    (h.send message).Sound := by
  rw [History.send, IpcChannel.send]
  split_ifs with hfull
  · exact hs
  · constructor
    case complete =>
      refine List.Perm.trans ?_ (hs.complete.append_right [_])
      simp only [List.append_assoc]
      exact (List.perm_append_comm.append_left _).append_left _
    case ordered =>
      dsimp only
      rw [← List.append_assoc]
      exact hs.ordered.append (.refl _)
    case numbered =>
      dsimp only
      rw [List.map_append, hs.numbered, List.length_append, List.length_singleton, List.range_succ,
        List.map_append, List.map_singleton, List.map_singleton, hs.next]
    case next =>
      dsimp only
      rw [hs.next, List.length_append, List.length_singleton, UInt64.ofNat_add]
      rfl
    case range =>
      dsimp only
      rw [List.length_append, List.length_singleton]
      exact hrange

theorem Sound.receive (hs : h.Sound) : h.receive.Sound := by
  rw [History.receive, IpcChannel.receive]
  cases hqueue : h.channel.queue with
  | nil => exact hs
  | cons message queue =>
      have hsplit : h.received ++ h.channel.queue = h.received ++ [message] ++ queue := by
        rw [hqueue, List.append_assoc, List.singleton_append]
      exact ⟨hsplit ▸ hs.complete, hsplit ▸ hs.ordered, hs.numbered, hs.next, hs.range⟩

/-- So does a request that is cancelled. -/
theorem Sound.cancel (hs : h.Sound) (requestId : Uuid) : (h.cancel requestId).Sound where
  complete := by
    have hsplit := List.filter_append_perm
      (fun message : IpcEnvelope => decide (message.requestId ≠ requestId)) h.channel.queue
    have hrest : (h.channel.queue.filter fun message => !decide (message.requestId ≠ requestId)) =
        h.channel.queue.filter fun message => message.requestId = requestId :=
      List.filter_congr fun message _ => by simp
    rw [hrest] at hsplit
    have hkept := (hsplit.append_left h.received).append_right h.cancelled
    rw [← List.append_assoc, List.append_assoc] at hkept
    exact ((List.perm_append_comm.append_left _).trans hkept).trans hs.complete
  ordered := ((List.filter_sublist).append_left _).trans hs.ordered
  numbered := hs.numbered
  next := hs.next
  range := hs.range

theorem Sound.step (hs : h.Sound) {op : Op} (hallowed : (machine InRange).Allowed h op) :
    (h.step op).Sound := by
  cases op with
  | send message => exact hs.send (hallowed message rfl)
  | receive => exact hs.receive
  | cancel requestId => exact hs.cancel requestId
  | reconnect => exact sound_empty rfl rfl

/-- Up to 2^64 numbers increase. -/
theorem Sound.increasing (hs : h.Sound) :
    (h.accepted.map IpcEnvelope.sequence).Pairwise (· < ·) := by
  rw [hs.numbered, List.pairwise_map]
  refine List.pairwise_lt_range.imp_of_mem fun {first second} hfirst hsecond hlt => ?_
  have hrange := hs.range
  rw [List.mem_range] at hfirst hsecond
  rw [UInt64.lt_iff_toNat_lt, UInt64.toNat_ofNat', UInt64.toNat_ofNat', Nat.mod_eq_of_lt (by omega),
    Nat.mod_eq_of_lt (by omega)]
  exact hlt

theorem Sound.delivered (hs : h.Sound) : h.Delivered where
  complete := hs.complete
  ordered := hs.ordered
  increasing := hs.increasing.sublist
    (((List.sublist_append_left _ _).trans hs.ordered).map IpcEnvelope.sequence)

/-- In every run that sends fewer than 2^64 messages between two reconnects, nothing is lost, doubled,
or reordered. -/
theorem reaches_delivered {capacity : Nat} (hrun : (machine InRange).Reaches (start capacity) h) :
    h.Delivered := by
  have hs : h.Sound := hrun.invariant (sound_empty rfl rfl) fun _ _ hs hallowed => hs.step hallowed
  exact hs.delivered

/-! ## A counter that wraps around -/

/-- A message. -/
def ping : IpcEnvelope where
  protocolVersion := 1
  sequence := 0
  requestId := 1
  source := .host
  destination := .audit
  workspace := "workspace"
  profile := "profile"
  origin := none
  capability := none
  payload := .handshake 1

/-- The first messages that are sent. -/
def pings (n : Nat) : List IpcEnvelope :=
  (List.range n).map fun i => { ping with sequence := UInt64.ofNat i }

/-- Every message is received before the next is sent. -/
theorem pings_reached (n : Nat) :
    (machine fun _ _ => True).Reaches (start 1)
      ⟨⟨1, UInt64.ofNat n, []⟩, pings n, pings n, []⟩ := by
  induction n with
  | zero => exact .refl
  | succ n ih =>
      have hround := (ih.step (.send ping) fun _ _ => trivial).step .receive fun _ _ => trivial
      have hpings : pings (n + 1) = pings n ++ [{ ping with sequence := UInt64.ofNat n }] := by
        rw [pings, List.range_succ, List.map_append]
        rfl
      rw [hpings, UInt64.ofNat_add]
      exact hround

/-- The numbers of the first messages. -/
theorem sequence_lt_of_pings (n first second : Nat) (hlt : first < second) (hn : second < n)
    (hincreasing : ((pings n).map IpcEnvelope.sequence).Pairwise (· < ·)) :
    UInt64.ofNat first < UInt64.ofNat second := by
  rw [pings, List.map_map, List.pairwise_map, List.pairwise_iff_getElem] at hincreasing
  have hpair := hincreasing first second (by simpa using hlt.trans hn) (by simpa using hn) hlt
  simpa using hpair

/-- After 2^64 messages the numbers begin again. -/
theorem not_delivered_always :
    ¬ ∀ (capacity : Nat) (h : History),
      (machine fun _ _ => True).Reaches (start capacity) h → h.Delivered := by
  intro hall
  have hlt := sequence_lt_of_pings (2 ^ 64 + 1) 0 (2 ^ 64) (by omega) (by omega)
    (hall 1 _ (pings_reached (2 ^ 64 + 1))).increasing
  exact absurd hlt (by decide)

end History

end BrowsAI.Ipc
