import BrowsAI.Library.Json
import BrowsAI.Recovery.FileStore

/-!
# Checkpoints on disk

The JSON text of an envelope, and SipHash-1-3, which the standard library uses for its default
hasher. Together they are a `Codec` that reads back the checkpoints that it is given.
-/

namespace BrowsAI.Recovery

open Utf8 Profiles

/-! ## The default hasher -/

/-- The four words of the hash. -/
structure SipState where
  v0 : UInt64
  v1 : UInt64
  v2 : UInt64
  v3 : UInt64

namespace SipState

/-- The state of a hasher whose keys are zero. -/
def zeroKeys : SipState :=
  ⟨0x736f6d6570736575, 0x646f72616e646f6d, 0x6c7967656e657261, 0x7465646279746573⟩

/-- The word with its bits rotated to the left. -/
def rotate (word amount : UInt64) : UInt64 := (word <<< amount) ||| (word >>> (64 - amount))

/-- A round of the hash. -/
def round (s : SipState) : SipState :=
  let v0 := s.v0 + s.v1
  let v1 := rotate s.v1 13 ^^^ v0
  let v0 := rotate v0 32
  let v2 := s.v2 + s.v3
  let v3 := rotate s.v3 16 ^^^ v2
  let v0 := v0 + v3
  let v3 := rotate v3 21 ^^^ v0
  let v2 := v2 + v1
  let v1 := rotate v1 17 ^^^ v2
  ⟨v0, v1, rotate v2 32, v3⟩

/-- Eight bytes, with one round. -/
def absorb (s : SipState) (word : UInt64) : SipState :=
  let s := round { s with v3 := s.v3 ^^^ word }
  { s with v0 := s.v0 ^^^ word }

/-- The hash, behind three rounds. -/
def finish (s : SipState) : UInt64 :=
  let s := { s with v2 := s.v2 ^^^ 0xff }.round.round.round
  s.v0 ^^^ s.v1 ^^^ s.v2 ^^^ s.v3

end SipState

/-- The number with these bytes, the lowest first. -/
def littleEndian : Bytes → UInt64
  | [] => 0
  | byte :: bytes => byte.toUInt64 + 256 * littleEndian bytes

/-- The state after so many words of eight bytes. -/
def absorbWords : Nat → SipState → Bytes → SipState
  | 0, s, _ => s
  | count + 1, s, bytes =>
      absorbWords count (s.absorb (littleEndian (bytes.take 8))) (bytes.drop 8)

/-- The hash of bytes with zero keys. -/
def sipHash (bytes : Bytes) : UInt64 :=
  let count := bytes.length / 8
  let last := littleEndian (bytes.drop (8 * count)) + (UInt64.ofNat bytes.length <<< 56)
  ((absorbWords count .zeroKeys bytes).absorb last).finish

/-- The hash of a vector of bytes, whose length goes before it. -/
def defaultHash (bytes : Bytes) : UInt64 :=
  sipHash ((List.range 8).map (fun i => UInt8.ofNat (bytes.length / 256 ^ i)) ++ bytes)

example : sipHash [104, 101, 108, 108, 111, 32, 119, 111, 114, 108, 100] =
    12804282289674824842 := by
  decide

/-! ## JSON text -/

namespace Codec

open JsonPrint (quote object array orNull)

/-- The JSON of a resource. -/
def resource (resource : RecoveryResource) : Text :=
  object [("id", quote resource.id), ("generation", ofNat resource.generation.toNat),
    ("metadata", object (resource.metadata.toList.map fun (key, value) =>
      (key, quote value))),
    ("opaque_reference", orNull (resource.opaqueReference.map quote))]

/-- The JSON of a session. -/
def state (state : SessionRecoveryState) : Text :=
  object [("profiles", array (state.profiles.map resource)),
    ("tabs", array (state.tabs.map resource)),
    ("cookies", array (state.cookies.map resource)),
    ("storage", array (state.storage.map resource)),
    ("downloads", array (state.downloads.map resource)),
    ("workspaces", array (state.workspaces.map resource)),
    ("agent_sessions", array (state.agentSessions.map resource)),
    ("locks", array (state.locks.map resource)),
    ("pending_confirmations", array (state.pendingConfirmations.map resource))]

/-- The JSON of a checkpoint. -/
def checkpoint (checkpoint : SessionCheckpoint) : Text :=
  object [("id", quote (hyphenated checkpoint.id)),
    ("schema_version", ofNat checkpoint.schemaVersion.toNat),
    ("profiles", array (checkpoint.profiles.map quote)),
    ("windows", array (checkpoint.windows.map quote)),
    ("tabs", array (checkpoint.tabs.map quote)),
    ("locks", array (checkpoint.locks.map quote)),
    ("pending_confirmations", array (checkpoint.pendingConfirmations.map quote)),
    ("state", state checkpoint.state)]

/-- The UTF-8 encoding of a text. -/
def bytes (t : Text) : Bytes := t.flatMap String.utf8EncodeChar

/-- The bytes of an envelope. -/
def envelopeBytes (envelope : CheckpointEnvelope) : Bytes :=
  bytes (object [("checkpoint", checkpoint envelope.checkpoint),
    ("checksum", ofNat envelope.checksum.toNat)])

/-- The envelope of a checkpoint with the default hasher. -/
def printedEnvelope (c : SessionCheckpoint) : CheckpointEnvelope :=
  ⟨c, defaultHash (bytes (checkpoint c))⟩

/-- The printer above, and a reader of the texts of some checkpoints. -/
def printed (known : List SessionCheckpoint) : Codec where
  checkpointToVec c := bytes (checkpoint c)
  hash := defaultHash
  toVec envelope := some (envelopeBytes envelope)
  fromSlice slice := (known.find? fun c => slice = envelopeBytes (printedEnvelope c)).map
    printedEnvelope

/-- A checkpoint whose text no other one has is read back. -/
theorem printed_reads_back {known : List SessionCheckpoint} {c : SessionCheckpoint} (hc : c ∈ known)
    (hother : ∀ other ∈ known, other = c ∨
      envelopeBytes (printedEnvelope c) ≠ envelopeBytes (printedEnvelope other)) :
    (printed known).ReadsBack c := by
  refine ⟨envelopeBytes (printedEnvelope c), rfl, ?_⟩
  have hsome : (known.find? fun other =>
      envelopeBytes (printedEnvelope c) = envelopeBytes (printedEnvelope other)).isSome :=
    List.find?_isSome.mpr ⟨c, hc, decide_eq_true rfl⟩
  obtain ⟨other, hfound⟩ := Option.isSome_iff_exists.mp hsome
  have hequal := List.find?_some hfound
  have hsame : other = c := (hother other (List.mem_of_find?_eq_some hfound)).resolve_right
    (not_not.mpr (of_decide_eq_true hequal))
  show (known.find? fun other => decide (envelopeBytes (printedEnvelope c) =
    envelopeBytes (printedEnvelope other))).map printedEnvelope = some (printedEnvelope c)
  rw [hfound, hsame, Option.map_some]

end Codec

end BrowsAI.Recovery
