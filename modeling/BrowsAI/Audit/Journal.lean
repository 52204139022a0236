import BrowsAI.Library.HashChain
import BrowsAI.Library.Runs
import BrowsAI.Recovery.Printed

/-!
# The audit journal

`AuditJournal` of `crates/audit`: records that carry the integrity value of the record before, and
the hash of their own JSON text. The hash of a vector of bytes, the text of an `f32`, and the reader
of JSON text are parameters. An `f32` that is not finite is written as `null`, which is read as no
number, so a journal with one is not loaded again.
-/

namespace BrowsAI.Audit

open Utf8
open Recovery (Bytes)
open JsonPrint (quote object array orNull)

/-- What an action changes. -/
inductive Consequence where
  | read | navigate | localWrite | remoteWrite | send | publish | delete | purchase | transfer
  | authenticate | permissionChange | securityChange | unknown
  deriving DecidableEq

/-- Whether and where it can be undone. -/
inductive Reversibility where
  | localReversible | remoteReversible | remoteIrreversible | unknown
  deriving DecidableEq

/-- What a policy says of an action. -/
inductive PolicyDecision where
  | allow | requireConfirmation | deny
  deriving DecidableEq

/-- Where an action comes from, and what became of it. -/
structure ActionProvenance where
  actionId : Text
  agentIntent : Text
  targetReference : Text
  resolvedNodeId : Option Text
  nativeEventCount : UInt32
  consequence : Consequence
  reversibility : Reversibility
  policyDecision : PolicyDecision
  capabilityReference : Option Text
  auditId : Option Text
  actorId : Option Text
  userId : Option Text
  deriving DecidableEq

/-- The confidence is an `f32`. -/
structure TransactionClassification (F : Type) where
  consequence : Consequence
  reversibility : Reversibility
  decision : PolicyDecision
  reason : Text
  confidence : F
  deriving DecidableEq

/-- What the journal can tell. -/
inductive AuditEvent (F : Type) where
  | action (provenance : ActionProvenance) (classification : TransactionClassification F)
      (parameterNames : List Text) (nativeEventCount : UInt32)
  | capabilityUsed (capabilityReference scope : Text)
  | permissionDecision (permission origin decision : Text)
  | secretBrokerOperation (opaqueReference operation : Text)
  | navigation (url : Text)
  | download (opaqueReference : Text)
  | upload (opaqueReference : Text)
  | recovery (component outcome : Text)
  deriving DecidableEq

/-- An event with its place in the chain. -/
structure AuditRecord (F : Type) where
  sequence : UInt64
  auditId : Text
  event : AuditEvent F
  previousIntegrity : UInt64
  integrity : UInt64
  deriving DecidableEq

/-- The records, oldest first, and the number of the next one. -/
structure AuditJournal (F : Type) where
  records : List (AuditRecord F)
  nextSequence : UInt64
  deriving DecidableEq

/-- Why a journal is not read. -/
inductive AuditError where
  | serialization | integrity
  deriving DecidableEq

/-! ## JSON text -/

/-- The text that `serde_json` writes for an `f32`, if it is finite. -/
class FloatText (F : Type) where
  toText : F → Option Text

namespace Json

/-- The name of a consequence in JSON. -/
def consequence : Consequence → Text
  | .read => quote "Read"
  | .navigate => quote "Navigate"
  | .localWrite => quote "LocalWrite"
  | .remoteWrite => quote "RemoteWrite"
  | .send => quote "Send"
  | .publish => quote "Publish"
  | .delete => quote "Delete"
  | .purchase => quote "Purchase"
  | .transfer => quote "Transfer"
  | .authenticate => quote "Authenticate"
  | .permissionChange => quote "PermissionChange"
  | .securityChange => quote "SecurityChange"
  | .unknown => quote "Unknown"

/-- The name of a reversibility in JSON. -/
def reversibility : Reversibility → Text
  | .localReversible => quote "LocalReversible"
  | .remoteReversible => quote "RemoteReversible"
  | .remoteIrreversible => quote "RemoteIrreversible"
  | .unknown => quote "Unknown"

/-- The name of a decision in JSON. -/
def decision : PolicyDecision → Text
  | .allow => quote "Allow"
  | .requireConfirmation => quote "RequireConfirmation"
  | .deny => quote "Deny"

/-- A text, or null. -/
def optional (text : Option Text) : Text := orNull (text.map quote)

/-- The JSON of a provenance. -/
def provenance (p : ActionProvenance) : Text :=
  object [("action_id", quote p.actionId), ("agent_intent", quote p.agentIntent),
    ("target_reference", quote p.targetReference),
    ("resolved_node_id", optional p.resolvedNodeId),
    ("native_event_count", ofNat p.nativeEventCount.toNat),
    ("consequence", consequence p.consequence), ("reversibility", reversibility p.reversibility),
    ("policy_decision", decision p.policyDecision),
    ("capability_reference", optional p.capabilityReference), ("audit_id", optional p.auditId),
    ("actor_id", optional p.actorId), ("user_id", optional p.userId)]

variable {F : Type} [FloatText F]

/-- The JSON of a classification; the confidence is null when it is not finite. -/
def classification (c : TransactionClassification F) : Text :=
  object [("consequence", consequence c.consequence),
    ("reversibility", reversibility c.reversibility), ("decision", decision c.decision),
    ("reason", quote c.reason), ("confidence", orNull (FloatText.toText c.confidence))]

/-- The JSON of an event, under its name. -/
def event : AuditEvent F → Text
  | .action p c parameterNames nativeEventCount =>
      object [("Action", object [("provenance", provenance p), ("classification", classification c),
        ("parameter_names", array (parameterNames.map quote)),
        ("native_event_count", ofNat nativeEventCount.toNat)])]
  | .capabilityUsed capabilityReference scope =>
      object [("CapabilityUsed", object [("capability_reference", quote capabilityReference),
        ("scope", quote scope)])]
  | .permissionDecision permission origin decision =>
      object [("PermissionDecision", object [("permission", quote permission),
        ("origin", quote origin), ("decision", quote decision)])]
  | .secretBrokerOperation opaqueReference operation =>
      object [("SecretBrokerOperation", object [("opaque_reference", quote opaqueReference),
        ("operation", quote operation)])]
  | .navigation url => object [("Navigation", object [("url", quote url)])]
  | .download opaqueReference =>
      object [("Download", object [("opaque_reference", quote opaqueReference)])]
  | .upload opaqueReference =>
      object [("Upload", object [("opaque_reference", quote opaqueReference)])]
  | .recovery component outcome =>
      object [("Recovery", object [("component", quote component), ("outcome", quote outcome)])]

/-- The JSON of a record. -/
def record (r : AuditRecord F) : Text :=
  object [("sequence", ofNat r.sequence.toNat), ("audit_id", quote r.auditId),
    ("event", event r.event), ("previous_integrity", ofNat r.previousIntegrity.toNat),
    ("integrity", ofNat r.integrity.toNat)]

end Json

/-- `serde_json::from_str` at `AuditJournal`. -/
structure Json (F : Type) where
  fromStr : Text → Option (AuditJournal F)

/-- The confidence in the event, if it has one, is finite. -/
def AuditEvent.isFinite {F : Type} [FloatText F] : AuditEvent F → Bool
  | .action _ classification _ _ => (FloatText.toText classification.confidence).isSome
  | _ => true

/-! ## The journal -/

section Integrity

variable {F : Type} [FloatText F]

/-- The tuple that `integrity` hashes, as `serde_json` writes it. -/
def tuple (record : AuditRecord F) : Bytes :=
  Recovery.Codec.bytes (array [ofNat record.sequence.toNat, quote record.auditId,
    Json.event record.event, ofNat record.previousIntegrity.toNat])

/-- The hash of the record without its own. -/
def integrity (hash : Bytes → UInt64) (record : AuditRecord F) : UInt64 := hash (tuple record)

end Integrity

namespace AuditJournal

variable {F : Type}

/-- The journal without records. -/
def empty : AuditJournal F := ⟨[], 0⟩

/-- The entries of the journal without their numbers and hashes. -/
def entries (j : AuditJournal F) : List (Text × AuditEvent F) :=
  j.records.map fun record => (record.auditId, record.event)

variable [FloatText F]

/-- Adds an event, chained to the last record. -/
def append (hash : Bytes → UInt64) (j : AuditJournal F) (auditId : Text) (event : AuditEvent F) :
    AuditJournal F :=
  let previousIntegrity := (j.records.getLast?.map AuditRecord.integrity).getD 0
  let record : AuditRecord F := ⟨j.nextSequence, auditId, event, previousIntegrity, 0⟩
  let record := { record with integrity := integrity hash record }
  ⟨j.records ++ [record], j.nextSequence + 1⟩

/-- The loop of `retain_last`. -/
def relink (hash : Bytes → UInt64) :
    UInt64 → Nat → List (AuditRecord F) → List (AuditRecord F)
  | _, _, [] => []
  | previous, sequence, record :: records =>
      let record :=
        { record with sequence := UInt64.ofNat sequence, previousIntegrity := previous }
      let record := { record with integrity := integrity hash record }
      record :: relink hash record.integrity (sequence + 1) records

/-- Keeps the last records, numbered and chained anew from zero, and counts those that go. -/
def retainLast (hash : Bytes → UInt64) (j : AuditJournal F) (maxRecords : Nat) :
    Nat × AuditJournal F :=
  let removed := j.records.length - maxRecords
  if removed = 0 then (0, j)
  else
    let records := relink hash 0 0 (j.records.drop removed)
    (removed, ⟨records, UInt64.ofNat records.length⟩)

/-- The loop of `verify_integrity`. -/
def verify (hash : Bytes → UInt64) : UInt64 → Nat → List (AuditRecord F) → Bool
  | _, _, [] => true
  | previous, expectedSequence, record :: records =>
      if record.sequence ≠ UInt64.ofNat expectedSequence ∨ record.previousIntegrity ≠ previous ∨
          integrity hash record ≠ record.integrity then false
      else verify hash record.integrity (expectedSequence + 1) records

/-- The records are numbered from zero on, each is chained to the one before, and all hashes are
right. -/
def verifyIntegrity (hash : Bytes → UInt64) (j : AuditJournal F) : Bool :=
  verify hash 0 0 j.records && j.nextSequence = UInt64.ofNat j.records.length

/-- `replay`, with the state that `receive` changes. -/
def replay {σ : Type} (hash : Bytes → UInt64) (j : AuditJournal F)
    (receive : σ → AuditRecord F → σ) (s : σ) : Except AuditError Unit × σ :=
  if !j.verifyIntegrity hash then (.error .integrity, s)
  else (.ok (), j.records.foldl receive s)

/-- The JSON of a journal. -/
def toJson (j : AuditJournal F) : Text :=
  object [("records", array (j.records.map Json.record)),
    ("next_sequence", ofNat j.nextSequence.toNat)]

/-- All confidences in the journal are finite. -/
def isFinite (j : AuditJournal F) : Bool := j.records.all fun record => record.event.isFinite

/-- A journal is read back from its text, but for one with a `null` in the place of a number. -/
def ReadBy (j : AuditJournal F) (json : Json F) : Prop :=
  json.fromStr j.toJson = if j.isFinite then some j else none

/-- Reads a journal, and refuses one whose chain is broken. -/
def fromJson (hash : Bytes → UInt64) (json : Json F) (text : Text) :
    Except AuditError (AuditJournal F) :=
  match json.fromStr text with
  | none => .error .serialization
  | some journal => if !journal.verifyIntegrity hash then .error .integrity else .ok journal

/-- A call on a journal; `reload` saves it and loads it again. -/
inductive Op (F : Type) where
  | append (auditId : Text) (event : AuditEvent F)
  | retainLast (maxRecords : Nat)
  | reload

/-- A journal that cannot be loaded again is kept as it is. -/
def perform (hash : Bytes → UInt64) (json : Json F) (j : AuditJournal F) :
    Op F → AuditJournal F
  | .append auditId event => j.append hash auditId event
  | .retainLast maxRecords => (j.retainLast hash maxRecords).2
  | .reload => match fromJson hash json j.toJson with
    | .ok journal => journal
    | .error _ => j

/-- The reader reads what it is documented to read of the text of a journal that is saved. -/
def machine (hash : Bytes → UInt64) (json : Json F) : Machine (AuditJournal F) (Op F) where
  step := perform hash json
  Allowed j op := match op with
    | .reload => j.ReadBy json
    | _ => True

end AuditJournal

end BrowsAI.Audit
