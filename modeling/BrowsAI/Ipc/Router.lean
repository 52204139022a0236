import BrowsAI.AgentTree.Basic
import BrowsAI.Library.OrdMap
import BrowsAI.Profiles.Identity
import Mathlib.Tactic.SplitIfs
import Std.Data.ExtTreeSet

/-!
# Messages between processes

The envelopes of `crates/ipc`, and `IpcRouter`, which checks the version, the route, and the field
names of a message.
-/

namespace BrowsAI.Ipc

open Utf8 Std Profiles AgentTree

/-! ## Envelopes -/

/-- The processes of the browser. -/
inductive ProcessKind where
  | host | browserBroker | credentialBroker | profileManager | permissionManager | network
  | fileBroker | downloadBroker | audit | workspaceManager | renderer | worker | agentRuntime
  | compositor
  deriving DecidableEq

/-- Kinds are ordered as they are declared. -/
instance instOrdProcessKind : Ord ProcessKind := ⟨compareOn ProcessKind.ctorIdx⟩

instance instTransOrdProcessKind : TransOrd ProcessKind :=
  inferInstanceAs <| TransCmp (compareOn _)

instance instLawfulEqOrdProcessKind : LawfulEqOrd ProcessKind where
  compare_self {a} := compare_self (a := a.ctorIdx)
  eq_of_compare {a b} h := by
    have hidx : a.ctorIdx = b.ctorIdx := LawfulEqOrd.eq_of_compare h
    cases a <;> cases b <;> first | rfl | cases hidx

/-- `serde_json::Value`, with the fields of an object in their order. -/
inductive Value where
  | null
  | bool (value : Bool)
  | integer (value : Int)
  | float (value : F64)
  | string (value : Text)
  | array (values : List Value)
  | object (fields : List (Text × Value))

/-- What is sent from one process to another. -/
inductive IpcMessage where
  | handshake (protocolVersion : UInt16)
  | request (method : Text) (body : Value)
  | response (ok : Bool) (body : Value)
  | cancel (requestId : Uuid)
  | crashNotice (process : ProcessKind)

/-- The version that a handshake offers. -/
def IpcMessage.handshakeVersion : IpcMessage → Option UInt16
  | .handshake protocolVersion => some protocolVersion
  | _ => none

/-- The body of a request or a response. -/
def IpcMessage.body : IpcMessage → Option Value
  | .request _ body | .response _ body => some body
  | _ => none

/-- A message with its number, its sender and its receiver. -/
structure IpcEnvelope where
  protocolVersion : UInt16
  sequence : UInt64
  requestId : Uuid
  source : ProcessKind
  destination : ProcessKind
  workspace : Text
  profile : Text
  origin : Option Text
  capability : Option Text
  payload : IpcMessage

/-- Why a message is refused. -/
inductive IpcError where
  | unauthorized | versionMismatch | backpressure | outOfOrder | rawSecretPayload
  deriving DecidableEq

/-! ## Field names -/

/-- The field is named as a secret would be. -/
def isSensitive (key : Text) : Bool :=
  let normalized := (asciiLower key).filter fun c => !(['_', '-', '.'].contains c)
  (["password", "secret", "token", "seed", "privatekey", "cardnumber", "cvv"] : List Text).any
    fun sensitive => contains sensitive normalized

mutual

/-- Some object in the value has a sensitive key. -/
def containsRawSecretField : Value → Bool
  | .object fields => anyRawSecretField fields
  | .array values => anyRawSecretValue values
  | _ => false

/-- A field is sensitive, or has one in it. -/
def anyRawSecretField : List (Text × Value) → Bool
  | [] => false
  | (key, value) :: fields =>
      isSensitive key || containsRawSecretField value || anyRawSecretField fields

/-- An element has a sensitive field in it. -/
def anyRawSecretValue : List Value → Bool
  | [] => false
  | value :: values => containsRawSecretField value || anyRawSecretValue values

end

/-! ## The router -/

/-- The version that is spoken, and who may send to whom. -/
structure IpcRouter where
  version : UInt16
  allowed : ExtTreeSet (ProcessKind × ProcessKind) compare

namespace IpcRouter

/-- Nobody may send. -/
def new (version : UInt16) : IpcRouter := ⟨version, ∅⟩

/-- Lets a process send to another one. -/
def allow (router : IpcRouter) (source destination : ProcessKind) : IpcRouter :=
  { router with allowed := router.allowed.insert (source, destination) }

/-- Checks the versions, the route and the body. -/
def validate (router : IpcRouter) (message : IpcEnvelope) : Except IpcError Unit :=
  if message.protocolVersion ≠ router.version then .error .versionMismatch
  else if message.payload.handshakeVersion.any fun version => version ≠ router.version then
    .error .versionMismatch
  else if !router.allowed.contains (message.source, message.destination) then .error .unauthorized
  else if message.payload.body.any containsRawSecretField then .error .rawSecretPayload
  else .ok ()

/-- An accepted message has an allowed route. -/
theorem allowed_of_validate {router : IpcRouter} {message : IpcEnvelope}
    (h : router.validate message = .ok ()) :
    (message.source, message.destination) ∈ router.allowed := by
  rw [validate] at h
  split_ifs at h with hversion hhandshake hroute
  exact ExtTreeSet.mem_iff_contains.mpr (by simpa using hroute)

end IpcRouter

end BrowsAI.Ipc
