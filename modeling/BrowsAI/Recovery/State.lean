import BrowsAI.Library.OrdMap
import BrowsAI.Library.Utf8
import Mathlib.Tactic.SplitIfs

/-!
# The recovery state

`SessionRecoveryState` of `crates/recovery`: what is recorded for the restore after a crash, the
check of it, and the plan that is made of it.
-/

namespace BrowsAI.Recovery

open Utf8

/-- Something to be restored. -/
structure RecoveryResource where
  id : Text
  generation : UInt64
  metadata : OrdMap Text Text
  opaqueReference : Option Text

/-- Why a session is not saved or restored. -/
inductive RecoveryError where
  | corruptCheckpoint | unsupportedVersion | io | lockHeld | serialization | invalidState
  deriving DecidableEq

/-! ## The state -/

/-- What a session consists of. -/
structure SessionRecoveryState where
  profiles : List RecoveryResource
  tabs : List RecoveryResource
  cookies : List RecoveryResource
  storage : List RecoveryResource
  downloads : List RecoveryResource
  workspaces : List RecoveryResource
  agentSessions : List RecoveryResource
  locks : List RecoveryResource
  pendingConfirmations : List RecoveryResource

/-- `SessionRecoveryState::default()`. -/
instance : Inhabited SessionRecoveryState := ⟨⟨[], [], [], [], [], [], [], [], []⟩⟩

/-- The entry names or holds a secret. -/
def isSensitive (key value : Text) : Bool :=
  let normalized := (asciiLower key).filter fun c => !(['_', '-', '.'].contains c)
  (["password", "secret", "token", "seed", "privatekey", "cardnumber"] : List Text).any fun marker =>
    contains marker normalized || contains marker (asciiLower value)

/-- What `validate` does not accept. -/
def RecoveryResource.isInvalid (resource : RecoveryResource) : Bool :=
  (trim resource.id).isEmpty ||
    (resource.metadata.toList.any fun (key, _) => (trim key).isEmpty) ||
    resource.metadata.toList.any fun (key, value) => isSensitive key value

namespace SessionRecoveryState

/-- The collections in the order of `validate`. -/
def collections (state : SessionRecoveryState) : List (List RecoveryResource) :=
  [state.profiles, state.tabs, state.cookies, state.storage, state.downloads, state.workspaces,
    state.agentSessions, state.locks, state.pendingConfirmations]

/-- No resource lacks its id or shows a secret. -/
def validate (state : SessionRecoveryState) : Except RecoveryError Unit :=
  if state.collections.flatten.any RecoveryResource.isInvalid then .error .invalidState else .ok ()

end SessionRecoveryState

/-! ## The plan -/

/-- The phases of a restore. -/
inductive RecoveryPhase where
  | profiles | workspaces | tabs | navigation | storage | agentSessions | locks
  | pendingConfirmations
  deriving DecidableEq

/-- Phases are ordered as they are declared. -/
instance : LE RecoveryPhase := ⟨fun first second => first.ctorIdx ≤ second.ctorIdx⟩

instance : LT RecoveryPhase := ⟨fun first second => first.ctorIdx < second.ctorIdx⟩

instance : DecidableLE RecoveryPhase := fun first second =>
  inferInstanceAs (Decidable (first.ctorIdx ≤ second.ctorIdx))

/-- A resource to be restored in a phase. -/
structure RecoveryStep where
  phase : RecoveryPhase
  resource : RecoveryResource

/-- The steps in their order. -/
structure RecoveryPlan where
  steps : List RecoveryStep

/-- The steps of a phase. -/
def add (phase : RecoveryPhase) (resources : List RecoveryResource) : List RecoveryStep :=
  resources.map fun resource => ⟨phase, resource⟩

/-- The steps that `plan` makes. -/
def SessionRecoveryState.steps (state : SessionRecoveryState) : List RecoveryStep :=
  add .profiles state.profiles ++ add .workspaces state.workspaces ++ add .tabs state.tabs ++
    add .navigation state.tabs ++ add .storage state.storage ++
    add .agentSessions state.agentSessions ++ add .locks state.locks ++
    add .pendingConfirmations state.pendingConfirmations

/-- The steps of a valid state. -/
def SessionRecoveryState.plan (state : SessionRecoveryState) : Except RecoveryError RecoveryPlan :=
  match state.validate with
  | .error error => .error error
  | .ok () => .ok ⟨state.steps⟩

/-- A plan has the steps of a state that was accepted. -/
theorem SessionRecoveryState.plan_eq_ok_iff {state : SessionRecoveryState} {plan : RecoveryPlan} :
    state.plan = .ok plan ↔ state.validate = .ok () ∧ plan.steps = state.steps := by
  rw [SessionRecoveryState.plan]
  cases state.validate with
  | error error => exact ⟨nofun, fun h => by cases h.1⟩
  | ok =>
      constructor
      · intro h
        cases h
        exact ⟨rfl, rfl⟩
      · rintro ⟨-, h⟩
        rw [← h]

end BrowsAI.Recovery
