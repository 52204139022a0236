import BrowsAI.Input.Trajectory
import BrowsAI.Ipc.Router
import BrowsAI.LayoutObserver.HitTest
import BrowsAI.Transactions.Policy

/-!
# The action planner

`ActionPlanner` of `crates/action-planner`: the target of an action is resolved, checked, hit, and
classified before the action becomes native events. An action without native events of its own
passes as well, with an empty plan.

The sums and quotients of coordinates and the conversion of integers are parameters; nothing is
assumed about them.
-/

namespace BrowsAI.Ipc.Value

open Utf8 AgentTree

/-- `get` of a field. -/
def get (key : Text) : Value → Option Value
  | .object fields => (fields.find? fun field => field.1 = key).map Prod.snd
  | _ => none

/-- The text of a JSON string. -/
def asStr : Value → Option Text
  | .string value => some value
  | _ => none

/-- The number of a JSON number. -/
def asF64 [IntCast F64] : Value → Option F64
  | .integer value => some value
  | .float value => some value
  | _ => none

end BrowsAI.Ipc.Value

namespace BrowsAI.Input

open Utf8 AgentTree

/-- What an agent asks for. -/
inductive ActionType where
  | activate | click | doubleClick | contextClick | hover | focus | blur | type | replaceText
  | keyPress | select | toggle | scroll | drag | drop | upload | download | navigate | back
  | forward | reload | submit | authenticate
  deriving DecidableEq

/-- The request of an agent, whose target is an id or an identity key. -/
structure AgentAction where
  id : Text
  target : Text
  actionType : ActionType
  parameters : Ipc.Value

/-- A parameter that is a string. -/
def AgentAction.text (action : AgentAction) (key : Text) : Option Text :=
  (action.parameters.get key).bind Ipc.Value.asStr

/-- A parameter that is a number. -/
def AgentAction.number [IntCast F64] (action : AgentAction) (key : Text) : Option F64 :=
  (action.parameters.get key).bind Ipc.Value.asF64

end BrowsAI.Input

namespace BrowsAI.ActionPlanner

open Utf8 AgentTree DomObserver Input Transactions
open Audit (Consequence Reversibility TransactionClassification)
open LayoutObserver.HitTest (LayoutSnapshot)

/-- The native events for an action, and what the policy says of it. -/
structure PlannedAction where
  action : AgentAction
  events : List NativeInputEvent
  classification : TransactionClassification F64

/-- What is told of a plan that was dispatched. -/
structure ActionResult where
  actionId : Text
  target : Text
  generation : UInt64
  dispatchedEvents : Nat
  completed : Bool
  classification : TransactionClassification F64
  deriving DecidableEq

/-- Why no plan is made. -/
inductive PlanningError where
  | targetNotFound (id : AgentNodeId)
  | ambiguousTarget (target : Text)
  | staleReference (expected actual : UInt64)
  | targetNotInteractable (id : AgentNodeId)
  | confirmationRequired (classification : TransactionClassification F64)
  | denied (classification : TransactionClassification F64)
  | missingText
  | missingKey
  | missingCoordinates
  deriving DecidableEq

/-! ## The target -/

/-- The nodes with an identity key. -/
def findIdentity (tree : AgentRenderTree) (identityKey : Text) : List AgentNode :=
  tree.nodes.filter fun node => node.identityKey = some identityKey

/-- The first step of `plan_internal`. -/
def resolve (tree : AgentRenderTree) (target : Text) : Except PlanningError AgentNode :=
  match tree.find target with
  | some node => .ok node
  | none =>
      match findIdentity tree target with
      | [node] => .ok node
      | [] => .error (.targetNotFound target)
      | _ => .error (.ambiguousTarget target)

/-- `s.parse::<u64>()`. -/
def parseU64 (s : Text) : Option UInt64 := (parseUnsigned (2 ^ 64) s).map UInt64.ofNat

/-- The engine's number in an id, which ids with a path in them do not have. -/
def engineNodeId (nodeId : AgentNodeId) : Option EngineNodeId :=
  (stripPrefix "dom:" nodeId).bind parseU64

section Arithmetic

variable [Add F64] [Div F64] [IntCast F64]

/-- The middle of a box. -/
def centre (geometry : Geometry) : F64 × F64 :=
  (geometry.x + geometry.width / .finite 2, geometry.y + geometry.height / .finite 2)

/-- The hit test does not apply to the node, or it finds the node. -/
def passesHitTest (layout : LayoutSnapshot) (node : AgentNode) : Bool :=
  if layout.boxes.isEmpty then true
  else
    match engineNodeId node.id, node.geometry with
    | some engineId, some geometry =>
        layout.hitTest (centre geometry).1 (centre geometry).2 = some engineId
    | _, _ => true

/-! ## The events -/

omit [Add F64] [Div F64] [IntCast F64] in
/-- The consequence and the reversibility of an action, judged by the policy. -/
def classifyAction (policy : TransactionPolicy) (action : ActionType) :
    TransactionClassification F64 :=
  let (consequence, reversibility) : Consequence × Reversibility := match action with
    | .navigate | .back | .forward | .reload => (.navigate, .localReversible)
    | .type | .replaceText | .toggle | .select => (.localWrite, .localReversible)
    | .submit | .upload => (.unknown, .unknown)
    | .download => (.localWrite, .localReversible)
    | .authenticate => (.authenticate, .unknown)
    | _ => (.read, .localReversible)
  policy.classify consequence reversibility

/-- A value or an error. -/
def orError {α : Type} (error : PlanningError) : Option α → Except PlanningError α
  | some a => .ok a
  | none => .error error

/-- A move to the middle of the node, and what follows it. -/
def pointerEvents (node : AgentNode) (rest : List NativeInputEvent) :
    Except PlanningError (List NativeInputEvent) := do
  let geometry ← orError .missingCoordinates node.geometry
  pure (.pointerMove (centre geometry).1 (centre geometry).2 :: rest)

/-- The match of `plan_internal` on the type of the action. -/
def nativeEvents (action : AgentAction) (node : AgentNode) :
    Except PlanningError (List NativeInputEvent) :=
  match action.actionType with
  | .click | .activate | .toggle | .select => pointerEvents node [.pointerDown 0, .pointerUp 0]
  | .contextClick => pointerEvents node [.pointerDown 2, .pointerUp 2]
  | .doubleClick =>
      pointerEvents node [.pointerDown 0, .pointerUp 0, .pointerDown 0, .pointerUp 0]
  | .hover => pointerEvents node []
  | .type => do
      let text ← orError .missingText (action.text "text")
      pure [.textInput text]
  | .keyPress => do
      let key ← orError .missingKey ((action.text "key").filter (· ≠ []))
      pure [.keyDown key, .keyUp key]
  | .replaceText => do
      let text ← orError .missingText (action.text "text")
      pure [.keyDown "Control", .keyDown "A", .keyUp "A", .keyUp "Control", .textInput text]
  | .scroll =>
      pure [.scroll ((action.number "delta_x").getD (.finite 0))
        ((action.number "delta_y").getD (.finite 0))]
  | .drag => do
      -- a missing geometry and a missing parameter are one error
      let toX ← orError .missingCoordinates (action.number "to_x")
      let toY ← orError .missingCoordinates (action.number "to_y")
      pointerEvents node [.pointerDown 0, .pointerMove toX toY, .pointerUp 0]
  | .drop => pointerEvents node [.pointerUp 0]
  | .focus => pointerEvents node [.pointerDown 0, .pointerUp 0]
  | .blur => pure [.keyDown "Tab", .keyUp "Tab"]
  -- navigation, transfers of files, submission, and authentication
  | _ => pure []

/-- The rest of `plan_internal`, for the node that the target names. -/
def planFor (policy : TransactionPolicy) (layout : LayoutSnapshot) (action : AgentAction)
    (node : AgentNode) : Except PlanningError PlannedAction :=
  if !node.state.visible || !node.state.enabled then .error (.targetNotInteractable node.id)
  else if !passesHitTest layout node then .error (.targetNotInteractable node.id)
  else
    let classification := classifyAction policy action.actionType
    match classification.decision with
    | .deny => .error (.denied classification)
    | .requireConfirmation => .error (.confirmationRequired classification)
    | .allow => (nativeEvents action node).map fun events => { action, events, classification }

/-- The node of the target, and the plan for it. -/
def planInternal (policy : TransactionPolicy) (tree : AgentRenderTree) (layout : LayoutSnapshot)
    (action : AgentAction) : Except PlanningError PlannedAction := do
  let node ← resolve tree action.target
  planFor policy layout action node

/-- The plan for an action on the tree as it is. -/
def plan (policy : TransactionPolicy) (tree : AgentRenderTree) (layout : LayoutSnapshot)
    (action : AgentAction) : Except PlanningError PlannedAction :=
  planInternal policy tree layout action

/-- The plan for an action, if the tree has the generation that the caller saw. -/
def planAtGeneration (policy : TransactionPolicy) (tree : AgentRenderTree)
    (layout : LayoutSnapshot) (action : AgentAction) (expectedGeneration : UInt64) :
    Except PlanningError PlannedAction :=
  if tree.generation ≠ expectedGeneration then
    .error (.staleReference expectedGeneration tree.generation)
  else planInternal policy tree layout action

end Arithmetic

/-! ## Execution -/

/-- The events handed to `dispatch` one by one, up to the first error. -/
def dispatchAll {σ ε : Type} (dispatch : σ → NativeInputEvent → Except ε Unit × σ) :
    σ → List NativeInputEvent → Except ε Unit × σ
  | s, [] => (.ok (), s)
  | s, event :: rest =>
      match dispatch s event with
      | (.ok (), s) => dispatchAll dispatch s rest
      | (.error error, s) => (.error error, s)

/-- Dispatches the events one after the other, up to the first that fails. -/
def execute {σ ε : Type} (dispatch : σ → NativeInputEvent → Except ε Unit × σ) (s : σ)
    (planned : PlannedAction) (generation : UInt64) : Except ε ActionResult × σ :=
  match dispatchAll dispatch s planned.events with
  | (.error error, s) => (.error error, s)
  | (.ok (), s) =>
      (.ok
        { actionId := planned.action.id
          target := planned.action.target
          generation
          dispatchedEvents := planned.events.length
          completed := true
          classification := planned.classification }, s)

end BrowsAI.ActionPlanner
