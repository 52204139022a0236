import BrowsAI.ActionPlanner.Plan
import BrowsAI.LayoutObserver.Dirty

/-!
# What a plan has passed

The checks of the planner as one statement, `plan_internal_eq_ok_iff`, what they say about the
target and the first event of a plan, and which actions get an empty plan.
-/

namespace BrowsAI.ActionPlanner

open Utf8 AgentTree DomObserver Input Transactions
open Audit (Consequence Reversibility TransactionClassification)
open LayoutObserver.HitTest (LayoutSnapshot)

/-! ## The target -/

/-- The target is the id of the node, or an identity key that the node alone has. -/
def Names (tree : AgentRenderTree) (target : Text) (node : AgentNode) : Prop :=
  node ∈ tree.nodes ∧ (node.id = target ∨ node.identityKey = some target ∧
    (tree.nodes.countP fun other => other.identityKey = some target) = 1)

/-- A target that is resolved names the node, by id or by identity key. -/
theorem names_of_resolve {tree : AgentRenderTree} {target : Text} {node : AgentNode}
    (h : resolve tree target = .ok node) : Names tree target node := by
  unfold resolve at h
  cases hfind : tree.find target with
  | some found =>
      rw [hfind] at h
      cases h
      obtain ⟨hmem, hid⟩ := AgentRenderTree.find_eq_some hfind
      exact ⟨hmem, .inl hid⟩
  | none =>
      rw [hfind] at h
      dsimp only at h
      split at h
      · next found hkey =>
          cases h
          have hmem : node ∈ findIdentity tree target := by simp [hkey]
          obtain ⟨hnode, hidentity⟩ := List.mem_filter.mp hmem
          refine ⟨hnode, .inr ⟨of_decide_eq_true hidentity, ?_⟩⟩
          rw [List.countP_eq_length_filter]
          exact congrArg List.length hkey
      · cases h
      · cases h

/-- The node of the document with a number has that number. -/
theorem engine_node_id_dom (id : EngineNodeId) :
    engineNodeId ("dom:" ++ ofNat id.toNat) = some id := by
  have hprefix : stripPrefix "dom:" ("dom:" ++ ofNat id.toNat) = some (ofNat id.toNat) := by
    rw [stripPrefix, if_pos (by simp), List.drop_left]
  rw [engineNodeId, hprefix, Option.bind_some, parseU64, parse_unsigned_of_nat id.toNat_lt,
    Option.map_some, UInt64.ofNat_toNat]

section Arithmetic

variable [Add F64] [Div F64] [IntCast F64]

/-! ## The checks -/

/-- The node can be acted on: it is visible and enabled, and where it is hit. -/
structure Interactable (layout : LayoutSnapshot) (node : AgentNode) : Prop where
  visible : node.state.visible
  enabled : node.state.enabled
  hit : passesHitTest layout node

variable {policy : TransactionPolicy} {tree : AgentRenderTree} {layout : LayoutSnapshot}
  {action : AgentAction} {planned : PlannedAction}

/-- A node is planned for exactly if it can be interacted with, the policy allows the action and its
events can be built. -/
theorem plan_for_eq_ok_iff {node : AgentNode} :
    planFor policy layout action node = .ok planned ↔
      Interactable layout node ∧
        (classifyAction policy action.actionType).decision = .allow ∧
        ∃ events, nativeEvents action node = .ok events ∧
          planned = ⟨action, events, classifyAction policy action.actionType⟩ := by
  unfold planFor
  by_cases hinteractable : Interactable layout node
  · rw [if_neg (by simp [hinteractable.visible, hinteractable.enabled]),
      if_neg (by simp [hinteractable.hit]), and_iff_right hinteractable]
    dsimp only
    cases hdecision : (classifyAction policy action.actionType).decision with
    | deny => exact iff_of_false (fun h => by cases h) fun h => by cases h.1
    | requireConfirmation => exact iff_of_false (fun h => by cases h) fun h => by cases h.1
    | allow =>
        rw [and_iff_right rfl]
        cases nativeEvents action node with
        | error error =>
            refine iff_of_false (fun h => by cases h) fun h => ?_
            obtain ⟨_, h, _⟩ := h
            cases h
        | ok events =>
            constructor
            · intro h
              cases h
              exact ⟨events, rfl, rfl⟩
            · intro h
              obtain ⟨events', heq, rfl⟩ := h
              cases heq
              rfl
  · refine iff_of_false (fun h => hinteractable ?_) fun h => hinteractable h.1
    split_ifs at h with hstate hhit
    · rw [Bool.or_eq_true, Bool.not_eq_true', Bool.not_eq_true', not_or, Bool.not_eq_false,
        Bool.not_eq_false] at hstate
      rw [Bool.not_eq_true', Bool.not_eq_false] at hhit
      exact ⟨hstate.1, hstate.2, hhit⟩

/-- A plan is made of the node that the target resolves to. -/
theorem plan_internal_eq_ok_iff : planInternal policy tree layout action = .ok planned ↔
    ∃ node, resolve tree action.target = .ok node ∧
      planFor policy layout action node = .ok planned := by
  unfold planInternal
  cases resolve tree action.target with
  | error error =>
      refine iff_of_false (fun h => by cases h) fun h => ?_
      obtain ⟨_, h, _⟩ := h
      cases h
  | ok node =>
      constructor
      · intro h
        exact ⟨node, rfl, h⟩
      · intro h
        obtain ⟨node', heq, hplan⟩ := h
        cases heq
        exact hplan

/-! ## The first event -/

/-- The actions that begin with a move of the pointer. -/
def movesPointer : ActionType → Bool
  | .click | .activate | .toggle | .select | .contextClick | .doubleClick | .hover | .drag
  | .drop | .focus => true
  | _ => false

omit [IntCast F64] in
/-- Pointer events start with a move to the centre, and need a geometry. -/
theorem pointer_events_eq_ok_iff {node : AgentNode} {rest events : List NativeInputEvent} :
    pointerEvents node rest = .ok events ↔ ∃ geometry, node.geometry = some geometry ∧
      events = .pointerMove (centre geometry).1 (centre geometry).2 :: rest := by
  unfold pointerEvents
  cases node.geometry with
  | none =>
      refine iff_of_false (fun h => by cases h) fun h => ?_
      obtain ⟨_, h, _⟩ := h
      cases h
  | some geometry =>
      constructor
      · intro h
        cases h
        exact ⟨geometry, rfl, rfl⟩
      · intro h
        obtain ⟨_, heq, rfl⟩ := h
        cases heq
        rfl

/-- Such a plan begins with a move to the middle of the node. -/
theorem head_native_events {node : AgentNode} {events : List NativeInputEvent}
    (hkind : movesPointer action.actionType) (h : nativeEvents action node = .ok events) :
    ∃ geometry, node.geometry = some geometry ∧
      events.head? = some (.pointerMove (centre geometry).1 (centre geometry).2) := by
  obtain ⟨rest, hrest⟩ : ∃ rest, pointerEvents node rest = .ok events := by
    unfold nativeEvents at h
    cases htype : action.actionType with
    | drag =>
        simp only [htype] at h
        cases htoX : action.number "to_x" with
        | none =>
            rw [htoX] at h
            cases h
        | some toX =>
            cases htoY : action.number "to_y" with
            | none =>
                rw [htoX, htoY] at h
                cases h
            | some toY =>
                rw [htoX, htoY] at h
                exact ⟨_, h⟩
    | _ =>
        simp only [htype] at h hkind
        first
          | exact ⟨_, h⟩
          | cases hkind
  obtain ⟨geometry, hgeometry, rfl⟩ := pointer_events_eq_ok_iff.mp hrest
  exact ⟨geometry, hgeometry, rfl⟩

/-- Whatever is planned is planned by `plan_internal`. -/
theorem plan_internal_of_plan {expected : UInt64}
    (h : plan policy tree layout action = .ok planned ∨
      planAtGeneration policy tree layout action expected = .ok planned) :
    planInternal policy tree layout action = .ok planned := by
  obtain h | h := h
  · exact h
  · unfold planAtGeneration at h
    split_ifs at h
    exact h

/-- A plan is for a node that the target names, visible, enabled, and hit in its middle where the
layout can tell, under a decision that allows it; the plan of a pointer action begins with a move
to that middle. -/
theorem plan_sound (expected : UInt64)
    (h : plan policy tree layout action = .ok planned ∨
      planAtGeneration policy tree layout action expected = .ok planned) :
    ∃ node, Names tree action.target node ∧ node.state.visible ∧ node.state.enabled ∧
      planned.classification.decision = .allow ∧
      (∀ engineId geometry, layout.boxes.isEmpty = false →
        engineNodeId node.id = some engineId → node.geometry = some geometry →
        layout.hitTest (centre geometry).1 (centre geometry).2 = some engineId) ∧
      (movesPointer action.actionType → ∃ geometry, node.geometry = some geometry ∧
        planned.events.head? = some (.pointerMove (centre geometry).1 (centre geometry).2)) := by
  obtain ⟨node, hresolve, hplan⟩ := plan_internal_eq_ok_iff.mp (plan_internal_of_plan h)
  obtain ⟨hinteractable, hdecision, events, hevents, rfl⟩ := plan_for_eq_ok_iff.mp hplan
  refine ⟨node, names_of_resolve hresolve, hinteractable.visible, hinteractable.enabled,
    hdecision, fun engineId geometry hboxes hid hgeometry => ?_, fun hkind =>
      head_native_events hkind hevents⟩
  have hhit := hinteractable.hit
  simp only [passesHitTest, hboxes, hid, hgeometry, Bool.false_eq_true, if_false,
    decide_eq_true_eq] at hhit
  exact hhit

/-! ## Empty plans -/

/-- The actions that become native events. -/
def isNative : ActionType → Bool
  | .upload | .download | .navigate | .back | .forward | .reload | .submit | .authenticate => false
  | _ => true

/-- The actions that a policy allows. -/
def permits (policy : TransactionPolicy) : ActionType → Bool
  | .submit | .upload => !policy.requireConfirmationForUnknown
  | .authenticate => false
  | _ => true

omit [Add F64] [Div F64] [IntCast F64] in
theorem decision_eq_allow_iff (policy : TransactionPolicy) (kind : ActionType) :
    (classifyAction policy kind).decision = .allow ↔ permits policy kind := by
  obtain ⟨unknown, _, _, _⟩ := policy
  cases kind <;> cases unknown <;>
    first
      | exact iff_of_true rfl rfl
      | exact iff_of_false (fun h => by cases h) fun h => by cases h

omit [Add F64] [Div F64] [IntCast F64] in
theorem ne_nil_of_or_error {α : Type} {error : PlanningError} {a : Option α}
    {f : α → List NativeInputEvent} {events : List NativeInputEvent} (hf : ∀ value, f value ≠ [])
    (h : (orError error a >>= fun value => pure (f value)) = .ok events) : events ≠ [] := by
  cases a with
  | none => cases h
  | some value =>
      cases h
      exact hf value

/-- An action that is performed by input has events. -/
theorem native_events_ne_nil {node : AgentNode} {events : List NativeInputEvent}
    (hnative : isNative action.actionType) (h : nativeEvents action node = .ok events) :
    events ≠ [] := by
  by_cases hpointer : movesPointer action.actionType
  · obtain ⟨_, _, hhead⟩ := head_native_events hpointer h
    intro hnil
    rw [hnil] at hhead
    cases hhead
  · unfold nativeEvents at h
    cases htype : action.actionType with
    | type | replaceText | keyPress =>
        simp only [htype] at h
        exact ne_nil_of_or_error (fun _ => List.cons_ne_nil _ _) h
    | scroll | blur =>
        simp only [htype] at h
        cases h
        exact List.cons_ne_nil _ _
    | _ =>
        rw [htype] at hnative hpointer
        first
          | exact absurd rfl hpointer
          | cases hnative

theorem native_events_of_not_native {node : AgentNode}
    (hnative : isNative action.actionType = false) : nativeEvents action node = .ok [] := by
  unfold nativeEvents
  cases htype : action.actionType <;> rw [htype] at hnative <;> first | rfl | cases hnative

/-- No plan for an action is empty exactly when the action has native events, or is refused: its
target is not resolved or cannot be acted on, or the policy does not allow the action. -/
theorem events_ne_nil_iff :
    (∀ planned, plan policy tree layout action = .ok planned → planned.events ≠ []) ↔
      isNative action.actionType ∨ ¬ permits policy action.actionType ∨
        ¬ ∃ node, resolve tree action.target = .ok node ∧ Interactable layout node := by
  have hdecision := decision_eq_allow_iff policy action.actionType
  constructor
  · intro h
    by_contra hnot
    simp only [not_or, not_not] at hnot
    obtain ⟨hnative, hpermits, node, hresolve, hinteractable⟩ := hnot
    rw [Bool.not_eq_true] at hnative
    have hplan := plan_for_eq_ok_iff.mpr ⟨hinteractable, hdecision.mpr hpermits, [],
      native_events_of_not_native hnative, rfl⟩
    exact h _ (plan_internal_eq_ok_iff.mpr ⟨node, hresolve, hplan⟩) rfl
  · intro h planned hplanned
    obtain ⟨node, hresolve, hplan⟩ := plan_internal_eq_ok_iff.mp hplanned
    obtain ⟨hinteractable, hallow, events, hevents, rfl⟩ := plan_for_eq_ok_iff.mp hplan
    obtain hnative | hrefused | hnone := h
    · exact native_events_ne_nil hnative hevents
    · exact absurd (hdecision.mp hallow) hrefused
    · exact absurd ⟨node, hresolve, hinteractable⟩ hnone

omit [Add F64] [Div F64] [IntCast F64] in
/-- A result counts the events of the whole plan. -/
theorem dispatched_of_execute {σ ε : Type} {dispatch : σ → NativeInputEvent → Except ε Unit × σ}
    {s s' : σ} {generation : UInt64} {result : ActionResult}
    (h : execute dispatch s planned generation = (.ok result, s')) :
    result.dispatchedEvents = planned.events.length := by
  unfold execute at h
  cases hdispatch : dispatchAll dispatch s planned.events with
  | mk answer after =>
      rw [hdispatch] at h
      cases answer with
      | error error => cases h
      | ok _ =>
          cases h
          rfl

/-- Every plan for an action has events, and no execution of one completes without them, exactly
when the action has native events or is refused. -/
theorem plans_dispatch_iff :
    (∀ planned, plan policy tree layout action = .ok planned → planned.events ≠ [] ∧
      ∀ (σ ε : Type) (dispatch : σ → NativeInputEvent → Except ε Unit × σ) (s s' : σ)
        (generation : UInt64) (result : ActionResult),
        execute dispatch s planned generation = (.ok result, s') →
          0 < result.dispatchedEvents) ↔
      isNative action.actionType ∨ ¬ permits policy action.actionType ∨
        ¬ ∃ node, resolve tree action.target = .ok node ∧ Interactable layout node := by
  rw [← events_ne_nil_iff]
  constructor
  · intro h planned hplanned
    exact (h planned hplanned).1
  · intro h planned hplanned
    refine ⟨h planned hplanned, fun σ ε dispatch s s' generation result hresult => ?_⟩
    rw [dispatched_of_execute hresult]
    exact List.length_pos_iff.mpr (h planned hplanned)

end Arithmetic

/-! ## A page with one button -/

/-- Quotients of finite doubles that are doubles. -/
@[reducible] def finiteDiv : Div F64 where
  div
    | .finite p, .finite q => .finite (p / q)
    | _, _ => .nan

/-- A button of ten by ten pixels in the corner of the page. -/
def cornerButton : AgentNode :=
  { AgentNode.plain "dom:1" .button (some "Save") [] with
    geometry := some ⟨.finite 0, .finite 0, .finite 10, .finite 10⟩ }

/-- A page with a button in its corner. -/
def buttonPage : AgentRenderTree where
  root := "document"
  nodes := [.plain "document" .page none ["dom:1"], cornerButton]
  generation := 1
  truncated := false

/-- An action on the button. -/
def actionOn (kind : ActionType) : AgentAction where
  id := "action"
  target := "dom:1"
  actionType := kind
  parameters := .null

theorem resolve_button (kind : ActionType) :
    resolve buttonPage (actionOn kind).target = .ok cornerButton :=
  rfl

/-- A click on the button of the page. -/
theorem click_on_button_sound :
    let _ : Add F64 := ⟨F64.exactAdd⟩
    let _ : Div F64 := finiteDiv
    let _ : IntCast F64 := ⟨fun n => .finite n⟩
    ∃ node, Names buttonPage "dom:1" node ∧ node.state.visible ∧ node.state.enabled ∧
      (classifyAction default .click).decision = .allow ∧
      (∀ engineId geometry, LayoutObserver.HitTest.cornerLayout.boxes.isEmpty = false →
        engineNodeId node.id = some engineId → node.geometry = some geometry →
        LayoutObserver.HitTest.cornerLayout.hitTest (centre geometry).1 (centre geometry).2 =
          some engineId) ∧
      (movesPointer .click → ∃ geometry, node.geometry = some geometry ∧
        [NativeInputEvent.pointerMove (.finite 5) (.finite 5), .pointerDown 0,
          .pointerUp 0].head? =
            some (.pointerMove (centre geometry).1 (centre geometry).2)) := by
  intro _ _ _
  have hcentre : centre ⟨.finite 0, .finite 0, .finite 10, .finite 10⟩ =
      (F64.finite 5, F64.finite 5) := by
    decide +kernel
  have hplan : plan default buttonPage LayoutObserver.HitTest.cornerLayout (actionOn .click) =
      .ok ⟨actionOn .click, [.pointerMove (.finite 5) (.finite 5), .pointerDown 0, .pointerUp 0],
        classifyAction default .click⟩ := by
    refine plan_internal_eq_ok_iff.mpr ⟨cornerButton, resolve_button .click,
      plan_for_eq_ok_iff.mpr ⟨⟨rfl, rfl, by decide +kernel⟩, rfl, _, ?_, rfl⟩⟩
    exact pointer_events_eq_ok_iff.mpr ⟨_, rfl, by rw [hcentre]⟩
  exact plan_sound 1 (.inl hplan)

/-- The same button under an id as a live page gives it, by the path from the root. -/
def pathButton : AgentNode := { cornerButton with id := "dom:0/1" }

/-- The page of the button under that id. -/
def pathPage : AgentRenderTree :=
  { buttonPage with nodes := [.plain "document" .page none ["dom:0/1"], pathButton] }

/-- A click on this button is planned although the layout has boxes and finds another node in its
middle: the id is no number, so there is no hit test. -/
theorem path_button_not_hit :
    let _ : Add F64 := ⟨F64.exactAdd⟩
    let _ : Div F64 := finiteDiv
    let _ : IntCast F64 := ⟨fun n => .finite n⟩
    (∃ planned, plan default pathPage LayoutObserver.HitTest.cornerLayout
        { actionOn .click with target := "dom:0/1" } = .ok planned) ∧
      resolve pathPage "dom:0/1" = .ok pathButton ∧
      LayoutObserver.HitTest.cornerLayout.boxes.isEmpty = false ∧
      (stripPrefix "dom:" pathButton.id).isSome ∧
      ∃ geometry, pathButton.geometry = some geometry ∧
        LayoutObserver.HitTest.cornerLayout.hitTest (centre geometry).1 (centre geometry).2 =
          some 1 ∧
        pathButton.id ≠ "dom:" ++ ofNat (1 : EngineNodeId).toNat := by
  intro _ _ _
  have hevents : nativeEvents { actionOn .click with target := "dom:0/1" } pathButton =
      .ok [.pointerMove (centre ⟨.finite 0, .finite 0, .finite 10, .finite 10⟩).1
        (centre ⟨.finite 0, .finite 0, .finite 10, .finite 10⟩).2, .pointerDown 0, .pointerUp 0] :=
    pointer_events_eq_ok_iff.mpr ⟨_, rfl, rfl⟩
  have hinteractable : Interactable LayoutObserver.HitTest.cornerLayout pathButton :=
    ⟨rfl, rfl, by decide +kernel⟩
  have hplan : planFor default LayoutObserver.HitTest.cornerLayout
      { actionOn .click with target := "dom:0/1" } pathButton = .ok _ :=
    plan_for_eq_ok_iff.mpr ⟨hinteractable, rfl, _, hevents, rfl⟩
  exact ⟨⟨_, plan_internal_eq_ok_iff.mpr ⟨pathButton, rfl, hplan⟩⟩, rfl, rfl, rfl, _, rfl,
    by decide +kernel, by decide⟩

/-- The plan to navigate from the button is empty, and its execution completes without handing
any event to the browser. -/
theorem navigate_completes_without_events :
    let _ : Add F64 := ⟨F64.exactAdd⟩
    let _ : Div F64 := finiteDiv
    let _ : IntCast F64 := ⟨fun n => .finite n⟩
    ∃ planned, plan default buttonPage LayoutObserver.HitTest.cornerLayout
        (actionOn .navigate) = .ok planned ∧ planned.events = [] ∧
      ∃ result, execute (fun sent event => (.ok (), sent ++ [event])) [] planned 1 =
          ((.ok result : Except Unit ActionResult), []) ∧
        result.completed ∧ result.dispatchedEvents = 0 := by
  intro _ _ _
  refine ⟨⟨actionOn .navigate, [], classifyAction default .navigate⟩, ?_, rfl, _, rfl, rfl, rfl⟩
  exact plan_internal_eq_ok_iff.mpr ⟨cornerButton, resolve_button .navigate,
    plan_for_eq_ok_iff.mpr ⟨⟨rfl, rfl, by decide +kernel⟩, rfl, _, rfl, rfl⟩⟩

end BrowsAI.ActionPlanner
