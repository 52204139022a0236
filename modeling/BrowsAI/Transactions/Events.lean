import BrowsAI.Transactions.Queue

/-!
# The events of the confirmation queue

A `History` is a queue with the events drained from it, the states that each request went through,
and the approvals that were asked for. The event log tells the truth about every request until its
owner decides on it too late: that expires the request without an event.
-/

namespace BrowsAI.Transactions

open Std Utf8 Profiles StateLog

variable {Classification : Type}

/-- Events without their actors and ticks. -/
def statesIn (events : List ConfirmationEvent) : List (Uuid × ConfirmationState) :=
  events.map fun event => (event.id, event.state)

namespace ConfirmationQueue

variable {q : ConfirmationQueue Classification}

/-- A sweep expires the request that has the id. -/
def expires (q : ConfirmationQueue Classification) (now : UInt64) (id : Uuid) : Bool :=
  q.requests[id]?.any fun request => request.due now

theorem state_of_expire (q : ConfirmationQueue Classification) (now : UInt64) (id : Uuid) :
    (q.expire now).stateOf id = if q.expires now id then some .expired else q.stateOf id := by
  rw [stateOf, get_expire, expires, stateOf]
  cases q.requests[id]? with
  | none => rfl
  | some request =>
      simp only [Option.map_some, Option.any_some]
      split_ifs <;> rfl

/-- A request that a sweep expires is pending. -/
theorem state_of_expires {now : UInt64} {id : Uuid} (hexpires : q.expires now id) :
    q.stateOf id = some .pending := by
  obtain ⟨request, hrequest, hdue⟩ := (Option.any_eq_true _ _).mp hexpires
  rw [ConfirmationRequest.due, Bool.and_eq_true, decide_eq_true_iff] at hdue
  rw [state_of_eq_some hrequest, hdue.1]

/-- A sweep writes one event for each request that it expires. -/
theorem Keyed.states_of_expire (hk : q.Keyed) (now : UInt64) (id : Uuid) :
    statesOf id (statesIn (((q.requests.toList.map Prod.snd).filter fun request =>
      request.due now).map fun request => ⟨request.id, none, .expired, now⟩)) =
      if q.expires now id then [.expired] else [] := by
  have hkey : (q.requests.toList.filter fun entry => entry.2.due now && entry.2.id = id) =
      (q.requests.toList.filter fun entry => entry.1 = id).filter fun entry => entry.2.due now := by
    rw [List.filter_filter]
    refine List.filter_congr fun entry hentry => ?_
    rw [hk entry.1 entry.2 (ExtTreeMap.mem_toList_iff_getElem?_eq_some.mp hentry)]
  have hstates : statesOf id (statesIn (((q.requests.toList.map Prod.snd).filter fun request =>
      request.due now).map fun request => ⟨request.id, none, .expired, now⟩)) =
      (q.requests.toList.filter fun entry => entry.2.due now && entry.2.id = id).map
        fun _ => .expired := by
    simp only [statesOf, statesIn, List.map_map, List.filter_map, List.filter_filter,
      Function.comp_def, Bool.and_comm]
  rw [hstates, hkey, OrdMap.filter_to_list_key, expires]
  cases q.requests[id]? with
  | none => rfl
  | some request => cases hdue : request.due now <;> simp [hdue]

end ConfirmationQueue

/-! ## Histories -/

/-- A call, with the generated id of an enqueued request. -/
inductive Op (Classification : Type) where
  | enqueue (id : Uuid) (owner summary : Text) (classification : Classification)
      (timeoutTicks now : UInt64)
  | approve (id : Uuid) (actor : Text) (now : UInt64)
  | deny (id : Uuid) (actor : Text) (now : UInt64)
  | escalate (id : Uuid) (actor : Text) (now : UInt64)
  | expire (now : UInt64)
  | drainEvents

/-- The decision of a call. -/
structure Decision where
  id : Uuid
  actor : Text
  state : ConfirmationState
  now : UInt64

/-- The decision of a call. -/
def Op.decides : Op Classification → Option Decision
  | .approve id actor now => some ⟨id, actor, .approved, now⟩
  | .deny id actor now => some ⟨id, actor, .denied, now⟩
  | .escalate id actor now => some ⟨id, actor, .escalated, now⟩
  | .enqueue _ _ _ _ _ _ | .expire _ | .drainEvents => none

/-- What a call does. -/
def ConfirmationQueue.perform (q : ConfirmationQueue Classification) :
    Op Classification → ConfirmationQueue Classification
  | .enqueue id owner summary classification timeoutTicks now =>
      q.enqueue id owner summary classification timeoutTicks now
  | .approve id actor now => (q.approve id actor now).2
  | .deny id actor now => (q.deny id actor now).2
  | .escalate id actor now => (q.escalate id actor now).2
  | .expire now => q.expire now
  | .drainEvents => q.drainEvents.2

/-- An approval that an actor asked for, with the request as it was. -/
structure Approval (Classification : Type) where
  actor : Text
  tick : UInt64
  request : ConfirmationRequest Classification

/-- The queue, the events that were drained, the states of each request, and the approvals. -/
structure History (Classification : Type) where
  queue : ConfirmationQueue Classification
  drained : List ConfirmationEvent
  seen : Uuid → List ConfirmationState
  approvals : List (Approval Classification)

namespace History

/-- No request yet. -/
def start : History Classification := ⟨.default, [], fun _ => [], []⟩

/-- A call, and what it adds to the history. -/
def step (h : History Classification) (op : Op Classification) : History Classification where
  queue := h.queue.perform op
  drained := match op with
    | .drainEvents => h.drained ++ h.queue.drainEvents.1
    | _ => h.drained
  seen id := h.seen id ++ change (h.queue.stateOf id) ((h.queue.perform op).stateOf id)
  approvals := match op with
    | .approve id actor now =>
        h.approvals ++ (h.queue.requests[id]?.map fun request => ⟨actor, now, request⟩).toList
    | _ => h.approvals

/-- The generated id of a request is new. -/
def Fresh (h : History Classification) : Op Classification → Prop
  | .enqueue id _ _ _ _ _ => h.queue.requests[id]? = none
  | _ => True

/-- The system whose steps are calls with new ids. -/
def machine : Machine (History Classification) (Op Classification) := ⟨step, Fresh⟩

/-- The event log, drained events included. -/
def log (h : History Classification) : List (Uuid × ConfirmationState) :=
  statesIn (h.drained ++ h.queue.events)

/-- For every request the log begins with `Pending`, has one event for each change of its state, and
ends with its state. -/
def Told (h : History Classification) : Prop :=
  Faithful .pending h.log h.seen h.queue.stateOf

/-- Nobody decides on a pending request of his own after its deadline. -/
def InTime (h : History Classification) (op : Op Classification) : Prop :=
  ∀ decision : Decision, op.decides = some decision →
    ∀ request, h.queue.requests[decision.id]? = some request → request.state = .pending →
      request.owner = decision.actor → decision.now < request.expiresAtTick

variable {h : History Classification} {op : Op Classification}

end History

namespace ConfirmationQueue

variable {q : ConfirmationQueue Classification} {op : Op Classification}

theorem perform_of_decides {decision : Decision} (hdecides : op.decides = some decision) :
    q.perform op = (q.transition decision.id decision.actor decision.state decision.now).2 ∧
      decision.state ≠ .pending := by
  cases op with
  | enqueue _ _ _ _ _ _ | expire _ | drainEvents => cases hdecides
  | approve _ _ _ | deny _ _ _ | escalate _ _ _ =>
      obtain rfl := Option.some.inj hdecides
      exact ⟨rfl, fun hstate => nomatch hstate⟩

/-- A decision to approve is a call of `approve`. -/
theorem approve_of_decides {decision : Decision} (hdecides : op.decides = some decision)
    (hstate : decision.state = .approved) :
    op = .approve decision.id decision.actor decision.now := by
  cases op with
  | approve _ _ _ =>
      obtain rfl := Option.some.inj hdecides
      rfl
  | deny _ _ _ | escalate _ _ _ =>
      obtain rfl := Option.some.inj hdecides
      cases hstate
  | enqueue _ _ _ _ _ _ | expire _ | drainEvents => cases hdecides

theorem Keyed.perform (hk : q.Keyed) (op : Op Classification) : (q.perform op).Keyed := by
  cases op with
  | enqueue id owner summary classification timeoutTicks now => exact hk.insert id _ _ rfl
  | approve id actor now | deny id actor now | escalate id actor now =>
      exact hk.transition id actor _ now
  | expire now => exact hk.expire now
  | drainEvents => exact hk

/-- A call leaves a request alone, creates it, or moves it out of the pending state. It is approved
by its owner, before its deadline. -/
theorem request_cases (q : ConfirmationQueue Classification) (op : Op Classification) (id : Uuid) :
    (q.perform op).requests[id]? = q.requests[id]? ∨
    (∃ owner summary classification timeoutTicks now,
      op = .enqueue id owner summary classification timeoutTicks now ∧
        (q.perform op).stateOf id = some .pending) ∨
    ∃ request state, q.requests[id]? = some request ∧ request.state = .pending ∧
      state ≠ .pending ∧ (q.perform op).requests[id]? = some { request with state } ∧
      (state = .approved →
        ∃ now, op = .approve id request.owner now ∧ now < request.expiresAtTick) := by
  cases hdecides : op.decides with
  | some decision =>
      obtain ⟨hperform, hstate⟩ := perform_of_decides (q := q) hdecides
      rw [hperform]
      obtain ⟨_, htransition⟩ | ⟨request, hrequest, hpending, howner,
          ⟨hlate, htransition⟩ | ⟨hlt, htransition⟩⟩ :=
        q.transition_cases decision.id decision.actor decision.state decision.now
      · exact .inl (by rw [htransition])
      · rw [htransition]
        dsimp only
        rw [OrdMap.get_insert]
        split_ifs with hid
        · subst hid
          exact .inr (.inr ⟨request, .expired, hrequest, hpending, fun h => (nomatch h), rfl,
            fun h => (nomatch h)⟩)
        · exact .inl rfl
      · rw [htransition]
        dsimp only
        rw [OrdMap.get_insert]
        split_ifs with hid
        · subst hid
          refine .inr (.inr ⟨request, decision.state, hrequest, hpending, hstate, rfl,
            fun happroved => ⟨decision.now, ?_, hlt⟩⟩)
          rw [howner]
          exact approve_of_decides hdecides happroved
        · exact .inl rfl
  | none =>
      cases op with
      | approve _ _ _ | deny _ _ _ | escalate _ _ _ => cases hdecides
      | drainEvents => exact .inl rfl
      | enqueue id' owner summary classification timeoutTicks now =>
          by_cases hid : id' = id
          · subst hid
            exact .inr (.inl ⟨_, _, _, _, _, rfl, (q.state_of_insert _ _ _ _).trans (if_pos rfl)⟩)
          · exact .inl (OrdMap.get_insert_ne _ hid _)
      | expire now =>
          rw [perform, get_expire]
          cases hrequest : q.requests[id]? with
          | none => exact .inl rfl
          | some request =>
              rw [Option.map_some]
              split_ifs with hdue
              · rw [ConfirmationRequest.due, Bool.and_eq_true, decide_eq_true_iff] at hdue
                exact .inr (.inr ⟨request, .expired, rfl, hdue.1, fun h => (nomatch h), rfl,
                  fun h => (nomatch h)⟩)
              · exact .inl rfl

end ConfirmationQueue

/-! ## What the log tells -/

namespace History

variable {h : History Classification} {op : Op Classification}

theorem step_queue (h : History Classification) (op : Op Classification) :
    (h.step op).queue = h.queue.perform op := rfl

theorem drained_of_decides {decision : Decision} (hdecides : op.decides = some decision) :
    (h.step op).drained = h.drained := by
  cases op with
  | enqueue _ _ _ _ _ _ | expire _ | drainEvents => cases hdecides
  | approve _ _ _ | deny _ _ _ | escalate _ _ _ => rfl

/-- One event for one change. -/
theorem states_of_single {current current' : Uuid → Option ConfirmationState} {id : Uuid}
    {state : ConfirmationState}
    (hcurrent : ∀ j, current' j = if id = j then some state else current j)
    (hchanged : current id ≠ some state) (j : Uuid) :
    statesOf j [(id, state)] = change (current j) (current' j) := by
  rw [states_of_singleton, hcurrent]
  split_ifs with hid
  · subst hid
    rw [change, if_neg hchanged.symm]
    rfl
  · rw [change_self]

/-- A call that is in time writes down the changes that it makes. -/
theorem log_step (hk : h.queue.Keyed) (hfresh : h.Fresh op) (hin : h.InTime op) :
    ∃ new, (h.step op).log = h.log ++ new ∧
      ∀ id, statesOf id new = change (h.queue.stateOf id) ((h.step op).queue.stateOf id) := by
  rw [step_queue]
  cases hdecides : op.decides with
  | some decision =>
      rw [log, step_queue, drained_of_decides hdecides,
        (ConfirmationQueue.perform_of_decides hdecides).1]
      obtain ⟨_, htransition⟩ | ⟨request, hrequest, hpending, howner,
          ⟨hlate, _⟩ | ⟨_, htransition⟩⟩ :=
        h.queue.transition_cases decision.id decision.actor decision.state decision.now
      · rw [htransition]
        exact ⟨[], (List.append_nil _).symm, fun id => (change_self _).symm⟩
      · have hlt := hin decision hdecides request hrequest hpending howner
        exact absurd hlt (UInt64.not_lt.mpr hlate)
      · rw [htransition]
        refine ⟨[(decision.id, decision.state)], ?_, states_of_single
          (h.queue.state_of_insert _ decision.id · _) ?_⟩
        · simp [statesIn, log]
        · rw [ConfirmationQueue.state_of_eq_some hrequest, hpending]
          have hstate := (ConfirmationQueue.perform_of_decides (q := h.queue) hdecides).2
          exact fun hsame => hstate (Option.some.inj hsame).symm
  | none =>
      cases op with
      | approve _ _ _ | deny _ _ _ | escalate _ _ _ => cases hdecides
      | drainEvents =>
          refine ⟨[], ?_, fun id => (change_self _).symm⟩
          show statesIn ((h.drained ++ h.queue.events) ++ []) = _
          rw [List.append_nil, List.append_nil]
          rfl
      | enqueue id owner summary classification timeoutTicks now =>
          refine ⟨[(id, .pending)], ?_, states_of_single (h.queue.state_of_insert _ id · _) ?_⟩
          · show statesIn (h.drained ++ (h.queue.events ++ _)) = _
            rw [← List.append_assoc, statesIn, List.map_append]
            rfl
          · rw [ConfirmationQueue.stateOf, show h.queue.requests[id]? = none from hfresh]
            exact (Option.some_ne_none _).symm
      | expire now =>
          refine ⟨_, ?_, fun id => (hk.states_of_expire now id).trans ?_⟩
          · show statesIn (h.drained ++ (h.queue.events ++ _)) = _
            rw [← List.append_assoc, statesIn, List.map_append]
            rfl
          · rw [ConfirmationQueue.perform, ConfirmationQueue.state_of_expire]
            split_ifs with hexpires
            · rw [ConfirmationQueue.state_of_expires hexpires]
              rfl
            · exact (change_self _).symm

/-- A call in time keeps the events in step. -/
theorem Told.step (ht : h.Told) (hk : h.queue.Keyed) (hfresh : h.Fresh op) (hin : h.InTime op) :
    (h.step op).Told := by
  obtain ⟨new, hlog, hnew⟩ := log_step hk hfresh hin
  rw [Told, hlog]
  refine ht.changes hnew (fun id hnone => ?_) fun id hnone state hstate => ?_
  · obtain hsame | ⟨_, _, _, _, _, _, hpending⟩ | ⟨request, state, _, _, _, hmoved, _⟩ :=
      h.queue.request_cases op id
    · rw [ConfirmationQueue.stateOf, hsame] at hnone
      exact hnone
    · cases hpending.symm.trans hnone
    · cases (ConfirmationQueue.state_of_eq_some hmoved).symm.trans hnone
  · obtain hsame | ⟨_, _, _, _, _, _, hpending⟩ | ⟨request, _, hrequest, _⟩ :=
      h.queue.request_cases op id
    · rw [ConfirmationQueue.stateOf, hsame] at hstate
      cases hnone.symm.trans hstate
    · exact (Option.some.inj (hpending.symm.trans hstate)).symm
    · cases (ConfirmationQueue.state_of_eq_some hrequest).symm.trans hnone

/-- A decision that comes late expires the request, and the log still ends with `Pending`. -/
theorem Told.in_time (ht : h.Told) (ht' : (h.step op).Told) : h.InTime op := by
  intro decision hdecides request hrequest hpending howner
  by_contra hlate
  obtain ⟨hrefused, _⟩ | ⟨request', hrequest', _, _, ⟨_, htransition⟩ | ⟨hlt, _⟩⟩ :=
    h.queue.transition_cases decision.id decision.actor decision.state decision.now
  · exact hrefused request hrequest hpending howner
  · have hqueue : (h.step op).queue = { h.queue with
        requests := h.queue.requests.insert decision.id { request' with state := .expired } } := by
      rw [step_queue, (ConfirmationQueue.perform_of_decides hdecides).1, htransition]
    have hlog : (h.step op).log = h.log := by
      rw [log, hqueue, drained_of_decides hdecides]
      rfl
    have hexpired : (h.step op).queue.stateOf decision.id = some .expired := by
      rw [hqueue, ConfirmationQueue.state_of_insert, if_pos rfl]
    have hlast := ht'.last decision.id
    rw [hlog, ht.last, ConfirmationQueue.state_of_eq_some hrequest, hpending, hexpired] at hlast
    cases hlast
  · obtain rfl := Option.some.inj (hrequest'.symm.trans hrequest)
    exact hlate hlt

theorem fresh_start (id : Uuid) : (start : History Classification).queue.requests[id]? = none := by
  simp [start, ConfirmationQueue.default]

theorem keyed_start : (start : History Classification).queue.Keyed := by
  intro id request hrequest
  exact nomatch (fresh_start id).symm.trans hrequest

theorem told_start : (start : History Classification).Told := by
  have hnone : (start : History Classification).queue.stateOf = fun _ => none := by
    funext id
    rw [ConfirmationQueue.stateOf, fresh_start]
    rfl
  rw [Told, hnone]
  exact faithful_nil

/-- The log of a run always tells the truth exactly when no owner decides on a pending request after
its deadline. -/
theorem told_iff_in_time {ops : List (Op Classification)}
    (hfresh : machine.AllowedRun start ops) :
    machine.Always Told start ops ↔ machine.Throughout InTime start ops :=
  Machine.always_iff (I := fun h => h.queue.Keyed)
    (fun _ _ hk ht hfresh => ⟨ht.in_time, ht.step hk hfresh⟩) (fun _ op hk _ => hk.perform op)
    keyed_start told_start hfresh

/-- A request that its owner approves, and the events. -/
def approval : List (Op Unit) :=
  [.enqueue 1 "agent-a" "Send message" () 5 10, .approve 1 "agent-a" 11, .drainEvents]

theorem approval_told_iff :
    machine.Always Told start approval ↔ machine.Throughout InTime start approval :=
  told_iff_in_time ⟨fresh_start 1, trivial, trivial, trivial⟩

/-- A request that its owner approves at the deadline. -/
def lateApproval : List (Op Unit) :=
  [.enqueue 1 "agent-a" "Send message" () 2 10, .approve 1 "agent-a" 12]

theorem late_approval_not_told :
    ¬ ∀ ops : List (Op Unit), machine.AllowedRun start ops → machine.Always Told start ops := by
  intro hall
  obtain ⟨_, _, htold⟩ := hall lateApproval ⟨fresh_start 1, trivial, trivial⟩
  exact absurd (htold.last 1) (by decide)

end History

end BrowsAI.Transactions

/-!
## Approvals

An approved request has an approval on record that its owner gave in time, and a request that is no
longer pending does not change. Nothing is assumed about the actors or about the ticks of a run.
-/

namespace BrowsAI.Transactions

open Profiles

variable {Classification : Type}

namespace History

variable {h h' : History Classification} {op : Op Classification}

/-- The owner approved the request when it was pending, before its deadline. -/
def ApprovedBy (h : History Classification) (request : ConfirmationRequest Classification) : Prop :=
  ∃ approval ∈ h.approvals, approval.request = { request with state := .pending } ∧
    approval.actor = request.owner ∧ approval.tick < request.expiresAtTick

/-- Every approved request was approved by its owner. -/
def Warranted (h : History Classification) : Prop :=
  ∀ (id : Uuid) (request : ConfirmationRequest Classification),
    h.queue.requests[id]? = some request → request.state = .approved →
      request.id = id ∧ h.ApprovedBy request

/-- Approvals stay on record. -/
theorem ApprovedBy.step {request : ConfirmationRequest Classification} (ha : h.ApprovedBy request)
    (op : Op Classification) : (h.step op).ApprovedBy request := by
  obtain ⟨approval, hmem, happroval⟩ := ha
  refine ⟨approval, ?_, happroval⟩
  cases op with
  | approve _ _ _ => exact List.mem_append_left _ hmem
  | deny _ _ _ | escalate _ _ _ | enqueue _ _ _ _ _ _ | expire _ | drainEvents => exact hmem

/-- A successful approval goes on record. -/
theorem approved_by_approve {id : Uuid} {request : ConfirmationRequest Classification}
    {now : UInt64} (hrequest : h.queue.requests[id]? = some request)
    (hpending : request.state = .pending) (hlt : now < request.expiresAtTick) :
    (h.step (.approve id request.owner now)).ApprovedBy { request with state := .approved } := by
  refine ⟨⟨request.owner, now, request⟩, ?_, ?_, rfl, hlt⟩
  · show _ ∈ h.approvals ++ (h.queue.requests[id]?.map fun request => _).toList
    rw [hrequest]
    exact List.mem_append_right _ List.mem_cons_self
  · dsimp only
    rw [← hpending]

/-- Every call keeps the approvals warranted. -/
theorem Warranted.step (hw : h.Warranted) (hk : h.queue.Keyed) (op : Op Classification) :
    (h.step op).Warranted := by
  intro id request hrequest happroved
  refine ⟨hk.perform op id request hrequest, ?_⟩
  obtain hsame | ⟨_, _, _, _, _, _, hpending⟩ |
      ⟨request', state, hrequest', hpending, _, hmoved, happrove⟩ := h.queue.request_cases op id
  · exact (hw id request (hsame ▸ hrequest) happroved).2.step op
  · have hstate := (ConfirmationQueue.state_of_eq_some hrequest).symm.trans hpending
    rw [happroved] at hstate
    cases hstate
  · obtain rfl := Option.some.inj (hmoved.symm.trans hrequest)
    obtain rfl : state = .approved := happroved
    obtain ⟨now, rfl, hlt⟩ := happrove rfl
    exact approved_by_approve hrequest' hpending hlt

/-- A request that is not pending stays as it is. -/
theorem request_step_of_decided (hfresh : h.Fresh op) {id : Uuid}
    {request : ConfirmationRequest Classification}
    (hrequest : h.queue.requests[id]? = some request) (hdecided : request.state ≠ .pending) :
    (h.step op).queue.requests[id]? = some request := by
  obtain hsame | ⟨_, _, _, _, _, rfl, _⟩ | ⟨request', _, hrequest', hpending, _⟩ :=
    h.queue.request_cases op id
  · exact hsame.trans hrequest
  · exact nomatch hrequest.symm.trans hfresh
  · obtain rfl := Option.some.inj (hrequest'.symm.trans hrequest)
    exact absurd hpending hdecided

/-- A request that is decided stays as it is. -/
theorem request_reaches_of_decided (hrun : machine.Reaches h h') {id : Uuid}
    {request : ConfirmationRequest Classification}
    (hrequest : h.queue.requests[id]? = some request) (hdecided : request.state ≠ .pending) :
    h'.queue.requests[id]? = some request :=
  hrun.invariant (P := fun h' => h'.queue.requests[id]? = some request) hrequest
    fun _ _ hrequest hfresh => request_step_of_decided hfresh hrequest hdecided

/-- In every run an approved request was approved by its owner while it was pending and before its
deadline, and a decided request never changes again. -/
theorem reaches_warranted (hrun : machine.Reaches start h) :
    h.Warranted ∧
      ∀ (id : Uuid) (request : ConfirmationRequest Classification) (h' : History Classification),
        h.queue.requests[id]? = some request → request.state ≠ .pending → machine.Reaches h h' →
          h'.queue.requests[id]? = some request := by
  have hsound : h.queue.Keyed ∧ h.Warranted :=
    hrun.invariant (P := fun h => h.queue.Keyed ∧ h.Warranted)
      ⟨keyed_start, fun id request hrequest _ => nomatch (fresh_start id).symm.trans hrequest⟩
      fun _ op hsound _ => ⟨hsound.1.perform op, hsound.2.step hsound.1 op⟩
  exact ⟨hsound.2, fun _ _ _ hrequest hdecided hlater =>
    request_reaches_of_decided hlater hrequest hdecided⟩

/-- A request that is approved. -/
theorem approval_warranted :
    (machine.run start approval).Warranted ∧
      ∀ (id : Uuid) (request : ConfirmationRequest Unit) (h' : History Unit),
        (machine.run start approval).queue.requests[id]? = some request →
          request.state ≠ .pending → machine.Reaches (machine.run start approval) h' →
            h'.queue.requests[id]? = some request :=
  reaches_warranted (Machine.Reaches.run .refl ⟨fresh_start 1, trivial, trivial, trivial⟩)

end History

end BrowsAI.Transactions
