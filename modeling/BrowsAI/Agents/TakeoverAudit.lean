import BrowsAI.Agents.Takeovers

/-!
# The audit log of takeovers

What a sweep of `expire` does to each takeover and to the log, and from it that the audit log of
every run tells for every takeover the states it went through.
-/

namespace BrowsAI.Agents.Takeovers

open Std StateLog

/-- A sweep expires the takeover. -/
def Session.expires (session : Session) (now : UInt64) : Bool :=
  !final session.state && session.expiresAtTick ≤ now

/-- A takeover after `transition` to the expired state. -/
def Session.expired (session : Session) : Session :=
  if final session.state then session else { session with owner := .agent, state := .expired }

@[simp] theorem Session.final_expired (session : Session) : final session.expired.state = true := by
  rw [expired]
  split_ifs with hfinal
  · exact hfinal
  · rfl

theorem Session.expired_expired (session : Session) : session.expired.expired = session.expired :=
  if_pos session.final_expired

namespace Manager

variable {m : Manager} {now : UInt64}

/-- A sweep expires the takeover that has the id. -/
def expires (m : Manager) (now : UInt64) (id : TakeoverId) : Bool :=
  m.sessions[id]?.any fun session => session.expires now

/-- The takeover is known and not over. -/
def live (m : Manager) (id : TakeoverId) : Bool :=
  m.sessions[id]?.any fun session => !final session.state

/-- The transitions of a sweep. -/
def expireIds (now : UInt64) (m : Manager) (ids : List TakeoverId) : Manager :=
  ids.foldl (fun m id => (m.transition id .agent .expired now).2) m

/-- A takeover that expires, if there is one, and no other. -/
theorem get_transition_expired (m : Manager) (id j : TakeoverId) :
    (m.transition id .agent .expired now).2.sessions[j]? =
      if id = j then m.sessions[j]?.map Session.expired else m.sessions[j]? := by
  obtain ⟨hover, htransition⟩ | ⟨session, hsession, hfinal, htransition⟩ :=
    m.transition_cases id .agent .expired now
  · rw [htransition]
    split_ifs with hj
    · subst hj
      cases hsession : m.sessions[id]? with
      | none => rfl
      | some session => rw [Option.map_some, Session.expired, if_pos (hover session hsession)]
    · rfl
  · rw [htransition]
    dsimp only
    rw [OrdMap.get_insert]
    split_ifs with hj
    · subst hj
      rw [hsession, Option.map_some, Session.expired, hfinal]
      rfl
    · rfl

/-- A takeover that a sweep goes through twice is expired once. -/
theorem get_expire_ids (m : Manager) (ids : List TakeoverId) (j : TakeoverId) :
    (expireIds now m ids).sessions[j]? =
      if j ∈ ids then m.sessions[j]?.map Session.expired else m.sessions[j]? := by
  induction ids generalizing m with
  | nil => simp [expireIds]
  | cons id ids ih =>
      rw [expireIds, List.foldl_cons, ← expireIds, ih, get_transition_expired]
      by_cases hj : id = j
      · subst hj
        rw [if_pos rfl, if_pos List.mem_cons_self]
        split_ifs
        · rw [Option.map_map]
          exact congrArg (Option.map · _) (funext Session.expired_expired)
        · rfl
      · rw [if_neg hj]
        have hmem : j ∈ id :: ids ↔ j ∈ ids := by simp [Ne.symm hj]
        simp only [hmem]

/-- It is not live any more. -/
theorem live_transition (m : Manager) (id j : TakeoverId) :
    (m.transition id .agent .expired now).2.live j = (m.live j && id ≠ j) := by
  rw [live, get_transition_expired]
  by_cases hj : id = j
  · subst hj
    rw [if_pos rfl]
    cases hsession : m.sessions[id]? with
    | none => simp
    | some session => simp
  · rw [if_neg hj]
    simp [live, hj]

/-- The events of a sweep: one for each of the takeovers that are not over. -/
theorem audit_expire_ids (m : Manager) (ids : List TakeoverId) :
    ∃ events, (expireIds now m ids).audit = m.audit ++ events ∧
      ∀ j : TakeoverId, (events.filter fun event => event.takeoverId = j) =
        if j ∈ ids ∧ m.live j then [⟨j, .expired, now⟩] else [] := by
  induction ids generalizing m with
  | nil => exact ⟨[], (List.append_nil _).symm, fun j => by simp⟩
  | cons id ids ih =>
      obtain ⟨events, haudit, hevents⟩ := ih (m.transition id .agent .expired now).2
      rw [expireIds, List.foldl_cons, ← expireIds, haudit]
      obtain ⟨hover, htransition⟩ | ⟨session, hsession, hfinal, htransition⟩ :=
        m.transition_cases id .agent .expired now
      · -- refused: the takeover is not among those that are not over
        have hlive : m.live id = false := by
          cases hid : m.sessions[id]? with
          | none => rw [live, hid]; rfl
          | some session => rw [live, hid, Option.any_some, hover session hid]; rfl
        refine ⟨events, by rw [htransition], fun j => ?_⟩
        rw [hevents, htransition]
        by_cases hj : j = id
        · subst hj
          simp [hlive]
        · simp [hj]
      · refine ⟨⟨id, .expired, now⟩ :: events, ?_, fun j => ?_⟩
        · rw [htransition]
          simp
        · rw [List.filter_cons, hevents, live_transition]
          by_cases hj : id = j
          · subst hj
            have hlive : m.live id = true := by
              rw [live, hsession, Option.any_some, hfinal]
              rfl
            simp [hlive]
          · simp [hj, Ne.symm hj]

/-- The takeovers that are due: those that are not completed and whose tick has come. -/
theorem Keyed.mem_due_ids (hk : m.Keyed) {j : TakeoverId} :
    j ∈ m.dueIds now ↔ ∃ session : Session, m.sessions[j]? = some session ∧
      session.state ≠ .completed ∧ session.expiresAtTick ≤ now := by
  simp only [dueIds, List.mem_map, List.mem_filter, Prod.exists, exists_eq_right,
    ExtTreeMap.mem_toList_iff_getElem?_eq_some, Bool.and_eq_true, decide_eq_true_eq]
  constructor
  · rintro ⟨session, ⟨⟨id, hid⟩, hdue⟩, hj⟩
    rw [hk id session hid] at hj
    exact ⟨session, hj ▸ hid, hdue⟩
  · rintro ⟨session, hj, hdue⟩
    exact ⟨session, ⟨⟨j, hj⟩, hdue⟩, hk j session hj⟩

/-- A sweep expires the takeovers that are due and not over, and nothing else. -/
theorem Keyed.get_expire (hk : m.Keyed) (now : UInt64) (j : TakeoverId) :
    (m.expire now).sessions[j]? =
      m.sessions[j]?.map fun session =>
        if session.expires now then session.expired else session := by
  refine (get_expire_ids m (m.dueIds now) j).trans ?_
  simp only [hk.mem_due_ids]
  cases hj : m.sessions[j]? with
  | none => simp
  | some session =>
      simp only [Option.some.injEq, exists_eq_left', Option.map_some, Session.expires]
      obtain ⟨⟨owner, state, deadline⟩, id, agentId, reason⟩ := session
      cases state <;> by_cases hdue : deadline ≤ now <;> simp [hdue, final, Session.expired]

/-- A sweep writes one event for each takeover that it expires. -/
theorem Keyed.audit_expire (hk : m.Keyed) (now : UInt64) :
    ∃ events, (m.expire now).audit = m.audit ++ events ∧
      ∀ j : TakeoverId, (events.filter fun event => event.takeoverId = j) =
        if m.expires now j then [⟨j, .expired, now⟩] else [] := by
  obtain ⟨events, haudit, hevents⟩ := audit_expire_ids m (m.dueIds now)
  refine ⟨events, haudit, fun j => ?_⟩
  rw [hevents]
  refine if_congr ?_ rfl rfl
  rw [hk.mem_due_ids, live, expires]
  cases hj : m.sessions[j]? with
  | none => simp
  | some session =>
      simp only [Option.some.injEq, exists_eq_left', Option.any_some, Session.expires]
      cases hstate : session.state <;> simp [final]

theorem Keyed.expire (hk : m.Keyed) (now : UInt64) : (m.expire now).Keyed := by
  refine OrdMap.KeyedBy.map (f := Session.id) hk (hk.get_expire now) fun session => ?_
  rw [Session.expired]
  split_ifs
  · rfl
  · rfl
  · rfl

theorem Keyed.perform (hk : m.Keyed) (op : Op) : (m.perform op).2.Keyed := by
  cases op with
  | request id agentId reason timeoutTicks now =>
      exact hk.request id agentId reason timeoutTicks now
  | accept id now | pause id now | resume id now | complete id now => exact hk.transition
  | expire now => exact hk.expire now

/-! ## What a call does to a state and to the log -/

/-- The states that a takeover enters in a call: the state after a call on it that takes effect,
else the change of its state. -/
def visited (m : Manager) (op : Op) (id : TakeoverId) : List TakeoverState :=
  let (result, m') := m.perform op
  if result ∧ op.target = some id then (m'.stateOf id).toList
  else change (m.stateOf id) (m'.stateOf id)

/-- Events without their ticks. -/
def statesIn (events : List TakeoverAuditEvent) : List (TakeoverId × TakeoverState) :=
  events.map fun event => (event.takeoverId, event.state)

theorem states_of_states_in (events : List TakeoverAuditEvent) (id : TakeoverId) :
    statesOf id (statesIn events) =
      (events.filter fun event => event.takeoverId = id).map TakeoverAuditEvent.state := by
  rw [statesOf, statesIn, List.filter_map, List.map_map]
  rfl

/-- The state of each takeover after one of them is stored. -/
theorem state_of_insert (m : Manager) (audit : List TakeoverAuditEvent) (id j : TakeoverId)
    (session : Session) :
    stateOf ⟨m.sessions.insert id session, audit⟩ j =
      if id = j then some session.state else m.stateOf j := by
  rw [stateOf, OrdMap.get_insert]
  split_ifs <;> rfl

/-- What `expire` does to each takeover. -/
theorem Keyed.state_of_expire (hk : m.Keyed) (now : UInt64) (id : TakeoverId) :
    (m.expire now).stateOf id = if m.expires now id then some .expired else m.stateOf id := by
  rw [stateOf, hk.get_expire, expires, stateOf]
  cases m.sessions[id]? with
  | none => rfl
  | some session =>
      simp only [Option.map_some, Option.any_some]
      split_ifs with hexpires
      · have hlive : final session.state = false := by
          rw [Session.expires, Bool.and_eq_true, Bool.not_eq_true'] at hexpires
          exact hexpires.1
        rw [Session.expired, hlive]
        rfl
      · rfl

theorem visited_expire (m : Manager) (now : UInt64) (id : TakeoverId) :
    m.visited (.expire now) id = change (m.stateOf id) ((m.expire now).stateOf id) := by
  simp [visited, perform, Op.target]

/-- A takeover that a sweep expires is not expired. -/
theorem state_of_expires {id : TakeoverId} (hexpires : m.expires now id) :
    some .expired ≠ m.stateOf id := by
  intro h
  obtain ⟨session, hsession, hstate⟩ := Option.map_eq_some_iff.mp h.symm
  rw [expires, hsession, Option.any_some, Session.expires, hstate] at hexpires
  cases hexpires

/-- The entries that a call adds to the log are the states that takeovers enter in it. -/
structure Records (m : Manager) (op : Op) (events : List TakeoverAuditEvent) : Prop where
  audit : (m.perform op).2.audit = m.audit ++ events
  states : ∀ id, statesOf id (statesIn events) = m.visited op id
  last : ∀ id, (m.perform op).2.stateOf id =
    (statesOf id (statesIn events)).getLast?.or (m.stateOf id)
  first : ∀ id, m.stateOf id = none → ∀ state ∈ (statesOf id (statesIn events)).head?,
    state = .requested

/-- A call that takes effect on one takeover writes one event. -/
theorem records_single {op : Op} {m' : Manager} {id : TakeoverId} {state : TakeoverState}
    {tick : UInt64} (hperform : m.perform op = (true, m')) (htarget : op.target = some id)
    (haudit : m'.audit = m.audit ++ [⟨id, state, tick⟩])
    (hstate : ∀ j, m'.stateOf j = if id = j then some state else m.stateOf j)
    (hfirst : m.stateOf id = none → state = .requested) :
    m.Records op [⟨id, state, tick⟩] where
  audit := by rw [hperform, haudit]
  states j := by
    rw [statesIn, List.map_singleton, states_of_singleton, visited, hperform, htarget]
    dsimp only
    rw [hstate]
    by_cases hj : id = j
    · simp [hj]
    · simp [hj]
  last j := by
    rw [statesIn, List.map_singleton, states_of_singleton, hperform, hstate]
    split_ifs <;> rfl
  first j hnone state' hmem := by
    rw [statesIn, List.map_singleton, states_of_singleton] at hmem
    split_ifs at hmem with hj
    · rw [← Option.mem_some.mp hmem]
      have hid : id = j := hj
      exact hfirst (hid ▸ hnone)
    · cases hmem

/-- A transition is recorded as one event, or as none if it is refused. -/
theorem records_transition {op : Op} {id : TakeoverId} {owner : ControlOwner}
    {state : TakeoverState} (hperform : m.perform op = m.transition id owner state now)
    (htarget : op.target = some id) : ∃ events, m.Records op events := by
  obtain ⟨_, htransition⟩ | ⟨session, hsession, _, htransition⟩ :=
    m.transition_cases id owner state now
  · rw [htransition] at hperform
    refine ⟨[], ?_, fun j => ?_, fun j => ?_, fun j _ state' hmem => nomatch hmem⟩
    · rw [hperform, List.append_nil]
    · rw [visited, hperform]
      simp [statesIn]
    · rw [hperform]
      rfl
  · rw [htransition] at hperform
    refine ⟨_, records_single hperform htarget rfl (fun j => ?_) fun hnone => ?_⟩
    · rw [state_of_insert]
    · rw [stateOf, hsession] at hnone
      cases hnone

/-- Every call is recorded as it changes the states. -/
theorem Keyed.records (hk : m.Keyed) (op : Op) : ∃ events, m.Records op events := by
  cases op with
  | request id agentId reason timeoutTicks now =>
      exact ⟨_, records_single rfl rfl rfl (state_of_insert m _ id · _) fun _ => rfl⟩
  | accept id now | pause id now | resume id now | complete id now =>
      exact records_transition rfl rfl
  | expire now =>
      obtain ⟨events, haudit, hevents⟩ := hk.audit_expire now
      have hstates : ∀ id, statesOf id (statesIn events) =
          if m.expires now id then [.expired] else [] := by
        intro id
        rw [states_of_states_in, hevents]
        split_ifs <;> rfl
      refine ⟨events, haudit, fun id => ?_, fun id => ?_, fun id hnone state hmem => ?_⟩
      · rw [hstates, visited_expire, hk.state_of_expire]
        split_ifs with hexpires
        · rw [change, if_neg (state_of_expires hexpires)]
          rfl
        · exact (change_self _).symm
      · show (m.expire now).stateOf id = _
        rw [hk.state_of_expire, hstates]
        split_ifs <;> rfl
      · rw [hstates] at hmem
        rw [stateOf, Option.map_eq_none_iff] at hnone
        rw [expires, hnone, Option.any_none] at hmem
        cases hmem

end Manager

/-! ## Histories -/

/-- A manager, with the states that each takeover went through, the takeovers that an `accept` took
effect on, and the ticks of the sweeps since each takeover was requested. -/
structure History where
  manager : Manager
  seen : TakeoverId → List TakeoverState
  accepted : List TakeoverId
  sweeps : TakeoverId → List UInt64

namespace History

/-- Nothing has happened. -/
def start : History := ⟨.default, fun _ => [], [], fun _ => []⟩

/-- A call, with the states that each takeover goes through and those that were accepted. -/
def step (h : History) (op : Op) : History :=
  let (result, manager) := h.manager.perform op
  { manager
    seen id := h.seen id ++ h.manager.visited op id
    accepted := match op with
      | .accept id _ => if result then id :: h.accepted else h.accepted
      | _ => h.accepted
    sweeps id := match op with
      | .request requested _ _ _ _ => if requested = id then [] else h.sweeps id
      | .expire now => now :: h.sweeps id
      | _ => h.sweeps id }

/-- The runs in which every call satisfies a condition. -/
def machine (Allows : History → Op → Prop) : Machine History Op := ⟨step, Allows⟩

/-- The log of a history is faithful, a refused call changes nothing, and a sweep writes one event
for each takeover that it expires. -/
structure Audited (h : History) : Prop where
  faithful : Faithful .requested h.manager.log h.seen h.manager.stateOf
  refused : ∀ op, (h.manager.perform op).1 = false →
    (∃ id, op.target = some id ∧ ∀ state, h.manager.stateOf id = some state → final state) ∧
      (h.manager.perform op).2 = h.manager
  swept : ∀ now, ∃ events, (h.manager.expire now).audit = h.manager.audit ++ events ∧
    ∀ id, (events.filter fun event => event.takeoverId = id) =
      if (h.manager.expire now).stateOf id = some .expired ∧ h.manager.stateOf id ≠ some .expired
      then [⟨id, .expired, now⟩] else []

variable {h : History}

/-- The invariant: takeovers are stored under their ids, and the log tells their states. -/
structure Sound (h : History) : Prop where
  keyed : h.manager.Keyed
  faithful : Faithful .requested h.manager.log h.seen h.manager.stateOf

theorem state_of_start (id : TakeoverId) : start.manager.stateOf id = none := by
  simp [start, Manager.stateOf, Manager.default]

theorem sound_start : start.Sound where
  keyed _ _ hsession := by simp [start, Manager.default] at hsession
  faithful := by
    rw [show start.manager.stateOf = fun _ => none from funext state_of_start]
    exact faithful_nil

/-- Every call keeps the invariant. -/
theorem Sound.step (hs : h.Sound) (op : Op) : (h.step op).Sound := by
  obtain ⟨events, hrecords⟩ := hs.keyed.records op
  refine ⟨hs.keyed.perform op, ?_⟩
  have hlog : (h.step op).manager.log = h.manager.log ++ Manager.statesIn events := by
    show List.map _ (h.manager.perform op).2.audit = _
    rw [hrecords.audit, List.map_append]
    rfl
  rw [hlog]
  refine hs.faithful.append (fun id => ?_) hrecords.last hrecords.first
  rw [hrecords.states]
  rfl

theorem reaches_sound {Allows : History → Op → Prop} (hrun : (machine Allows).Reaches start h) :
    h.Sound :=
  hrun.invariant sound_start fun _ op hs _ => hs.step op

/-- A transition that is refused found no takeover or a final one, and changes nothing. -/
theorem refused_of_transition {m : Manager} {id : TakeoverId} {owner : ControlOwner}
    {state : TakeoverState} {now : UInt64} (hfalse : (m.transition id owner state now).1 = false) :
    (∀ state', m.stateOf id = some state' → final state') ∧
      (m.transition id owner state now).2 = m := by
  obtain ⟨hover, htransition⟩ | ⟨session, _, _, htransition⟩ :=
    m.transition_cases id owner state now
  · refine ⟨fun state' hstate => ?_, by rw [htransition]⟩
    obtain ⟨session, hsession, rfl⟩ := Option.map_eq_some_iff.mp hstate
    exact hover session hsession
  · rw [htransition] at hfalse
    cases hfalse

/-- The audit log of every run tells what happened to every takeover, whether or not the generated
ids are fresh. -/
theorem reaches_audited (hrun : (machine fun _ _ => True).Reaches start h) : h.Audited where
  faithful := (reaches_sound hrun).faithful
  refused op hfalse := by
    cases op with
    | request id agentId reason timeoutTicks now => cases hfalse
    | accept id now | pause id now | resume id now | complete id now =>
        obtain ⟨hover, hsame⟩ := refused_of_transition hfalse
        exact ⟨⟨id, rfl, hover⟩, hsame⟩
    | expire now => cases hfalse
  swept now := by
    have hk := (reaches_sound hrun).keyed
    obtain ⟨events, haudit, hevents⟩ := hk.audit_expire now
    refine ⟨events, haudit, fun id => ?_⟩
    rw [hevents, hk.state_of_expire]
    by_cases hexpires : h.manager.expires now id
    · rw [if_pos hexpires, if_pos hexpires, if_pos ⟨rfl, (Manager.state_of_expires hexpires).symm⟩]
    · rw [if_neg hexpires, if_neg hexpires, if_neg fun hboth => hboth.2 hboth.1]

/-- A request that is accepted, paused, resumed, and then expires. -/
def handover : List Op :=
  [.request 1 "agent-a" "challenge: hcaptcha" 50 10, .accept 1 12, .pause 1 13, .resume 1 15,
    .expire 60]

theorem handover_audited : ((machine fun _ _ => True).run start handover).Audited :=
  reaches_audited (Machine.Reaches.run .refl ⟨trivial, trivial, trivial, trivial, trivial, trivial⟩)

end History

end BrowsAI.Agents.Takeovers
