import BrowsAI.Agents.TakeoverAudit

/-!
# The life cycle of a takeover

A takeover is requested, accepted, possibly paused and resumed, and completed or expired. The
manager refuses moves out of the last two states only, so whether a run keeps to the life cycle is
up to its calls: it does exactly when they are `InOrder`.
-/

namespace BrowsAI.Agents.Takeovers

open StateLog

namespace Manager

variable {m : Manager} {id : TakeoverId} {owner : ControlOwner} {state : TakeoverState}
  {now : UInt64}

/-- A transition is refused for takeovers that are unknown or final, and sets the state of one
otherwise. -/
theorem transition_states (m : Manager) (id : TakeoverId) (owner : ControlOwner)
    (state : TakeoverState) (now : UInt64) :
    ((∀ before, m.stateOf id = some before → final before) ∧
      m.transition id owner state now = (false, m)) ∨
    ∃ before, m.stateOf id = some before ∧ final before = false ∧
      (m.transition id owner state now).1 = true ∧
      ∀ j, (m.transition id owner state now).2.stateOf j =
        if id = j then some state else m.stateOf j := by
  obtain ⟨hover, htransition⟩ | ⟨session, hsession, hfinal, htransition⟩ :=
    m.transition_cases id owner state now
  · refine .inl ⟨fun before hbefore => ?_, htransition⟩
    obtain ⟨session, hsession, rfl⟩ := Option.map_eq_some_iff.mp hbefore
    exact hover session hsession
  · refine .inr ⟨session.state, state_of_eq_some hsession, hfinal, ?_, fun j => ?_⟩
    · rw [htransition]
    · rw [htransition, state_of_insert]

/-- A transition takes effect on a takeover that is not over. -/
theorem transition_eq_true {before : TakeoverState} (hbefore : m.stateOf id = some before)
    (hfinal : final before = false) : (m.transition id owner state now).1 = true := by
  obtain ⟨hover, _⟩ | ⟨_, _, _, htrue, _⟩ := m.transition_states id owner state now
  · rw [hover before hbefore] at hfinal
    cases hfinal
  · exact htrue

/-- A transition that takes effect in one state only finds a takeover that is not over in it. -/
theorem state_eq_of_transition {before required : TakeoverState}
    (hrequires : (m.transition id owner state now).1 = true → m.stateOf id = some required)
    (hbefore : m.stateOf id = some before) (hfinal : final before = false) : before = required :=
  Option.some.inj (hbefore.symm.trans (hrequires (transition_eq_true hbefore hfinal)))

/-- A transition that takes effect moves a takeover that was not over. -/
theorem entered_of_transition (htrue : (m.transition id owner state now).1 = true) :
    (∃ before, m.stateOf id = some before ∧ final before = false) ∧
      (m.transition id owner state now).2.stateOf id = some state := by
  obtain ⟨_, hrefused⟩ | ⟨before, hbefore, hfinal, _, hstate⟩ :=
    m.transition_states id owner state now
  · rw [hrefused] at htrue
    cases htrue
  · exact ⟨⟨before, hbefore, hfinal⟩, (hstate id).trans (if_pos rfl)⟩

end Manager

/-- The takeover that a call moves, and the state that it moves it into. -/
def Op.moves : Op → Option (TakeoverId × TakeoverState)
  | .accept id _ | .resume id _ => some (id, .active)
  | .pause id _ => some (id, .paused)
  | .complete id _ => some (id, .completed)
  | .request _ _ _ _ _ | .expire _ => none

/-- A call leaves a takeover in its state, requests it, moves it, or expires it, the last two out of
a state that is not final. -/
theorem Manager.Keyed.perform_states {m : Manager} (hk : m.Keyed) (op : Op) (id : TakeoverId) :
    (m.perform op).2.stateOf id = m.stateOf id ∨
    (∃ agentId reason timeoutTicks now, op = .request id agentId reason timeoutTicks now ∧
      (m.perform op).2.stateOf id = some .requested) ∨
    ∃ before, m.stateOf id = some before ∧ final before = false ∧
      ((∃ state, op.moves = some (id, state) ∧ (m.perform op).1 = true ∧
          (m.perform op).2.stateOf id = some state) ∨
        (∃ now, op = .expire now) ∧ (m.perform op).2.stateOf id = some .expired) := by
  cases op with
  | request requested agentId reason timeoutTicks now =>
      have hstate : (m.perform (.request requested agentId reason timeoutTicks now)).2.stateOf id =
          if requested = id then some .requested else m.stateOf id := m.state_of_insert _ _ id _
      rw [hstate]
      split_ifs with hid
      · subst hid
        exact .inr (.inl ⟨_, _, _, _, rfl, rfl⟩)
      · exact .inl rfl
  | accept target now | pause target now | resume target now | complete target now =>
      all_goals
        obtain ⟨_, hrefused⟩ | ⟨before, hbefore, hfinal, htrue, hstate⟩ :=
          m.transition_states target .human _ now
        · exact .inl (congrArg (fun result : Bool × Manager => result.2.stateOf id) hrefused)
        · by_cases hid : target = id
          · subst hid
            have henters := (hstate target).trans (if_pos rfl)
            exact .inr (.inr ⟨before, hbefore, hfinal, .inl ⟨_, rfl, htrue, henters⟩⟩)
          · exact .inl ((hstate id).trans (if_neg hid))
  | expire now =>
      show (m.expire now).stateOf id = _ ∨ _
      rw [hk.state_of_expire]
      split_ifs with hexpires
      · obtain ⟨session, hsession, hlive⟩ := (Option.any_eq_true _ _).mp hexpires
        rw [Session.expires, Bool.and_eq_true, Bool.not_eq_true'] at hlive
        refine .inr (.inr
          ⟨session.state, m.state_of_eq_some hsession, hlive.1, .inr ⟨⟨now, rfl⟩, ?_⟩⟩)
        show (m.expire now).stateOf id = _
        rw [hk.state_of_expire, if_pos hexpires]
      · exact .inl rfl

namespace History

variable {h : History} {op : Op}

/-- The generated id of a request is new. -/
def Fresh (h : History) : Op → Prop
  | .request id _ _ _ _ => h.manager.stateOf id = none
  | _ => True

/-- A call keeps to the life cycle. -/
structure KeepsLifeCycle (h : History) (op : Op) : Prop where
  first_active : ∀ id, .active ∉ h.seen id → (h.step op).manager.stateOf id = some .active →
    (∃ now, op = .accept id now) ∧ h.manager.stateOf id = some .requested
  resumed : ∀ id now, op = .resume id now → (h.manager.perform op).1 = true →
    h.manager.stateOf id = some .paused
  paused : ∀ id now, op = .pause id now → (h.manager.perform op).1 = true →
    h.manager.stateOf id = some .active
  completed : ∀ id now, op = .complete id now → (h.manager.perform op).1 = true →
    id ∈ h.accepted
  ended : ∀ id state, h.manager.stateOf id = some state → final state →
    (h.step op).manager.stateOf id = some state

/-- No call resumes, pauses, or completes a takeover that was not accepted, resumes an active one or
pauses a paused one. -/
def InOrder (h : History) : Op → Prop
  | .resume id _ =>
      h.manager.stateOf id ≠ some .requested ∧ h.manager.stateOf id ≠ some .active
  | .pause id _ => h.manager.stateOf id ≠ some .requested ∧ h.manager.stateOf id ≠ some .paused
  | .complete id _ => h.manager.stateOf id ≠ some .requested
  | _ => True

/-! ## The invariant -/

theorem Sound.mem_seen (hs : h.Sound) {id : TakeoverId} {state : TakeoverState}
    (hstate : h.manager.stateOf id = some state) : state ∈ h.seen id := by
  rw [← hs.faithful.last, hs.faithful.replayed] at hstate
  exact List.mem_of_getLast? hstate

/-- Takeovers that are active or paused were accepted, and the accepted ones were requested
before. -/
structure Ordered (h : History) : Prop where
  sound : h.Sound
  started : ∀ id, h.manager.stateOf id = some .active ∨ h.manager.stateOf id = some .paused →
    .active ∈ h.seen id ∧ id ∈ h.accepted
  requested : ∀ id ∈ h.accepted,
    h.manager.stateOf id ≠ some .requested ∧ h.manager.stateOf id ≠ none

theorem step_manager (h : History) (op : Op) : (h.step op).manager = (h.manager.perform op).2 := rfl

theorem ordered_start : start.Ordered where
  sound := sound_start
  started id hstate := by
    rw [state_of_start] at hstate
    exact absurd hstate (by decide)
  requested _ hmem := nomatch hmem

/-- A takeover joins the accepted ones by an `accept` that takes effect. -/
theorem mem_accepted_step {id : TakeoverId} :
    id ∈ (h.step op).accepted ↔
      id ∈ h.accepted ∨ (∃ now, op = .accept id now) ∧ (h.manager.perform op).1 = true := by
  cases op with
  | accept target now =>
      show id ∈ (if (h.manager.perform (.accept target now)).1 then target :: h.accepted
        else h.accepted) ↔ _
      split_ifs with hresult
      · simp [hresult, or_comm, eq_comm]
      · simp [hresult]
  | request _ _ _ _ _ | pause _ _ | resume _ _ | complete _ _ | expire _ =>
      exact ⟨.inl, fun hmem => hmem.resolve_right fun hnew => nomatch hnew.1⟩

/-- A takeover that is not over was requested only, or it was active. -/
theorem Ordered.live_cases (ho : h.Ordered) {id : TakeoverId} {before : TakeoverState}
    (hbefore : h.manager.stateOf id = some before) (hfinal : final before = false) :
    before = .requested ∨ .active ∈ h.seen id ∧ id ∈ h.accepted := by
  cases before with
  | requested => exact .inl rfl
  | active => exact .inr (ho.started id (.inl hbefore))
  | paused => exact .inr (ho.started id (.inr hbefore))
  | completed | expired => cases hfinal

/-- A call that is in order moves a takeover that was requested only by accepting it. -/
theorem Ordered.moves_cases (ho : h.Ordered) (horder : h.InOrder op) {id : TakeoverId}
    {before state : TakeoverState} (hmoves : op.moves = some (id, state))
    (hbefore : h.manager.stateOf id = some before) (hfinal : final before = false) :
    (∃ now, op = .accept id now) ∨ .active ∈ h.seen id ∧ id ∈ h.accepted := by
  have hlive := ho.live_cases hbefore hfinal
  cases op with
  | request _ _ _ _ _ | expire _ => cases hmoves
  | accept target now => exact .inl ⟨now, by rw [(Prod.mk.inj (Option.some.inj hmoves)).1]⟩
  | resume target now | pause target now =>
      obtain ⟨rfl, _⟩ := Prod.mk.inj (Option.some.inj hmoves)
      refine .inr (hlive.resolve_left fun hrequested => ?_)
      exact horder.1 (hrequested ▸ hbefore)
  | complete target now =>
      obtain ⟨rfl, _⟩ := Prod.mk.inj (Option.some.inj hmoves)
      refine .inr (hlive.resolve_left fun hrequested => ?_)
      exact horder (hrequested ▸ hbefore)

/-- A call in order keeps the invariant. -/
theorem Ordered.step (ho : h.Ordered) (hfresh : h.Fresh op) (horder : h.InOrder op) :
    (h.step op).Ordered := by
  have hs' : (h.step op).Sound := ho.sound.step op
  refine ⟨hs', fun id hstate => ?_, fun id hmem => ?_⟩
  · obtain hsame | ⟨_, _, _, _, _, hrequested⟩ |
        ⟨before, hbefore, hfinal, ⟨state, hmoves, htrue, henters⟩ | ⟨_, hexpired⟩⟩ :=
      ho.sound.keyed.perform_states op id
    · have hold : h.manager.stateOf id = some .active ∨ h.manager.stateOf id = some .paused := by
        rw [← hsame]
        exact hstate
      obtain ⟨hactive, haccepted⟩ := ho.started id hold
      exact ⟨List.mem_append_left _ hactive, mem_accepted_step.mpr (.inl haccepted)⟩
    · rw [step_manager, hrequested] at hstate
      exact absurd hstate (by decide)
    · obtain ⟨now, rfl⟩ | ⟨hactive, haccepted⟩ := ho.moves_cases horder hmoves hbefore hfinal
      · obtain ⟨_, rfl⟩ := Prod.mk.inj (Option.some.inj hmoves)
        exact ⟨hs'.mem_seen henters, mem_accepted_step.mpr (.inr ⟨⟨now, rfl⟩, htrue⟩)⟩
      · exact ⟨List.mem_append_left _ hactive, mem_accepted_step.mpr (.inl haccepted)⟩
    · rw [step_manager, hexpired] at hstate
      exact absurd hstate (by decide)
  · rw [step_manager]
    obtain hold | ⟨⟨now, rfl⟩, htrue⟩ := mem_accepted_step.mp hmem
    · obtain hsame | ⟨_, _, _, _, rfl, _⟩ |
          ⟨_, _, _, ⟨state, hmoves, _, henters⟩ | ⟨_, hexpired⟩⟩ :=
        ho.sound.keyed.perform_states op id
      · rw [hsame]
        exact ho.requested id hold
      · exact absurd hfresh (ho.requested id hold).2
      · rw [henters]
        cases op <;> cases hmoves <;> decide
      · rw [hexpired]
        decide
    · rw [show (h.manager.perform (.accept id now)).2.stateOf id = _ from
        (Manager.entered_of_transition htrue).2]
      decide

/-! ## Runs that keep to the life cycle -/

/-- A call that keeps the life cycle is in order. -/
theorem Ordered.in_order_of_keeps (ho : h.Ordered) (hkeeps : h.KeepsLifeCycle op) :
    h.InOrder op := by
  cases op with
  | request _ _ _ _ _ | accept _ _ | expire _ => exact trivial
  | resume target now =>
      have hpaused := hkeeps.resumed target now rfl
      constructor
      · intro hstate
        cases Manager.state_eq_of_transition hpaused hstate rfl
      · intro hstate
        cases Manager.state_eq_of_transition hpaused hstate rfl
  | pause target now =>
      have hactive := hkeeps.paused target now rfl
      constructor
      · intro hstate
        cases Manager.state_eq_of_transition hactive hstate rfl
      · intro hstate
        cases Manager.state_eq_of_transition hactive hstate rfl
  | complete target now =>
      intro hstate
      have haccepted := hkeeps.completed target now rfl (Manager.transition_eq_true hstate rfl)
      exact (ho.requested target haccepted).1 hstate

/-- A call in order keeps the life cycle. -/
theorem Ordered.keeps_of_in_order (ho : h.Ordered) (hfresh : h.Fresh op) (horder : h.InOrder op) :
    h.KeepsLifeCycle op where
  first_active id hnever hstate := by
    obtain hsame | ⟨_, _, _, _, _, hrequested⟩ |
        ⟨before, hbefore, hfinal, ⟨state, hmoves, _, henters⟩ | ⟨_, hexpired⟩⟩ :=
      ho.sound.keyed.perform_states op id
    · rw [step_manager, hsame] at hstate
      exact absurd (ho.sound.mem_seen hstate) hnever
    · rw [step_manager, hrequested] at hstate
      cases hstate
    · refine ⟨(ho.moves_cases horder hmoves hbefore hfinal).resolve_right fun h => hnever h.1, ?_⟩
      have hlive := (ho.live_cases hbefore hfinal).resolve_right fun h => hnever h.1
      rw [hbefore, hlive]
    · rw [step_manager, hexpired] at hstate
      cases hstate
  resumed id now hop htrue := by
    subst hop
    obtain ⟨⟨before, hbefore, hfinal⟩, _⟩ := Manager.entered_of_transition htrue
    cases before with
    | paused => exact hbefore
    | requested => exact absurd hbefore horder.1
    | active => exact absurd hbefore horder.2
    | completed | expired => cases hfinal
  paused id now hop htrue := by
    subst hop
    obtain ⟨⟨before, hbefore, hfinal⟩, _⟩ := Manager.entered_of_transition htrue
    cases before with
    | active => exact hbefore
    | requested => exact absurd hbefore horder.1
    | paused => exact absurd hbefore horder.2
    | completed | expired => cases hfinal
  completed id now hop htrue := by
    subst hop
    obtain ⟨⟨before, hbefore, hfinal⟩, _⟩ := Manager.entered_of_transition htrue
    have hstarted := (ho.live_cases hbefore hfinal).resolve_left fun h => horder (h ▸ hbefore)
    exact hstarted.2
  ended id state hstate hover := by
    obtain hsame | ⟨_, _, _, _, rfl, _⟩ | ⟨before, hbefore, hfinal, _⟩ :=
      ho.sound.keyed.perform_states op id
    · rw [step_manager, hsame, hstate]
    · exact nomatch hfresh.symm.trans hstate
    · rw [Option.some.inj (hbefore.symm.trans hstate), hover] at hfinal
      cases hfinal

/-- A run keeps to the life cycle exactly when its calls are in order. -/
theorem keeps_iff_in_order {ops : List Op} (hfresh : (machine Fresh).AllowedRun start ops) :
    (machine Fresh).Throughout KeepsLifeCycle start ops ↔
      (machine Fresh).Throughout InOrder start ops :=
  Machine.throughout_congr (I := Ordered)
    (fun _ _ ho hfresh => ⟨ho.in_order_of_keeps, ho.keeps_of_in_order hfresh⟩)
    (fun _ _ ho hfresh horder => ho.step hfresh horder) ordered_start hfresh

theorem handover_keeps_iff :
    (machine Fresh).Throughout KeepsLifeCycle start handover ↔
      (machine Fresh).Throughout InOrder start handover :=
  keeps_iff_in_order ⟨state_of_start 1, trivial, trivial, trivial, trivial, trivial⟩

/-- A takeover that was never accepted becomes active by `resume`. -/
theorem resume_not_kept :
    ¬ ∀ ops : List Op, (machine Fresh).AllowedRun start ops →
      (machine Fresh).Throughout KeepsLifeCycle start ops := by
  intro hall
  obtain ⟨_, hkeeps, _⟩ := hall [.request 1 "agent-a" "challenge: hcaptcha" 50 10, .resume 1 11]
    ⟨state_of_start 1, trivial, trivial⟩
  have hpaused := hkeeps.resumed 1 11 rfl (by decide)
  revert hpaused
  decide

end History

end BrowsAI.Agents.Takeovers
