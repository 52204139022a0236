import BrowsAI.Agents.TakeoverLifeCycle

/-!
# Deadlines of takeovers

No call but `expire` looks at the deadline of a takeover. A takeover is expired when a sweep came at
or after its deadline, so a run keeps to the deadlines exactly when every late call comes after such
a sweep.
-/

namespace BrowsAI.Agents.Takeovers

open StateLog

namespace Manager

/-- A call that moves a takeover is a transition of the human. -/
theorem perform_of_moves (m : Manager) {op : Op} {id : TakeoverId} {state : TakeoverState}
    (hmoves : op.moves = some (id, state)) :
    m.perform op = m.transition id .human state op.tick := by
  cases op with
  | request _ _ _ _ _ | expire _ => cases hmoves
  | accept target now | pause target now | resume target now | complete target now =>
      obtain ⟨rfl, rfl⟩ := Prod.mk.inj (Option.some.inj hmoves)
      rfl

end Manager

namespace History

variable {h : History} {op : Op}

/-- A takeover that is over was completed or expired. -/
theorem eq_expired_of_final {state : TakeoverState} (hfinal : final state)
    (hcompleted : state ≠ .completed) : state = .expired := by
  cases state with
  | expired => rfl
  | completed => exact absurd rfl hcompleted
  | requested | active | paused => cases hfinal

/-- A call does not activate or complete a takeover that is due. -/
def KeepsDeadlines (h : History) (op : Op) : Prop :=
  ∀ (id : TakeoverId) (state : TakeoverState) (session : Session),
    op.moves = some (id, state) → state ≠ .paused → h.manager.sessions[id]? = some session →
      session.state ≠ state → (h.step op).manager.stateOf id = some state →
        op.tick < session.expiresAtTick

/-- Before a call that would activate or complete a takeover that is due, a sweep came at or after
its deadline, or it was completed, or it is in that state already. -/
def SweptBefore (h : History) (op : Op) : Prop :=
  ∀ (id : TakeoverId) (state : TakeoverState) (session : Session),
    op.moves = some (id, state) → state ≠ .paused → h.manager.sessions[id]? = some session →
      session.expiresAtTick ≤ op.tick →
        session.state = state ∨ session.state = .completed ∨
          ∃ tick ∈ h.sweeps id, session.expiresAtTick ≤ tick

/-- A takeover that was not completed is expired when a sweep came at or after its deadline. -/
structure Timed (h : History) : Prop where
  keyed : h.manager.Keyed
  expired_iff : ∀ (id : TakeoverId) (session : Session), h.manager.sessions[id]? = some session →
    session.state ≠ .completed →
      (session.state = .expired ↔ ∃ tick ∈ h.sweeps id, session.expiresAtTick ≤ tick)

theorem timed_start : start.Timed where
  keyed := sound_start.keyed
  expired_iff id session hsession := by simp [start, Manager.default] at hsession

theorem sweeps_of_moves {id : TakeoverId} {state : TakeoverState}
    (hmoves : op.moves = some (id, state)) : (h.step op).sweeps = h.sweeps := by
  cases op with
  | request _ _ _ _ _ | expire _ => cases hmoves
  | accept _ _ | pause _ _ | resume _ _ | complete _ _ => rfl

theorem state_ne_expired_of_moves {id : TakeoverId} {state : TakeoverState}
    (hmoves : op.moves = some (id, state)) : state ≠ .expired := by
  cases op <;> cases hmoves <;> decide

/-- Moving a takeover that is not over keeps its deadline. -/
theorem Timed.step_of_moves (ht : h.Timed) {id : TakeoverId} {state : TakeoverState}
    (hmoves : op.moves = some (id, state)) : (h.step op).Timed := by
  refine ⟨ht.keyed.perform op, ?_⟩
  rw [sweeps_of_moves hmoves, step_manager, h.manager.perform_of_moves hmoves]
  obtain ⟨_, hrefused⟩ | ⟨before, hbefore, hfinal, htransition⟩ :=
    h.manager.transition_cases id .human state op.tick
  · rw [hrefused]
    exact ht.expired_iff
  · rw [htransition]
    intro j session hsession hstate
    dsimp only at hsession
    rw [OrdMap.get_insert] at hsession
    split_ifs at hsession with hj
    · subst hj
      obtain rfl := Option.some.inj hsession
      have hnot : before.state ≠ .completed ∧ before.state ≠ .expired := by
        constructor <;> intro hover <;> rw [hover] at hfinal <;> cases hfinal
      refine iff_of_false (state_ne_expired_of_moves hmoves) ?_
      rw [← ht.expired_iff id before hbefore hnot.1]
      exact hnot.2
    · exact ht.expired_iff j session hsession hstate

/-- A new takeover has its deadline ahead. -/
theorem Timed.request (ht : h.Timed) (id : TakeoverId) (agentId reason : Utf8.Text)
    (timeoutTicks now : UInt64) : (h.step (.request id agentId reason timeoutTicks now)).Timed := by
  refine ⟨ht.keyed.request id agentId reason timeoutTicks now, fun j session hsession hstate => ?_⟩
  rw [step_manager, Manager.perform, Manager.request] at hsession
  dsimp only at hsession
  rw [OrdMap.get_insert] at hsession
  rw [show (h.step (.request id agentId reason timeoutTicks now)).sweeps j =
    if id = j then [] else h.sweeps j from rfl]
  split_ifs at hsession with hj
  · obtain rfl := Option.some.inj hsession
    rw [if_pos hj]
    refine iff_of_false (fun hstate => ?_) fun hswept => ?_
    · cases hstate
    · obtain ⟨_, hmem, _⟩ := hswept
      cases hmem
  · rw [if_neg hj]
    exact ht.expired_iff j session hsession hstate

/-- A sweep leaves no takeover behind its deadline. -/
theorem Timed.expire (ht : h.Timed) (now : UInt64) : (h.step (.expire now)).Timed := by
  refine ⟨ht.keyed.expire now, fun j session hsession hstate => ?_⟩
  rw [show (h.step (.expire now)).sweeps j = now :: h.sweeps j from rfl]
  rw [step_manager, Manager.perform] at hsession
  dsimp only at hsession
  rw [ht.keyed.get_expire, Option.map_eq_some_iff] at hsession
  obtain ⟨before, hbefore, rfl⟩ := hsession
  rw [List.exists_mem_cons_iff]
  split_ifs at hstate ⊢ with hexpires
  · rw [Session.expires, Bool.and_eq_true, Bool.not_eq_true', decide_eq_true_iff] at hexpires
    rw [Session.expired, hexpires.1]
    exact iff_of_true rfl (.inl hexpires.2)
  · rw [ht.expired_iff j before hbefore hstate]
    refine ⟨.inr, fun hswept => hswept.elim (fun hdue => ?_) id⟩
    -- due but not expired by this sweep: it was over already
    have hover : final before.state = true := by
      rw [Session.expires, Bool.and_eq_true, Bool.not_eq_true', decide_eq_true_iff] at hexpires
      exact Bool.eq_true_of_not_eq_false fun hlive => hexpires ⟨hlive, hdue⟩
    rw [← ht.expired_iff j before hbefore hstate]
    exact eq_expired_of_final hover hstate

theorem Timed.step (ht : h.Timed) (op : Op) : (h.step op).Timed := by
  cases op with
  | request id agentId reason timeoutTicks now =>
      exact ht.request id agentId reason timeoutTicks now
  | accept id now | pause id now | resume id now | complete id now => exact ht.step_of_moves rfl
  | expire now => exact ht.expire now

/-- A takeover that is over stays in its state when a call would move it. -/
theorem state_of_moves_over {id : TakeoverId} {state : TakeoverState} {session : Session}
    (hmoves : op.moves = some (id, state)) (hsession : h.manager.sessions[id]? = some session)
    (hover : final session.state) :
    (h.step op).manager.stateOf id = some session.state := by
  rw [step_manager, h.manager.perform_of_moves hmoves]
  obtain ⟨_, hrefused⟩ | ⟨session', hsession', hfinal, _⟩ :=
    h.manager.transition_cases id .human state op.tick
  · rw [hrefused]
    exact h.manager.state_of_eq_some hsession
  · rw [Option.some.inj (hsession'.symm.trans hsession), hover] at hfinal
    cases hfinal

theorem state_of_moves_live {id : TakeoverId} {state : TakeoverState} {session : Session}
    (hmoves : op.moves = some (id, state)) (hsession : h.manager.sessions[id]? = some session)
    (hlive : final session.state = false) : (h.step op).manager.stateOf id = some state := by
  rw [step_manager, h.manager.perform_of_moves hmoves]
  exact (Manager.entered_of_transition
    (Manager.transition_eq_true (h.manager.state_of_eq_some hsession) hlive)).2

/-- A call that keeps the deadlines comes behind a sweep, if it needs one. -/
theorem Timed.swept_of_keeps (ht : h.Timed) (hkeeps : h.KeepsDeadlines op) : h.SweptBefore op := by
  intro id state session hmoves hpaused hsession hdue
  by_cases hsame : session.state = state
  · exact .inl hsame
  · right
    cases hfinal : final session.state with
    | false =>
        have hlt := hkeeps id state session hmoves hpaused hsession hsame
          (state_of_moves_live hmoves hsession hfinal)
        exact absurd hlt (UInt64.not_lt.mpr hdue)
    | true =>
        by_cases hcompleted : session.state = .completed
        · exact .inl hcompleted
        · right
          rw [← ht.expired_iff id session hsession hcompleted]
          exact eq_expired_of_final hfinal hcompleted

/-- A call behind a sweep keeps the deadlines. -/
theorem Timed.keeps_of_swept (ht : h.Timed) (hswept : h.SweptBefore op) : h.KeepsDeadlines op := by
  intro id state session hmoves hpaused hsession hchanged hentered
  by_contra hlate
  have hover : final session.state = true := by
    obtain hsame | hcompleted | htick :=
      hswept id state session hmoves hpaused hsession (UInt64.not_lt.mp hlate)
    · exact absurd hsame hchanged
    · rw [hcompleted]
      rfl
    · by_cases hcompleted : session.state = .completed
      · rw [hcompleted]
        rfl
      · rw [(ht.expired_iff id session hsession hcompleted).mpr htick]
        rfl
  rw [state_of_moves_over hmoves hsession hover] at hentered
  exact hchanged (Option.some.inj hentered)

/-- A run keeps to the deadlines exactly when every call that would break one comes after a sweep,
whatever the clock does and whether or not the generated ids are fresh. -/
theorem keeps_deadlines_iff (ops : List Op) :
    (machine fun _ _ => True).Throughout KeepsDeadlines start ops ↔
      (machine fun _ _ => True).Throughout SweptBefore start ops := by
  have hallowed : ∀ (ops : List Op) (h : History), (machine fun _ _ => True).AllowedRun h ops := by
    intro ops
    induction ops with
    | nil => exact fun _ => trivial
    | cons op ops ih => exact fun _ => ⟨trivial, ih _⟩
  exact Machine.throughout_congr (I := Timed)
    (fun _ _ ht _ => ⟨ht.swept_of_keeps, ht.keeps_of_swept⟩) (fun _ op ht _ _ => ht.step op)
    timed_start (hallowed ops start)

/-- A takeover is accepted at its deadline. -/
theorem late_accept_not_kept :
    ¬ ∀ ops : List Op, (machine Fresh).AllowedRun start ops →
      (ops.map Op.tick).Pairwise (· ≤ ·) →
        (machine Fresh).Throughout KeepsDeadlines start ops := by
  intro hall
  obtain ⟨_, hkeeps, _⟩ := hall [.request 1 "agent-a" "challenge: hcaptcha" 50 10, .accept 1 60]
    ⟨state_of_start 1, trivial, trivial⟩ (by decide)
  have hlt := hkeeps 1 .active ⟨⟨.agent, .requested, 60⟩, 1, "agent-a", "challenge: hcaptcha"⟩ rfl
    (by decide) (by decide) (by decide) (by decide)
  exact absurd hlt (by decide)

end History

end BrowsAI.Agents.Takeovers
