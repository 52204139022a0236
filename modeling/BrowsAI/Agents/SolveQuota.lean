import BrowsAI.Agents.Budgets

/-!
# The quota of a session that solves challenges

The gates in front of a challenge authorise an attempt without charging it to the session:
`perform_of_granted` says that a granted call leaves the system as it is. So a session keeps to its
quota as long as no attempt is granted, `charges_le_spent`, and an attempt that is granted once can
be repeated until the quota is exceeded.
-/

namespace BrowsAI.Agents

open Utf8 Std AgentTree AgentRuntime

/-- The session for which a call asks to solve. -/
def Op.solver : Op → Option AgentSessionId
  | .attemptSolveChallenge id _ _ _ _ | .attemptChallengeClick id _ _ _ _ _ _
  | .attemptChallengeClickWithTrajectory id _ _ _ _ _ _
  | .solveObservedChallenges id _ _ _ _ _ => some id
  | _ => none

/-- The session for which a call consumes an action. -/
def Op.actor : Op → Option AgentSessionId
  | .consumeAction id _ | .startScript id _ => some id
  | _ => none

/-- The gate lets the call through for the session, to at least one challenge. -/
def Op.Granted (s : System) (id : AgentSessionId) : Op → Prop
  | .attemptSolveChallenge session _ takeoverId takeovers now
  | .attemptChallengeClick session _ _ _ takeoverId takeovers now
  | .attemptChallengeClickWithTrajectory session _ _ _ takeoverId takeovers now =>
      session = id ∧ s.runtime.MaySolve id takeoverId takeovers now
  | .solveObservedChallenges session _ tree takeovers now _ =>
      session = id ∧ observedChallenges tree ≠ [] ∧ s.runtime.MaySolve id none takeovers now
  | _ => False

theorem Op.Granted.solver {s : System} {id : AgentSessionId} {op : Op} (h : op.Granted s id) :
    op.solver = some id := by
  cases op with
  | attemptSolveChallenge | attemptChallengeClick | attemptChallengeClickWithTrajectory
  | solveObservedChallenges => exact congrArg some h.1
  | _ => exact h.elim

/-- A session to which an attempt is granted is open. -/
theorem Op.Granted.found {s : System} {id : AgentSessionId} {op : Op} (h : op.Granted s id) :
    ∃ session, s.runtime.sessions[id]? = some session := by
  have hmay : ∃ takeoverId takeovers now, s.runtime.MaySolve id takeoverId takeovers now := by
    cases op with
    | attemptSolveChallenge | attemptChallengeClick | attemptChallengeClickWithTrajectory =>
        exact ⟨_, _, _, h.2⟩
    | solveObservedChallenges => exact ⟨_, _, _, h.2.2⟩
    | _ => exact h.elim
  obtain ⟨takeoverId, takeovers, now, session, hlive, -⟩ := hmay
  exact ⟨session, hlive.found⟩

/-! ## Actions used -/

theorem Change.actions_le {s s' : AgentSession} (h : Change s s') :
    s.actionsUsed.toNat ≤ s'.actionsUsed.toNat := by
  cases h with
  | same | state | event | output => exact Nat.le_refl _
  | action hlive hroom =>
      have := s.limits.maxActions.toNat_lt
      rw [UInt64.lt_iff_toNat_lt] at hroom
      show s.actionsUsed.toNat ≤ (s.actionsUsed + 1).toNat
      rw [UInt64.toNat_add, UInt64.toNat_one]
      omega

namespace AgentRuntime

variable {r r' : AgentRuntime} {id : AgentSessionId}

/-- The actions that a session has used. -/
def spent (r : AgentRuntime) (id : AgentSessionId) : Nat :=
  (r.sessions[id]?.map fun session => session.actionsUsed.toNat).getD 0

theorem spent_eq {session : AgentSession} (h : r.sessions[id]? = some session) :
    r.spent id = session.actionsUsed.toNat := by
  rw [spent, h]
  rfl

theorem Advances.spent_le (h : Advances r r') (id : AgentSessionId) : r.spent id ≤ r'.spent id := by
  cases hsession : r.sessions[id]? with
  | none =>
      rw [spent, hsession]
      exact Nat.zero_le _
  | some session =>
      obtain ⟨session', hsession', hchange⟩ := h.sessions.old id session hsession
      rw [spent_eq hsession, spent_eq hsession']
      exact hchange.actions_le

/-- A granted action is charged. -/
theorem spent_consume_action {capability : Capability}
    (h : (r.consumeAction id capability).1 = .ok ()) :
    (r.consumeAction id capability).2.spent id = r.spent id + 1 := by
  obtain ⟨error, r', hrefused, -⟩ | ⟨session, hlive, hrunning⟩ := r.require_running_cases id
  · simp only [consumeAction, hrefused] at h
    cases h
  · simp only [consumeAction, hrunning, hlive.found] at h ⊢
    split_ifs at h ⊢ with hdenied hquota
    have hroom := UInt64.not_le.mp hquota
    have := session.limits.maxActions.toNat_lt
    rw [UInt64.lt_iff_toNat_lt] at hroom
    rw [spent_eq hlive.found, spent_eq (OrdMap.get_insert_self _ _ _), UInt64.toNat_add,
      UInt64.toNat_one]
    omega

end AgentRuntime

/-- A script that starts is charged as an action. -/
theorem AgentScriptRuntime.spent_start {scripts : AgentScriptRuntime} {r : AgentRuntime}
    {id : AgentSessionId} {request : AgentScriptRequest}
    (h : (Outcome.of (scripts.start r id request).1).succeeded) :
    (scripts.start r id request).2.2.spent id = r.spent id + 1 := by
  simp only [start] at h ⊢
  split_ifs at h ⊢
  · cases h
  · cases h
  cases hfound : r.sessions[id]? with
  | none =>
      simp only [hfound] at h
      cases h
  | some found =>
      simp only [hfound] at h ⊢
      split_ifs at h ⊢
      · cases h
      cases hconsume : r.consumeAction id .executeAgentScript with
      | mk result r' =>
          simp only [hconsume] at h ⊢
          cases result with
          | error error => cases h
          | ok =>
              have hspent := spent_consume_action (congrArg Prod.fst hconsume)
              rwa [hconsume] at hspent

/-! ## Runs with their charges -/

namespace System

variable [Pointer]

/-- The attempts that the call authorises for the session. -/
def authorised (s : System) (id : AgentSessionId) (op : Op) : Nat :=
  if op.solver = some id then (s.perform op).1.audits.length else 0

/-- The actions that the call consumes of the session. -/
def consumed (s : System) (id : AgentSessionId) (op : Op) : Nat :=
  if op.actor = some id ∧ (s.perform op).1.succeeded then 1 else 0

/-- The system after a sequence of calls. -/
def run (s : System) (ops : List Op) : System := ops.foldl (fun s op => (s.perform op).2) s

/-- The authorised attempts and the consumed actions of the session in a sequence of calls. -/
def charges (id : AgentSessionId) : System → List Op → Nat
  | _, [] => 0
  | s, op :: ops => s.authorised id op + s.consumed id op + charges id (s.perform op).2 ops

/-- The ids of new sessions are not taken. -/
def FreshRun : System → List Op → Prop
  | _, [] => True
  | s, op :: ops => s.Fresh op ∧ FreshRun (s.perform op).2 ops

/-- No attempt is granted to the session. -/
def NoneGranted (id : AgentSessionId) : System → List Op → Prop
  | _, [] => True
  | s, op :: ops => ¬ op.Granted s id ∧ NoneGranted id (s.perform op).2 ops

/-- The charges of the session are within its quota. -/
def QuotaKept (s : System) (id : AgentSessionId) (ops : List Op) : Prop :=
  ∀ session, (s.run ops).runtime.sessions[id]? = some session →
    s.charges id ops ≤ session.limits.maxActions.toNat

variable {s : System} {id : AgentSessionId}

theorem run_cons (s : System) (op : Op) (ops : List Op) :
    s.run (op :: ops) = (s.perform op).2.run ops := rfl

theorem run_append (s : System) (ops ops' : List Op) :
    s.run (ops ++ ops') = (s.run ops).run ops' := by
  simp [run]

theorem charges_append (s : System) (ops ops' : List Op) :
    s.charges id (ops ++ ops') = s.charges id ops + (s.run ops).charges id ops' := by
  induction ops generalizing s with
  | nil => simp [charges, run]
  | cons op ops ih =>
      rw [List.cons_append, charges, charges, ih, run_cons]
      omega

theorem fresh_run_append (s : System) (ops ops' : List Op) :
    s.FreshRun (ops ++ ops') ↔ s.FreshRun ops ∧ (s.run ops).FreshRun ops' := by
  induction ops generalizing s with
  | nil => simp [FreshRun, run]
  | cons op ops ih =>
      rw [List.cons_append, FreshRun, FreshRun, ih, run_cons, and_assoc]

theorem reaches_run (ops : List Op) (hfresh : s.FreshRun ops) : s.Reaches (s.run ops) := by
  induction ops generalizing s with
  | nil => exact .refl
  | cons op ops ih => exact .head ⟨op, hfresh.1, rfl⟩ (ih hfresh.2)

/-! ## One call -/

omit [Pointer] in
/-- A gate for one attempt: a refused attempt has no audit event, and a granted one has an event and
changes nothing. -/
theorem on_gate_single {ε : Type} {may : Prop} {result : Except ε SolveAuditEvent × AgentRuntime}
    (h : (¬ may ∧ ∃ error r', result = (.error error, r')) ∨
      may ∧ ∃ event, result = (.ok event, s.runtime)) :
    (¬ may ∧ (s.onGate (single result)).1.audits = []) ∨
      may ∧ (s.onGate (single result)).2 = s ∧ (s.onGate (single result)).1.audits ≠ [] := by
  obtain ⟨hnot, error, r', rfl⟩ | ⟨hmay, event, rfl⟩ := h
  · exact .inl ⟨hnot, rfl⟩
  · exact .inr ⟨hmay, rfl, List.cons_ne_nil _ _⟩

omit [Pointer] in
/-- An attempt that names its target in the event is granted like any other. -/
theorem on_target_cases (r : AgentRuntime) (id : AgentSessionId) (pageId : UInt64)
    (provider : Text) (targetNodeId : Option AgentNodeId) (takeoverId : Option TakeoverId)
    (takeovers : TakeoverManager) (now : UInt64) :
    (¬ r.MaySolve id takeoverId takeovers now ∧ ∃ error r',
        r.attemptChallengeClick id pageId provider targetNodeId takeoverId takeovers now =
          (.error error, r')) ∨
      r.MaySolve id takeoverId takeovers now ∧ ∃ event,
        r.attemptChallengeClick id pageId provider targetNodeId takeoverId takeovers now =
          (.ok event, r) := by
  rw [attemptChallengeClick]
  obtain ⟨hnot, error, r', hattempt, -⟩ | ⟨hmay, event, hattempt⟩ :=
    r.attempt_solve_cases id provider takeoverId takeovers now
  · rw [hattempt]
    exact .inl ⟨hnot, error, r', rfl⟩
  · rw [hattempt]
    exact .inr ⟨hmay, _, rfl⟩

/-- An attempt that is not granted has no audit event, and one that is granted has an event and
changes nothing. -/
theorem solver_cases {op : Op} (hop : op.solver = some id) :
    (¬ op.Granted s id ∧ (s.perform op).1.audits = []) ∨
      op.Granted s id ∧ (s.perform op).2 = s ∧ (s.perform op).1.audits ≠ [] := by
  cases op with
  | attemptSolveChallenge session provider takeoverId takeovers now =>
      cases hop
      have hgranted : (Op.attemptSolveChallenge id provider takeoverId takeovers now).Granted s id ↔
          s.runtime.MaySolve id takeoverId takeovers now := and_iff_right rfl
      rw [hgranted]
      refine on_gate_single ?_
      obtain ⟨hnot, error, r', hattempt, -⟩ | ⟨hmay, event, hattempt⟩ :=
        s.runtime.attempt_solve_cases id provider takeoverId takeovers now
      · exact .inl ⟨hnot, error, r', hattempt⟩
      · exact .inr ⟨hmay, event, hattempt⟩
  | attemptChallengeClick session pageId provider targetNodeId takeoverId takeovers now =>
      cases hop
      have hgranted : (Op.attemptChallengeClick id pageId provider targetNodeId takeoverId takeovers
          now).Granted s id ↔ s.runtime.MaySolve id takeoverId takeovers now := and_iff_right rfl
      rw [hgranted]
      exact on_gate_single (on_target_cases _ id pageId provider targetNodeId takeoverId takeovers
        now)
  | attemptChallengeClickWithTrajectory session pageId targetNodeId provider takeoverId takeovers
      now =>
      cases hop
      have hgranted : (Op.attemptChallengeClickWithTrajectory id pageId targetNodeId provider
          takeoverId takeovers now).Granted s id ↔
            s.runtime.MaySolve id takeoverId takeovers now := and_iff_right rfl
      rw [hgranted]
      exact on_gate_single (on_target_cases _ id pageId provider targetNodeId takeoverId takeovers
        now)
  | solveObservedChallenges session pageId tree takeovers now cursorOrigin =>
      cases hop
      simp only [perform, solveObservedChallenges]
      obtain ⟨⟨-, hnot⟩, error, r', hsolve, -⟩ | ⟨hmay, events, hlength, hsolve⟩ :=
        solve_challenges_cases pageId id takeovers now (observedChallenges tree) cursorOrigin []
          s.runtime
      · rw [hsolve]
        exact .inl ⟨fun hgranted => hnot hgranted.2.2, rfl⟩
      · rw [hsolve]
        rw [List.length_nil, Nat.zero_add] at hlength
        -- without a challenge the call succeeds and attempts nothing
        by_cases hnone : observedChallenges tree = []
        · rw [hnone] at hlength
          exact .inl ⟨fun hgranted => hgranted.2.1 hnone, List.length_eq_zero_iff.mp hlength⟩
        · refine .inr ⟨⟨rfl, hnone, hmay.resolve_left hnone⟩, rfl, fun hevents => ?_⟩
          replace hevents : events = [] := hevents
          rw [hevents] at hlength
          exact hnone (List.length_eq_zero_iff.mp hlength.symm)
  | _ => cases hop

/-- An attempt that is not granted authorises nothing. -/
theorem authorised_of_not_granted {op : Op} (h : ¬ op.Granted s id) : s.authorised id op = 0 := by
  rw [authorised]
  split_ifs with hop
  · obtain ⟨-, haudits⟩ | ⟨hgranted, -⟩ := solver_cases (s := s) hop
    · rw [haudits, List.length_nil]
    · exact absurd hgranted h
  · rfl

/-- A granted attempt is authorised, and leaves the system as it is. -/
theorem perform_of_granted {op : Op} (h : op.Granted s id) :
    (s.perform op).2 = s ∧ 0 < s.authorised id op := by
  have hop := h.solver
  rw [authorised, if_pos hop]
  obtain ⟨hnot, -⟩ | ⟨-, hsame, haudits⟩ := solver_cases (s := s) hop
  · exact absurd h hnot
  · exact ⟨hsame, List.length_pos_iff.mpr haudits⟩

/-- What a call consumes is charged to the session. -/
theorem consumed_add_spent_le {op : Op} (hfresh : s.Fresh op) :
    s.consumed id op + s.runtime.spent id ≤ (s.perform op).2.runtime.spent id := by
  have hle := (s.perform_advances op hfresh).spent_le id
  rw [consumed]
  split_ifs with hconsumed
  swap
  · omega
  obtain ⟨hactor, hok⟩ := hconsumed
  refine Nat.le_of_eq ?_
  rw [Nat.add_comm]
  cases op with
  | consumeAction session capability =>
      cases hactor
      exact (spent_consume_action (consume_action_of_succeeded hok)).symm
  | startScript session request =>
      cases hactor
      exact (AgentScriptRuntime.spent_start hok).symm
  | _ => cases hactor

/-! ## The quota -/

/-- Without granted attempts every charge is an action used. -/
theorem charges_le_spent (ops : List Op) (hfresh : s.FreshRun ops)
    (hnone : s.NoneGranted id ops) :
    s.charges id ops + s.runtime.spent id ≤ (s.run ops).runtime.spent id := by
  induction ops generalizing s with
  | nil => simp [charges, run]
  | cons op ops ih =>
      have hrest := ih hfresh.2 hnone.2
      have hstep : s.consumed id op + s.runtime.spent id ≤ (s.perform op).2.runtime.spent id :=
        consumed_add_spent_le hfresh.1
      rw [charges, authorised_of_not_granted hnone.1, run_cons]
      omega

/-- A granted attempt can be repeated, and each time authorises one more. -/
theorem le_charges_replicate {op : Op} (hgranted : op.Granted s id) (n : Nat) :
    n ≤ s.charges id (List.replicate n op) ∧ s.run (List.replicate n op) = s ∧
      s.FreshRun (List.replicate n op) := by
  obtain ⟨hsame, hpos⟩ := perform_of_granted hgranted
  have hfresh : s.Fresh op := by
    cases op with
    | openSession => exact hgranted.elim
    | _ => trivial
  induction n with
  | zero => exact ⟨Nat.le_refl _, rfl, trivial⟩
  | succ n ih =>
      obtain ⟨hcharges, hrun, hfreshRun⟩ := ih
      rw [List.replicate_succ]
      refine ⟨?_, ?_, hfresh, hsame.symm ▸ hfreshRun⟩
      · rw [charges, hsame]
        omega
      · rw [run_cons, hsame, hrun]

/-- A run in which no attempt is granted to a session keeps to its quota. After one that is granted
the run can be continued, by the same attempt, beyond the quota. -/
theorem solve_quota (policy : SandboxPolicy) (ops : List Op) (id : AgentSessionId)
    (hfresh : (new policy).FreshRun ops) :
    ((new policy).NoneGranted id ops → (new policy).QuotaKept id ops) ∧
      ∀ op : Op, op.Granted ((new policy).run ops) id →
        ∃ n, (new policy).FreshRun (ops ++ List.replicate n op) ∧
          ¬ (new policy).QuotaKept id (ops ++ List.replicate n op) := by
  constructor
  · intro hnone session hsession
    have hcharges := charges_le_spent ops hfresh hnone
    have hwithin := (reaches_within (reaches_run ops hfresh) id session hsession).actions
    rw [spent_eq hsession] at hcharges
    rw [UInt64.le_iff_toNat_le] at hwithin
    omega
  · intro op hgranted
    -- a granted attempt leaves the system as it is, so it is granted again and again
    obtain ⟨session, hsession⟩ : ∃ session,
        ((new policy).run ops).runtime.sessions[id]? = some session :=
      hgranted.found
    refine ⟨session.limits.maxActions.toNat + 1, ?_, fun hkept => ?_⟩
    · rw [fresh_run_append]
      exact ⟨hfresh, (le_charges_replicate hgranted _).2.2⟩
    · obtain ⟨hcharges, hrun, -⟩ :=
        le_charges_replicate hgranted (session.limits.maxActions.toNat + 1)
      have hquota := hkept session (by rw [run_append, hrun, hsession])
      rw [charges_append] at hquota
      omega

end System

/-- One action for a session that may solve. -/
def oneAction : AgentLimits := { (default : AgentLimits) with maxActions := 1 }

theorem opened_solve_quota :
    let _ := Pointer.exact
    (System.new .autonomousAgent).QuotaKept 1
      [.openSession 1 [.render] oneAction, .start 1, .consumeAction 1 .render] := by
  intro pointer
  have hfresh : (System.new .autonomousAgent).FreshRun
      [.openSession 1 [.render] oneAction, .start 1, .consumeAction 1 .render] := by
    simp [System.FreshRun, System.Fresh, System.new, AgentRuntime.new]
  exact (System.solve_quota .autonomousAgent _ 1 hfresh).1 ⟨id, id, id, trivial⟩

/-- Two attempts without a human are authorised for a session with one action. -/
theorem solves_beyond_quota :
    ¬ ∀ (_ : Pointer) (policy : SandboxPolicy) (ops : List Op) (id : AgentSessionId),
      (System.new policy).FreshRun ops → (System.new policy).QuotaKept id ops := by
  intro h
  let attempt : Op := .attemptSolveChallenge 1 "turnstile" none ⟨∅⟩ 0
  have hfresh : @System.FreshRun Pointer.exact (.new .autonomousAgent)
      [.openSession 1 [.solveChallenge] oneAction, .start 1, attempt, attempt] := by
    simp [System.FreshRun, System.Fresh, System.new, AgentRuntime.new, attempt]
  have hquota := h Pointer.exact .autonomousAgent _ 1 hfresh
  have hsession : ((@System.run Pointer.exact (.new .autonomousAgent)
      [.openSession 1 [.solveChallenge] oneAction, .start 1, attempt, attempt]).runtime.sessions[
        (1 : AgentSessionId)]?.map fun session => session.limits) = some oneAction := by
    decide
  obtain ⟨session, hfound, hlimits⟩ := Option.map_eq_some_iff.mp hsession
  have hcharges := hquota session hfound
  rw [hlimits] at hcharges
  revert hcharges
  decide

end BrowsAI.Agents
