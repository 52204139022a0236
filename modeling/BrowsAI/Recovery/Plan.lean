import BrowsAI.Recovery.State
import Mathlib.Algebra.Order.Group.Multiset
import Mathlib.Tactic.Abel

/-!
# The restore after a crash

What a plan has steps for, and `RecoveryPlan::restore`, which follows it. A target may fail at every
call. Wrapped in `logged` it behaves the same and keeps the calls with their results, so that what
`restore` does can be read off the log.
-/

namespace BrowsAI.Recovery

open Utf8

/-! ## What the plan has steps for -/

theorem map_resource_add (phase : RecoveryPhase) (resources : List RecoveryResource) :
    (add phase resources).map RecoveryStep.resource = resources := by
  rw [add, List.map_map]
  exact List.map_id _

/-- The steps have all that is recorded, with its multiplicity, exactly when the tabs have all that is
recorded as cookies and downloads. -/
theorem subperm_steps_iff (state : SessionRecoveryState) :
    state.collections.flatten.Subperm (state.steps.map RecoveryStep.resource) ↔
      (state.cookies ++ state.downloads).Subperm state.tabs := by
  simp only [SessionRecoveryState.steps, SessionRecoveryState.collections, List.map_append,
    map_resource_add, List.flatten_cons, List.flatten_nil, List.append_nil]
  rw [← Multiset.coe_le, ← Multiset.coe_le]
  simp only [← Multiset.coe_add]
  -- tabs have two phases each; the other collections one, except cookies and downloads
  have hrest := add_le_add_iff_left (a := ((state.profiles : Multiset RecoveryResource) +
    state.workspaces + state.tabs + state.storage + state.agentSessions + state.locks +
    state.pendingConfirmations)) (b := (state.cookies : Multiset RecoveryResource) +
    state.downloads) (c := (state.tabs : Multiset RecoveryResource))
  rw [← hrest]
  refine iff_of_eq (congrArg₂ (· ≤ ·) ?_ ?_) <;> abel

/-- The plan of an accepted state restores all that is recorded, with its multiplicity, exactly when
the tabs have all that is recorded as cookies and downloads. -/
theorem plan_complete_iff (state : SessionRecoveryState) (hvalid : state.validate = .ok ()) :
    ∃ plan, state.plan = .ok plan ∧
      (state.collections.flatten.Subperm (plan.steps.map RecoveryStep.resource) ↔
        (state.cookies ++ state.downloads).Subperm state.tabs) :=
  ⟨⟨state.steps⟩, SessionRecoveryState.plan_eq_ok_iff.mpr ⟨hvalid, rfl⟩, subperm_steps_iff state⟩

/-- A resource without metadata. -/
def plainResource (id : Text) : RecoveryResource := ⟨id, 1, ∅, none⟩

/-- A state with a profile, a workspace, two tabs, the download that one of them shows, an area of
storage and a lock. -/
def downloadState : SessionRecoveryState := { (default : SessionRecoveryState) with
  profiles := [plainResource "profile-1"]
  tabs := [plainResource "tab-1", plainResource "report.pdf"]
  storage := [plainResource "https://shop.example"]
  downloads := [plainResource "report.pdf"]
  workspaces := [plainResource "workspace-1"]
  locks := [plainResource "tab-1"] }

theorem download_plan_complete : ∃ plan, downloadState.plan = .ok plan ∧
    downloadState.collections.flatten.Subperm (plan.steps.map RecoveryStep.resource) := by
  obtain ⟨plan, hplan, hcomplete⟩ := plan_complete_iff downloadState rfl
  have hshown : [plainResource "report.pdf"].Sublist
      [plainResource "tab-1", plainResource "report.pdf"] := .cons _ (.refl _)
  exact ⟨plan, hplan, hcomplete.mpr hshown.subperm⟩

/-- A state with one cookie. -/
def cookieState : SessionRecoveryState := { (default : SessionRecoveryState) with
  cookies := [plainResource "session-cookie"] }

/-- A recorded cookie has no step. -/
theorem cookie_plan_not_complete :
    ¬ ∀ (state : SessionRecoveryState) (plan : RecoveryPlan), state.validate = .ok () →
      state.plan = .ok plan →
        state.collections.flatten.Subperm (plan.steps.map RecoveryStep.resource) := by
  intro hall
  have hcomplete := (subperm_steps_iff cookieState).mp (hall cookieState ⟨cookieState.steps⟩ rfl rfl)
  exact absurd hcomplete.length_le (by decide)

/-! ## Targets -/

/-- A value that resources are restored to; a call may fail. -/
structure RecoveryTarget (σ ε : Type) where
  restoreProfile : RecoveryResource → σ → Except ε Unit × σ
  restoreWorkspace : RecoveryResource → σ → Except ε Unit × σ
  restoreTab : RecoveryResource → σ → Except ε Unit × σ
  restoreNavigation : RecoveryResource → σ → Except ε Unit × σ
  restoreStorage : RecoveryResource → σ → Except ε Unit × σ
  restoreAgentSession : RecoveryResource → σ → Except ε Unit × σ
  restoreLock : RecoveryResource → σ → Except ε Unit × σ
  restoreConfirmation : RecoveryResource → σ → Except ε Unit × σ

section Targets

variable {σ ε : Type}

/-- The call that `restore` makes for a step. -/
def RecoveryTarget.call (target : RecoveryTarget σ ε) (step : RecoveryStep) :
    σ → Except ε Unit × σ :=
  match step.phase with
  | .profiles => target.restoreProfile step.resource
  | .workspaces => target.restoreWorkspace step.resource
  | .tabs => target.restoreTab step.resource
  | .navigation => target.restoreNavigation step.resource
  | .storage => target.restoreStorage step.resource
  | .agentSessions => target.restoreAgentSession step.resource
  | .locks => target.restoreLock step.resource
  | .pendingConfirmations => target.restoreConfirmation step.resource

/-- The calls made so far, with their results. -/
abbrev CallLog (ε : Type) := List (RecoveryStep × Except ε Unit)

/-- A call that is logged under a phase. -/
def logCall (phase : RecoveryPhase) (call : RecoveryResource → σ → Except ε Unit × σ)
    (resource : RecoveryResource) (state : σ × CallLog ε) : Except ε Unit × σ × CallLog ε :=
  let (result, s) := call resource state.1
  (result, s, state.2 ++ [(⟨phase, resource⟩, result)])

/-- The target that logs the calls of its methods. -/
def RecoveryTarget.logged (target : RecoveryTarget σ ε) : RecoveryTarget (σ × CallLog ε) ε where
  restoreProfile := logCall .profiles target.restoreProfile
  restoreWorkspace := logCall .workspaces target.restoreWorkspace
  restoreTab := logCall .tabs target.restoreTab
  restoreNavigation := logCall .navigation target.restoreNavigation
  restoreStorage := logCall .storage target.restoreStorage
  restoreAgentSession := logCall .agentSessions target.restoreAgentSession
  restoreLock := logCall .locks target.restoreLock
  restoreConfirmation := logCall .pendingConfirmations target.restoreConfirmation

/-- A call on the target that keeps a log. -/
theorem RecoveryTarget.call_logged (target : RecoveryTarget σ ε) (step : RecoveryStep) (s : σ)
    (calls : CallLog ε) :
    target.logged.call step (s, calls) =
      ((target.call step s).1, (target.call step s).2, calls ++ [(step, (target.call step s).1)]) := by
  obtain ⟨phase, resource⟩ := step
  cases phase <;> rfl

/-! ## The restore -/

/-- How many steps were restored, and their phases. -/
structure RestoreReport where
  restored : Nat
  phases : List RecoveryPhase

/-- `RestoreReport::default()`. -/
instance : Inhabited RestoreReport := ⟨⟨0, []⟩⟩

/-- A step of this phase was restored. -/
def RestoreReport.record (report : RestoreReport) (phase : RecoveryPhase) : RestoreReport where
  restored := report.restored + 1
  phases := if report.phases.getLast? ≠ some phase then report.phases ++ [phase] else report.phases

/-- The loop of `restore`. -/
def restoreSteps (target : RecoveryTarget σ ε) :
    List RecoveryStep → RestoreReport → σ → Except ε RestoreReport × σ
  | [], report, s => (.ok report, s)
  | step :: steps, report, s =>
      match target.call step s with
      | (.error error, s) => (.error error, s)
      | (.ok (), s) => restoreSteps target steps (report.record step.phase) s

/-- The steps of a plan on a target, up to the first that fails. -/
def RecoveryPlan.restore (plan : RecoveryPlan) (target : RecoveryTarget σ ε) (s : σ) :
    Except ε RestoreReport × σ :=
  restoreSteps target plan.steps default s

/-- The log changes nothing for the target that it is wrapped around. -/
theorem restore_steps_logged (target : RecoveryTarget σ ε) (steps : List RecoveryStep)
    (report : RestoreReport) (s : σ) (calls : CallLog ε) :
    (restoreSteps target.logged steps report (s, calls)).1 = (restoreSteps target steps report s).1 ∧
      (restoreSteps target.logged steps report (s, calls)).2.1 =
        (restoreSteps target steps report s).2 := by
  induction steps generalizing report s calls with
  | nil => exact ⟨rfl, rfl⟩
  | cons step steps ih =>
      rw [restoreSteps, restoreSteps, target.call_logged]
      rcases target.call step s with ⟨_ | _, next⟩
      · exact ⟨rfl, rfl⟩
      · exact ih _ next _

/-- The log of steps that were all restored. -/
def okCalls (ε : Type) (steps : List RecoveryStep) : CallLog ε :=
  steps.map fun step => (step, .ok ())

@[simp] theorem map_fst_ok_calls (steps : List RecoveryStep) :
    (okCalls ε steps).map Prod.fst = steps := by
  rw [okCalls, List.map_map]
  exact List.map_id _

theorem ok_of_mem_ok_calls {steps : List RecoveryStep} {call : RecoveryStep × Except ε Unit}
    (hcall : call ∈ okCalls ε steps) : call.2 = .ok () := by
  obtain ⟨step, -, rfl⟩ := List.mem_map.mp hcall
  rfl

/-- The calls go through the steps in order until one fails. -/
theorem restore_steps_cases (target : RecoveryTarget σ ε) (steps : List RecoveryStep)
    (report : RestoreReport) (s : σ) (calls : CallLog ε) :
    (∃ next, restoreSteps target.logged steps report (s, calls) =
        (.ok (steps.foldl (fun report step => report.record step.phase) report),
          next, calls ++ okCalls ε steps)) ∨
      ∃ before step after error next, steps = before ++ step :: after ∧
        restoreSteps target.logged steps report (s, calls) =
          (.error error, next, calls ++ (okCalls ε before ++ [(step, .error error)])) := by
  induction steps generalizing report s calls with
  | nil => exact .inl ⟨s, by rw [okCalls, List.map_nil, List.append_nil]; rfl⟩
  | cons step steps ih =>
      rw [restoreSteps, target.call_logged]
      rcases target.call step s with ⟨error | _, next⟩
      · exact .inr ⟨[], step, steps, error, next, rfl, by simp [okCalls]⟩
      · obtain ⟨last, hok⟩ | ⟨before, failed, after, error, last, rfl, herror⟩ :=
          ih (report.record step.phase) next (calls ++ [(step, .ok ())])
        · exact .inl ⟨last, hok.trans (by simp [okCalls])⟩
        · exact .inr ⟨step :: before, failed, after, error, last, rfl,
            herror.trans (by simp [okCalls])⟩

end Targets

/-! ## The report -/

theorem phase_lt_of_le_of_ne {first second : RecoveryPhase} (hle : first ≤ second)
    (hne : first ≠ second) : first < second := by
  refine Nat.lt_of_le_of_ne hle fun hidx => hne ?_
  cases first <;> cases second <;> first | rfl | cases hidx

/-- Recording a phase that comes after those of a report keeps them distinct and in order. -/
theorem record_sorted {report : RestoreReport} {phase : RecoveryPhase}
    (hreport : report.phases.Pairwise (· < ·)) (hlast : ∀ last ∈ report.phases, last ≤ phase) :
    (report.record phase).phases.Pairwise (· < ·) ∧
      ∀ other, other ∈ (report.record phase).phases ↔ other ∈ report.phases ∨ other = phase := by
  rw [RestoreReport.record]
  dsimp only
  split_ifs with hnew
  · refine ⟨List.pairwise_append.mpr ⟨hreport, List.pairwise_singleton _ _, ?_⟩,
      fun other => by rw [List.mem_append, List.mem_singleton]⟩
    intro first hfirst second hsecond
    rw [List.mem_singleton.mp hsecond]
    rcases List.eq_nil_or_concat report.phases with hnil | ⟨init, last, hconcat⟩
    · rw [hnil] at hfirst
      cases hfirst
    · rw [hconcat] at hreport hfirst hlast hnew
      have hlt : last < phase := by
        refine phase_lt_of_le_of_ne (hlast last (by simp)) fun heq => hnew ?_
        rw [heq, List.concat_eq_append, List.getLast?_concat]
      rcases List.mem_append.mp (List.concat_eq_append ▸ hfirst) with hinit | hsame
      · have hbefore := (List.pairwise_append.mp (List.concat_eq_append ▸ hreport)).2.2 first hinit
          last (List.mem_singleton_self last)
        exact Nat.lt_trans hbefore hlt
      · rw [List.mem_singleton.mp hsame]
        exact hlt
  · have hmem : phase ∈ report.phases := List.mem_of_getLast? (not_not.mp hnew)
    exact ⟨hreport, fun other => ⟨.inl, fun h => h.elim id fun heq => heq ▸ hmem⟩⟩

/-- The report of a restore counts the steps and has their phases, each once and in order. -/
theorem report_sorted {steps : List RecoveryStep}
    (hsorted : (steps.map RecoveryStep.phase).Pairwise (· ≤ ·)) (report : RestoreReport)
    (hreport : report.phases.Pairwise (· < ·))
    (hlast : ∀ last ∈ report.phases, ∀ step ∈ steps, last ≤ step.phase) :
    (steps.foldl (fun report step => report.record step.phase) report).restored =
        report.restored + steps.length ∧
      (steps.foldl (fun report step => report.record step.phase) report).phases.Pairwise (· < ·) ∧
      ∀ phase, phase ∈ (steps.foldl (fun report step => report.record step.phase) report).phases ↔
        phase ∈ report.phases ∨ phase ∈ steps.map RecoveryStep.phase := by
  induction steps generalizing report with
  | nil => exact ⟨rfl, hreport, fun phase => by simp⟩
  | cons step steps ih =>
      obtain ⟨hfirst, hrest⟩ := List.pairwise_cons.mp hsorted
      obtain ⟨hrecord, hmem⟩ := record_sorted hreport fun last hlast' =>
        hlast last hlast' step List.mem_cons_self
      obtain ⟨hcount, hphases, hall⟩ := ih hrest _ hrecord fun last hlast' other hother => by
        rcases (hmem last).mp hlast' with hold | rfl
        · exact hlast last hold other (List.mem_cons_of_mem _ hother)
        · exact hfirst other.phase (List.mem_map_of_mem hother)
      refine ⟨?_, hphases, fun phase => ?_⟩
      · have hone : (report.record step.phase).restored = report.restored + 1 := rfl
        rw [List.foldl_cons, hcount, hone, List.length_cons]
        omega
      · rw [List.foldl_cons, hall, hmem, List.map_cons, List.mem_cons, or_assoc]

/-- Groups of steps in the order of their phases are steps in this order. -/
theorem groups_sorted {groups : List (RecoveryPhase × List RecoveryResource)}
    (hsorted : (groups.map Prod.fst).Pairwise (· ≤ ·)) :
    ((groups.flatMap fun group => add group.1 group.2).map RecoveryStep.phase).Pairwise
      (· ≤ ·) := by
  rw [List.pairwise_map] at hsorted ⊢
  refine List.pairwise_flatMap.mpr ⟨fun group _ => ?_, hsorted.imp fun {first second} hle => ?_⟩
  · rw [add, List.pairwise_map]
    exact List.pairwise_of_forall fun _ _ => Nat.le_refl _
  · intro step hstep other hother
    obtain ⟨_, -, rfl⟩ := List.mem_map.mp hstep
    obtain ⟨_, -, rfl⟩ := List.mem_map.mp hother
    exact hle

/-- The steps of a state are in the order of their phases. -/
theorem steps_sorted (state : SessionRecoveryState) :
    (state.steps.map RecoveryStep.phase).Pairwise (· ≤ ·) := by
  let groups : List (RecoveryPhase × List RecoveryResource) :=
    [(.profiles, state.profiles), (.workspaces, state.workspaces), (.tabs, state.tabs),
      (.navigation, state.tabs), (.storage, state.storage), (.agentSessions, state.agentSessions),
      (.locks, state.locks), (.pendingConfirmations, state.pendingConfirmations)]
  have hsteps : state.steps = groups.flatMap fun group => add group.1 group.2 := by
    simp [groups, SessionRecoveryState.steps]
  have hphases : groups.map Prod.fst = [.profiles, .workspaces, .tabs, .navigation, .storage,
    .agentSessions, .locks, .pendingConfirmations] := rfl
  rw [hsteps]
  refine groups_sorted ?_
  rw [hphases]
  decide

/-! ## The restore of a plan -/

/-- For every plan of a state and every target: the calls that the log shows go through the steps in
the order of their phases until one fails. The restore, which does the same without a log, succeeds
exactly when none did, and then reports all steps and the phases that they have. -/
theorem restore_follows_plan (state : SessionRecoveryState) (plan : RecoveryPlan)
    (hplan : state.plan = .ok plan) (σ ε : Type) (target : RecoveryTarget σ ε) (s : σ)
    (result : Except ε RestoreReport) (next : σ) (calls : CallLog ε)
    (hrestore : plan.restore target.logged (s, []) = (result, next, calls)) :
    plan.restore target s = (result, next) ∧
      calls.map Prod.fst <+: plan.steps ∧
      (calls.map fun call => call.1.phase).Pairwise (· ≤ ·) ∧
      (∀ call ∈ calls.dropLast, call.2 = .ok ()) ∧
      (∀ error, result = .error error → ∃ step, calls.getLast? = some (step, .error error)) ∧
      ((∃ report, result = .ok report) ↔ ∀ call ∈ calls, call.2 = .ok ()) ∧
      ∀ report, result = .ok report →
        calls.map Prod.fst = plan.steps ∧ report.restored = plan.steps.length ∧
          report.phases.Pairwise (· < ·) ∧
          ∀ phase, phase ∈ report.phases ↔ ∃ step ∈ plan.steps, step.phase = phase := by
  have hsorted : (plan.steps.map RecoveryStep.phase).Pairwise (· ≤ ·) :=
    (SessionRecoveryState.plan_eq_ok_iff.mp hplan).2 ▸ steps_sorted state
  have hordered : calls.map Prod.fst <+: plan.steps →
      (calls.map fun call => call.1.phase).Pairwise (· ≤ ·) := by
    intro hdone
    have hphases := (hdone.map RecoveryStep.phase).sublist
    rw [List.map_map] at hphases
    exact hsorted.sublist hphases
  have hplain : plan.restore target s = (result, next) := by
    obtain ⟨hresult, hnext⟩ := restore_steps_logged target plan.steps default s []
    rw [RecoveryPlan.restore] at hrestore ⊢
    rw [hrestore] at hresult hnext
    exact Prod.ext hresult.symm hnext.symm
  refine ⟨hplain, ?_⟩
  obtain ⟨last, hok⟩ | ⟨before, step, after, error, last, hsplit, herror⟩ :=
    restore_steps_cases target plan.steps default s []
  · cases hrestore.symm.trans hok
    have hcalls : ([] ++ okCalls ε plan.steps).map Prod.fst = plan.steps := map_fst_ok_calls _
    have hdone : ([] ++ okCalls ε plan.steps).map Prod.fst <+: plan.steps :=
      ⟨[], (List.append_nil _).trans hcalls⟩
    refine ⟨hdone, hordered hdone, fun call hcall => ?_, nofun,
      iff_of_true ⟨_, rfl⟩ fun call hcall => ok_of_mem_ok_calls hcall, ?_⟩
    · exact ok_of_mem_ok_calls (List.dropLast_subset _ hcall)
    · intro report hreport
      cases hreport
      obtain ⟨hcount, hphases, hmem⟩ := report_sorted hsorted default List.Pairwise.nil
        fun _ h => by cases h
      refine ⟨hcalls, hcount.trans (Nat.zero_add _), hphases, fun phase => ?_⟩
      rw [hmem, List.mem_map]
      exact or_iff_right nofun
  · cases hrestore.symm.trans herror
    have hcalls : ([] ++ (okCalls ε before ++ [(step, Except.error error)])).map Prod.fst =
        before ++ [step] := by simp
    have hdone : ([] ++ (okCalls ε before ++ [(step, Except.error error)])).map Prod.fst <+:
        plan.steps := by
      rw [hcalls, hsplit]
      exact ⟨after, by simp⟩
    refine ⟨hdone, hordered hdone, fun call hcall => ?_, fun error' herror' => ?_,
      iff_of_false nofun fun hall => ?_, nofun⟩
    · rw [List.nil_append, List.dropLast_concat] at hcall
      exact ok_of_mem_ok_calls hcall
    · cases herror'
      exact ⟨step, by simp⟩
    · cases hall (step, .error error) (by simp)

/-- A target whose tabs do not navigate. -/
def stillTarget : RecoveryTarget Unit Text where
  restoreProfile _ s := (.ok (), s)
  restoreWorkspace _ s := (.ok (), s)
  restoreTab _ s := (.ok (), s)
  restoreNavigation _ s := (.error "navigation", s)
  restoreStorage _ s := (.ok (), s)
  restoreAgentSession _ s := (.ok (), s)
  restoreLock _ s := (.ok (), s)
  restoreConfirmation _ s := (.ok (), s)

/-- The restore ends at the navigation of the first tab. -/
theorem still_restore_follows_plan :
    [⟨.profiles, plainResource "profile-1"⟩, ⟨.workspaces, plainResource "workspace-1"⟩,
      ⟨.tabs, plainResource "tab-1"⟩, ⟨.tabs, plainResource "report.pdf"⟩,
      ⟨.navigation, plainResource "tab-1"⟩] <+: downloadState.steps :=
  (restore_follows_plan downloadState ⟨downloadState.steps⟩ rfl Unit Text stillTarget ()
    (.error "navigation") () [(⟨.profiles, plainResource "profile-1"⟩, .ok ()),
      (⟨.workspaces, plainResource "workspace-1"⟩, .ok ()),
      (⟨.tabs, plainResource "tab-1"⟩, .ok ()), (⟨.tabs, plainResource "report.pdf"⟩, .ok ()),
      (⟨.navigation, plainResource "tab-1"⟩, .error "navigation")] rfl).2.1

end BrowsAI.Recovery
