import BrowsAI.Agents.Steps
import BrowsAI.Library.Runs
import Mathlib.Data.List.Perm.Subperm

/-!
# The lives of agent scripts

Which executions are issued and ended over a run of `AgentScriptRuntime`, whatever else happens to
the sessions. A `Ledger` writes down each execution with the session that started it, and with the
session that finished or cancelled it; read `script_lives` first.
-/

namespace BrowsAI.Agents

open Utf8 Std AgentRuntime Saturating

/-! ## The calls -/

namespace AgentRuntime

/-- The output that a session has been charged for. -/
def outputBytesOf (r : AgentRuntime) (id : AgentSessionId) : Option UInt64 :=
  r.sessions[id]?.map AgentSession.outputBytes

/-- An expired session is cancelled, but what it has put out stays. -/
theorem output_bytes_require_running (r : AgentRuntime) (id other : AgentSessionId) :
    (r.requireRunning id).2.outputBytesOf other = r.outputBytesOf other := by
  unfold requireRunning
  cases hfound : r.sessions[id]? with
  | none => rfl
  | some session =>
      dsimp only
      split_ifs
      · rfl
      · rw [outputBytesOf, outputBytesOf, setSession, OrdMap.get_insert]
        split_ifs with hother
        · rw [← hother, hfound, Option.map_some, Option.map_some]
        · rfl
      · rfl

end AgentRuntime

namespace AgentScriptRuntime

variable (scripts : AgentScriptRuntime) (r : AgentRuntime) (session : AgentSessionId)

/-- The pair of a script in execution. -/
def holds (id : AgentScriptId) : Prop :=
  scripts.active[id]?.map AgentScriptExecution.session = some session

instance (id : AgentScriptId) : Decidable (scripts.holds session id) :=
  inferInstanceAs (Decidable (_ = _))

/-- A start is refused, or executes a script under the next id. -/
theorem start_cases (request : AgentScriptRequest) :
    (∃ error r', scripts.start r session request = (.error error, scripts, r')) ∨
    ∃ execution r', execution.session = session ∧
      scripts.start r session request = (.ok (saturatingAdd scripts.nextId 1),
        ⟨saturatingAdd scripts.nextId 1,
          scripts.active.insert (saturatingAdd scripts.nextId 1) execution⟩, r') := by
  simp only [start]
  split_ifs
  · exact .inl ⟨_, _, rfl⟩
  · exact .inl ⟨_, _, rfl⟩
  cases r.sessions[session]? with
  | none => exact .inl ⟨_, _, rfl⟩
  | some found =>
      dsimp only
      split_ifs
      · exact .inl ⟨_, _, rfl⟩
      cases r.consumeAction session .executeAgentScript with
      | mk result r' =>
          cases result with
          | error error => exact .inl ⟨_, _, rfl⟩
          | ok => exact .inr ⟨_, r', rfl, rfl⟩

/-- A finish is refused and leaves the scripts and what the sessions have put out, or it ends an
execution of the session. -/
theorem finish_cases (id : AgentScriptId) (output : Text) :
    (∃ error r', scripts.finish r session id output = (.error error, scripts, r') ∧
      ∀ other, r'.outputBytesOf other = r.outputBytesOf other) ∨
    ∃ result r', scripts.holds session id ∧
      scripts.finish r session id output =
        (.ok result, { scripts with active := scripts.active.erase id }, r') := by
  have hkept := r.output_bytes_require_running session
  obtain ⟨error, r', h, -⟩ | ⟨found, hlive, h⟩ := r.require_running_cases session
  · rw [h] at hkept
    exact .inl ⟨.runtime error, r', by simp only [finish, h], hkept⟩
  · simp only [finish, h]
    cases hactive : scripts.active[id]? with
    | none => exact .inl ⟨_, r, rfl, fun _ => rfl⟩
    | some execution =>
        dsimp only
        rw [OrdMap.insert_erase_eq_self hactive]
        split_ifs with hsession
        · exact .inl ⟨_, r, rfl, fun _ => rfl⟩
        simp only [hlive.found]
        split_ifs
        · exact .inl ⟨_, r, rfl, fun _ => rfl⟩
        · exact .inr ⟨_, _, by rw [holds, hactive, Option.map_some, not_not.mp hsession], rfl⟩

/-- A cancellation is refused, or it ends an execution of the session. -/
theorem cancel_cases (id : AgentScriptId) :
    scripts.cancel session id = (false, scripts) ∨
    scripts.holds session id ∧ scripts.cancel session id =
      (true, { scripts with active := scripts.active.erase id }) := by
  rw [cancel]
  cases hactive : scripts.active[id]? with
  | none => exact .inl rfl
  | some execution =>
      dsimp only
      split_ifs with hsession
      · exact .inr ⟨by rw [holds, hactive, Option.map_some, hsession], rfl⟩
      · exact .inl rfl

end AgentScriptRuntime

/-! ## The ledger -/

/-- The scripts and sessions, with the executions that were issued and ended so far, each beside
the session of the call. -/
structure Ledger where
  system : System
  issued : List (AgentSessionId × AgentScriptId)
  ended : List (AgentSessionId × AgentScriptId)

/-- A call that concerns scripts, or anything in between. -/
inductive ScriptCall where
  | start (session : AgentSessionId) (request : AgentScriptRequest)
  | finish (session : AgentSessionId) (id : AgentScriptId) (output : Text)
  | cancel (session : AgentSessionId) (id : AgentScriptId)
  /-- Anything else that is done to the sessions in between. -/
  | other (runtime : AgentRuntime)

namespace Ledger

/-- Nothing was started. -/
def new (runtime : AgentRuntime) : Ledger := ⟨⟨runtime, default⟩, [], []⟩

/-- A call, and what it adds to the ledger. -/
def step (l : Ledger) : ScriptCall → Ledger
  | .start session request =>
      match l.system.scripts.start l.system.runtime session request with
      | (.ok id, scripts, runtime) =>
          { l with system := ⟨runtime, scripts⟩, issued := l.issued ++ [(session, id)] }
      | (.error _, scripts, runtime) => { l with system := ⟨runtime, scripts⟩ }
  | .finish session id output =>
      match l.system.scripts.finish l.system.runtime session id output with
      | (.ok _, scripts, runtime) =>
          { l with system := ⟨runtime, scripts⟩, ended := l.ended ++ [(session, id)] }
      | (.error _, scripts, runtime) => { l with system := ⟨runtime, scripts⟩ }
  | .cancel session id =>
      match l.system.scripts.cancel session id with
      | (true, scripts) =>
          { l with system := { l.system with scripts }, ended := l.ended ++ [(session, id)] }
      | (false, scripts) => { l with system := { l.system with scripts } }
  | .other runtime => { l with system := { l.system with runtime } }

/-- Any calls by any sessions, in any order. -/
def machine : Machine Ledger ScriptCall where
  step := step
  Allowed _ _ := True

/-- The last id. Once the counter is there it stays. -/
def lastId : AgentScriptId := UInt64.ofNat (2 ^ 64 - 1)

/-- What was ended and what is in execution was issued to the same session before, and the ids
before the last one are issued once. -/
structure Accounted (l : Ledger) : Prop where
  balance : ∀ session id,
    l.ended.count (session, id) + (if l.system.scripts.holds session id then 1 else 0) ≤
      l.issued.count (session, id)
  issued_le : ∀ id ∈ l.issued.map Prod.snd, id ≤ l.system.scripts.nextId
  once : ∀ id, id ≠ lastId → (l.issued.map Prod.snd).count id ≤ 1

variable {l : Ledger} {scripts : AgentScriptRuntime} {runtime : AgentRuntime}
  {session : AgentSessionId} {id : AgentScriptId}

theorem accounted_new (runtime : AgentRuntime) : (new runtime).Accounted where
  balance session id := by
    have hnone : ¬(new runtime).system.scripts.holds session id := by
      rw [AgentScriptRuntime.holds, show (new runtime).system.scripts.active = ∅ from rfl,
        ExtTreeMap.getElem?_empty]
      exact fun h => nomatch h
    rw [if_neg hnone]
    exact le_rfl
  issued_le _ hid := nomatch hid
  once _ _ := Nat.zero_le 1

/-- An execution of the session is ended. -/
theorem Accounted.ends (h : l.Accounted) (hheld : l.system.scripts.holds session id) :
    Accounted { l with
      system := ⟨runtime, { l.system.scripts with active := l.system.scripts.active.erase id }⟩
      ended := l.ended ++ [(session, id)] } where
  balance other otherId := by
    have hbalance := h.balance other otherId
    rw [List.count_append, List.count_singleton]
    simp only [AgentScriptRuntime.holds, OrdMap.get_erase] at hheld hbalance ⊢
    by_cases hid : id = otherId
    · subst hid
      by_cases hsession : session = other
      · subst hsession
        simpa [hheld] using hbalance
      · simpa [hsession] using Nat.le_trans (Nat.le_add_right _ _) hbalance
    · simpa [hid] using hbalance
  issued_le := h.issued_le
  once := h.once

/-- An execution is issued. -/
theorem Accounted.issues (h : l.Accounted) {execution : AgentScriptExecution}
    (hsession : execution.session = session)
    (hid : id = saturatingAdd l.system.scripts.nextId 1) :
    Accounted { l with
      system := ⟨runtime, ⟨id, l.system.scripts.active.insert id execution⟩⟩
      issued := l.issued ++ [(session, id)] } where
  balance other otherId := by
    have hbalance := h.balance other otherId
    rw [List.count_append, List.count_singleton]
    simp only [AgentScriptRuntime.holds, OrdMap.get_insert] at hbalance ⊢
    by_cases hother : id = otherId
    · subst hother
      by_cases hsame : session = other
      · subst hsame
        simp only [hsession, if_true, Option.map_some, BEq.rfl]
        exact Nat.add_le_add_right (Nat.le_trans (Nat.le_add_right _ _) hbalance) 1
      · simpa [hsession, hsame] using Nat.le_trans (Nat.le_add_right _ _) hbalance
    · simpa [hother] using hbalance
  issued_le other hother := by
    have hnext := le_saturating_add l.system.scripts.nextId 1
    rw [List.map_append, List.mem_append] at hother
    rcases hother with hother | hother
    · exact hid ▸ UInt64.le_trans (h.issued_le other hother) hnext
    · exact UInt64.le_of_eq (List.mem_singleton.mp hother)
  once other hother := by
    rw [List.map_append, List.count_append, List.map_singleton, List.count_singleton]
    by_cases hsame : id = other
    · -- below the last id the counter goes on, so its new value is above all that was issued
      have hnone : (l.issued.map Prod.snd).count other = 0 := by
        rw [List.count_eq_zero]
        intro hmem
        have hle := UInt64.le_iff_toNat_le.mp (h.issued_le other hmem)
        have hlast : other.toNat ≠ 2 ^ 64 - 1 := fun heq => hother (UInt64.toNat_inj.mp heq)
        have hnext := congrArg UInt64.toNat (hsame.symm.trans hid)
        rw [to_nat_saturating_add] at hnext
        have hone : (1 : UInt64).toNat = 1 := rfl
        omega
      rw [hnone]
      split_ifs <;> omega
    · have hne : ¬(id == other) = true := by simpa using hsame
      rw [if_neg hne]
      exact h.once other hother

/-- Every call keeps the account. -/
theorem Accounted.step (h : l.Accounted) (call : ScriptCall) : (l.step call).Accounted := by
  cases call with
  | start session request =>
      obtain ⟨error, r', hstart⟩ | ⟨execution, r', hsession, hstart⟩ :=
        l.system.scripts.start_cases l.system.runtime session request
      · rw [Ledger.step, hstart]
        exact ⟨h.balance, h.issued_le, h.once⟩
      · rw [Ledger.step, hstart]
        exact h.issues hsession rfl
  | finish session id output =>
      obtain ⟨error, r', hfinish, -⟩ | ⟨result, r', hheld, hfinish⟩ :=
        l.system.scripts.finish_cases l.system.runtime session id output
      · rw [Ledger.step, hfinish]
        exact ⟨h.balance, h.issued_le, h.once⟩
      · rw [Ledger.step, hfinish]
        exact h.ends hheld
  | cancel session id =>
      obtain hcancel | ⟨hheld, hcancel⟩ := l.system.scripts.cancel_cases session id
      · rw [Ledger.step, hcancel]
        exact ⟨h.balance, h.issued_le, h.once⟩
      · rw [Ledger.step, hcancel]
        exact h.ends hheld
  | other runtime => exact ⟨h.balance, h.issued_le, h.once⟩

theorem accounted_of_reaches (h : machine.Reaches (new runtime) l) : l.Accounted :=
  h.invariant (accounted_new runtime) fun _ call hl _ => hl.step call

theorem Accounted.ended_subperm (h : l.Accounted) : l.ended.Subperm l.issued :=
  List.subperm_ext_iff.mpr fun (session, id) _ =>
    Nat.le_trans (Nat.le_add_right _ _) (h.balance session id)

end Ledger

/-- Over any calls by any sessions: an id is issued once, unless it is the last one and the counter
has come to it; every end of an execution has an issue of its own to the same session before it, so
an execution ends at most once; and a failed finish leaves the active executions and what the
sessions have put out. -/
theorem script_lives {runtime : AgentRuntime} {l : Ledger}
    (h : Ledger.machine.Reaches (.new runtime) l) :
    (∀ id, l.system.scripts.nextId ≠ Ledger.lastId ∨ id ≠ Ledger.lastId →
      (l.issued.map Prod.snd).count id ≤ 1) ∧
    (∀ session id, l.ended.count (session, id) ≤ l.issued.count (session, id)) ∧
    (∀ id, (l.ended.map Prod.snd).count id ≤ (l.issued.map Prod.snd).count id) ∧
    ∀ session id output error, ∀ scripts runtime',
      l.system.scripts.finish l.system.runtime session id output =
        (.error error, scripts, runtime') →
      scripts.active = l.system.scripts.active ∧
        ∀ other, runtime'.outputBytesOf other = l.system.runtime.outputBytesOf other := by
  have haccounted := Ledger.accounted_of_reaches h
  have hsubperm := haccounted.ended_subperm
  refine ⟨fun id hid => ?_, fun session id => hsubperm.count_le _, fun id => ?_, ?_⟩
  · by_cases hlast : id = Ledger.lastId
    · -- the counter is below the last id, so that one was not issued
      have hnext := hid.resolve_right (not_not.mpr hlast)
      rw [List.count_eq_zero.mpr fun hmem => hnext ?_]
      · exact Nat.zero_le 1
      have hle := UInt64.le_iff_toNat_le.mp (haccounted.issued_le id hmem)
      have hlt := l.system.scripts.nextId.toNat_lt
      rw [hlast, show Ledger.lastId.toNat = 2 ^ 64 - 1 from rfl] at hle
      refine UInt64.toNat_inj.mp ?_
      rw [show Ledger.lastId.toNat = 2 ^ 64 - 1 from rfl]
      omega
    · exact haccounted.once id hlast
  · obtain ⟨between, hperm, hsub⟩ := hsubperm
    exact List.Subperm.count_le ⟨between.map Prod.snd, hperm.map _, hsub.map _⟩ id
  · intro session id output error scripts runtime' hfinish
    obtain ⟨_, r', hcases, hkept⟩ | ⟨_, r', -, hcases⟩ :=
      l.system.scripts.finish_cases l.system.runtime session id output
    · cases hfinish.symm.trans hcases
      exact ⟨rfl, hkept⟩
    · cases hfinish.symm.trans hcases

/-- A running session that may execute scripts. -/
def scriptingRuntime : AgentRuntime :=
  (AgentRuntime.start ((AgentRuntime.new .agent).openSession 1 [.executeAgentScript] default) 1).2

/-- A script that its session starts and finishes, and then finishes again. -/
def finishedTwice : Ledger :=
  Ledger.machine.run (.new scriptingRuntime)
    [.start 1 ⟨"return 1", "plan", 100⟩, .finish 1 1 "1", .finish 1 1 "1"]

theorem script_lives_finished_twice :
    finishedTwice.issued = [(1, 1)] ∧ finishedTwice.ended.count (1, 1) ≤ 1 :=
  have hreaches : Ledger.machine.Reaches (.new scriptingRuntime) finishedTwice :=
    Machine.Reaches.refl.run (Machine.allowed_run_of_forall (fun _ _ => trivial) _ _)
  ⟨by decide, (script_lives hreaches).2.1 1 1⟩

end BrowsAI.Agents
