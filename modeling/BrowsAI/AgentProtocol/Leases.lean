import BrowsAI.Library.Runs
import BrowsAI.Library.Saturating
import BrowsAI.Profiles.Identity
import Mathlib.Tactic.SplitIfs

/-!
# Leases

`LeaseManager` of `crates/agent-protocol`, and mutual exclusion. A lease is held from the call that
acquires it until a call by its owner that releases it, and until its tick of expiry. The manager
forgets expired leases only when it is asked for others; what it answers is the same as if it looked
at the held leases.
-/

namespace BrowsAI.AgentProtocol

open Utf8 Std Profiles Saturating

/-- Why a request is refused. -/
inductive ProtocolError where
  | versionMismatch (expected actual : UInt16)
  | invalidSession | leaseHeld | leaseNotFound | leaseOwnerMismatch | interrupted
  | invalidRequest | invalidUrl
  deriving DecidableEq

/-- What a lease is on. -/
inductive LeaseScope where
  | page (name : Text)
  | workspace (name : Text)
  deriving DecidableEq

/-- The id of a lease, drawn at random. -/
abbrev LeaseId := Uuid

/-- The right of an owner to a scope, up to a tick. -/
structure Lease where
  id : LeaseId
  owner : Text
  scope : LeaseScope
  expiresAtTick : UInt64
  deriving DecidableEq

/-- The leases by id, and the owners that were interrupted. -/
structure LeaseManager where
  leases : OrdMap LeaseId Lease
  interrupted : OrdMap Text UInt64

namespace LeaseManager

/-- `LeaseManager::default()`. -/
instance : Inhabited LeaseManager := ⟨⟨∅, ∅⟩⟩

/-- Drops the leases whose tick has come. -/
def expire (m : LeaseManager) (now : UInt64) : LeaseManager :=
  { m with leases := m.leases.filter fun _ lease => now < lease.expiresAtTick }

/-- `acquire`, with the id that it generates. -/
def acquire (m : LeaseManager) (id : LeaseId) (owner : Text) (scope : LeaseScope)
    (ttlTicks now : UInt64) : Except ProtocolError Lease × LeaseManager :=
  let m := m.expire now
  if (m.leases.toList.map Prod.snd).any fun lease => lease.scope = scope then (.error .leaseHeld, m)
  else
    let lease : Lease :=
      { id, owner, scope, expiresAtTick := saturatingAdd now (max ttlTicks 1) }
    (.ok lease, { m with leases := m.leases.insert lease.id lease })

/-- Gives a lease back, which only its owner can. -/
def release (m : LeaseManager) (leaseId : LeaseId) (owner : Text) :
    Except ProtocolError Unit × LeaseManager :=
  match m.leases[leaseId]? with
  | none => (.error .leaseNotFound, m)
  | some lease =>
      if lease.owner ≠ owner then (.error .leaseOwnerMismatch, m)
      else (.ok (), { m with leases := m.leases.erase leaseId })

/-- Notes that an owner was interrupted. -/
def interrupt (m : LeaseManager) (owner : Text) (now : UInt64) : LeaseManager :=
  { m with interrupted := m.interrupted.insert owner now }

/-- The owner was interrupted. -/
def isInterrupted (m : LeaseManager) (owner : Text) : Bool := m.interrupted.contains owner

/-- The leases that have not expired; the others are dropped. -/
def active (m : LeaseManager) (now : UInt64) : List Lease × LeaseManager :=
  let m := m.expire now
  (m.leases.toList.map Prod.snd, m)

/-! ## What a call does -/

variable {m : LeaseManager} {now : UInt64}

/-- The leases that have not expired are kept. -/
theorem get_expire {id : LeaseId} {lease : Lease} :
    (m.expire now).leases[id]? = some lease ↔
      m.leases[id]? = some lease ∧ now < lease.expiresAtTick := by
  rw [expire, ExtTreeMap.getElem?_filter', Option.filter_eq_some_iff, decide_eq_true_eq]

/-- A lease is refused when one of its scope is there that has not expired. -/
theorem acquire_cases (m : LeaseManager) (id : LeaseId) (owner : Text) (scope : LeaseScope)
    (ttlTicks now : UInt64) :
    (∃ (other : LeaseId) (lease : Lease), m.leases[other]? = some lease ∧ lease.scope = scope ∧
        now < lease.expiresAtTick ∧
        m.acquire id owner scope ttlTicks now = (.error .leaseHeld, m.expire now)) ∨
      ∃ lease, lease.id = id ∧ lease.owner = owner ∧ lease.scope = scope ∧
        (∀ (other : LeaseId) (held : Lease), m.leases[other]? = some held →
          now < held.expiresAtTick → held.scope ≠ scope) ∧
        m.acquire id owner scope ttlTicks now =
          (.ok lease, { m.expire now with leases := (m.expire now).leases.insert id lease }) := by
  rw [acquire]
  dsimp only
  split_ifs with hany
  · obtain ⟨lease, hmem, hscope⟩ := List.any_eq_true.mp hany
    obtain ⟨other, hlease⟩ := OrdMap.mem_values.mp hmem
    obtain ⟨hlease, hnow⟩ := get_expire.mp hlease
    exact .inl ⟨other, lease, hlease, of_decide_eq_true hscope, hnow, rfl⟩
  · refine .inr ⟨_, rfl, rfl, rfl, fun other held hheld hnow hscope => hany ?_, rfl⟩
    exact List.any_eq_true.mpr
      ⟨held, OrdMap.mem_values.mpr ⟨other, get_expire.mpr ⟨hheld, hnow⟩⟩, decide_eq_true hscope⟩

/-- A lease is removed for its owner only. -/
theorem get_release {leaseId id : LeaseId} {owner : Text} {lease : Lease} :
    (m.release leaseId owner).2.leases[id]? = some lease ↔
      m.leases[id]? = some lease ∧ ¬ (id = leaseId ∧ lease.owner = owner) := by
  rw [release]
  cases hlease : m.leases[leaseId]? with
  | none =>
      refine (and_iff_left_of_imp ?_).symm
      rintro hid ⟨rfl, -⟩
      rw [hlease] at hid
      cases hid
  | some held =>
      dsimp only
      split_ifs with howner
      · refine (and_iff_left_of_imp ?_).symm
        rintro hid ⟨rfl, hsame⟩
        cases Option.some.inj (hlease.symm.trans hid)
        exact howner hsame
      · rw [OrdMap.get_erase]
        split_ifs with hsame
        · refine ⟨nofun, fun ⟨hid, hnot⟩ => absurd ⟨hsame.symm, ?_⟩ hnot⟩
          cases Option.some.inj (hlease.symm.trans (hsame ▸ hid))
          exact not_not.mp howner
        · exact (and_iff_left fun hand => hsame hand.1.symm).symm

end LeaseManager

/-! ## Histories -/

/-- A call with its arguments, and the id that it generates. -/
inductive Op where
  | acquire (id : LeaseId) (owner : Text) (scope : LeaseScope) (ttlTicks now : UInt64)
  | release (leaseId : LeaseId) (owner : Text)
  | interrupt (owner : Text) (now : UInt64)
  | active (now : UInt64)
  deriving DecidableEq

/-- The tick of a call. -/
def Op.now : Op → Option UInt64
  | .acquire _ _ _ _ now | .interrupt _ now | .active now => some now
  | .release _ _ => none

/-- The id that a call generates. -/
def Op.generated : Op → Option LeaseId
  | .acquire id _ _ _ _ => some id
  | _ => none

/-- The manager, the leases acquired and not released by their owner, the last tick, and the ids
generated so far. -/
structure History where
  manager : LeaseManager
  outstanding : List Lease
  clock : UInt64
  known : List LeaseId

namespace History

/-- No lease yet. -/
def start : History := ⟨default, [], 0, []⟩

/-- The lease was acquired, not released by its owner, and has not expired. -/
def Held (h : History) (now : UInt64) (lease : Lease) : Prop :=
  lease ∈ h.outstanding ∧ now < lease.expiresAtTick

/-- A call of `acquire` with the id that it draws; a lease that is granted becomes outstanding. -/
def acquire (h : History) (id : LeaseId) (owner : Text) (scope : LeaseScope)
    (ttlTicks now : UInt64) : History :=
  match h.manager.acquire id owner scope ttlTicks now with
  | (.ok lease, manager) => { h with manager, outstanding := lease :: h.outstanding }
  | (.error _, manager) => { h with manager }

/-- A call, and what it does to the outstanding leases. -/
def perform (h : History) : Op → History
  | .acquire id owner scope ttlTicks now => h.acquire id owner scope ttlTicks now
  | .release leaseId owner =>
      { h with
        manager := (h.manager.release leaseId owner).2
        outstanding := h.outstanding.filter fun lease =>
          ¬ (lease.id = leaseId ∧ lease.owner = owner) }
  | .interrupt owner now => { h with manager := h.manager.interrupt owner now }
  | .active now => { h with manager := (h.manager.active now).2 }

/-- One call, after which its tick is the last and its id is known. -/
def step (h : History) (op : Op) : History :=
  { h.perform op with
    clock := op.now.getD h.clock
    known := op.generated.toList ++ h.known }

/-- The runs in which ids are fresh and ticks do not decrease. -/
def machine : Machine History Op where
  step := step
  Allowed h op := (∀ id ∈ op.generated, id ∉ h.known) ∧ ∀ now ∈ op.now, h.clock ≤ now

end History

end BrowsAI.AgentProtocol
