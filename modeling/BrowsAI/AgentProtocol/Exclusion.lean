import BrowsAI.AgentProtocol.Leases

/-!
# Mutual exclusion by leases

`Sound` connects the map of the manager with the leases that are held: the map has every held lease,
nothing that was released, and two held leases never have one scope.
-/

namespace BrowsAI.AgentProtocol

open Utf8 Std Profiles

namespace History

variable {h : History} {op : Op}

/-! ## The invariant -/

/-- The invariant: leases are stored under their ids, the outstanding ones that have not expired are
all there, and no two of them share a scope. -/
structure Sound (h : History) : Prop where
  lease_id : ∀ (id : LeaseId) (lease : Lease), h.manager.leases[id]? = some lease → lease.id = id
  outstanding : ∀ (id : LeaseId) (lease : Lease),
    h.manager.leases[id]? = some lease → lease ∈ h.outstanding
  present : ∀ lease, h.Held h.clock lease → h.manager.leases[lease.id]? = some lease
  known : ∀ lease ∈ h.outstanding, lease.id ∈ h.known
  exclusive : ∀ first second, h.Held h.clock first → h.Held h.clock second →
    first.scope = second.scope → first = second

theorem sound_start : start.Sound where
  lease_id id lease hlease := by simp [start, default] at hlease
  outstanding id lease hlease := by simp [start, default] at hlease
  present lease hheld := by simp [Held, start] at hheld
  known lease hmem := by simp [start] at hmem
  exclusive first second hfirst := by simp [Held, start] at hfirst

/-- A lease held at some tick was held before. -/
theorem Held.earlier {now later : UInt64} {lease : Lease} (hheld : h.Held later lease)
    (hle : now ≤ later) : h.Held now lease :=
  ⟨hheld.1, UInt64.lt_of_le_of_lt hle hheld.2⟩

/-- At any tick from the last one on, the map has the held leases and no other unexpired ones. -/
theorem Sound.get_iff_held (hs : h.Sound) {now : UInt64} (hnow : h.clock ≤ now) {lease : Lease} :
    (∃ id : LeaseId, h.manager.leases[id]? = some lease ∧ now < lease.expiresAtTick) ↔
      h.Held now lease := by
  constructor
  · rintro ⟨id, hlease, hlt⟩
    exact ⟨hs.outstanding id lease hlease, hlt⟩
  · exact fun hheld => ⟨lease.id, hs.present lease (hheld.earlier hnow), hheld.2⟩

/-- Time may pass, expired leases be forgotten, and more ids be known. -/
theorem Sound.advance (hs : h.Sound) {now : UInt64} (hnow : h.clock ≤ now) (ids : List LeaseId) :
    Sound { h with manager := h.manager.expire now, clock := now, known := ids ++ h.known } where
  lease_id id lease hlease := hs.lease_id id lease (LeaseManager.get_expire.mp hlease).1
  outstanding id lease hlease := hs.outstanding id lease (LeaseManager.get_expire.mp hlease).1
  present lease hheld :=
    LeaseManager.get_expire.mpr ⟨hs.present lease (Held.earlier (h := h) hheld hnow), hheld.2⟩
  known lease hmem := List.mem_append_right ids (hs.known lease hmem)
  exclusive first second hfirst hsecond :=
    hs.exclusive first second (Held.earlier (h := h) hfirst hnow)
      (Held.earlier (h := h) hsecond hnow)

theorem Sound.interrupt (hs : h.Sound) {now : UInt64} (hnow : h.clock ≤ now) (owner : Text) :
    Sound { h with manager := h.manager.interrupt owner now, clock := now } where
  lease_id := hs.lease_id
  outstanding := hs.outstanding
  present lease hheld := hs.present lease (Held.earlier (h := h) hheld hnow)
  known := hs.known
  exclusive first second hfirst hsecond :=
    hs.exclusive first second (Held.earlier (h := h) hfirst hnow)
      (Held.earlier (h := h) hsecond hnow)

/-- A lease on a scope that nobody holds keeps the invariant. -/
theorem Sound.acquired (hs : h.Sound) {now : UInt64} (hnow : h.clock ≤ now) {lease : Lease}
    (hfresh : lease.id ∉ h.known)
    (hscope : ∀ (other : LeaseId) (held : Lease), h.manager.leases[other]? = some held →
      now < held.expiresAtTick → held.scope ≠ lease.scope) :
    Sound { h with
      manager := { h.manager.expire now with
        leases := (h.manager.expire now).leases.insert lease.id lease }
      outstanding := lease :: h.outstanding
      clock := now
      known := lease.id :: h.known } := by
  have hlater := hs.advance hnow []
  have hfree : ∀ held, h.Held now held → held.scope ≠ lease.scope := by
    intro held hheld
    obtain ⟨id, hid, hlt⟩ := (hs.get_iff_held hnow).mpr hheld
    exact hscope id held hid hlt
  constructor
  case lease_id => exact OrdMap.KeyedBy.insert (f := Lease.id) hlater.lease_id rfl
  case outstanding =>
    intro id held hheld
    rw [OrdMap.get_insert] at hheld
    split_ifs at hheld with hsame
    · exact Option.some.inj hheld ▸ List.mem_cons_self
    · exact List.mem_cons_of_mem _ (hlater.outstanding id held hheld)
  case present =>
    rintro held ⟨hmem, hlt⟩
    rcases List.mem_cons.mp hmem with rfl | hmem
    · exact OrdMap.get_insert_self _ _ _
    · have hne : lease.id ≠ held.id := fun heq => hfresh (heq ▸ hs.known held hmem)
      exact (OrdMap.get_insert_ne _ hne _).trans (hlater.present held ⟨hmem, hlt⟩)
  case known =>
    intro held hmem
    rcases List.mem_cons.mp hmem with rfl | hmem
    · exact List.mem_cons_self
    · exact List.mem_cons_of_mem _ (hs.known held hmem)
  case exclusive =>
    rintro first second ⟨hfirst, hlt⟩ ⟨hsecond, hlt'⟩ heq
    rcases List.mem_cons.mp hfirst with rfl | hold <;>
      rcases List.mem_cons.mp hsecond with rfl | hold'
    · rfl
    · exact absurd heq.symm (hfree second ⟨hold', hlt'⟩)
    · exact absurd heq (hfree first ⟨hold, hlt⟩)
    · exact hlater.exclusive first second ⟨hold, hlt⟩ ⟨hold', hlt'⟩ heq

/-- So does a release, whoever asks for it. -/
theorem Sound.release (hs : h.Sound) (leaseId : LeaseId) (owner : Text) :
    Sound (h.perform (.release leaseId owner)) where
  lease_id id lease hlease := hs.lease_id id lease (LeaseManager.get_release.mp hlease).1
  outstanding id lease hlease := by
    obtain ⟨hlease, hnot⟩ := LeaseManager.get_release.mp hlease
    refine List.mem_filter.mpr ⟨hs.outstanding id lease hlease, ?_⟩
    rw [hs.lease_id id lease hlease]
    exact decide_eq_true hnot
  present lease hheld := by
    obtain ⟨hmem, hnot⟩ := List.mem_filter.mp hheld.1
    exact LeaseManager.get_release.mpr
      ⟨hs.present lease ⟨hmem, hheld.2⟩, of_decide_eq_true hnot⟩
  known lease hmem := hs.known lease (List.mem_filter.mp hmem).1
  exclusive first second hfirst hsecond :=
    hs.exclusive first second ⟨(List.mem_filter.mp hfirst.1).1, hfirst.2⟩
      ⟨(List.mem_filter.mp hsecond.1).1, hsecond.2⟩

/-- Every call keeps the invariant. -/
theorem Sound.step (hs : h.Sound) (hallowed : machine.Allowed h op) : (h.step op).Sound := by
  cases op with
  | acquire id owner scope ttlTicks now =>
      have hnow : h.clock ≤ now := hallowed.2 now rfl
      rw [History.step, perform, acquire]
      obtain ⟨other, lease, -, -, -, hcall⟩ | ⟨lease, hid, -, hscope, hfree, hcall⟩ :=
        h.manager.acquire_cases id owner scope ttlTicks now
      · rw [hcall]
        exact hs.advance hnow [id]
      · rw [hcall]
        subst hid hscope
        exact hs.acquired hnow (hallowed.1 lease.id rfl) hfree
  | release leaseId owner => exact hs.release leaseId owner
  | interrupt owner now => exact hs.interrupt (hallowed.2 now rfl) owner
  | active now => exact hs.advance (hallowed.2 now rfl) []

theorem reaches_sound (hrun : machine.Reaches start h) : h.Sound :=
  hrun.invariant sound_start fun _ _ hs hallowed => hs.step hallowed

/-! ## Exclusion -/

/-- A lease leaves the map at a release by its owner, or at a tick from its expiry on. -/
theorem gone_step {lease : Lease} {id : LeaseId} (hlease : h.manager.leases[id]? = some lease)
    (hsound : h.Sound) (hfresh : ∀ id ∈ op.generated, id ∉ h.known)
    (hgone : (h.step op).manager.leases[id]? ≠ some lease) :
    op = .release id lease.owner ∨ ∃ now ∈ op.now, lease.expiresAtTick ≤ now := by
  cases op with
  | acquire other owner scope ttlTicks now =>
      refine .inr ⟨now, rfl, UInt64.not_lt.mp fun hlt => hgone ?_⟩
      have hkept := LeaseManager.get_expire.mpr ⟨hlease, hlt⟩
      rw [step, perform, acquire]
      obtain ⟨-, -, -, -, -, hcall⟩ | ⟨acquired, -, -, -, -, hcall⟩ :=
        h.manager.acquire_cases other owner scope ttlTicks now
      · rw [hcall]
        exact hkept
      · rw [hcall]
        have hknown : id ∈ h.known :=
          hsound.lease_id id lease hlease ▸ hsound.known lease (hsound.outstanding id lease hlease)
        have hne : other ≠ id := fun heq => hfresh other rfl (heq ▸ hknown)
        exact (OrdMap.get_insert_ne _ hne _).trans hkept
  | release leaseId owner =>
      by_cases hsame : id = leaseId ∧ lease.owner = owner
      · exact .inl (by rw [hsame.1, hsame.2])
      · exact absurd (LeaseManager.get_release.mpr ⟨hlease, hsame⟩) hgone
  | interrupt owner now => exact absurd hlease hgone
  | active now =>
      refine .inr ⟨now, rfl, UInt64.not_lt.mp fun hlt => hgone ?_⟩
      exact LeaseManager.get_expire.mpr ⟨hlease, hlt⟩

/-- In every run: `active` shows the held leases, at most one of them for each scope; `acquire` is
refused exactly when one of the scope is held; and a lease leaves the map at a release by its owner
or from its expiry on. -/
theorem leases_exclusive (h : History) (hrun : machine.Reaches start h) :
    (∀ now, h.clock ≤ now →
      (∀ lease, lease ∈ (h.manager.active now).1 ↔ h.Held now lease) ∧
      (∀ first second, h.Held now first → h.Held now second → first.scope = second.scope →
        first = second) ∧
      ∀ id owner scope ttlTicks,
        (h.manager.acquire id owner scope ttlTicks now).1 = .error .leaseHeld ↔
          ∃ lease, h.Held now lease ∧ lease.scope = scope) ∧
      ∀ op, machine.Allowed h op → ∀ (id : LeaseId) (lease : Lease),
        h.manager.leases[id]? = some lease → (h.step op).manager.leases[id]? ≠ some lease →
          op = .release id lease.owner ∨ ∃ now ∈ op.now, lease.expiresAtTick ≤ now := by
  have hs := reaches_sound hrun
  refine ⟨fun now hnow => ⟨fun lease => ?_, ?_, ?_⟩, ?_⟩
  · rw [LeaseManager.active, OrdMap.mem_values, ← hs.get_iff_held hnow]
    exact exists_congr fun id => LeaseManager.get_expire
  · exact fun first second hfirst hsecond =>
      hs.exclusive first second (hfirst.earlier hnow) (hsecond.earlier hnow)
  · intro id owner scope ttlTicks
    obtain ⟨other, lease, hlease, hscope, hlt, hcall⟩ | ⟨lease, -, -, -, hfree, hcall⟩ :=
      h.manager.acquire_cases id owner scope ttlTicks now
    · rw [hcall]
      exact iff_of_true rfl ⟨lease, (hs.get_iff_held hnow).mp ⟨other, hlease, hlt⟩, hscope⟩
    · rw [hcall]
      refine iff_of_false nofun ?_
      rintro ⟨held, hheld, hscope⟩
      obtain ⟨other, hother, hlt⟩ := (hs.get_iff_held hnow).mpr hheld
      exact hfree other held hother hlt hscope
  · exact fun op hallowed id lease hlease hgone => gone_step hlease hs hallowed.1 hgone

/-! ## A contested page -/

/-- Another agent tries to release the lease of a page, and to acquire one. -/
def contestedOps : List Op :=
  [.acquire 1 "agent-a" (.page "tab-1") 5 10, .release 1 "agent-b",
    .acquire 2 "agent-b" (.page "tab-1") 5 12]

/-- Where the calls of two owners end. -/
def contested : History := machine.run start contestedOps

/-- The calls are those of a run. -/
theorem contested_reached : machine.Reaches start contested := by
  have hallowed : machine.AllowedRun start contestedOps := by
    refine ⟨⟨?_, ?_⟩, ⟨nofun, nofun⟩, ⟨?_, ?_⟩, trivial⟩
    · exact fun id _ => List.not_mem_nil
    · intro now hnow
      cases hnow
      decide
    · intro id hid
      cases hid
      show (2 : LeaseId) ∉ [1]
      decide
    · intro now hnow
      cases hnow
      show (10 : UInt64) ≤ 12
      decide
  exact Machine.Reaches.refl.run hallowed

/-- The first agent still has the page at tick 14. -/
theorem contested_exclusive :
    (contested.manager.acquire 3 "agent-b" (.page "tab-1") 5 14).1 = .error .leaseHeld := by
  have hlease : contested.Held 14 ⟨1, "agent-a", .page "tab-1", 15⟩ :=
    ⟨by decide +kernel, by decide⟩
  exact (((leases_exclusive contested contested_reached).1 14 (by decide)).2.2 3 "agent-b"
    (.page "tab-1") 5).mpr ⟨_, hlease, rfl⟩

end History

end BrowsAI.AgentProtocol
