import BrowsAI.Library.OrdMap
import BrowsAI.Library.Saturating
import BrowsAI.Profiles.Identity
import Mathlib.Tactic.SplitIfs

/-!
# Permissions

`PermissionManager` of `crates/permissions`: a map of grants, some of which expire, beside a map of
decisions. The readings of the clock are arguments, in seconds, and a lifetime is given in whole
seconds.
-/

namespace BrowsAI.Permissions

open Std Utf8 Profiles Saturating

/-- What can be asked for. -/
inductive Permission where
  | files | clipboardRead | clipboardWrite | downloads | uploads | network | geolocation
  | notifications | camera | microphone | certificates | proxy | device
  deriving DecidableEq

/-- What is decided. -/
inductive PermissionDecision where
  | granted | denied | prompt
  deriving DecidableEq

/-- Who asks for what, and why. -/
structure PermissionRequest where
  origin : Text
  permission : Permission
  reason : Text
  deriving DecidableEq

/-- A permission that was granted, and until when. -/
structure PermissionGrant where
  origin : Text
  permission : Permission
  expiresAtUnixSeconds : Option UInt64
  deriving DecidableEq

/-- What is told of permissions. -/
inductive PermissionEvent where
  | requested (profile : ProfileId) (origin : Text) (permission : Permission)
  | decided (profile : ProfileId) (origin : Text) (permission : Permission)
      (decision : PermissionDecision)
  | revoked (profile : ProfileId) (origin : Text) (permission : Permission)
  | expired (profile : ProfileId) (origin : Text) (permission : Permission)
  deriving DecidableEq

/-- What a decision is found by. -/
structure PermissionKey where
  profile : ProfileId
  origin : Text
  permission : Permission
  deriving DecidableEq

/-! ## The order of the keys -/

/-- The fields in the order of their declaration, the permission as its position. -/
def PermissionKey.rank (key : PermissionKey) : ProfileId × Text × Nat :=
  (key.profile, key.origin, key.permission.ctorIdx)

theorem PermissionKey.rank_injective : Function.Injective PermissionKey.rank := by
  rintro ⟨profile, origin, permission⟩ ⟨profile', origin', permission'⟩ h
  obtain ⟨rfl, h⟩ := Prod.mk.inj h
  obtain ⟨rfl, h⟩ := Prod.mk.inj h
  have hpermission : permission = permission' := by
    rw [← Permission.ofNat_ctorIdx permission, show permission.ctorIdx = _ from h,
      Permission.ofNat_ctorIdx]
  rw [hpermission]

instance : Ord PermissionKey := ordOn PermissionKey.rank

instance : TransOrd PermissionKey := inferInstanceAs <| TransCmp (compareOn PermissionKey.rank)

instance : LawfulEqOrd PermissionKey := lawful_eq_ord_on PermissionKey.rank_injective

/-! ## The manager -/

/-- The grants and the decisions by key, and the events. -/
structure PermissionManager where
  grants : OrdMap PermissionKey PermissionGrant
  decisions : OrdMap PermissionKey PermissionDecision
  events : List PermissionEvent

/-- The grant has run out. -/
def PermissionGrant.expired (grant : PermissionGrant) (now : UInt64) : Bool :=
  grant.expiresAtUnixSeconds.any fun expires => expires ≤ now

namespace PermissionManager

/-- Nothing was decided. -/
def default : PermissionManager := ⟨∅, ∅, []⟩

/-- Decides without an end. -/
def set (m : PermissionManager) (profile : ProfileId) (origin : Text) (permission : Permission)
    (granted : Bool) : PermissionManager :=
  let key : PermissionKey := ⟨profile, origin, permission⟩
  if granted then
    { grants := m.grants.insert key ⟨origin, permission, none⟩
      decisions := m.decisions.insert key .granted
      events := m.events ++ [.decided profile origin permission .granted] }
  else
    { grants := m.grants.erase key
      decisions := m.decisions.insert key .denied
      events := m.events ++ [.decided profile origin permission .denied] }

/-- Grants a permission for a time. -/
def grantFor (m : PermissionManager) (profile : ProfileId) (request : PermissionRequest)
    (lifetime : Option UInt64) (now : UInt64) : PermissionGrant × PermissionManager :=
  let grant : PermissionGrant :=
    { origin := request.origin
      permission := request.permission
      expiresAtUnixSeconds := lifetime.map fun seconds => saturatingAdd now seconds }
  let key : PermissionKey := ⟨profile, request.origin, request.permission⟩
  (grant,
    { grants := m.grants.insert key grant
      decisions := m.decisions.insert key .granted
      events := m.events ++ [.decided profile request.origin request.permission .granted] })

/-- Whether a permission is granted at a time. A grant goes before the decision. -/
def check (m : PermissionManager) (profile : ProfileId) (origin : Text) (permission : Permission)
    (now : UInt64) : PermissionDecision :=
  let key : PermissionKey := ⟨profile, origin, permission⟩
  match m.grants[key]? with
  | some grant =>
      if grant.expiresAtUnixSeconds.all fun expires => now < expires then .granted else .prompt
  | none => m.decisions[key]?.getD .prompt

/-- Forgets what was decided. -/
def revoke (m : PermissionManager) (profile : ProfileId) (origin : Text)
    (permission : Permission) : PermissionManager :=
  let key : PermissionKey := ⟨profile, origin, permission⟩
  { grants := m.grants.erase key
    decisions := m.decisions.erase key
    events := m.events ++ [.revoked profile origin permission] }

/-- The answer to a request, which is noted. -/
def request (m : PermissionManager) (profile : ProfileId) (request : PermissionRequest)
    (now : UInt64) : PermissionDecision × PermissionManager :=
  (m.check profile request.origin request.permission now,
    { m with events := m.events ++ [.requested profile request.origin request.permission] })

/-- The turn of the loop of `purge_expired` for a key. -/
def purge (m : PermissionManager) (key : PermissionKey) : PermissionManager where
  grants := m.grants.erase key
  decisions := if m.decisions[key]? = some .granted then m.decisions.erase key else m.decisions
  events := m.events ++ [.expired key.profile key.origin key.permission]

/-- Forgets the grants that have expired, and counts them. -/
def purgeExpired (m : PermissionManager) (now : UInt64) : Nat × PermissionManager :=
  let expired := (m.grants.toList.filter fun entry => entry.2.expired now).map Prod.fst
  (expired.length, expired.foldl purge m)

/-! ## What the calls write -/

variable (m : PermissionManager) (key : PermissionKey)

theorem grants_foldl_purge (keys : List PermissionKey) :
    (keys.foldl purge m).grants[key]? = if key ∈ keys then none else m.grants[key]? := by
  induction keys generalizing m with
  | nil => simp
  | cons j keys ih =>
      rw [List.foldl_cons, ih, purge, OrdMap.get_erase]
      by_cases hmem : key ∈ keys <;> simp [hmem, eq_comm]

/-- A purge forgets the granted decisions of its keys. -/
theorem decisions_foldl_purge (keys : List PermissionKey) :
    (keys.foldl purge m).decisions[key]? =
      if key ∈ keys ∧ m.decisions[key]? = some .granted then none else m.decisions[key]? := by
  induction keys generalizing m with
  | nil => simp
  | cons j keys ih =>
      have hturn : (m.purge j).decisions[key]? =
          if j = key ∧ m.decisions[key]? = some .granted then none else m.decisions[key]? := by
        rw [purge]
        by_cases hj : j = key
        · subst hj
          by_cases hgranted : m.decisions[j]? = some .granted
          · simp [hgranted]
          · simp [hgranted]
        · by_cases hgranted : m.decisions[j]? = some .granted
          · simp [hgranted, OrdMap.get_erase, hj]
          · simp [hgranted, hj]
      rw [List.foldl_cons, ih, hturn]
      by_cases hj : j = key
      · by_cases hgranted : m.decisions[key]? = some .granted <;> simp [hj, hgranted]
      · simp [hj, Ne.symm hj]

theorem mem_expired {now : UInt64} :
    key ∈ (m.grants.toList.filter fun entry => entry.2.expired now).map Prod.fst ↔
      m.grants[key]?.any fun grant => grant.expired now := by
  simp only [List.mem_map, List.mem_filter, Prod.exists, exists_and_right, exists_eq_right,
    ExtTreeMap.mem_toList_iff_getElem?_eq_some]
  rw [Option.any_eq_true]

end PermissionManager

end BrowsAI.Permissions
