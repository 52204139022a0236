import BrowsAI.Agents.Sessions
import BrowsAI.Library.LastOf
import BrowsAI.Library.Saturating
import BrowsAI.Network.Url

/-!
# Capability grants

`CapabilityBroker` of `crates/sandbox`: a map of decisions under a scope and a capability, asked
under a policy. Ticks are arguments, as in the source. `request_run` says what a request needs to be
granted: the policy, its origins, and the last call on record for the key.
-/

namespace BrowsAI.Sandbox

open Std Utf8 Network Saturating LastOf
open Agents (Capability)

/-- A profile and an origin. -/
structure CapabilityScope where
  profile : Text
  origin : Text
  deriving DecidableEq

/-- Who asks for what, and why. -/
structure CapabilityRequest where
  scope : CapabilityScope
  capability : Capability
  reason : Text
  deriving DecidableEq

/-- What is decided. -/
inductive CapabilityDecision where
  | granted | denied | prompt
  deriving DecidableEq

/-- What was granted, and until when. -/
structure CapabilityGrant where
  request : CapabilityRequest
  expiresAtTick : Option UInt64
  deriving DecidableEq

/-- Why nothing is granted. -/
inductive CapabilityError where
  | policyDenied | invalidScope
  deriving DecidableEq

/-- With the origins, which the agent runtime does not ask for. -/
structure SandboxPolicy extends Agents.SandboxPolicy where
  allowedOrigins : List Text
  deriving DecidableEq

/-! ## The order of the keys -/

/-- The fields that scopes are ordered by. -/
def CapabilityScope.fields (scope : CapabilityScope) : Text × Text := (scope.profile, scope.origin)

theorem CapabilityScope.fields_injective : Function.Injective CapabilityScope.fields := by
  rintro ⟨profile, origin⟩ ⟨profile', origin'⟩ h
  obtain ⟨rfl, rfl⟩ := Prod.mk.inj h
  rfl

instance : Ord CapabilityScope := ordOn CapabilityScope.fields

instance : TransOrd CapabilityScope := inferInstanceAs <| TransCmp (compareOn _)

instance : LawfulEqOrd CapabilityScope := lawful_eq_ord_on CapabilityScope.fields_injective

theorem ctor_idx_injective : Function.Injective Capability.ctorIdx := by
  intro a b h
  rw [← Capability.ofNat_ctorIdx a, h, Capability.ofNat_ctorIdx]

instance : Ord Capability := ordOn Capability.ctorIdx

instance : TransOrd Capability := inferInstanceAs <| TransCmp (compareOn _)

instance : LawfulEqOrd Capability := lawful_eq_ord_on ctor_idx_injective

/-! ## The broker -/

section Origins

variable (U : Type) [CredentialUrl U]

/-- Both texts are URLs of one origin, without credentials. -/
def sameOrigin (left right : Text) : Bool :=
  match Url.parse (U := U) left, Url.parse (U := U) right with
  | some left, some right =>
      Url.scheme left = Url.scheme right && Url.hostStr left = Url.hostStr right &&
        Url.portOrKnownDefault left = Url.portOrKnownDefault right &&
        CredentialUrl.username left = [] && CredentialUrl.username right = [] &&
        CredentialUrl.password left = none && CredentialUrl.password right = none
  | _, _ => false

/-- The origin is one of those that are allowed. -/
def SandboxPolicy.allowsOrigin (policy : SandboxPolicy) (origin : Text) : Bool :=
  policy.allowedOrigins.any fun allowed => sameOrigin U allowed origin

/-- The test that `request` and `grant` make of the policy. -/
def SandboxPolicy.permits (policy : SandboxPolicy) (request : CapabilityRequest) : Bool :=
  !(!policy.allows request.capability ||
    (!policy.allowedOrigins.isEmpty && !policy.allowsOrigin U request.scope.origin))

end Origins

/-- The decisions by scope and capability. -/
structure CapabilityBroker where
  decisions : OrdMap (CapabilityScope × Capability) (CapabilityDecision × Option UInt64)

namespace CapabilityBroker

/-- Nothing was decided. -/
def default : CapabilityBroker := ⟨∅⟩

section Calls

variable (U : Type) [CredentialUrl U]

/-- The answer to a request: the policy first, then the last decision. -/
def request (broker : CapabilityBroker) (policy : SandboxPolicy) (request : CapabilityRequest)
    (now : UInt64) : CapabilityDecision :=
  if !policy.permits U request then .denied
  else
    match broker.decisions[(request.scope, request.capability)]? with
    | some (decision, some expires) => if expires ≤ now then .prompt else decision
    | some (decision, none) => decision
    | none => .prompt

/-- Grants what the policy permits. -/
def grant (broker : CapabilityBroker) (policy : SandboxPolicy) (request : CapabilityRequest)
    (lifetimeTicks : Option UInt64) (now : UInt64) :
    Except CapabilityError CapabilityGrant × CapabilityBroker :=
  if request.scope.origin = [] ∨ request.scope.profile = [] then (.error .invalidScope, broker)
  else if !policy.permits U request then (.error .policyDenied, broker)
  else
    let expires := lifetimeTicks.map fun ticks => saturatingAdd now (max ticks 1)
    (.ok ⟨request, expires⟩,
      ⟨broker.decisions.insert (request.scope, request.capability) (.granted, expires)⟩)

end Calls

/-- Denies a request. -/
def deny (broker : CapabilityBroker) (request : CapabilityRequest) : CapabilityBroker :=
  ⟨broker.decisions.insert (request.scope, request.capability) (.denied, none)⟩

/-- Forgets what was decided. -/
def revoke (broker : CapabilityBroker) (scope : CapabilityScope) (capability : Capability) :
    CapabilityBroker :=
  ⟨broker.decisions.erase (scope, capability)⟩

end CapabilityBroker

/-! ## What a policy permits -/

section Permits

variable {U : Type} [CredentialUrl U]

/-- The URL names no user and no password. -/
def NoCredentials (url : U) : Prop :=
  CredentialUrl.username url = [] ∧ CredentialUrl.password url = none

/-- The same scheme, host and port. -/
def SameTuple (left right : U) : Prop :=
  Url.scheme left = Url.scheme right ∧ Url.hostStr left = Url.hostStr right ∧
    Url.portOrKnownDefault left = Url.portOrKnownDefault right

variable (U) in
/-- An origin of the policy is the origin of this URL. -/
def SandboxPolicy.ContainsOrigin (policy : SandboxPolicy) (origin : Text) : Prop :=
  ∃ allowed ∈ policy.allowedOrigins, ∃ left right : U, Url.parse allowed = some left ∧
    Url.parse origin = some right ∧ SameTuple left right ∧ NoCredentials left ∧
    NoCredentials right

/-- Two texts have one origin exactly if they are such URLs. -/
theorem same_origin_iff {left right : Text} :
    sameOrigin U left right ↔ ∃ l r : U, Url.parse left = some l ∧ Url.parse right = some r ∧
      SameTuple l r ∧ NoCredentials l ∧ NoCredentials r := by
  rw [sameOrigin]
  cases hleft : Url.parse (U := U) left with
  | none => simp
  | some l =>
      cases hright : Url.parse (U := U) right with
      | none => simp
      | some r =>
          simp only [Bool.and_eq_true, decide_eq_true_eq, Option.some.injEq, exists_and_left,
            exists_eq_left', SameTuple, NoCredentials]
          tauto

theorem SandboxPolicy.permits_iff (policy : SandboxPolicy) (request : CapabilityRequest) :
    policy.permits U request ↔ policy.allows request.capability ∧
      (policy.allowedOrigins = [] ∨ policy.ContainsOrigin U request.scope.origin) := by
  simp only [permits, allowsOrigin, ContainsOrigin, Bool.not_eq_true', Bool.or_eq_false_iff,
    Bool.not_eq_false', Bool.and_eq_false_iff, Bool.not_eq_false', List.isEmpty_iff,
    List.any_eq_true, same_origin_iff]

end Permits

/-! ## Histories -/

/-- A call. -/
inductive Call where
  | grant (policy : SandboxPolicy) (request : CapabilityRequest) (lifetimeTicks : Option UInt64)
      (now : UInt64)
  | deny (request : CapabilityRequest)
  | revoke (scope : CapabilityScope) (capability : Capability)
  deriving DecidableEq

/-- What a call leaves. -/
inductive Outcome where
  | granted (expires : Option UInt64) | denied | revoked
  deriving DecidableEq

namespace CapabilityBroker

section Runs

variable (U : Type) [CredentialUrl U]

/-- What a call does. -/
def perform (broker : CapabilityBroker) : Call → CapabilityBroker
  | .grant policy request lifetimeTicks now => (broker.grant U policy request lifetimeTicks now).2
  | .deny request => broker.deny request
  | .revoke scope capability => broker.revoke scope capability

/-- What a call puts on record, which is nothing when it is a grant that fails. -/
def recorded (broker : CapabilityBroker) :
    Call → List ((CapabilityScope × Capability) × Outcome)
  | .grant policy request lifetimeTicks now =>
      match (broker.grant U policy request lifetimeTicks now).1 with
      | .ok grant => [((request.scope, request.capability), .granted grant.expiresAtTick)]
      | .error _ => []
  | .deny request => [((request.scope, request.capability), .denied)]
  | .revoke scope capability => [((scope, capability), .revoked)]

/-- What calls do one after the other. -/
def run (broker : CapabilityBroker) (calls : List Call) : CapabilityBroker :=
  calls.foldl (perform U) broker

/-- What the calls of a run put on record, in order. -/
def record (broker : CapabilityBroker) :
    List Call → List ((CapabilityScope × Capability) × Outcome)
  | [] => []
  | call :: calls => broker.recorded U call ++ record (broker.perform U call) calls

end Runs

/-- The entry that the last outcome leaves. -/
def entry : Outcome → Option (CapabilityDecision × Option UInt64)
  | .granted expires => some (.granted, expires)
  | .denied => some (.denied, none)
  | .revoked => none

/-- Every entry is the one that the last outcome on record leaves. -/
def Sound (log : List ((CapabilityScope × Capability) × Outcome)) (broker : CapabilityBroker) :
    Prop :=
  ∀ key : CapabilityScope × Capability, broker.decisions[key]? = (lastOf key log).bind entry

variable {U : Type} [CredentialUrl U] {broker : CapabilityBroker}
  {log : List ((CapabilityScope × Capability) × Outcome)}

theorem sound_default : Sound [] default := by
  intro key
  simp [default]

/-- A decision that is stored is the last one of its key. -/
theorem Sound.write (h : Sound log broker) {key : CapabilityScope × Capability} {outcome : Outcome}
    {decisions : OrdMap (CapabilityScope × Capability) (CapabilityDecision × Option UInt64)}
    (hdecisions : ∀ other, decisions[other]? =
      if key = other then entry outcome else broker.decisions[other]?) :
    Sound (log ++ [(key, outcome)]) ⟨decisions⟩ := by
  intro other
  rw [last_of_concat]
  dsimp only
  rw [hdecisions]
  split_ifs
  · rfl
  · exact h other

/-- A grant fails and leaves the broker as it was, or puts itself on record. -/
theorem grant_cases (broker : CapabilityBroker) (policy : SandboxPolicy)
    (request : CapabilityRequest) (lifetimeTicks : Option UInt64) (now : UInt64) :
    (∃ error, broker.grant U policy request lifetimeTicks now = (.error error, broker)) ∨
      ∃ expires, broker.grant U policy request lifetimeTicks now = (.ok ⟨request, expires⟩,
        ⟨broker.decisions.insert (request.scope, request.capability) (.granted, expires)⟩) := by
  rw [grant]
  split_ifs
  · exact .inl ⟨_, rfl⟩
  · exact .inl ⟨_, rfl⟩
  · exact .inr ⟨_, rfl⟩

/-- Every call keeps the decisions in step with the log. -/
theorem Sound.perform (h : Sound log broker) (call : Call) :
    Sound (log ++ broker.recorded U call) (broker.perform U call) := by
  cases call with
  | grant policy request lifetimeTicks now =>
      rw [recorded, CapabilityBroker.perform]
      obtain ⟨_, hgrant⟩ | ⟨expires, hgrant⟩ :=
        broker.grant_cases (U := U) policy request lifetimeTicks now
      · rw [hgrant]
        dsimp only
        rwa [List.append_nil]
      · rw [hgrant]
        exact h.write fun other => OrdMap.get_insert _ _ _ other
  | deny request => exact h.write fun other => OrdMap.get_insert _ _ _ other
  | revoke scope capability => exact h.write fun other => OrdMap.get_erase _ _ other

theorem Sound.run (h : Sound log broker) (calls : List Call) :
    Sound (log ++ broker.record U calls) (broker.run U calls) := by
  induction calls generalizing log broker with
  | nil =>
      rw [record, List.append_nil]
      exact h
  | cons call calls ih =>
      rw [record, ← List.append_assoc]
      exact ih (h.perform call)

/-- A request is granted when the policy permits it and the last outcome is a grant in time. -/
theorem Sound.request_iff (h : Sound log broker) (policy : SandboxPolicy)
    (request : CapabilityRequest) (now : UInt64) :
    broker.request U policy request now = .granted ↔
      policy.permits U request ∧ ∃ expires,
        lastOf (request.scope, request.capability) log = some (.granted expires) ∧
          ∀ tick ∈ expires, now < tick := by
  rw [CapabilityBroker.request, h]
  by_cases hpermits : policy.permits U request
  · rw [if_neg (by simp [hpermits])]
    rcases lastOf (request.scope, request.capability) log with _ | ⟨_ | tick⟩ | _ | _
    · simp
    · simp [entry, hpermits]
    · simp [entry, hpermits]
    · simp [entry]
    · simp [entry]
  · simp [hpermits]

/-- In every history a request is granted exactly when the policy allows the capability, its origins
are empty or contain that of the scope, and the last call on record for the key is a grant that has
not run out. A grant that fails changes no later answer. -/
theorem request_run (calls : List Call) (policy : SandboxPolicy) (request : CapabilityRequest)
    (now : UInt64) :
    (((default.run U calls).request U policy request now = .granted ↔
        policy.allows request.capability ∧
        (policy.allowedOrigins = [] ∨ policy.ContainsOrigin U request.scope.origin) ∧
        ∃ expires, lastOf (request.scope, request.capability) (default.record U calls) =
            some (.granted expires) ∧ ∀ tick ∈ expires, now < tick)) ∧
      ∀ before policy' request' lifetimeTicks now' after error,
        calls = before ++ .grant policy' request' lifetimeTicks now' :: after →
          ((default.run U before).grant U policy' request' lifetimeTicks now').1 = .error error →
            (default.run U (before ++ after)).request U policy request now =
              (default.run U calls).request U policy request now := by
  constructor
  · have hsound : Sound (default.record U calls) (default.run U calls) := sound_default.run calls
    rw [hsound.request_iff, policy.permits_iff, and_assoc]
  · rintro before policy' request' lifetimeTicks now' after error rfl herror
    have hsame : (default.run U before).perform U (.grant policy' request' lifetimeTicks now') =
        default.run U before := by
      obtain ⟨_, hgrant⟩ | ⟨expires, hgrant⟩ :=
        (default.run U before).grant_cases (U := U) policy' request' lifetimeTicks now'
      · rw [CapabilityBroker.perform, hgrant]
      · rw [hgrant] at herror
        cases herror
    have hrun : default.run U (before ++ .grant policy' request' lifetimeTicks now' :: after) =
        default.run U (before ++ after) := by
      rw [run, List.foldl_append, List.foldl_cons, run, List.foldl_append]
      exact congrArg (fun broker => after.foldl (CapabilityBroker.perform U) broker) hsame
    rw [hrun]

end CapabilityBroker

end BrowsAI.Sandbox
