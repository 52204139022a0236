import BrowsAI.Library.OrdMap
import BrowsAI.Library.Runs
import BrowsAI.Library.Saturating
import BrowsAI.Library.StateLog
import BrowsAI.Library.Utf8
import BrowsAI.Profiles.Identity

/-!
# Confirmations

`ConfirmationQueue` of `crates/transactions`: requests that their owner approves, denies, or
escalates before a deadline. A decision after the deadline expires the request instead. The queue
does not look into the classification of a request.
-/

namespace BrowsAI.Transactions

open Std Utf8 Profiles StateLog Saturating

/-- How a request stands. -/
inductive ConfirmationState where
  | pending | approved | denied | expired | escalated
  deriving DecidableEq

/-- What somebody must confirm, and until when. -/
structure ConfirmationRequest (Classification : Type) where
  id : Uuid
  owner : Text
  summary : Text
  classification : Classification
  state : ConfirmationState
  expiresAtTick : UInt64
  deriving DecidableEq

/-- What is told of a request. -/
structure ConfirmationEvent where
  id : Uuid
  actor : Option Text
  state : ConfirmationState
  tick : UInt64
  deriving DecidableEq

/-- The requests by id, and the events. -/
structure ConfirmationQueue (Classification : Type) where
  requests : OrdMap Uuid (ConfirmationRequest Classification)
  events : List ConfirmationEvent

variable {Classification : Type}

/-- A sweep of `expire` expires the request. -/
def ConfirmationRequest.due (request : ConfirmationRequest Classification) (now : UInt64) : Bool :=
  request.state = .pending && request.expiresAtTick ≤ now

namespace ConfirmationQueue

/-- No request. -/
def default : ConfirmationQueue Classification := ⟨∅, []⟩

/-- `enqueue`, with the generated id. -/
def enqueue (q : ConfirmationQueue Classification) (id : Uuid) (owner summary : Text)
    (classification : Classification) (timeoutTicks now : UInt64) :
    ConfirmationQueue Classification where
  requests := q.requests.insert id
    { id
      owner
      summary
      classification
      state := .pending
      expiresAtTick := saturatingAdd now (max timeoutTicks 1) }
  events := q.events ++ [⟨id, none, .pending, now⟩]

/-- Decides a request that is pending, for its owner. One that is late expires instead, without an
event. -/
def transition (q : ConfirmationQueue Classification) (id : Uuid) (actor : Text)
    (state : ConfirmationState) (now : UInt64) : Bool × ConfirmationQueue Classification :=
  match q.requests[id]? with
  | none => (false, q)
  | some request =>
      if request.state ≠ .pending ∨ request.owner ≠ actor then (false, q)
      else if request.expiresAtTick ≤ now then
        -- unlike `expire`, without an event
        (false, { q with requests := q.requests.insert id { request with state := .expired } })
      else
        (true,
          { requests := q.requests.insert id { request with state }
            events := q.events ++ [⟨id, some actor, state, now⟩] })

/-- The owner approves. -/
def approve (q : ConfirmationQueue Classification) (id : Uuid) (actor : Text) (now : UInt64) :
    Bool × ConfirmationQueue Classification := q.transition id actor .approved now

/-- The owner denies. -/
def deny (q : ConfirmationQueue Classification) (id : Uuid) (actor : Text) (now : UInt64) :
    Bool × ConfirmationQueue Classification := q.transition id actor .denied now

/-- The owner passes the request on. -/
def escalate (q : ConfirmationQueue Classification) (id : Uuid) (actor : Text) (now : UInt64) :
    Bool × ConfirmationQueue Classification := q.transition id actor .escalated now

/-- Expires every request that is due. -/
def expire (q : ConfirmationQueue Classification) (now : UInt64) :
    ConfirmationQueue Classification where
  requests := q.requests.map fun _ request =>
    if request.due now then { request with state := .expired } else request
  events := q.events ++ ((q.requests.toList.map Prod.snd).filter fun request =>
    request.due now).map fun request => ⟨request.id, none, .expired, now⟩

/-- The events, which are then forgotten. -/
def drainEvents (q : ConfirmationQueue Classification) :
    List ConfirmationEvent × ConfirmationQueue Classification :=
  (q.events, { q with events := [] })

/-- The state of a request. -/
def stateOf (q : ConfirmationQueue Classification) (id : Uuid) : Option ConfirmationState :=
  q.requests[id]?.map fun request => request.state

/-- Every request is stored under its own id. -/
def Keyed (q : ConfirmationQueue Classification) : Prop :=
  ∀ (id : Uuid) (request : ConfirmationRequest Classification),
    q.requests[id]? = some request → request.id = id

variable {q : ConfirmationQueue Classification}

theorem state_of_eq_some {id : Uuid} {request : ConfirmationRequest Classification}
    (h : q.requests[id]? = some request) : q.stateOf id = some request.state := by
  rw [stateOf, h]
  rfl

/-- The state of each request after one of them is stored. -/
theorem state_of_insert (q : ConfirmationQueue Classification) (events : List ConfirmationEvent)
    (id j : Uuid) (request : ConfirmationRequest Classification) :
    stateOf ⟨q.requests.insert id request, events⟩ j =
      if id = j then some request.state else q.stateOf j := by
  rw [stateOf, OrdMap.get_insert]
  split_ifs <;> rfl

/-- A decision is refused, or it comes late and expires the request, or it takes effect. -/
theorem transition_cases (q : ConfirmationQueue Classification) (id : Uuid) (actor : Text)
    (state : ConfirmationState) (now : UInt64) :
    ((∀ request, q.requests[id]? = some request → request.state = .pending →
        request.owner ≠ actor) ∧ q.transition id actor state now = (false, q)) ∨
    ∃ request, q.requests[id]? = some request ∧ request.state = .pending ∧
      request.owner = actor ∧
      ((request.expiresAtTick ≤ now ∧ q.transition id actor state now =
          (false, { q with requests := q.requests.insert id { request with state := .expired } })) ∨
        (now < request.expiresAtTick ∧ q.transition id actor state now =
          (true,
            { requests := q.requests.insert id { request with state }
              events := q.events ++ [⟨id, some actor, state, now⟩] }))) := by
  rw [transition]
  cases hrequest : q.requests[id]? with
  | none => exact .inl ⟨fun request h => (nomatch h), rfl⟩
  | some request =>
      by_cases hrefused : request.state ≠ .pending ∨ request.owner ≠ actor
      · refine .inl ⟨fun request' h hpending howner => ?_, if_pos hrefused⟩
        obtain rfl := Option.some.inj h
        exact hrefused.elim (fun hne => hne hpending) fun hne => hne howner
      · have heligible := not_or.mp hrefused
        refine .inr ⟨request, rfl, not_not.mp heligible.1, not_not.mp heligible.2, ?_⟩
        dsimp only
        rw [if_neg hrefused]
        by_cases hlate : request.expiresAtTick ≤ now
        · exact .inl ⟨hlate, if_pos hlate⟩
        · exact .inr ⟨UInt64.not_le.mp hlate, if_neg hlate⟩

theorem Keyed.insert (hk : q.Keyed) (id : Uuid) (request : ConfirmationRequest Classification)
    (events : List ConfirmationEvent) (hid : request.id = id) :
    Keyed ⟨q.requests.insert id request, events⟩ :=
  OrdMap.KeyedBy.insert (f := ConfirmationRequest.id) hk hid

theorem Keyed.transition (hk : q.Keyed) (id : Uuid) (actor : Text) (state : ConfirmationState)
    (now : UInt64) : (q.transition id actor state now).2.Keyed := by
  obtain ⟨_, htransition⟩ | ⟨request, hrequest, _, _, ⟨_, htransition⟩ | ⟨_, htransition⟩⟩ :=
    q.transition_cases id actor state now
  · rw [htransition]
    exact hk
  · rw [htransition]
    exact hk.insert id { request with state := .expired } _ (hk id request hrequest)
  · rw [htransition]
    exact hk.insert id { request with state } _ (hk id request hrequest)

theorem get_expire (q : ConfirmationQueue Classification) (now : UInt64) (id : Uuid) :
    (q.expire now).requests[id]? = q.requests[id]?.map fun request =>
      if request.due now then { request with state := .expired } else request := by
  rw [expire, ExtTreeMap.getElem?_map]

theorem Keyed.expire (hk : q.Keyed) (now : UInt64) : (q.expire now).Keyed := by
  refine OrdMap.KeyedBy.map (f := ConfirmationRequest.id) hk (q.get_expire now) fun request => ?_
  split_ifs
  · rfl
  · rfl

end ConfirmationQueue

end BrowsAI.Transactions
