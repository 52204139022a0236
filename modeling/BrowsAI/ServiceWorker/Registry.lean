import BrowsAI.Library.OrdMap
import BrowsAI.Library.Runs
import BrowsAI.Network.Url
import Mathlib.Data.List.Basic

/-!
# Service workers

`ServiceWorkerRegistry` of `crates/service-worker`, as far as a fetch reads it: the activated
registration with the longest scope around a URL, and the responses stored by URL.
-/

namespace BrowsAI.ServiceWorker

open Utf8 Network

/-- How far a worker is. -/
inductive WorkerState where
  | installing | installed | activating | activated | redundant
  deriving DecidableEq

/-- A worker and its scope. -/
structure Registration (U : Type) where
  scope : U
  scriptUrl : U
  state : WorkerState

/-- What a worker answers. -/
structure FetchResponse where
  status : UInt16
  body : List UInt8
  deriving DecidableEq

/-- The workers by scope, and their answers by URL. -/
structure ServiceWorkerRegistry (U : Type) where
  registrations : OrdMap Text (Registration U)
  responses : OrdMap Text FetchResponse

variable {U : Type} [Url U]

/-- `ServiceWorkerRegistry::default()`. -/
instance : Inhabited (ServiceWorkerRegistry U) := ⟨⟨∅, ∅⟩⟩

/-- The URL is in the scope: of one origin, and at or below its path. -/
def scopeContains (scope url : U) : Bool :=
  let scopePath := Url.path scope
  let pathMatches :=
    if scopePath.getLast? = some '/' then scopePath.isPrefixOf (Url.path url)
    else Url.path url == scopePath || (scopePath ++ "/").isPrefixOf (Url.path url)
  Url.scheme scope == Url.scheme url && Url.hostStr scope == Url.hostStr url &&
    Url.portOrKnownDefault scope == Url.portOrKnownDefault url && pathMatches

/-- `max_by_key` over the lengths of the scopes: the last of the longest. -/
def longestScope (registrations : List (Registration U)) : Option (Registration U) :=
  registrations.foldl (fun best registration =>
    match best with
    | none => some registration
    | some other =>
        if len (Url.asStr other.scope) ≤ len (Url.asStr registration.scope) then some registration
        else some other) none

/-- `fetch`: the response stored for a URL that an activated worker controls. -/
def ServiceWorkerRegistry.fetch (registry : ServiceWorkerRegistry U) (url : U) :
    Option FetchResponse :=
  let controlling := registry.registrations.values.filter fun registration =>
    registration.state = .activated ∧ scopeContains registration.scope url
  (longestScope controlling).bind fun _ => registry.responses[Url.asStr url]?

end BrowsAI.ServiceWorker

/-!
## Removing a registration

The calls that write a `ServiceWorkerRegistry`. A fetch is controlled by the most specific activated
registration around its URL, but responses are not stored with a registration: `unregister` drops
every response inside the scope, whoever controls it. `unregister_keeps_fetch_iff` says exactly when
this changes a fetch that another registration controls.
-/

namespace BrowsAI.ServiceWorker

open Utf8 Network

/-! ## Calls -/

/-- The transitions that `transition` takes. -/
def WorkerState.mayBecome : WorkerState → WorkerState → Bool
  | .installing, .installed | .installing, .redundant
  | .installed, .activating | .installed, .redundant
  | .activating, .activated | .activating, .redundant
  | .activated, .redundant => true
  | _, _ => false

variable {U : Type} [Url U]

namespace ServiceWorkerRegistry

variable (registry : ServiceWorkerRegistry U)

/-- A worker for a scope, at once active. -/
def register (scope scriptUrl : U) : Registration U × ServiceWorkerRegistry U :=
  let registration := ⟨scope, scriptUrl, .activated⟩
  (registration,
    { registry with
      registrations := registry.registrations.insert (Url.asStr scope) registration })

/-- The worker of a scope. -/
def get (scope : U) : Option (Registration U) := registry.registrations[Url.asStr scope]?

/-- Moves a worker on, if it may. -/
def transition (scope : U) (next : WorkerState) :
    Option (Registration U) × ServiceWorkerRegistry U :=
  match registry.registrations[Url.asStr scope]? with
  | none => (none, registry)
  | some registration =>
      if registration.state.mayBecome next then
        let registration := { registration with state := next }
        (some registration,
          { registry with
            registrations := registry.registrations.insert (Url.asStr scope) registration })
      else (none, registry)

/-- The response stored under a text stays when the scope goes. -/
def retained (scope : U) (url : Text) : Bool :=
  match Url.parse url with
  | some candidate => !scopeContains scope (candidate : U)
  | none => true

/-- Drops a worker, and the answers in its scope. -/
def unregister (scope : U) : Bool × ServiceWorkerRegistry U :=
  let removed := (registry.registrations[Url.asStr scope]?).isSome
  (removed,
    { registrations := registry.registrations.erase (Url.asStr scope)
      responses :=
        if removed then registry.responses.filter fun url _ => retained scope url
        else registry.responses })

/-- Stores an answer for a URL. -/
def intercept (url : U) (response : FetchResponse) : ServiceWorkerRegistry U :=
  { registry with responses := registry.responses.insert (Url.asStr url) response }

/-! ## The registration in control -/

/-- The activated registrations around a URL. -/
def controlling (url : U) : List (Registration U) :=
  registry.registrations.values.filter fun registration =>
    registration.state = .activated ∧ scopeContains registration.scope url

/-- The most specific activated registration around a URL. -/
def controller (url : U) : Option (Registration U) := longestScope (registry.controlling url)

theorem fetch_eq (url : U) :
    registry.fetch url =
      (registry.controller url).bind fun _ => registry.responses[Url.asStr url]? := rfl

end ServiceWorkerRegistry

/-- The scope of the first is no longer than the scope of the second. -/
def NoLonger (other registration : Registration U) : Prop :=
  len (Url.asStr other.scope) ≤ len (Url.asStr registration.scope)

/-- Of scopes with one length the last is taken. -/
theorem longest_scope_concat (registrations : List (Registration U)) (r : Registration U) :
    longestScope (registrations ++ [r]) =
      match longestScope registrations with
      | none => some r
      | some other =>
          if len (Url.asStr other.scope) ≤ len (Url.asStr r.scope) then some r else some other := by
  rw [longestScope, List.foldl_concat]
  rfl

/-- There is one if there is any. -/
theorem longest_scope_eq_none_iff {registrations : List (Registration U)} :
    longestScope registrations = none ↔ registrations = [] := by
  refine ⟨fun h => ?_, fun h => ?_⟩
  · induction registrations using List.reverseRecOn with
    | nil => rfl
    | append_singleton registrations last ih =>
        rw [longest_scope_concat] at h
        cases hbest : longestScope registrations with
        | none =>
            rw [hbest] at h
            cases h
        | some best =>
            rw [hbest] at h
            dsimp only at h
            split_ifs at h
  · rw [h]
    rfl

/-- The longest scope is that of a member, and no other member has a longer one. -/
theorem longest_scope_eq_some {registrations : List (Registration U)} {r : Registration U}
    (h : longestScope registrations = some r) :
    r ∈ registrations ∧ ∀ other ∈ registrations, NoLonger other r := by
  induction registrations using List.reverseRecOn generalizing r with
  | nil => cases h
  | append_singleton registrations last ih =>
      rw [longest_scope_concat] at h
      cases hbest : longestScope registrations with
      | none =>
          rw [hbest] at h
          obtain rfl := Option.some.inj h
          obtain rfl := longest_scope_eq_none_iff.mp hbest
          refine ⟨List.mem_cons_self, fun other hother => ?_⟩
          obtain rfl := List.mem_singleton.mp hother
          exact Nat.le_refl _
      | some best =>
          rw [hbest] at h
          dsimp only at h
          obtain ⟨hmem, hlongest⟩ := ih hbest
          split_ifs at h with hle
          · obtain rfl := Option.some.inj h
            refine ⟨List.mem_append_right _ List.mem_cons_self, fun other hother => ?_⟩
            rcases List.mem_append.mp hother with hother | hother
            · exact (hlongest other hother).trans hle
            · obtain rfl := List.mem_singleton.mp hother
              exact Nat.le_refl _
          · obtain rfl := Option.some.inj h
            refine ⟨List.mem_append_left _ hmem, fun other hother => ?_⟩
            rcases List.mem_append.mp hother with hother | hother
            · exact hlongest other hother
            · obtain rfl := List.mem_singleton.mp hother
              exact Nat.le_of_not_le hle

namespace ServiceWorkerRegistry

variable {registry : ServiceWorkerRegistry U} {scope url : U}

/-- Some entry is an activated registration around the URL. -/
theorem mem_controlling {r : Registration U} :
    r ∈ registry.controlling url ↔
      (∃ key : Text, registry.registrations[key]? = some r) ∧ r.state = .activated ∧
        scopeContains r.scope url := by
  rw [controlling, List.mem_filter, OrdMap.values_eq, OrdMap.mem_values, decide_eq_true_eq]

/-- The controller is an activated registration around the URL, and none has a longer scope. -/
theorem controller_spec {r : Registration U} (h : registry.controller url = some r) :
    r ∈ registry.controlling url ∧ ∀ other ∈ registry.controlling url, NoLonger other r :=
  longest_scope_eq_some h

theorem controller_eq_none_iff :
    registry.controller url = none ↔ ∀ r, r ∉ registry.controlling url := by
  rw [controller, longest_scope_eq_none_iff, List.eq_nil_iff_forall_not_mem]

/-! ## Runs -/

/-- A call. -/
inductive Op (U : Type) where
  | register (scope scriptUrl : U)
  | transition (scope : U) (next : WorkerState)
  | unregister (scope : U)
  | intercept (url : U) (response : FetchResponse)

/-- What a call does. -/
def perform (registry : ServiceWorkerRegistry U) : Op U → ServiceWorkerRegistry U
  | .register scope scriptUrl => (registry.register scope scriptUrl).2
  | .transition scope next => (registry.transition scope next).2
  | .unregister scope => (registry.unregister scope).2
  | .intercept url response => registry.intercept url response

/-- The system whose steps are calls. -/
def machine (U : Type) [Url U] : Machine (ServiceWorkerRegistry U) (Op U) where
  step := perform
  Allowed _ _ := True

/-- Registrations are stored under their scopes. -/
def Keyed (registry : ServiceWorkerRegistry U) : Prop :=
  registry.registrations.KeyedBy fun registration => Url.asStr registration.scope

/-- Workers stay under their scopes. -/
theorem Keyed.perform (h : registry.Keyed) (op : Op U) : (registry.perform op).Keyed := by
  cases op with
  | register scope scriptUrl => exact OrdMap.KeyedBy.insert h rfl
  | transition scope next =>
      show (registry.transition scope next).2.Keyed
      unfold transition
      cases hget : registry.registrations[Url.asStr scope]? with
      | none => exact h
      | some registration =>
          dsimp only
          split_ifs
          · have hscope : Url.asStr registration.scope = Url.asStr scope := h _ _ hget
            exact OrdMap.KeyedBy.insert h hscope
          · exact h
  | unregister scope => exact OrdMap.KeyedBy.erase h _
  | intercept url response => exact h

/-- Every registry that the calls make is keyed by scope. -/
theorem keyed_of_reaches (h : (machine U).Reaches default registry) : registry.Keyed :=
  h.invariant (fun key r hget => by simp [default] at hget) fun _ op hkeyed _ => hkeyed.perform op

/-- Where registrations are stored under their scopes, a registration is that of a scope when it has
the scope. -/
theorem Keyed.get_eq_some_iff (h : registry.Keyed) {r : Registration U}
    (hr : r ∈ registry.controlling url) :
    registry.get scope = some r ↔ Url.asStr r.scope = Url.asStr scope := by
  refine ⟨fun hget => h _ _ hget, fun hscope => ?_⟩
  obtain ⟨⟨key, hkey⟩, _⟩ := mem_controlling.mp hr
  have hstored : Url.asStr r.scope = key := h _ _ hkey
  rw [get, ← hscope, hstored, hkey]

/-! ## What a removal does to a fetch -/

theorem get_registration_unregister (registry : ServiceWorkerRegistry U) (scope : U) (key : Text) :
    (registry.unregister scope).2.registrations[key]? =
      if Url.asStr scope = key then none else registry.registrations[key]? :=
  OrdMap.get_erase _ _ _

/-- The answers that are left behind. -/
theorem get_response_unregister (registry : ServiceWorkerRegistry U) (scope : U) (key : Text) :
    (registry.unregister scope).2.responses[key]? =
      if (registry.get scope).isSome then
        registry.responses[key]?.filter fun _ => retained scope key
      else registry.responses[key]? := by
  show (if (registry.get scope).isSome then
    registry.responses.filter fun url _ => retained scope url else registry.responses)[key]? = _
  split_ifs
  · exact Std.ExtTreeMap.getElem?_filter'
  · rfl

/-- A removal takes nobody into control. -/
theorem controller_unregister_eq_none (h : registry.controller url = none) (scope : U) :
    (registry.unregister scope).2.controller url = none := by
  rw [controller_eq_none_iff] at h ⊢
  intro r hr
  obtain ⟨⟨key, hkey⟩, hactivated, hcontains⟩ := mem_controlling.mp hr
  rw [get_registration_unregister] at hkey
  split_ifs at hkey
  exact h r (mem_controlling.mpr ⟨⟨key, hkey⟩, hactivated, hcontains⟩)

/-- A removal leaves another controller there. -/
theorem controller_unregister_ne_none {r : Registration U} (h : registry.controller url = some r)
    (hother : registry.get scope ≠ some r) :
    (registry.unregister scope).2.controller url ≠ none := by
  obtain ⟨⟨key, hkey⟩, hactivated, hcontains⟩ := mem_controlling.mp (controller_spec h).1
  have hne : Url.asStr scope ≠ key := by
    rintro rfl
    exact hother hkey
  refine fun hnone => controller_eq_none_iff.mp hnone r (mem_controlling.mpr ⟨⟨key, ?_⟩, ?_⟩)
  · rw [get_registration_unregister, if_neg hne, hkey]
  · exact ⟨hactivated, hcontains⟩

/-- The URL is controlled, by a registration other than that of the scope. -/
def ControlledByOther (registry : ServiceWorkerRegistry U) (scope url : U) : Prop :=
  ∃ r, registry.controller url = some r ∧ registry.get scope ≠ some r

/-- The scope is registered, and around a URL that a response is stored for. -/
def Covers (registry : ServiceWorkerRegistry U) (scope url : U) : Prop :=
  (registry.get scope).isSome ∧ Url.asStr url ∈ registry.responses ∧
    ∃ candidate : U, Url.parse (Url.asStr url) = some candidate ∧ scopeContains scope candidate

theorem retained_eq_false_iff {scope : U} {key : Text} :
    retained scope key = false ↔
      ∃ candidate : U, Url.parse key = some candidate ∧ scopeContains scope candidate := by
  unfold retained
  cases Url.parse (U := U) key with
  | none => simp
  | some candidate => simp

/-- A removal drops the response of a URL exactly when its scope covers the URL. -/
theorem get_response_unregister_eq_iff :
    (registry.unregister scope).2.responses[Url.asStr url]? = registry.responses[Url.asStr url]? ↔
      ¬ registry.Covers scope url := by
  rw [get_response_unregister, Covers, ← retained_eq_false_iff,
    ← Std.ExtTreeMap.isSome_getElem?_iff_mem]
  cases hget : (registry.get scope).isSome with
  | false => simp
  | true =>
      cases hresponse : registry.responses[Url.asStr url]? with
      | none => simp
      | some response => cases retained scope (Url.asStr url) <;> simp [Option.filter]

/-- The fetch of a controlled URL reads its response. -/
theorem fetch_of_controller_ne_none (h : registry.controller url ≠ none) :
    registry.fetch url = registry.responses[Url.asStr url]? := by
  obtain ⟨r, hr⟩ := Option.ne_none_iff_exists'.mp h
  rw [fetch_eq, hr]
  rfl

theorem fetch_unregister_of_other (h : registry.ControlledByOther scope url) :
    (registry.unregister scope).2.fetch url = registry.fetch url ↔ ¬ registry.Covers scope url := by
  obtain ⟨r, hr, hother⟩ := h
  rw [fetch_of_controller_ne_none (controller_unregister_ne_none hr hother),
    fetch_of_controller_ne_none (hr ▸ Option.some_ne_none r), get_response_unregister_eq_iff]

/-- With any way of telling whether the controller of the URL is the registration of the scope. -/
theorem keeps_fetch_iff_of_owned {owned : Registration U → Prop}
    (howned : ∀ r, registry.controller url = some r → (owned r ↔ registry.get scope = some r)) :
    ((∀ r, registry.controller url = some r → ¬ owned r) →
        (registry.unregister scope).2.fetch url = registry.fetch url) ↔
      ¬ ((∃ r, registry.controller url = some r ∧ ¬ owned r) ∧ registry.Covers scope url) := by
  cases hcontroller : registry.controller url with
  | none =>
      refine iff_of_true (fun _ => ?_) ?_
      · rw [fetch_eq, fetch_eq, hcontroller, controller_unregister_eq_none hcontroller]
        rfl
      · rintro ⟨⟨r, hr, _⟩, _⟩
        cases hr
  | some r =>
      by_cases hown : owned r
      · refine iff_of_true (fun h => absurd hown (h r rfl)) ?_
        rintro ⟨⟨r', hr', hother⟩, _⟩
        cases hr'
        exact hother hown
      · have hother : registry.ControlledByOther scope url :=
          ⟨r, hcontroller, fun hget => hown ((howned r hcontroller).mpr hget)⟩
        rw [not_and]
        refine ⟨fun h _ => ?_, fun h _ => (fetch_unregister_of_other hother).mpr (h ⟨r, rfl, hown⟩)⟩
        refine (fetch_unregister_of_other hother).mp (h fun r' hr' => ?_)
        cases hr'
        exact hown

/-- Removing a scope that is not in control of a URL keeps its fetch unless another registration
controls the URL and the scope covers it too. -/
theorem unregister_keeps_fetch_iff (registry : ServiceWorkerRegistry U) (scope url : U) :
    ((∀ r, registry.controller url = some r → registry.get scope ≠ some r) →
        (registry.unregister scope).2.fetch url = registry.fetch url) ↔
      ¬ (registry.ControlledByOther scope url ∧ registry.Covers scope url) :=
  keeps_fetch_iff_of_owned fun _ _ => Iff.rfl

/-- In every registry that the calls make, the registration in control is that of the scope when it
has the scope. -/
theorem reached_keeps_fetch_iff (h : (machine U).Reaches default registry) :
    ((∀ r, registry.controller url = some r → Url.asStr r.scope ≠ Url.asStr scope) →
        (registry.unregister scope).2.fetch url = registry.fetch url) ↔
      ¬ ((∃ r, registry.controller url = some r ∧ Url.asStr r.scope ≠ Url.asStr scope) ∧
        registry.Covers scope url) :=
  keeps_fetch_iff_of_owned fun _ hr =>
    ((keyed_of_reaches h).get_eq_some_iff (controller_spec hr).1).symm

/-- A worker for the whole site, one for its application, and a page of the application. -/
def siteScope : PlainUrl := ⟨"https", "shop.test", "/"⟩

/-- A scope below that of the site. -/
def appScope : PlainUrl := ⟨"https", "shop.test", "/app/"⟩

/-- A page in it. -/
def appPage : PlainUrl := ⟨"https", "shop.test", "/app/data"⟩

/-- Both workers, and an answer for the page. -/
def nestedRegistry : ServiceWorkerRegistry PlainUrl :=
  ((((default : ServiceWorkerRegistry PlainUrl).register siteScope siteScope).2.register appScope
    appScope).2).intercept appPage ⟨200, []⟩

/-- Removing the worker of the site takes a response from the worker of the application. -/
theorem nested_registry_loses_response :
    ¬ ∀ (registry : ServiceWorkerRegistry PlainUrl) (scope url : PlainUrl),
      (∀ r, registry.controller url = some r → registry.get scope ≠ some r) →
        (registry.unregister scope).2.fetch url = registry.fetch url := by
  intro h
  have hcontroller : nestedRegistry.controller appPage = some ⟨appScope, appScope, .activated⟩ :=
    rfl
  have hget : nestedRegistry.get siteScope = some ⟨siteScope, siteScope, .activated⟩ := rfl
  have hkept := h nestedRegistry siteScope appPage fun r hr hown => by
    have hscope := congrArg (Registration.scope) (Option.some.inj (hr.symm.trans hcontroller))
    rw [Option.some.inj (hown.symm.trans hget)] at hscope
    exact absurd hscope (by decide)
  have hbefore : nestedRegistry.fetch appPage = some ⟨200, []⟩ := by decide
  have hafter : (nestedRegistry.unregister siteScope).2.fetch appPage = none := by decide +kernel
  rw [hafter, hbefore] at hkept
  cases hkept

end ServiceWorkerRegistry

end BrowsAI.ServiceWorker
