import BrowsAI.Network.Stack

/-!
# The books of the network stack

Each request leaves the stack through one of many exits, and every exit keeps counters and logs.
`Closes` says what an exit of a started request does to them, `call_spec` that every call either
refuses its request or starts and closes it, and `run_accounts` what this means over a run: the
counters balance, and each request has one entry in each log.
-/

namespace BrowsAI.Network

open Utf8 Profiles Cookies Cache ServiceWorker Saturating

/-! ## Log entries -/

/-- The event is the start of a request. -/
def NetworkEvent.isStarted {U : Type} : NetworkEvent U → Bool
  | .requestStarted _ _ => true
  | _ => false

/-- The event ends its request. -/
def NetworkEvent.isTerminal {U : Type} : NetworkEvent U → Bool
  | .requestCompleted _ _ | .requestFailed _ _ => true
  | _ => false

/-- The request of an event. -/
def NetworkEvent.requestId {U : Type} : NetworkEvent U → Uuid
  | .requestStarted id _ | .requestInitiator id _ | .responseReceived id _ _ | .timing id _
  | .requestCompleted id _ | .requestFailed id _ | .mutation id _ => id

/-- The audit event ends its request. -/
def NetworkAuditEvent.isTerminal : NetworkAuditEvent → Bool
  | .completed _ _ _ | .failed _ _ => true
  | .cookieStored _ _ => false

/-- The request of an audit event. -/
def NetworkAuditEvent.requestId : NetworkAuditEvent → Uuid
  | .completed id _ _ | .failed id _ | .cookieStored id _ => id

/-- The result of a call. -/
abbrev Result := Except NetworkError NetworkResponse

/-- The counters after a started request ends with this result. -/
def NetworkMetrics.tally (metrics : NetworkMetrics) : Result → NetworkMetrics
  | .ok response =>
      { metrics with
        requestsCompleted := metrics.requestsCompleted + 1
        bytesReceived := metrics.bytesReceived + UInt64.ofNat response.body.length }
  | .error _ => { metrics with requestsFailed := metrics.requestsFailed + 1 }

/-- The audit log grows by one terminal event for the request, and by nothing else that is
terminal. -/
def AuditedOnce (id : Uuid) (before after : List NetworkAuditEvent) : Prop :=
  ∃ stored last, after = before ++ stored ++ [last] ∧ (∀ event ∈ stored, !event.isTerminal) ∧
    last.isTerminal ∧ last.requestId = id

/-- The event log does not grow, or it grows by a request that starts first, ends last, and
neither starts nor ends in between. -/
def LoggedOnce {U : Type} (id : Uuid) (before after : List (NetworkEvent U)) : Prop :=
  after = before ∨
    ∃ url middle last, after = before ++ .requestStarted id url :: middle ++ [last] ∧
      (∀ event ∈ middle, !event.isStarted ∧ !event.isTerminal) ∧
      last.isTerminal ∧ last.requestId = id

section Exits

variable {U : Type} {s s' : NetworkStack U} {id : Uuid}

/-- A step that neither counts nor starts nor ends a request. -/
structure Quiet (s s' : NetworkStack U) : Prop where
  limits_eq : s'.limits = s.limits
  metrics_eq : s'.metrics = s.metrics
  events : ∃ middle, s'.events = s.events ++ middle ∧
    ∀ event ∈ middle, !event.isStarted ∧ !event.isTerminal
  audit : ∃ stored, s'.auditEvents = s.auditEvents ++ stored ∧ ∀ event ∈ stored, !event.isTerminal

/-- The end of a started request with this result. -/
structure Closes (s s' : NetworkStack U) (id : Uuid) (result : Result) : Prop where
  limits_eq : s'.limits = s.limits
  metrics_eq : s'.metrics = s.metrics.tally result
  events : ∃ middle last, s'.events = s.events ++ middle ++ [last] ∧
    (∀ event ∈ middle, !event.isStarted ∧ !event.isTerminal) ∧ last.isTerminal ∧
      last.requestId = id
  audit : AuditedOnce id s.auditEvents s'.auditEvents
  correlated : ∀ response, result = .ok response → response.requestId = id

namespace Quiet

theorem refl (s : NetworkStack U) : Quiet s s :=
  ⟨rfl, rfl, ⟨[], by simp, by simp⟩, ⟨[], by simp, by simp⟩⟩

theorem trans {t : NetworkStack U} (h : Quiet s s') (h' : Quiet s' t) : Quiet s t := by
  obtain ⟨middle, hevents, hmiddle⟩ := h.events
  obtain ⟨middle', hevents', hmiddle'⟩ := h'.events
  obtain ⟨stored, haudit, hstored⟩ := h.audit
  obtain ⟨stored', haudit', hstored'⟩ := h'.audit
  refine ⟨h'.limits_eq.trans h.limits_eq, h'.metrics_eq.trans h.metrics_eq,
    ⟨middle ++ middle', by rw [hevents', hevents, List.append_assoc], fun event hevent => ?_⟩,
    ⟨stored ++ stored', by rw [haudit', haudit, List.append_assoc], fun event hevent => ?_⟩⟩
  · exact (List.mem_append.mp hevent).elim (hmiddle event) (hmiddle' event)
  · exact (List.mem_append.mp hevent).elim (hstored event) (hstored' event)

theorem push_event {event : NetworkEvent U} (hevent : !event.isStarted ∧ !event.isTerminal) :
    Quiet s (s.pushEvent event) :=
  ⟨rfl, rfl, ⟨[event], rfl, by simpa using hevent⟩, ⟨[], by simp [NetworkStack.pushEvent], by simp⟩⟩

theorem push_timing (startedAt : UInt64) : Quiet s (s.pushTiming id startedAt) :=
  push_event ⟨rfl, rfl⟩

/-- Changing only the cache. -/
theorem set_cache (cache : HttpCache) : Quiet s { s with cache } :=
  ⟨rfl, rfl, ⟨[], by simp, by simp⟩, ⟨[], by simp, by simp⟩⟩

variable [Url U]

theorem store_cookie (request : NetworkRequest U) (now : Int) (response : NetworkResponse) :
    Quiet s (s.storeCookie request now response) := by
  simp only [NetworkStack.storeCookie]
  split
  · exact refl s
  · exact ⟨rfl, rfl, ⟨[], by simp [NetworkStack.pushAudit], by simp⟩,
      ⟨_, rfl, by simp [NetworkAuditEvent.isTerminal]⟩⟩

theorem update_cache (request : NetworkRequest U) (response : NetworkResponse) :
    Quiet s (s.updateCache request response) := by
  unfold NetworkStack.updateCache
  split_ifs
  · exact set_cache _
  · exact (set_cache _).trans (push_event ⟨rfl, rfl⟩)
  · exact refl s

end Quiet

/-- The exit with a response, after quiet steps. -/
theorem complete_closes (hquiet : Quiet s s') (startedAt : UInt64) {response : NetworkResponse}
    (hid : response.requestId = id) :
    Closes s (s'.complete id startedAt response).2 id (s'.complete id startedAt response).1 := by
  obtain ⟨middle, hevents, hmiddle⟩ := hquiet.events
  obtain ⟨stored, haudit, hstored⟩ := hquiet.audit
  refine ⟨hquiet.limits_eq, ?_, ?_, ?_, ?_⟩
  · rw [← hquiet.metrics_eq]
    rfl
  · refine ⟨middle ++ [.responseReceived id response.status response.body.length, .timing id
      (saturatingSub s'.logicalTimeMillis startedAt)], .requestCompleted id response.status, ?_,
      ?_, rfl, rfl⟩
    · simp [NetworkStack.complete, NetworkStack.pushEvent, NetworkStack.pushTiming,
        NetworkStack.auditCompleted, NetworkStack.pushAudit, NetworkStack.countCompleted, hevents]
    · intro event hevent
      rcases List.mem_append.mp hevent with hevent | hevent
      · exact hmiddle event hevent
      · simp only [List.mem_cons, List.not_mem_nil, or_false] at hevent
        rcases hevent with rfl | rfl <;> exact ⟨rfl, rfl⟩
  · refine ⟨stored, .completed id response.status response.body.length, ?_, hstored, rfl, rfl⟩
    simp [NetworkStack.complete, NetworkStack.pushEvent, NetworkStack.pushTiming,
      NetworkStack.auditCompleted, NetworkStack.pushAudit, NetworkStack.countCompleted, haudit]
  · intro response' hresponse
    cases hresponse
    exact hid

/-- The exit with an error, after the failure is counted and quiet steps. -/
theorem fail_closes (hquiet : Quiet s.countFailed s') (error : NetworkError) :
    Closes s (s'.fail id error).2 id (s'.fail id error).1 := by
  obtain ⟨middle, hevents, hmiddle⟩ := hquiet.events
  obtain ⟨stored, haudit, hstored⟩ := hquiet.audit
  refine ⟨hquiet.limits_eq, hquiet.metrics_eq, ⟨middle, .requestFailed id error.debug, ?_, hmiddle,
    rfl, rfl⟩, ⟨stored, .failed id error, ?_, hstored, rfl, rfl⟩, ?_⟩
  · exact congrArg (· ++ [NetworkEvent.requestFailed id error.debug]) hevents
  · exact congrArg (· ++ [NetworkAuditEvent.failed id error]) haudit
  · intro response hresponse
    cases hresponse

variable [Url U]

/-- A request that is started is completed or fails. -/
theorem fetch_route_closes (request : NetworkRequest U) (startedAt : UInt64) (clock : Clock) :
    Closes s (s.fetchRoute request startedAt clock).2 request.id
      (s.fetchRoute request startedAt clock).1 := by
  unfold NetworkStack.fetchRoute
  obtain ⟨result, url⟩ :=
    s.followRedirects request.method s.limits.maxRedirects.toNat request.url
  cases result with
  | error error => exact fail_closes (.push_timing startedAt) error
  | ok response =>
      dsimp only
      split_ifs
      · exact fail_closes (.refl _) .responseTooLarge
      · exact complete_closes ((Quiet.store_cookie _ _ _).trans (.update_cache _ _)) startedAt rfl

/-! ## Calls -/

/-- What a call does: it refuses the request, or starts and closes it. -/
inductive CallSpec (s s' : NetworkStack U) (id : Uuid) (result : Result) : Prop where
  | refused {error : NetworkError} (hresult : result = .error error)
      (hstate : s' = s.auditFailure id error)
  | served (request : NetworkRequest U) (hid : request.id = id)
      (hroom : s.metrics.requestsStarted < s.limits.maxRequests)
      (hcloses : Closes (s.start request) s' id result)

/-- Every fetch keeps the accounts. -/
theorem fetch_spec (s : NetworkStack U) (request : NetworkRequest U) (clock : Clock) :
    CallSpec s (s.fetch request clock).2 request.id (s.fetch request clock).1 := by
  simp only [NetworkStack.fetch]
  by_cases hlimit : s.limits.maxRequests ≤ s.metrics.requestsStarted
  · simp only [if_pos hlimit]
    exact .refused rfl rfl
  simp only [if_neg hlimit]
  split_ifs
  · exact .refused rfl rfl
  · exact .refused rfl rfl
  · exact .refused rfl rfl
  -- from here on the request has been started, so the exit has to close it
  all_goals refine .served (s.prepare request clock) rfl (by simpa using hlimit) ?_
  · exact fail_closes (.refl _) .timeout
  · cases hintercepted : (s.start (s.prepare request clock)).intercepted
        (s.prepare request clock) with
    | some response =>
        refine complete_closes (.refl _) _ ?_
        simp only [NetworkStack.intercepted] at hintercepted
        split_ifs at hintercepted
        obtain ⟨stored, -, rfl⟩ := Option.map_eq_some_iff.mp hintercepted
        rfl
    | none =>
        cases hcached : (s.start (s.prepare request clock)).cached (s.prepare request clock) with
        | some response =>
            refine complete_closes (.refl _) _ ?_
            simp only [NetworkStack.cached] at hcached
            split_ifs at hcached
            obtain ⟨stored, -, rfl⟩ := Option.map_eq_some_iff.mp hcached
            rfl
        | none => exact fetch_route_closes _ _ clock

theorem fetch_worker_spec (s : NetworkStack U) (request : NetworkRequest U) (clock : Clock) :
    CallSpec s (s.fetchWorker request clock).2 request.id (s.fetchWorker request clock).1 := by
  unfold NetworkStack.fetchWorker
  split_ifs
  · exact .refused rfl rfl
  · exact fetch_spec s { request with initiator := some "worker" } clock

end Exits

/-! ## Runs -/

section Runs

variable {U : Type}

/-- A call of `fetch` or `fetch_worker`. -/
structure Call (U : Type) where
  worker : Bool
  request : NetworkRequest U
  clock : Clock

/-- The started requests are the ended ones, and not more than allowed. -/
structure Balanced (s : NetworkStack U) : Prop where
  ended : s.metrics.requestsStarted.toNat =
    s.metrics.requestsCompleted.toNat + s.metrics.requestsFailed.toNat
  limited : s.metrics.requestsStarted ≤ s.limits.maxRequests

/-- The length of the body of a response. -/
def bodyBytes : Result → Nat
  | .ok response => response.body.length
  | .error _ => 0

/-- The body lengths of the responses together. -/
def totalBytes (results : List Result) : Nat := (results.map bodyBytes).sum

/-- A request that is started and closed keeps the balance. -/
theorem Balanced.start_closes {s s' : NetworkStack U} (h : Balanced s)
    {request : NetworkRequest U} {id : Uuid} {result : Result}
    (hroom : s.metrics.requestsStarted < s.limits.maxRequests)
    (hcloses : Closes (s.start request) s' id result) : Balanced s' := by
  have hstart : (s.start request).metrics = s.countStarted.metrics ∧
      (s.start request).limits = s.limits := by
    unfold NetworkStack.start
    cases request.initiator <;> exact ⟨rfl, rfl⟩
  have hmetrics := hcloses.metrics_eq
  have hlimits := hcloses.limits_eq
  rw [hstart.1] at hmetrics
  rw [hstart.2] at hlimits
  have hended := h.ended
  have hlt := UInt64.lt_iff_toNat_lt.mp hroom
  have hmax := s.limits.maxRequests.toNat_lt
  constructor
  · rw [hmetrics]
    cases result <;>
      simp only [NetworkMetrics.tally, NetworkStack.countStarted, UInt64.toNat_add,
        UInt64.toNat_one] <;> omega
  · rw [hmetrics, hlimits, UInt64.le_iff_toNat_le]
    cases result <;>
      simp only [NetworkMetrics.tally, NetworkStack.countStarted, UInt64.toNat_add,
        UInt64.toNat_one] <;> omega

/-- The log entries of a request that is started and closed. -/
theorem logged_start_closes {s s' : NetworkStack U} {request : NetworkRequest U} {result : Result}
    (hcloses : Closes (s.start request) s' request.id result) :
    LoggedOnce request.id s.events s'.events := by
  obtain ⟨middle, last, hevents, hmiddle, hlast⟩ := hcloses.events
  cases hinitiator : request.initiator with
  | none =>
      refine .inr ⟨request.url, middle, last, ?_, hmiddle, hlast⟩
      simp [hevents, NetworkStack.start, hinitiator, NetworkStack.pushEvent,
        NetworkStack.countStarted]
  | some initiator =>
      refine .inr ⟨request.url, .requestInitiator request.id initiator :: middle, last, ?_, ?_,
        hlast⟩
      · simp [hevents, NetworkStack.start, hinitiator, NetworkStack.pushEvent,
          NetworkStack.countStarted]
      · intro event hevent
        rcases List.mem_cons.mp hevent with rfl | hevent
        · exact ⟨rfl, rfl⟩
        · exact hmiddle event hevent

namespace CallSpec

variable {s s' : NetworkStack U} {id : Uuid} {result : Result}

theorem balanced (h : CallSpec s s' id result) (hs : Balanced s) : Balanced s' := by
  cases h with
  | refused hresult hstate => exact hstate ▸ ⟨hs.ended, hs.limited⟩
  | served request hid hroom hcloses => exact hs.start_closes hroom hcloses

theorem limits_eq (h : CallSpec s s' id result) : s'.limits = s.limits := by
  cases h with
  | refused hresult hstate => exact hstate ▸ rfl
  | served request hid hroom hcloses =>
      rw [hcloses.limits_eq]
      unfold NetworkStack.start
      cases request.initiator <;> rfl

/-- The bytes of an answer are counted. -/
theorem bytes_received (h : CallSpec s s' id result) :
    s'.metrics.bytesReceived = s.metrics.bytesReceived + UInt64.ofNat (bodyBytes result) := by
  cases h with
  | refused hresult hstate =>
      rw [hstate, hresult]
      simp [bodyBytes, NetworkStack.auditFailure, NetworkStack.pushAudit]
  | served request hid hroom hcloses =>
      have hstart : (s.start request).metrics.bytesReceived = s.metrics.bytesReceived := by
        unfold NetworkStack.start
        cases request.initiator <;> rfl
      rw [hcloses.metrics_eq, ← hstart]
      cases result <;> simp [NetworkMetrics.tally, bodyBytes]

/-- A request is audited once. -/
theorem audited_once (h : CallSpec s s' id result) :
    AuditedOnce id s.auditEvents s'.auditEvents := by
  cases h with
  | @refused error hresult hstate =>
      exact hstate ▸ ⟨[], .failed id error, by simp [NetworkStack.auditFailure,
        NetworkStack.pushAudit], by simp, rfl, rfl⟩
  | served request hid hroom hcloses =>
      have hstart : (s.start request).auditEvents = s.auditEvents := by
        unfold NetworkStack.start
        cases request.initiator <;> rfl
      exact hstart ▸ hcloses.audit

theorem logged_once (h : CallSpec s s' id result) : LoggedOnce id s.events s'.events := by
  cases h with
  | refused hresult hstate => exact .inl (by rw [hstate]; rfl)
  | served request hid hroom hcloses => exact hid ▸ logged_start_closes (hid ▸ hcloses)

theorem correlated (h : CallSpec s s' id result) :
    ∀ response, result = .ok response → response.requestId = id := by
  cases h with
  | refused hresult hstate => simp [hresult]
  | served request hid hroom hcloses => exact hcloses.correlated

end CallSpec

variable [Url U]

namespace NetworkStack

/-- A call, by a page or by a worker. -/
def call (s : NetworkStack U) (c : Call U) : Result × NetworkStack U :=
  if c.worker then s.fetchWorker c.request c.clock else s.fetch c.request c.clock

/-- The results of the calls, in order, and the stack after them. -/
def run (s : NetworkStack U) (calls : List (Call U)) : List Result × NetworkStack U :=
  calls.foldl (fun (results, s) c => (results ++ [(s.call c).1], (s.call c).2)) ([], s)

theorem call_spec (s : NetworkStack U) (c : Call U) :
    CallSpec s (s.call c).2 c.request.id (s.call c).1 := by
  unfold call
  split_ifs
  · exact fetch_worker_spec s c.request c.clock
  · exact fetch_spec s c.request c.clock

theorem run_append_singleton (s : NetworkStack U) (calls : List (Call U)) (c : Call U) :
    s.run (calls ++ [c]) =
      ((s.run calls).1 ++ [((s.run calls).2.call c).1], ((s.run calls).2.call c).2) := by
  simp [run]

end NetworkStack

/-- The books of a fresh stack are balanced after any calls. -/
theorem run_balanced (routes : Routes) (serviceWorkers : ServiceWorkerRegistry U)
    (limits : NetworkLimits) (config : NetworkConfig U) (calls : List (Call U)) :
    Balanced ((NetworkStack.fresh routes serviceWorkers limits config).run calls).2 := by
  induction calls using List.reverseRecOn with
  | nil => exact ⟨rfl, UInt64.zero_le⟩
  | append_singleton calls c ih =>
      rw [NetworkStack.run_append_singleton]
      exact (NetworkStack.call_spec _ c).balanced ih

theorem run_limits (routes : Routes) (serviceWorkers : ServiceWorkerRegistry U)
    (limits : NetworkLimits) (config : NetworkConfig U) (calls : List (Call U)) :
    ((NetworkStack.fresh routes serviceWorkers limits config).run calls).2.limits = limits := by
  induction calls using List.reverseRecOn with
  | nil => rfl
  | append_singleton calls c ih =>
      rw [NetworkStack.run_append_singleton]
      exact (NetworkStack.call_spec _ c).limits_eq.trans ih

/-- The counter of bytes is the sum of the body lengths, in its 64 bits. -/
theorem run_bytes_received (routes : Routes) (serviceWorkers : ServiceWorkerRegistry U)
    (limits : NetworkLimits) (config : NetworkConfig U) (calls : List (Call U)) :
    let out := (NetworkStack.fresh routes serviceWorkers limits config).run calls
    out.2.metrics.bytesReceived = UInt64.ofNat (totalBytes out.1) := by
  induction calls using List.reverseRecOn with
  | nil => rfl
  | append_singleton calls c ih =>
      simp only [NetworkStack.run_append_singleton] at ih ⊢
      rw [(NetworkStack.call_spec _ c).bytes_received, ih]
      simp [totalBytes]

/-- After any calls on a fresh stack, one more call keeps the counters balanced and the limits, adds
the length of its body to the received bytes, ends its request once in the audit log and at most
once in the event log, and answers under the id of its request. -/
theorem run_accounts (routes : Routes) (serviceWorkers : ServiceWorkerRegistry U)
    (limits : NetworkLimits) (config : NetworkConfig U) (calls : List (Call U)) (c : Call U) :
    let before := (NetworkStack.fresh routes serviceWorkers limits config).run calls
    let after := before.2.call c
    Balanced after.2 ∧ after.2.limits = limits ∧
      after.2.metrics.bytesReceived = UInt64.ofNat (totalBytes (before.1 ++ [after.1])) ∧
      AuditedOnce c.request.id before.2.auditEvents after.2.auditEvents ∧
      LoggedOnce c.request.id before.2.events after.2.events ∧
      ∀ response, after.1 = .ok response → response.requestId = c.request.id := by
  intro before after
  have hspec : CallSpec before.2 after.2 c.request.id after.1 := before.2.call_spec c
  have hbytes := run_bytes_received routes serviceWorkers limits config (calls ++ [c])
  simp only [NetworkStack.run_append_singleton] at hbytes
  exact ⟨hspec.balanced (run_balanced routes serviceWorkers limits config calls),
    hspec.limits_eq.trans (run_limits routes serviceWorkers limits config calls), hbytes,
    hspec.audited_once, hspec.logged_once, hspec.correlated⟩

end Runs

end BrowsAI.Network
