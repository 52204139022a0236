import BrowsAI.Network.Accounting

/-!
# How a fetch ends

`fetch_outcome` splits a fetch by its exits: the request is refused, a service worker or the cache
answers it, the redirect loop fails, or a route answers and the cookie and the cache entry of the
response are stored. Beside the counters and the logs a fetch changes only the cookies and the
cache, so an outcome says what they are afterwards; `SameSetup` is about the rest.
-/

namespace BrowsAI.Network

open Utf8 Profiles Cookies Cache ServiceWorker

variable {U : Type}

/-- The parts of a stack that no call changes. -/
structure SameSetup (s s' : NetworkStack U) : Prop where
  routes_eq : s'.routes = s.routes
  service_workers_eq : s'.serviceWorkers = s.serviceWorkers
  limits_eq : s'.limits = s.limits
  config_eq : s'.config = s.config

/-- The stacks differ in their counters and their logs. -/
structure SameStores (s s' : NetworkStack U) : Prop extends SameSetup s s' where
  cookies_eq : s'.cookies = s.cookies
  cache_eq : s'.cache = s.cache

theorem SameSetup.refl (s : NetworkStack U) : SameSetup s s := ⟨rfl, rfl, rfl, rfl⟩

theorem SameSetup.trans {s s' t : NetworkStack U} (h : SameSetup s s') (h' : SameSetup s' t) :
    SameSetup s t :=
  ⟨h'.routes_eq.trans h.routes_eq, h'.service_workers_eq.trans h.service_workers_eq,
    h'.limits_eq.trans h.limits_eq, h'.config_eq.trans h.config_eq⟩

theorem SameSetup.symm {s s' : NetworkStack U} (h : SameSetup s s') : SameSetup s' s :=
  ⟨h.routes_eq.symm, h.service_workers_eq.symm, h.limits_eq.symm, h.config_eq.symm⟩

variable [Url U]

namespace SameSetup

variable {s s' : NetworkStack U} (h : SameSetup s s')

include h

theorem untrusted (url : U) : s'.untrusted url = s.untrusted url := by
  rw [NetworkStack.untrusted, h.config_eq, ← NetworkStack.untrusted]

theorem intercepted (request : NetworkRequest U) :
    s'.intercepted request = s.intercepted request := by
  rw [NetworkStack.intercepted, h.config_eq, h.service_workers_eq, ← NetworkStack.intercepted]

theorem route_response (method : Text) (url : U) :
    s'.routeResponse method url = s.routeResponse method url := by
  rw [NetworkStack.routeResponse, h.config_eq, h.routes_eq, ← NetworkStack.routeResponse]

theorem follow_redirects (method : Text) (remaining : Nat) (url : U) :
    s'.followRedirects method remaining url = s.followRedirects method remaining url := by
  induction remaining generalizing url with
  | zero =>
      unfold NetworkStack.followRedirects
      rw [h.route_response]
  | succ remaining ih =>
      unfold NetworkStack.followRedirects
      rw [h.route_response]
      simp only [ih]

end SameSetup

namespace NetworkStack

/-- The error that ends a request before anything answers it. -/
def refusal (s : NetworkStack U) (request : NetworkRequest U) : Option NetworkError :=
  if s.limits.maxRequests ≤ s.metrics.requestsStarted then some .requestLimit
  else if Url.scheme request.url ≠ "http" ∧ Url.scheme request.url ≠ "https" then
    some .unsupportedScheme
  else if s.untrusted request.url then some .untrustedCertificate
  else if request.method = [] then some .invalidMethod
  else if s.limits.timeoutMillis = 0 then some .timeout
  else none

/-- A request that is admitted passes all the checks. -/
theorem refusal_eq_none {s : NetworkStack U} {request : NetworkRequest U} :
    s.refusal request = none ↔ ¬ s.limits.maxRequests ≤ s.metrics.requestsStarted ∧
      (Url.scheme request.url = "http" ∨ Url.scheme request.url = "https") ∧
      ¬ s.untrusted request.url ∧ request.method ≠ [] ∧ s.limits.timeoutMillis ≠ 0 := by
  rw [refusal]
  split_ifs with hlimit hscheme htrusted hmethod htimeout
  · simp [hlimit]
  · refine iff_of_false id fun h => ?_
    exact h.2.1.elim hscheme.1 hscheme.2
  · simp [htrusted]
  · simp [hmethod]
  · simp [htimeout]
  · refine iff_of_true rfl ⟨hlimit, ?_, htrusted, hmethod, htimeout⟩
    by_contra hother
    exact hscheme (not_or.mp hother)

/-- Where the redirects of a sent request end, and with what. -/
def routed (s : NetworkStack U) (request : NetworkRequest U) :
    Except NetworkError NetworkResponse × U :=
  s.followRedirects request.method s.limits.maxRedirects.toNat request.url

end NetworkStack

/-- The ends of a fetch: the result, and the cookies and the cache after it. -/
inductive FetchOutcome (s : NetworkStack U) (request : NetworkRequest U) (clock : Clock) :
    Result → CookieJar → HttpCache → Prop
  | refused {error : NetworkError} (hrefusal : s.refusal request = some error) :
      FetchOutcome s request clock (.error error) s.cookies s.cache
  | intercepted {response : NetworkResponse} (hadmitted : s.refusal request = none)
      (hintercepted : s.intercepted (s.prepare request clock) = some response) :
      FetchOutcome s request clock (.ok response) s.cookies s.cache
  | cached {response : NetworkResponse} (hadmitted : s.refusal request = none)
      (hintercepted : s.intercepted (s.prepare request clock) = none)
      (hcached : s.cached (s.prepare request clock) = some response) :
      FetchOutcome s request clock (.ok response) s.cookies s.cache
  | failed {error : NetworkError} {url : U} (hadmitted : s.refusal request = none)
      (hintercepted : s.intercepted (s.prepare request clock) = none)
      (hcached : s.cached (s.prepare request clock) = none)
      (hrouted : s.routed (s.prepare request clock) = (.error error, url)) :
      FetchOutcome s request clock (.error error) s.cookies s.cache
  | tooLarge {response : NetworkResponse} {url : U} (hadmitted : s.refusal request = none)
      (hintercepted : s.intercepted (s.prepare request clock) = none)
      (hcached : s.cached (s.prepare request clock) = none)
      (hrouted : s.routed (s.prepare request clock) = (.ok response, url))
      (hsize : s.limits.maxResponseBytes < response.body.length) :
      FetchOutcome s request clock (.error .responseTooLarge) s.cookies s.cache
  | stored {response : NetworkResponse} {url : U} (hadmitted : s.refusal request = none)
      (hintercepted : s.intercepted (s.prepare request clock) = none)
      (hcached : s.cached (s.prepare request clock) = none)
      (hrouted : s.routed (s.prepare request clock) = (.ok response, url))
      (hsize : response.body.length ≤ s.limits.maxResponseBytes) :
      FetchOutcome s request clock (.ok { response with requestId := request.id })
        (s.storeCookie { s.prepare request clock with url } clock.cookieParse response).cookies
        (s.updateCache { s.prepare request clock with url } response).cache

/-! ## Bookkeeping -/

namespace SameStores

omit [Url U]

variable {s s' t : NetworkStack U}

theorem trans (h : SameStores s s') (h' : SameStores s' t) : SameStores s t :=
  ⟨h.toSameSetup.trans h'.toSameSetup, h'.cookies_eq.trans h.cookies_eq,
    h'.cache_eq.trans h.cache_eq⟩

theorem start (s : NetworkStack U) (request : NetworkRequest U) :
    SameStores s (s.start request) := by
  simp only [NetworkStack.start]
  cases request.initiator <;> exact ⟨⟨rfl, rfl, rfl, rfl⟩, rfl, rfl⟩

theorem complete (s : NetworkStack U) (id : Uuid) (startedAt : UInt64)
    (response : NetworkResponse) : SameStores s (s.complete id startedAt response).2 :=
  ⟨⟨rfl, rfl, rfl, rfl⟩, rfl, rfl⟩

end SameStores

/-! ## Storing a response -/

section Storing

variable (s s' : NetworkStack U) (request : NetworkRequest U) (now : Int)
  (response : NetworkResponse)

theorem same_setup_store_cookie : SameSetup s (s.storeCookie request now response) := by
  simp only [NetworkStack.storeCookie]
  split <;> exact ⟨rfl, rfl, rfl, rfl⟩

theorem same_setup_update_cache : SameSetup s (s.updateCache request response) := by
  unfold NetworkStack.updateCache
  split_ifs <;> exact ⟨rfl, rfl, rfl, rfl⟩

theorem cache_store_cookie : (s.storeCookie request now response).cache = s.cache := by
  simp only [NetworkStack.storeCookie]
  split <;> rfl

theorem cookies_update_cache : (s.updateCache request response).cookies = s.cookies := by
  unfold NetworkStack.updateCache
  split_ifs <;> rfl

variable {s s'}

theorem cookies_store_cookie_congr (h : s'.cookies = s.cookies) :
    (s'.storeCookie request now response).cookies =
      (s.storeCookie request now response).cookies := by
  simp only [NetworkStack.storeCookie]
  split
  · exact h
  · rw [NetworkStack.pushAudit, NetworkStack.pushAudit, h]

theorem cache_update_cache_congr (h : s'.cache = s.cache) :
    (s'.updateCache request response).cache = (s.updateCache request response).cache := by
  unfold NetworkStack.updateCache
  split_ifs
  · rw [h]
  · rw [NetworkStack.pushEvent, NetworkStack.pushEvent, h]
  · exact h

end Storing

/-! ## The exits -/

/-- A request that is refused leaves the jar and the cache alone. -/
theorem fetch_refused {s : NetworkStack U} {request : NetworkRequest U} {error : NetworkError}
    (h : s.refusal request = some error) (clock : Clock) :
    (s.fetch request clock).1 = .error error ∧ SameStores s (s.fetch request clock).2 := by
  simp only [NetworkStack.refusal] at h
  simp only [NetworkStack.fetch]
  split_ifs at h with hlimit hscheme htrusted hmethod htimeout <;> cases h
  · rw [if_pos hlimit]
    exact ⟨rfl, ⟨rfl, rfl, rfl, rfl⟩, rfl, rfl⟩
  · rw [if_neg hlimit, if_pos hscheme]
    exact ⟨rfl, ⟨rfl, rfl, rfl, rfl⟩, rfl, rfl⟩
  · rw [if_neg hlimit, if_neg hscheme, if_pos htrusted]
    exact ⟨rfl, ⟨rfl, rfl, rfl, rfl⟩, rfl, rfl⟩
  · rw [if_neg hlimit, if_neg hscheme, if_neg htrusted, if_pos hmethod]
    exact ⟨rfl, ⟨rfl, rfl, rfl, rfl⟩, rfl, rfl⟩
  · have hstart := SameStores.start s (s.prepare request clock)
    rw [if_neg hlimit, if_neg hscheme, if_neg htrusted, if_neg hmethod, hstart.limits_eq,
      if_pos htimeout]
    exact ⟨rfl, hstart.trans ⟨⟨rfl, rfl, rfl, rfl⟩, rfl, rfl⟩⟩

/-- A request is answered by the service worker, from the cache, or from its route. -/
theorem fetch_admitted {s : NetworkStack U} {request : NetworkRequest U}
    (h : s.refusal request = none) (clock : Clock) :
    s.fetch request clock =
      match s.intercepted (s.prepare request clock) with
      | some response =>
          (s.start (s.prepare request clock)).complete request.id s.logicalTimeMillis response
      | none =>
          match s.cached (s.prepare request clock) with
          | some response =>
              (s.start (s.prepare request clock)).complete request.id s.logicalTimeMillis response
          | none =>
              (s.start (s.prepare request clock)).fetchRoute (s.prepare request clock)
                s.logicalTimeMillis clock := by
  have hstart := SameStores.start s (s.prepare request clock)
  have hcached : (s.start (s.prepare request clock)).cached (s.prepare request clock) =
      s.cached (s.prepare request clock) := by
    rw [NetworkStack.cached, hstart.cache_eq, ← NetworkStack.cached]
  simp only [NetworkStack.refusal] at h
  split_ifs at h with hlimit hscheme htrusted hmethod htimeout
  simp only [NetworkStack.fetch]
  rw [if_neg hlimit, if_neg hscheme, if_neg htrusted, if_neg hmethod, hstart.limits_eq,
    if_neg htimeout, hstart.intercepted, hcached]
  rfl

/-- The exits behind the redirect loop. -/
theorem fetch_route_cases (s : NetworkStack U) (request : NetworkRequest U) (startedAt : UInt64)
    (clock : Clock) :
    (∃ error url, s.routed request = (.error error, url) ∧
      (s.fetchRoute request startedAt clock).1 = .error error ∧
      SameStores s (s.fetchRoute request startedAt clock).2) ∨
    ∃ response url, s.routed request = (.ok response, url) ∧
      ((s.limits.maxResponseBytes < response.body.length ∧
        (s.fetchRoute request startedAt clock).1 = .error .responseTooLarge ∧
        SameStores s (s.fetchRoute request startedAt clock).2) ∨
      response.body.length ≤ s.limits.maxResponseBytes ∧
        (s.fetchRoute request startedAt clock).1 = .ok { response with requestId := request.id } ∧
        SameSetup s (s.fetchRoute request startedAt clock).2 ∧
        (s.fetchRoute request startedAt clock).2.cookies =
          (s.storeCookie { request with url } clock.cookieParse response).cookies ∧
        (s.fetchRoute request startedAt clock).2.cache =
          (s.updateCache { request with url } response).cache) := by
  cases hrouted : s.routed request with
  | mk result url =>
      rw [NetworkStack.routed] at hrouted
      simp only [NetworkStack.fetchRoute, hrouted]
      cases result with
      | error error => exact .inl ⟨error, url, rfl, rfl, ⟨rfl, rfl, rfl, rfl⟩, rfl, rfl⟩
      | ok response =>
          refine .inr ⟨response, url, rfl, ?_⟩
          by_cases hsize : s.limits.maxResponseBytes < response.body.length
          · dsimp only
            rw [if_pos hsize]
            exact .inl ⟨hsize, rfl, ⟨rfl, rfl, rfl, rfl⟩, rfl, rfl⟩
          · dsimp only
            rw [if_neg hsize]
            refine .inr ⟨Nat.not_lt.mp hsize, rfl, ?_, ?_, ?_⟩
            · exact (same_setup_store_cookie _ _ _ _).trans
                ((same_setup_update_cache _ _ _).trans ⟨rfl, rfl, rfl, rfl⟩)
            · exact cookies_update_cache _ _ _
            · exact cache_update_cache_congr _ _ (cache_store_cookie _ _ _ _)

/-- Every fetch has an outcome, and keeps the rest of the stack. -/
theorem fetch_outcome (s : NetworkStack U) (request : NetworkRequest U) (clock : Clock) :
    SameSetup s (s.fetch request clock).2 ∧
      FetchOutcome s request clock (s.fetch request clock).1 (s.fetch request clock).2.cookies
        (s.fetch request clock).2.cache := by
  cases hrefusal : s.refusal request with
  | some error =>
      obtain ⟨hresult, hsame⟩ := fetch_refused hrefusal clock
      rw [hresult, hsame.cookies_eq, hsame.cache_eq]
      exact ⟨hsame.toSameSetup, .refused hrefusal⟩
  | none =>
      have hstart := SameStores.start s (s.prepare request clock)
      rw [fetch_admitted hrefusal]
      cases hintercepted : s.intercepted (s.prepare request clock) with
      | some response =>
          have hsame := hstart.trans (.complete _ request.id s.logicalTimeMillis response)
          dsimp only
          rw [hsame.cookies_eq, hsame.cache_eq]
          exact ⟨hsame.toSameSetup, .intercepted hrefusal hintercepted⟩
      | none =>
          cases hcached : s.cached (s.prepare request clock) with
          | some response =>
              have hsame := hstart.trans (.complete _ request.id s.logicalTimeMillis response)
              dsimp only
              rw [hsame.cookies_eq, hsame.cache_eq]
              exact ⟨hsame.toSameSetup, .cached hrefusal hintercepted hcached⟩
          | none =>
              dsimp only
              -- starting the request does not touch what the redirects read
              have hrouted : (s.start (s.prepare request clock)).routed (s.prepare request clock) =
                  s.routed (s.prepare request clock) := by
                rw [NetworkStack.routed, NetworkStack.routed, hstart.limits_eq,
                  hstart.follow_redirects]
              obtain ⟨error, url, herror, hresult, hsame⟩ | ⟨response, url, hok, hsize⟩ :=
                fetch_route_cases (s.start (s.prepare request clock)) (s.prepare request clock)
                  s.logicalTimeMillis clock
              · have hsame := hstart.trans hsame
                rw [hresult, hsame.cookies_eq, hsame.cache_eq]
                exact ⟨hsame.toSameSetup,
                  .failed hrefusal hintercepted hcached (hrouted.symm.trans herror)⟩
              have hok := hrouted.symm.trans hok
              rw [hstart.limits_eq] at hsize
              obtain ⟨hsize, hresult, hsame⟩ | ⟨hsize, hresult, hsetup, hcookies, hcache⟩ := hsize
              · have hsame := hstart.trans hsame
                rw [hresult, hsame.cookies_eq, hsame.cache_eq]
                exact ⟨hsame.toSameSetup, .tooLarge hrefusal hintercepted hcached hok hsize⟩
              · rw [hresult, hcookies, hcache, cookies_store_cookie_congr _ _ _ hstart.cookies_eq,
                  cache_update_cache_congr _ _ hstart.cache_eq]
                exact ⟨hstart.toSameSetup.trans hsetup,
                  .stored hrefusal hintercepted hcached hok hsize⟩

/-! ## Calls -/

/-- The request that a call passes to `fetch`. -/
def Call.sent (c : Call U) : NetworkRequest U :=
  if c.worker then { c.request with initiator := some "worker" } else c.request

/-- The call gets to `fetch`. -/
def Call.allowed (c : Call U) (s : NetworkStack U) : Prop := c.worker → s.config.workersEnabled

theorem call_of_not_allowed {s : NetworkStack U} {c : Call U} (h : ¬ c.allowed s) :
    (s.call c).1 = .error .workersDisabled ∧ SameStores s (s.call c).2 := by
  obtain ⟨hworker, hdisabled⟩ := Classical.not_imp.mp h
  rw [NetworkStack.call, if_pos hworker, NetworkStack.fetchWorker,
    if_pos (by simpa using hdisabled)]
  exact ⟨rfl, ⟨rfl, rfl, rfl, rfl⟩, rfl, rfl⟩

theorem call_of_allowed {s : NetworkStack U} {c : Call U} (h : c.allowed s) :
    s.call c = s.fetch c.sent c.clock := by
  rw [NetworkStack.call, Call.sent]
  by_cases hworker : c.worker = true
  · rw [if_pos hworker, if_pos hworker, NetworkStack.fetchWorker, if_neg (by simp [h hworker])]
  · rw [if_neg hworker, if_neg hworker]

theorem call_same_setup (s : NetworkStack U) (c : Call U) : SameSetup s (s.call c).2 := by
  by_cases hallowed : c.allowed s
  · rw [call_of_allowed hallowed]
    exact (fetch_outcome s c.sent c.clock).1
  · exact (call_of_not_allowed hallowed).2.toSameSetup

omit [Url U] in
/-- The splits of a list at an element, when an element is added at the end. -/
theorem forall_split_append_singleton {p : List (Call U) → Call U → Prop} {calls : List (Call U)}
    {last : Call U} :
    (∀ before c after, calls ++ [last] = before ++ c :: after → p before c) ↔
      (∀ before c after, calls = before ++ c :: after → p before c) ∧ p calls last := by
  constructor
  · intro h
    refine ⟨fun before c after hcalls => h before c (after ++ [last]) ?_, h calls last [] rfl⟩
    rw [hcalls, List.append_assoc, List.cons_append]
  · rintro ⟨hcalls, hlast⟩ before c after h
    rcases List.eq_nil_or_concat after with rfl | ⟨rest, final, rfl⟩
    · obtain ⟨rfl, hc⟩ := List.append_inj' h rfl
      cases hc
      exact hlast
    · rw [List.concat_eq_append, ← List.cons_append, ← List.append_assoc] at h
      exact hcalls before c rest (List.append_inj' h rfl).1

/-- The set-up of a stack stays through a run. -/
theorem run_same_setup (s : NetworkStack U) (calls : List (Call U)) :
    SameSetup s (s.run calls).2 := by
  induction calls using List.reverseRecOn with
  | nil => exact .refl s
  | append_singleton calls c ih =>
      rw [NetworkStack.run_append_singleton]
      exact ih.trans (call_same_setup _ c)

/-- The page of a shop. -/
def shopUrl : PlainUrl := ⟨"https", "shop.test", "/"⟩

/-- A call of `fetch` from this page, with the clock at its start. -/
def shopCall (method : Text) (url : PlainUrl) : Call PlainUrl where
  worker := false
  request :=
    { id := 0
      profile := 1
      topLevelSite := "https://shop.test"
      url
      method
      headers := ∅
      body := none
      initiator := none }
  clock := ⟨0, 0⟩

end BrowsAI.Network
