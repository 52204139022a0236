import BrowsAI.Network.Fetch

/-!
# Invalidation of the cache

A request other than GET erases the entry of the URL at which its redirects end, and one that a
service worker answers erases none. `entry_after` says which requests leave no entry for their own
URL, and `invalidation_iff` that after these, and only these, no later GET gets an older entry,
whatever happens to the stack in between.
-/

namespace BrowsAI.Network

open Utf8 Profiles Cookies Cache ServiceWorker

variable {U : Type} [Url U] {s : NetworkStack U}

/-! ## Runs with other changes -/

/-- What happens to a stack: a call, an invalidation of the cache, or any change beside the cache,
such as a new route, a service worker, other limits, or the passing of time. -/
inductive StackStep (U : Type) where
  | call (c : Call U)
  | invalidateCache (profile : ProfileId) (site : Text) (url : U)
  | invalidateCachePartition (profile : ProfileId) (site : Text)
  | other (change : NetworkStack U → NetworkStack U)

namespace NetworkStack

/-- A step of the stack. -/
def step (s : NetworkStack U) : StackStep U → NetworkStack U
  | .call c => (s.call c).2
  | .invalidateCache profile site url => { s with cache := s.cache.invalidate profile site url }
  | .invalidateCachePartition profile site =>
      { s with cache := s.cache.invalidatePartition profile site }
  | .other change => { change s with cache := s.cache }

/-- The stack after a sequence of steps. -/
def after (s : NetworkStack U) (steps : List (StackStep U)) : NetworkStack U := steps.foldl step s

end NetworkStack

/-- The status of a redirect, and a location. -/
def NetworkResponse.IsRedirect (response : NetworkResponse) : Prop :=
  300 ≤ response.status ∧ response.status < 400 ∧ (response.headers[("location" : Text)]?).isSome

/-- The cache key of a URL in the partition of a request. -/
def NetworkRequest.cacheKey (request : NetworkRequest U) (url : U) : CacheKey :=
  (request.profile, request.topLevelSite, Url.asStr url)

namespace NetworkStack

/-- The call gets its answer from the cache. -/
def FromCache (s : NetworkStack U) (c : Call U) : Prop :=
  c.allowed s ∧ s.refusal c.sent = none ∧ s.intercepted (s.prepare c.sent c.clock) = none ∧
    (s.cached (s.prepare c.sent c.clock)).isSome

/-- The call stores its response in the cache, under this key. -/
def Stores (s : NetworkStack U) (c : Call U) (key : CacheKey) : Prop :=
  c.allowed s ∧ s.refusal c.sent = none ∧ s.intercepted (s.prepare c.sent c.clock) = none ∧
    s.cached (s.prepare c.sent c.clock) = none ∧
    ∃ response url, s.routed (s.prepare c.sent c.clock) = (.ok response, url) ∧
      response.body.length ≤ s.limits.maxResponseBytes ∧ asciiUpper c.request.method = "GET" ∧
      200 ≤ response.status ∧ response.status < 400 ∧ key = c.request.cacheKey url

/-- One of the steps stores a response under this key. -/
def StoredIn (key : CacheKey) : NetworkStack U → List (StackStep U) → Prop
  | _, [] => False
  | s, step :: steps =>
      (∃ c, step = .call c ∧ s.Stores c key) ∨ StoredIn key (s.step step) steps

/-- The route of the requested URL redirects. -/
def RedirectsAway (s : NetworkStack U) (request : NetworkRequest U) : Prop :=
  ∃ response, s.routeResponse (asciiUpper request.method) request.url = some response ∧
    response.IsRedirect

/-- There is no entry for the URL of the call, or the route of this URL answers it. -/
def Invalidates (s : NetworkStack U) (c : Call U) : Prop :=
  s.cache.values[c.request.cacheKey c.request.url]? = none ∨
    s.intercepted c.request = none ∧ ¬ s.RedirectsAway c.request

end NetworkStack

/-! ## Where redirects end -/

theorem route_response_congr {method : Text} {url url' : U} (h : Url.asStr url = Url.asStr url') :
    s.routeResponse method url = s.routeResponse method url' := by
  rw [NetworkStack.routeResponse, h, ← NetworkStack.routeResponse]

theorem not_redirect_of_location {response : NetworkResponse}
    (h : response.headers[("location" : Text)]? = none) : ¬ response.IsRedirect := by
  rintro ⟨-, -, hlocation⟩
  rw [h] at hlocation
  cases hlocation

/-- A turn of the redirect loop: it finds no route, stops at a response that does not redirect,
fails to redirect, or goes on with the next URL. -/
theorem follow_redirects_cases (s : NetworkStack U) (method : Text) (remaining : Nat) (url : U) :
    (s.routeResponse method url = none ∧
        s.followRedirects method remaining url = (.error .noRoute, url)) ∨
      ∃ response, s.routeResponse method url = some response ∧
        ((¬ response.IsRedirect ∧ s.followRedirects method remaining url = (.ok response, url)) ∨
          response.IsRedirect ∧
            ((∃ error, s.followRedirects method remaining url = (.error error, url)) ∨
              ∃ n next, remaining = n + 1 ∧ s.followRedirects method remaining url =
                s.followRedirects method n next)) := by
  rw [NetworkStack.followRedirects.eq_def s method remaining url]
  dsimp only
  cases hroute : s.routeResponse method url with
  | none => exact .inl ⟨rfl, rfl⟩
  | some response =>
      refine .inr ⟨response, rfl, ?_⟩
      dsimp only
      split_ifs with hstatus
      swap
      · exact .inl ⟨fun hredirect => hstatus ⟨hredirect.1, hredirect.2.1⟩, rfl⟩
      cases hlocation : response.headers[("location" : Text)]? with
      | none => exact .inl ⟨not_redirect_of_location hlocation, rfl⟩
      | some location =>
          refine .inr ⟨⟨hstatus.1, hstatus.2, Option.isSome_iff_exists.mpr ⟨location, hlocation⟩⟩, ?_⟩
          cases remaining with
          | zero => exact .inl ⟨_, rfl⟩
          | succ remaining =>
              dsimp only
              cases Url.join url location with
              | none => exact .inl ⟨_, rfl⟩
              | some next => exact .inr ⟨remaining, next, rfl, rfl⟩

/-- A response ends the redirects at a URL whose route does not redirect. -/
theorem follow_redirects_ok {method : Text} {remaining : Nat} {url last : U}
    {response : NetworkResponse}
    (h : s.followRedirects method remaining url = (.ok response, last)) :
    s.routeResponse method last = some response ∧ ¬ response.IsRedirect := by
  -- by induction on the redirects that are left
  induction remaining using Nat.strong_induction_on generalizing url with
  | h remaining ih =>
      obtain ⟨-, hstop⟩ | ⟨found, hroute, ⟨hstays, hstop⟩ | ⟨-, ⟨error, hstop⟩ |
        ⟨n, next, rfl, hnext⟩⟩⟩ := follow_redirects_cases s method remaining url
      · rw [hstop] at h
        cases h
      · rw [hstop] at h
        cases h
        exact ⟨hroute, hstays⟩
      · rw [hstop] at h
        cases h
      · exact ih n (by omega) (hnext.symm.trans h)

/-- A URL whose route does not redirect is the last one. -/
theorem follow_redirects_stays {method : Text} {remaining : Nat} {url last : U}
    {result : Except NetworkError NetworkResponse}
    (h : s.followRedirects method remaining url = (result, last))
    (hstays : ∀ response, s.routeResponse method url = some response → ¬ response.IsRedirect) :
    last = url := by
  obtain ⟨-, hstop⟩ | ⟨found, hroute, ⟨-, hstop⟩ | ⟨hredirect, -⟩⟩ :=
    follow_redirects_cases s method remaining url
  · rw [hstop] at h
    cases h
    rfl
  · rw [hstop] at h
    cases h
    rfl
  · exact absurd hredirect (hstays found hroute)

/-- The redirects of an answered request end at its own URL exactly if its route does not
redirect. -/
theorem routed_self_iff {request : NetworkRequest U} {clock : Clock} {url : U}
    {response : NetworkResponse}
    (h : s.routed (s.prepare request clock) = (.ok response, url)) :
    Url.asStr url = Url.asStr request.url ↔ ¬ s.RedirectsAway request := by
  constructor
  · rintro hself ⟨found, hfound, hredirect⟩
    obtain ⟨hlast, hstays⟩ := follow_redirects_ok h
    rw [route_response_congr hself] at hlast
    cases Option.some.inj (hfound.symm.trans hlast)
    exact hstays hredirect
  · intro hstays
    have hlast := follow_redirects_stays h fun found hfound hredirect =>
      hstays ⟨found, hfound, hredirect⟩
    rw [hlast]
    rfl

/-! ## Entries -/

namespace FetchOutcome

variable {request : NetworkRequest U} {clock : Clock} {result : Result} {jar : CookieJar}
  {cache : HttpCache}

theorem admitted (h : FetchOutcome s request clock result jar cache) {response : NetworkResponse}
    (hok : result = .ok response) : s.refusal request = none := by
  cases h with
  | refused => cases hok
  | intercepted hadmitted | cached hadmitted | failed hadmitted | tooLarge hadmitted
  | stored hadmitted => exact hadmitted

/-- An entry was there before the fetch, or is the one that it stores. -/
theorem entry_before (h : FetchOutcome s request clock result jar cache) {key : CacheKey}
    {entry : CachedResponse} (hentry : cache.values[key]? = some entry) :
    s.cache.values[key]? = some entry ∨ s.refusal request = none ∧
      s.intercepted (s.prepare request clock) = none ∧
      s.cached (s.prepare request clock) = none ∧
      ∃ response url, s.routed (s.prepare request clock) = (.ok response, url) ∧
        response.body.length ≤ s.limits.maxResponseBytes ∧ asciiUpper request.method = "GET" ∧
        200 ≤ response.status ∧ response.status < 400 ∧ key = request.cacheKey url := by
  cases h with
  | refused | intercepted | cached | failed | tooLarge => exact .inl hentry
  | @stored response url hadmitted hintercepted hcached hrouted hsize =>
      rw [NetworkStack.updateCache] at hentry
      split_ifs at hentry with hget hother
      · replace hentry : (s.cache.values.insert (request.cacheKey url) _)[key]? = some entry :=
          hentry
        rw [OrdMap.get_insert] at hentry
        split_ifs at hentry with hkey
        · exact .inr ⟨hadmitted, hintercepted, hcached, response, url, hrouted, hsize, hget.1,
            hget.2.1, hget.2.2, hkey.symm⟩
        · exact .inl hentry
      · replace hentry : (s.cache.values.erase (request.cacheKey url))[key]? = some entry := hentry
        rw [OrdMap.get_erase] at hentry
        split_ifs at hentry
        exact .inl hentry
      · exact .inl hentry

/-- Behind a request that is no GET its entry is gone exactly if it was before, or the route was
asked and did not redirect. -/
theorem entry_after (h : FetchOutcome s request clock result jar cache)
    (hmethod : asciiUpper request.method ≠ "GET") {response : NetworkResponse}
    (hok : result = .ok response) :
    cache.values[request.cacheKey request.url]? = none ↔
      s.cache.values[request.cacheKey request.url]? = none ∨
        s.intercepted request = none ∧ ¬ s.RedirectsAway request := by
  cases h with
  | refused | failed | tooLarge => cases hok
  | intercepted hadmitted hintercepted =>
      have hworker : s.intercepted request ≠ none := by
        intro hnone
        cases hnone.symm.trans hintercepted
      simp [hworker]
  | cached hadmitted hintercepted hcached =>
      have hother : (s.prepare request clock).method ≠ "GET" := hmethod
      rw [NetworkStack.cached, if_neg hother] at hcached
      cases hcached
  | @stored response url hadmitted hintercepted hcached hrouted hsize =>
      have hworker : s.intercepted request = none := hintercepted
      have hother : NetworkRequest.method { s.prepare request clock with url } ≠ "GET" := hmethod
      rw [NetworkStack.updateCache, if_neg (fun hget => hother hget.1), if_pos hother]
      show (s.cache.values.erase (request.cacheKey url))[request.cacheKey request.url]? = none ↔ _
      have hkey : request.cacheKey url = request.cacheKey request.url ↔
          Url.asStr url = Url.asStr request.url := by
        simp [NetworkRequest.cacheKey]
      rw [OrdMap.get_erase, and_iff_right hworker, ← routed_self_iff hrouted, ← hkey]
      split_ifs with hself
      · simp [hself]
      · simp [hself]

end FetchOutcome

omit [Url U] in
/-- The worker of a call shows in the initiator only. -/
theorem sent_eq (c : Call U) : ∃ initiator, c.sent = { c.request with initiator } := by
  rw [Call.sent]
  split_ifs
  · exact ⟨_, rfl⟩
  · exact ⟨c.request.initiator, rfl⟩

/-- An answered call gets through the checks. -/
theorem admitted_of_ok {c : Call U} (hok : ∃ response, (s.call c).1 = .ok response) :
    c.allowed s ∧ s.refusal c.request = none := by
  obtain ⟨response, hok⟩ := hok
  by_cases hallowed : c.allowed s
  · rw [call_of_allowed hallowed] at hok
    obtain ⟨initiator, hsent⟩ := sent_eq c
    have hadmitted := (fetch_outcome s c.sent c.clock).2.admitted hok
    rw [hsent] at hadmitted
    exact ⟨hallowed, hadmitted⟩
  · rw [(call_of_not_allowed hallowed).1] at hok
    cases hok

/-- A step keeps, erases, or stores an entry. -/
theorem entry_before {key : CacheKey} {step : StackStep U} {entry : CachedResponse}
    (h : (s.step step).cache.values[key]? = some entry) :
    s.cache.values[key]? = some entry ∨ ∃ c, step = .call c ∧ s.Stores c key := by
  cases step with
  | call c =>
      replace h : (s.call c).2.cache.values[key]? = some entry := h
      by_cases hallowed : c.allowed s
      · rw [call_of_allowed hallowed] at h
        obtain hbefore | ⟨hadmitted, hintercepted, hcached, response, url, hrouted, hsize, hget,
          hmin, hmax, hkey⟩ := (fetch_outcome s c.sent c.clock).2.entry_before h
        · exact .inl hbefore
        · obtain ⟨initiator, hsent⟩ := sent_eq c
          have hmethod : c.sent.method = c.request.method := by rw [hsent]
          have hsite : c.sent.cacheKey url = c.request.cacheKey url := by
            rw [hsent]
            rfl
          exact .inr ⟨c, rfl, hallowed, hadmitted, hintercepted, hcached, response, url, hrouted,
            hsize, hmethod ▸ hget, hmin, hmax, hkey.trans hsite⟩
      · rw [(call_of_not_allowed hallowed).2.cache_eq] at h
        exact .inl h
  | invalidateCache profile site url =>
      replace h : (s.cache.values.erase (profile, site, Url.asStr url))[key]? = some entry := h
      rw [OrdMap.get_erase] at h
      split_ifs at h
      exact .inl h
  | invalidateCachePartition profile site =>
      replace h : (s.cache.values.filter _)[key]? = some entry := h
      rw [Std.ExtTreeMap.getElem?_filter'] at h
      exact .inl (Option.eq_some_of_filter_eq_some h)
  | other change => exact .inl h

/-- An entry was there before the steps, or one of them has stored it. -/
theorem entry_stored_in {key : CacheKey} {entry : CachedResponse} (steps : List (StackStep U))
    (h : (s.after steps).cache.values[key]? = some entry) :
    s.cache.values[key]? = some entry ∨ s.StoredIn key steps := by
  induction steps generalizing s with
  | nil => exact .inl h
  | cons step steps ih =>
      obtain hfirst | hlater := ih (s := s.step step) h
      · obtain hbefore | hstored := entry_before hfirst
        · exact .inl hbefore
        · exact .inr (.inl hstored)
      · exact .inr (.inr hlater)

/-- After an answered request other than GET there is no entry for its URL, exactly if the request
invalidates it. -/
theorem entry_after {c : Call U} (hmethod : asciiUpper c.request.method ≠ "GET")
    (hok : ∃ response, (s.call c).1 = .ok response) :
    (s.call c).2.cache.values[c.request.cacheKey c.request.url]? = none ↔ s.Invalidates c := by
  obtain ⟨hallowed, -⟩ := admitted_of_ok hok
  obtain ⟨response, hok⟩ := hok
  obtain ⟨initiator, hsent⟩ := sent_eq c
  rw [call_of_allowed hallowed] at hok ⊢
  have houtcome := (fetch_outcome s c.sent c.clock).2
  have hafter := houtcome.entry_after (by rw [hsent]; exact hmethod) hok
  rw [hsent] at hafter ⊢
  exact hafter

/-- The stack with room for a request, and without service workers. -/
def NetworkStack.reopened (s : NetworkStack U) : NetworkStack U :=
  { s with
    limits := { s.limits with maxRequests := 1 }
    metrics := default
    config := { s.config with serviceWorkersEnabled := false } }

/-- The GET for the URL of a call. -/
def Call.toGet (c : Call U) : Call U :=
  { c with worker := false, request := { c.request with method := "GET" } }

/-- An entry that is left answers the GET of its URL, if nothing else does. -/
theorem from_cache_of_entry {t : NetworkStack U} {c : Call U} {entry : CachedResponse}
    (hentry : t.cache.values[c.request.cacheKey c.request.url]? = some entry)
    (hadmitted : s.refusal c.request = none) (hsetup : SameSetup s t) :
    (t.after [.other .reopened]).FromCache c.toGet := by
  obtain ⟨-, hscheme, htrusted, -, htimeout⟩ := NetworkStack.refusal_eq_none.mp hadmitted
  refine ⟨fun hworker => ?_, NetworkStack.refusal_eq_none.mpr ⟨?_, hscheme, ?_, ?_, ?_⟩,
    if_neg Bool.false_ne_true, ?_⟩
  · cases hworker
  · show ¬ (1 : UInt64) ≤ 0
    decide
  · show ¬ NetworkStack.untrusted
      { t with config := { t.config with serviceWorkersEnabled := false } } c.request.url
    rw [NetworkStack.untrusted, hsetup.config_eq]
    exact htrusted
  · show ("GET" : Text) ≠ []
    decide
  · show t.limits.timeoutMillis ≠ 0
    rw [hsetup.limits_eq]
    exact htimeout
  · have hmethod : ((t.after [.other .reopened]).prepare c.toGet.sent c.toGet.clock).method =
        "GET" := by
      show asciiUpper "GET" = "GET"
      decide
    rw [NetworkStack.cached, if_pos hmethod, Option.isSome_map]
    exact Option.isSome_iff_exists.mpr ⟨entry, hentry⟩

/-- After an answered request other than GET, no later GET of its URL in its partition is answered
by an entry from before it, exactly if the request invalidates this entry. -/
theorem invalidation_iff (s : NetworkStack U) (c : Call U)
    (hmethod : asciiUpper c.request.method ≠ "GET")
    (hok : ∃ response, (s.call c).1 = .ok response) :
    (∀ (steps : List (StackStep U)) (get : Call U),
      get.request.cacheKey get.request.url = c.request.cacheKey c.request.url →
        ((s.call c).2.after steps).FromCache get →
          (s.call c).2.StoredIn (c.request.cacheKey c.request.url) steps) ↔
      s.Invalidates c := by
  rw [← entry_after hmethod hok]
  constructor
  · intro h
    by_contra hentry
    obtain ⟨entry, hentry⟩ := Option.ne_none_iff_exists'.mp hentry
    have hcache := from_cache_of_entry hentry (admitted_of_ok hok).2 (call_same_setup s c)
    -- an entry that is left shows in the very next GET, of a stack with room for it
    obtain ⟨stored, hstored, -⟩ | hlater := h [.other .reopened] c.toGet rfl hcache
    · cases hstored
    · exact hlater
  · intro hnone steps get hkey hcache
    obtain ⟨-, -, -, hcached⟩ := hcache
    obtain ⟨entry, hentry⟩ : ∃ entry, ((s.call c).2.after steps).cache.values[
        c.request.cacheKey c.request.url]? = some entry := by
      obtain ⟨initiator, hsent⟩ := sent_eq get
      rw [NetworkStack.cached] at hcached
      split_ifs at hcached with hget
      · rw [Option.isSome_map, hsent] at hcached
        rw [← hkey]
        exact Option.isSome_iff_exists.mp hcached
      · cases hcached
    obtain hbefore | hstored := entry_stored_in steps hentry
    · rw [hnone] at hbefore
      cases hbefore
    · exact hstored

/-- A stack after the GET of the shop, with routes for a form that the shop posts. -/
def postStack (posted : NetworkResponse) : NetworkStack PlainUrl :=
  (NetworkStack.call (.fresh
    ((((∅ : Routes).insert ("GET", "https://shop.test/") ⟨0, 200, ∅, [1]⟩).insert
      ("POST", "https://shop.test/") posted).insert
        ("POST", "https://shop.test/done") ⟨0, 200, ∅, []⟩) default default default)
    (shopCall "GET" shopUrl)).2

theorem exists_of_is_ok {result : Result} (h : result.isOk) :
    ∃ response, result = .ok response := by
  cases result with
  | ok response => exact ⟨response, rfl⟩
  | error error => cases h

/-- A POST that drops the entry of its URL. -/
theorem post_stack_invalidates :
    asciiUpper "post" ≠ "GET" ∧ ∀ (steps : List (StackStep PlainUrl)) (get : Call PlainUrl),
      get.request.cacheKey get.request.url = (shopCall "post" shopUrl).request.cacheKey shopUrl →
        (((postStack ⟨0, 204, ∅, []⟩).call (shopCall "post" shopUrl)).2.after steps).FromCache get →
          ((postStack ⟨0, 204, ∅, []⟩).call (shopCall "post" shopUrl)).2.StoredIn
            ((shopCall "post" shopUrl).request.cacheKey shopUrl) steps := by
  refine ⟨by decide, (invalidation_iff (postStack ⟨0, 204, ∅, []⟩) (shopCall "post" shopUrl)
    (by decide) (exists_of_is_ok (by decide))).mpr (.inr ⟨by decide, ?_⟩)⟩
  rintro ⟨response, hroute, hmin, hmax, -⟩
  have hstatus : ((postStack ⟨0, 204, ∅, []⟩).routeResponse "POST" shopUrl).map
      NetworkResponse.status = some 204 := by
    decide
  replace hroute : (postStack ⟨0, 204, ∅, []⟩).routeResponse "POST" shopUrl = some response :=
    hroute
  rw [hroute] at hstatus
  rw [Option.some.inj hstatus] at hmin
  revert hmin
  decide

/-- A form that redirects after the post leaves the old page in the cache. -/
theorem post_stack_stale :
    ¬ ∀ (s : NetworkStack PlainUrl) (c : Call PlainUrl), asciiUpper c.request.method ≠ "GET" →
      (∃ response, (s.call c).1 = .ok response) →
        ∀ (steps : List (StackStep PlainUrl)) (get : Call PlainUrl),
          get.request.cacheKey get.request.url = c.request.cacheKey c.request.url →
            ((s.call c).2.after steps).FromCache get →
              (s.call c).2.StoredIn (c.request.cacheKey c.request.url) steps := by
  intro h
  let s := postStack ⟨0, 303, (∅ : OrdMap Text Text).insert "location" "/done", []⟩
  have hcache : ((s.call (shopCall "post" shopUrl)).2.after []).FromCache
      (shopCall "GET" shopUrl) :=
    ⟨fun hworker => absurd hworker Bool.false_ne_true, by decide, by decide,
      by decide⟩
  exact h s (shopCall "post" shopUrl) (by decide) (exists_of_is_ok (by decide)) []
    (shopCall "GET" shopUrl) rfl hcache

end BrowsAI.Network
