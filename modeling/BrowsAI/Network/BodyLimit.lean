import BrowsAI.Network.Fetch

/-!
# The limit on response bodies

A response of a route is checked against the limit before it is returned or cached, so the bodies
in the cache are within it, `Bounded`. The response of a service worker is returned unchecked: an
answer is too long exactly when a call is admitted for a URL with a longer stored response,
`Overlong`.
-/

namespace BrowsAI.Network

open Utf8 Profiles Cookies Cache ServiceWorker

variable {U : Type} {s : NetworkStack U}

/-- The cached bodies are within a limit. -/
def HttpCacheBounded (cache : HttpCache) (limit : Nat) : Prop :=
  ∀ (key : CacheKey) (response : CachedResponse), cache.values[key]? = some response →
    response.body.length ≤ limit

/-- The body of the result, if it has one, is within a limit. -/
def Result.Within (result : Result) (limit : Nat) : Prop :=
  ∀ response, result = .ok response → response.body.length ≤ limit

theorem Result.within_error {error : NetworkError} (limit : Nat) :
    Result.Within (.error error) limit := by
  intro response h
  cases h

theorem Result.within_ok {response : NetworkResponse} {limit : Nat} :
    Result.Within (.ok response) limit ↔ response.body.length ≤ limit := by
  constructor
  · exact fun h => h response rfl
  · intro h response' hresponse
    cases hresponse
    exact h

variable [Url U]

/-- A service worker answers the call with a body over the limit. -/
def NetworkStack.Overlong (s : NetworkStack U) (c : Call U) : Prop :=
  c.allowed s ∧ s.refusal c.request = none ∧ s.config.serviceWorkersEnabled ∧
    ∃ stored, s.serviceWorkers.fetch c.request.url = some stored ∧
      s.limits.maxResponseBytes < stored.body.length

theorem refusal_sent (s : NetworkStack U) (c : Call U) :
    s.refusal c.sent = s.refusal c.request := by
  rw [Call.sent]
  split_ifs <;> rfl

omit [Url U] in
theorem url_sent (c : Call U) : c.sent.url = c.request.url := by
  rw [Call.sent]
  split_ifs <;> rfl

/-- A service worker answers with a response that it has stored. -/
theorem intercepted_eq_some {request : NetworkRequest U} {response : NetworkResponse} :
    s.intercepted request = some response ↔ s.config.serviceWorkersEnabled ∧
      ∃ stored, s.serviceWorkers.fetch request.url = some stored ∧
        response = ⟨request.id, stored.status, ∅, stored.body⟩ := by
  rw [NetworkStack.intercepted]
  split_ifs with henabled
  · rw [and_iff_right henabled, Option.map_eq_some_iff]
    exact exists_congr fun stored => and_congr_right fun _ => eq_comm
  · simp [henabled]

/-! ## One call -/

theorem bounded_update_cache {request : NetworkRequest U} {response : NetworkResponse} {limit : Nat}
    (hcache : HttpCacheBounded s.cache limit) (hsize : response.body.length ≤ limit) :
    HttpCacheBounded (s.updateCache request response).cache limit := by
  unfold NetworkStack.updateCache
  split_ifs
  · exact (OrdMap.All.insert_iff (P := fun found : CachedResponse => found.body.length ≤ limit)
      hcache _ _).mpr hsize
  · exact OrdMap.All.erase (P := fun found : CachedResponse => found.body.length ≤ limit) hcache _
  · exact hcache

namespace FetchOutcome

variable {request : NetworkRequest U} {clock : Clock} {result : Result} {jar : CookieJar}
  {cache : HttpCache}

theorem bounded (h : FetchOutcome s request clock result jar cache)
    (hcache : HttpCacheBounded s.cache s.limits.maxResponseBytes) :
    HttpCacheBounded cache s.limits.maxResponseBytes := by
  cases h with
  | refused | intercepted | cached | failed | tooLarge => exact hcache
  | stored hadmitted hintercepted hcached hrouted hsize => exact bounded_update_cache hcache hsize

/-- The body is within the limit unless a service worker answers with a longer one. -/
theorem within_iff (h : FetchOutcome s request clock result jar cache)
    (hcache : HttpCacheBounded s.cache s.limits.maxResponseBytes) :
    result.Within s.limits.maxResponseBytes ↔
      ¬ (s.refusal request = none ∧ s.config.serviceWorkersEnabled ∧
        ∃ stored, s.serviceWorkers.fetch request.url = some stored ∧
          s.limits.maxResponseBytes < stored.body.length) := by
  have hpassed (hintercepted : s.intercepted (s.prepare request clock) = none) :
      ¬ (s.refusal request = none ∧ s.config.serviceWorkersEnabled ∧
        ∃ stored, s.serviceWorkers.fetch request.url = some stored ∧
          s.limits.maxResponseBytes < stored.body.length) := by
    rintro ⟨-, henabled, stored, hstored, -⟩
    have hsome : s.intercepted (s.prepare request clock) = some _ :=
      intercepted_eq_some.mpr ⟨henabled, stored, hstored, rfl⟩
    rw [hintercepted] at hsome
    cases hsome
  cases h with
  | @refused error hrefusal => simp [Result.within_error, hrefusal]
  | intercepted hadmitted hintercepted =>
      obtain ⟨henabled, stored, hstored, rfl⟩ := intercepted_eq_some.mp hintercepted
      replace hstored : s.serviceWorkers.fetch request.url = some stored := hstored
      rw [Result.within_ok]
      simp [hadmitted, henabled, hstored]
  | cached hadmitted hintercepted hcached =>
      -- a cached body was measured when it was stored
      refine iff_of_true (Result.within_ok.mpr ?_) (hpassed hintercepted)
      rw [NetworkStack.cached] at hcached
      split_ifs at hcached
      obtain ⟨stored, hstored, rfl⟩ := Option.map_eq_some_iff.mp hcached
      exact hcache _ stored hstored
  | failed hadmitted hintercepted | tooLarge hadmitted hintercepted =>
      exact iff_of_true (Result.within_error _) (hpassed hintercepted)
  | stored hadmitted hintercepted hcached hrouted hsize =>
      exact iff_of_true (Result.within_ok.mpr hsize) (hpassed hintercepted)

end FetchOutcome

/-- What one call does, when the cached bodies are within the limit. -/
theorem call_bounded (c : Call U) (hcache : HttpCacheBounded s.cache s.limits.maxResponseBytes) :
    HttpCacheBounded (s.call c).2.cache s.limits.maxResponseBytes ∧
      ((s.call c).1.Within s.limits.maxResponseBytes ↔ ¬ s.Overlong c) := by
  by_cases hallowed : c.allowed s
  · rw [call_of_allowed hallowed]
    have houtcome := (fetch_outcome s c.sent c.clock).2
    refine ⟨houtcome.bounded hcache, ?_⟩
    rw [houtcome.within_iff hcache, refusal_sent, url_sent, NetworkStack.Overlong,
      and_iff_right hallowed]
  · obtain ⟨hresult, hsame⟩ := call_of_not_allowed hallowed
    rw [hresult, hsame.cache_eq]
    exact ⟨hcache, iff_of_true (Result.within_error _) fun hlong => hallowed hlong.1⟩

/-! ## Runs -/

/-- The bodies in the cache of a run from an empty cache are within the limit. -/
theorem run_bounded (hempty : s.cache.values = ∅) (calls : List (Call U)) :
    HttpCacheBounded (s.run calls).2.cache s.limits.maxResponseBytes := by
  induction calls using List.reverseRecOn with
  | nil =>
      intro key response hresponse
      rw [NetworkStack.run, List.foldl_nil, hempty] at hresponse
      cases hresponse
  | append_singleton calls c ih =>
      rw [NetworkStack.run_append_singleton]
      have hlimits := (run_same_setup s calls).limits_eq
      exact hlimits ▸ (call_bounded c (hlimits.symm ▸ ih)).1

/-- In a run from an empty cache every response is within the limit, exactly if no call of the run
is answered by a service worker with a longer body. -/
theorem body_limit_iff (s : NetworkStack U) (hempty : s.cache.values = ∅)
    (calls : List (Call U)) :
    (∀ response, .ok response ∈ (s.run calls).1 →
        response.body.length ≤ s.limits.maxResponseBytes) ↔
      ∀ before c after, calls = before ++ c :: after → ¬ (s.run before).2.Overlong c := by
  induction calls using List.reverseRecOn with
  | nil =>
      refine iff_of_true (fun response hresponse => ?_) fun before c after h => ?_
      · cases hresponse
      · simp at h
  | append_singleton calls last ih =>
      have hlimits := (run_same_setup s calls).limits_eq
      have hcall := (call_bounded last (hlimits.symm ▸ run_bounded hempty calls)).2
      rw [hlimits] at hcall
      rw [NetworkStack.run_append_singleton]
      rw [forall_split_append_singleton, ← ih, ← hcall]
      constructor
      · intro h
        exact ⟨fun response hresponse => h response (List.mem_append_left _ hresponse),
          fun response hresponse => h response (List.mem_append_right _ (by simp [hresponse]))⟩
      · rintro ⟨hearlier, hlast⟩ response hresponse
        rcases List.mem_append.mp hresponse with hresponse | hresponse
        · exact hearlier response hresponse
        · exact hlast response (List.mem_singleton.mp hresponse).symm

/-- A stack with a limit of one byte, and a service worker that answers for the shop. -/
def workerStack (body : List UInt8) : NetworkStack PlainUrl :=
  .fresh ∅
    { registrations := (∅ : OrdMap Text (Registration PlainUrl)).insert (Url.asStr shopUrl)
        ⟨shopUrl, { shopUrl with path := "/sw.js" }, .activated⟩
      responses := (∅ : OrdMap Text FetchResponse).insert (Url.asStr shopUrl) ⟨200, body⟩ }
    { (default : NetworkLimits) with maxResponseBytes := 1 }
    { (default : NetworkConfig PlainUrl) with serviceWorkersEnabled := true }

/-- With one byte stored by the worker the limit is kept. -/
theorem worker_stack_body_limit : (workerStack [0]).cache.values = ∅ ∧ ∀ response,
    .ok response ∈ ((workerStack [0]).run [shopCall "GET" shopUrl]).1 →
      response.body.length ≤ 1 := by
  refine ⟨rfl, (body_limit_iff (workerStack [0]) rfl _).mpr fun before c after hcalls hlong => ?_⟩
  obtain ⟨rfl, hcalls⟩ | ⟨-, hcalls⟩ := List.append_eq_singleton_iff.mp hcalls.symm
  · obtain ⟨rfl, -⟩ := List.cons.inj hcalls
    obtain ⟨-, -, -, stored, hstored, hsize⟩ := hlong
    have hworker : (workerStack [0]).serviceWorkers.fetch shopUrl = some ⟨200, [0]⟩ := by
      decide
    cases Option.some.inj (hstored.symm.trans hworker)
    exact Nat.lt_irrefl 1 hsize
  · cases hcalls

/-- A service worker answers with two bytes where one is allowed. -/
theorem worker_stack_overlong :
    ¬ ∀ (s : NetworkStack PlainUrl) (calls : List (Call PlainUrl)), s.cache.values = ∅ →
      ∀ response, .ok response ∈ (s.run calls).1 →
        response.body.length ≤ s.limits.maxResponseBytes := by
  intro h
  have hwithin := h (workerStack [0, 0]) [shopCall "GET" shopUrl] rfl
  have hbytes : bodyBytes ((workerStack [0, 0]).call (shopCall "GET" shopUrl)).1 = 2 := by
    decide
  cases hresult : ((workerStack [0, 0]).call (shopCall "GET" shopUrl)).1 with
  | error error =>
      rw [hresult] at hbytes
      cases hbytes
  | ok response =>
      rw [hresult] at hbytes
      have hmem : .ok response ∈ ((workerStack [0, 0]).run [shopCall "GET" shopUrl]).1 :=
        List.mem_singleton.mpr hresult.symm
      have hsize := hwithin response hmem
      replace hbytes : response.body.length = 2 := hbytes
      replace hsize : response.body.length ≤ 1 := hsize
      omega

end BrowsAI.Network
