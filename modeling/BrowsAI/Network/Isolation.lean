import BrowsAI.Network.Fetch

/-!
# Isolation of partitions

A partition is a profile with a top-level site. The cookies and the cached responses of all
partitions are in shared maps; `SamePartition` says that two stacks agree on those of one partition.
A call of another partition keeps to this relation, `call_frame`, and a call of the partition itself
observes the same on both sides, `call_agrees`.
-/

namespace BrowsAI.Network

open Utf8 Profiles Cookies Cache ServiceWorker

variable {U : Type}

/-- A profile and a top-level site. -/
abbrev Partition := ProfileId × Text

/-- The partition of a request. -/
def NetworkRequest.partition (request : NetworkRequest U) : Partition :=
  (request.profile, request.topLevelSite)

/-- The stacks have the same set-up, and the same cookies and cached responses for a partition. -/
structure SamePartition (p : Partition) (s t : NetworkStack U) : Prop extends SameSetup s t where
  cookies : ∀ domain name, s.cookies.values[((p.1, p.2, domain, name) : CookieKey)]? =
    t.cookies.values[((p.1, p.2, domain, name) : CookieKey)]?
  cache : ∀ url, s.cache.values[((p.1, p.2, url) : CacheKey)]? =
    t.cache.values[((p.1, p.2, url) : CacheKey)]?

namespace SamePartition

variable {p : Partition} {s s' t t' : NetworkStack U}

theorem refl (p : Partition) (s : NetworkStack U) : SamePartition p s s :=
  ⟨.refl s, fun _ _ => rfl, fun _ => rfl⟩

theorem symm (h : SamePartition p s t) : SamePartition p t s :=
  ⟨h.toSameSetup.symm,
    fun domain name => (h.cookies domain name).symm, fun url => (h.cache url).symm⟩

theorem trans (h : SamePartition p s s') (h' : SamePartition p s' t) : SamePartition p s t :=
  ⟨h.toSameSetup.trans h'.toSameSetup,
    fun domain name => (h.cookies domain name).trans (h'.cookies domain name),
    fun url => (h.cache url).trans (h'.cache url)⟩

theorem of_same_stores (h : SameStores s s') : SamePartition p s s' :=
  ⟨h.toSameSetup, fun _ _ => by rw [h.cookies_eq], fun _ => by rw [h.cache_eq]⟩

end SamePartition

/-! ## Other partitions -/

variable [Url U] {p : Partition} {s t : NetworkStack U}

/-- A cookie is stored in the partition of its request. -/
theorem frame_store_cookie {request : NetworkRequest U} (hp : request.partition ≠ p) (now : Int)
    (response : NetworkResponse) (domain name : Text) :
    (s.storeCookie request now response).cookies.values[((p.1, p.2, domain, name) : CookieKey)]? =
      s.cookies.values[((p.1, p.2, domain, name) : CookieKey)]? := by
  simp only [NetworkStack.storeCookie]
  split
  · rfl
  · refine OrdMap.get_insert_ne _ (fun hkey => hp ?_) _
    simp only [Prod.mk.injEq] at hkey
    exact Prod.ext hkey.1 hkey.2.1

/-- So is a response. -/
theorem frame_update_cache {request : NetworkRequest U} (hp : request.partition ≠ p)
    (response : NetworkResponse) (url : Text) :
    (s.updateCache request response).cache.values[((p.1, p.2, url) : CacheKey)]? =
      s.cache.values[((p.1, p.2, url) : CacheKey)]? := by
  have hkey (u : U) : ((request.profile, request.topLevelSite, Url.asStr u) : CacheKey) ≠
      (p.1, p.2, url) := by
    intro hkey
    simp only [Prod.mk.injEq] at hkey
    exact hp (Prod.ext hkey.1 hkey.2.1)
  unfold NetworkStack.updateCache
  split_ifs
  · exact OrdMap.get_insert_ne _ (hkey _) _
  · refine (OrdMap.get_erase _ _ _).trans (if_neg (hkey _))
  · rfl

omit [Url U] in
theorem partition_sent (c : Call U) : c.sent.partition = c.request.partition := by
  rw [Call.sent]
  split_ifs <;> rfl

/-- A fetch leaves the other partitions alone. -/
theorem FetchOutcome.frame {request : NetworkRequest U} {clock : Clock} {result : Result}
    {jar : CookieJar} {cache : HttpCache} (h : FetchOutcome s request clock result jar cache)
    (hp : request.partition ≠ p) :
    (∀ domain name, s.cookies.values[((p.1, p.2, domain, name) : CookieKey)]? =
      jar.values[((p.1, p.2, domain, name) : CookieKey)]?) ∧
    ∀ url, s.cache.values[((p.1, p.2, url) : CacheKey)]? =
      cache.values[((p.1, p.2, url) : CacheKey)]? := by
  cases h with
  | refused | intercepted | cached | failed | tooLarge => exact ⟨fun _ _ => rfl, fun _ => rfl⟩
  | @stored response url =>
      have hp : NetworkRequest.partition { s.prepare request clock with url } ≠ p := hp
      exact ⟨fun domain name => (frame_store_cookie hp _ _ domain name).symm,
        fun url => (frame_update_cache hp _ url).symm⟩

/-- A call of one partition leaves the others alone. -/
theorem call_frame (s : NetworkStack U) {c : Call U} (hp : c.request.partition ≠ p) :
    SamePartition p s (s.call c).2 := by
  by_cases hallowed : c.allowed s
  · rw [call_of_allowed hallowed]
    obtain ⟨hsetup, houtcome⟩ := fetch_outcome s c.sent c.clock
    obtain ⟨hcookies, hcache⟩ := houtcome.frame (partition_sent c ▸ hp)
    exact ⟨hsetup, hcookies, hcache⟩
  · exact .of_same_stores (call_of_not_allowed hallowed).2

/-! ## The partition itself -/

namespace SamePartition

variable {request : NetworkRequest U} (h : SamePartition p s t) (hp : request.partition = p)

include h hp

/-- Stacks that agree on a partition send the same cookies. -/
theorem header_for_at (now : Int) :
    t.cookies.headerForAt request.profile request.topLevelSite request.url now =
      s.cookies.headerForAt request.profile request.topLevelSite request.url now := by
  subst hp
  -- the entries shown are those of the partition that also match
  have hshown (jar : CookieJar) :
      jar.headerForAt request.profile request.topLevelSite request.url now =
        List.intercalate ("; " : Text)
          (((jar.values.toList.filter fun entry =>
            entry.1.1 == request.profile && entry.1.2.1 == request.topLevelSite).filter
              fun entry => entry.2.matchesAt request.url now
                ((Url.parse (U := U) request.topLevelSite).any fun site =>
                  Url.hostStr site == Url.hostStr request.url)).map
            fun entry => entry.1.2.2.2 ++ "=" ++ entry.2.value) := by
    rw [List.filter_filter]
    refine congrArg (fun shown => List.intercalate ("; " : Text) (List.map _ shown)) ?_
    exact List.filter_congr fun entry _ => Bool.and_comm _ _
  have hagree (key : CookieKey)
      (hkey : key.1 == request.profile && key.2.1 == request.topLevelSite) :
      t.cookies.values[key]? = s.cookies.values[key]? := by
    obtain ⟨profile, site, domain, name⟩ := key
    simp only [Bool.and_eq_true, beq_iff_eq] at hkey
    obtain ⟨rfl, rfl⟩ := hkey
    exact (h.cookies domain name).symm
  rw [hshown, hshown, OrdMap.filter_to_list_congr hagree]

theorem prepare (clock : Clock) : t.prepare request clock = s.prepare request clock := by
  simp only [NetworkStack.prepare, h.header_for_at hp, h.config_eq]

theorem cached : t.cached request = s.cached request := by
  subst hp
  have hget : t.cache.get request.profile request.topLevelSite request.url =
      s.cache.get request.profile request.topLevelSite request.url :=
    (h.cache (Url.asStr request.url)).symm
  rw [NetworkStack.cached, hget, ← NetworkStack.cached]

omit hp in
/-- The checks differ in the request limit only. -/
theorem refusal (hs : s.refusal request ≠ some .requestLimit)
    (ht : t.refusal request ≠ some .requestLimit) : t.refusal request = s.refusal request := by
  have hroom {s : NetworkStack U} (hs : s.refusal request ≠ some .requestLimit) :
      ¬ s.limits.maxRequests ≤ s.metrics.requestsStarted := by
    intro hfull
    rw [NetworkStack.refusal, if_pos hfull] at hs
    exact hs rfl
  rw [NetworkStack.refusal, NetworkStack.refusal, if_neg (hroom hs), if_neg (hroom ht),
    h.limits_eq, h.untrusted]

omit hp in
/-- They store the same cookies. -/
theorem store_cookie (now : Int) (response : NetworkResponse) (domain name : Text) :
    (s.storeCookie request now response).cookies.values[((p.1, p.2, domain, name) : CookieKey)]? =
      (t.storeCookie request now response).cookies.values[
        ((p.1, p.2, domain, name) : CookieKey)]? := by
  simp only [NetworkStack.storeCookie]
  split
  · exact h.cookies domain name
  · refine (OrdMap.get_insert _ _ _ _).trans (Eq.trans ?_ (OrdMap.get_insert _ _ _ _).symm)
    rw [h.cookies domain name]

omit hp in
theorem update_cache (response : NetworkResponse) (url : Text) :
    (s.updateCache request response).cache.values[((p.1, p.2, url) : CacheKey)]? =
      (t.updateCache request response).cache.values[((p.1, p.2, url) : CacheKey)]? := by
  unfold NetworkStack.updateCache
  split_ifs
  · refine (OrdMap.get_insert _ _ _ _).trans (Eq.trans ?_ (OrdMap.get_insert _ _ _ _).symm)
    rw [h.cache url]
  · refine (OrdMap.get_erase _ _ _).trans (Eq.trans ?_ (OrdMap.get_erase _ _ _).symm)
    rw [h.cache url]
  · exact h.cache url

omit hp in
/-- Behind the redirect loop related stacks answer alike, and stay related. -/
theorem fetch_route_agrees (startedAt startedAt' : UInt64) (clock : Clock) :
    (t.fetchRoute request startedAt' clock).1 = (s.fetchRoute request startedAt clock).1 ∧
      SamePartition p (s.fetchRoute request startedAt clock).2
        (t.fetchRoute request startedAt' clock).2 := by
  have hrouted : t.routed request = s.routed request := by
    rw [NetworkStack.routed, NetworkStack.routed, h.limits_eq, h.follow_redirects]
  -- the redirects end alike in both stacks, so the mixed cases do not occur
  obtain ⟨error, url, herror, hresult, hsame⟩ | ⟨response, url, hok, hsize⟩ :=
    fetch_route_cases s request startedAt clock
  · obtain ⟨error', url', herror', hresult', hsame'⟩ | ⟨response', url', hok', -⟩ :=
      fetch_route_cases t request startedAt' clock
    · rw [hrouted, herror] at herror'
      cases herror'
      rw [hresult, hresult']
      exact ⟨rfl, (of_same_stores hsame).symm.trans (h.trans (of_same_stores hsame'))⟩
    · rw [hrouted, herror] at hok'
      cases hok'
  obtain ⟨error', url', herror', -⟩ | ⟨response', url', hok', hsize'⟩ :=
    fetch_route_cases t request startedAt' clock
  · rw [hrouted, hok] at herror'
    cases herror'
  rw [hrouted, hok] at hok'
  cases hok'
  rw [h.limits_eq] at hsize'
  obtain ⟨hlarge, hresult, hsame⟩ | ⟨hfits, hresult, hsetup, hcookies, hcache⟩ := hsize
  · obtain ⟨-, hresult', hsame'⟩ | ⟨hfits, -⟩ := hsize'
    · rw [hresult, hresult']
      exact ⟨rfl, (of_same_stores hsame).symm.trans (h.trans (of_same_stores hsame'))⟩
    · exact absurd hfits (Nat.not_le.mpr hlarge)
  · obtain ⟨hlarge, -⟩ | ⟨-, hresult', hsetup', hcookies', hcache'⟩ := hsize'
    · exact absurd hfits (Nat.not_le.mpr hlarge)
    · rw [hresult, hresult']
      refine ⟨rfl, ?_, fun domain name => ?_, fun key => ?_⟩
      · exact hsetup.symm.trans (h.toSameSetup.trans hsetup')
      · rw [hcookies, hcookies']
        exact h.store_cookie _ _ domain name
      · rw [hcache, hcache']
        exact h.update_cache _ key

/-- Related stacks answer a fetch of the partition alike, and stay related. -/
theorem fetch_agrees (clock : Clock) (hs : (s.fetch request clock).1 ≠ .error .requestLimit)
    (ht : (t.fetch request clock).1 ≠ .error .requestLimit) :
    (t.fetch request clock).1 = (s.fetch request clock).1 ∧
      SamePartition p (s.fetch request clock).2 (t.fetch request clock).2 := by
  -- the request counters are the only part of a refusal in which the stacks may differ
  have hroom {s : NetworkStack U} (hs : (s.fetch request clock).1 ≠ .error .requestLimit) :
      s.refusal request ≠ some .requestLimit :=
    fun hfull => hs (fetch_refused hfull clock).1
  have hsame := h.refusal (hroom hs) (hroom ht)
  cases hrefusal : s.refusal request with
  | some error =>
      obtain ⟨hresult, hstores⟩ := fetch_refused hrefusal clock
      obtain ⟨hresult', hstores'⟩ := fetch_refused (hsame.trans hrefusal) clock
      rw [hresult, hresult']
      exact ⟨rfl, (of_same_stores hstores).symm.trans (h.trans (of_same_stores hstores'))⟩
  | none =>
      have hcached : t.cached (s.prepare request clock) = s.cached (s.prepare request clock) :=
        h.cached hp
      rw [fetch_admitted hrefusal, fetch_admitted (hsame.trans hrefusal), h.prepare hp,
        h.intercepted, hcached]
      have hstart : SamePartition p (s.start (s.prepare request clock))
          (t.start (s.prepare request clock)) :=
        (of_same_stores (.start s _)).symm.trans (h.trans (of_same_stores (.start t _)))
      -- an answer from elsewhere only ends the request
      have hcomplete (response : NetworkResponse) : SamePartition p
          ((s.start (s.prepare request clock)).complete request.id s.logicalTimeMillis response).2
          ((t.start (s.prepare request clock)).complete request.id t.logicalTimeMillis
            response).2 :=
        (of_same_stores (.complete _ _ _ _)).symm.trans
          (hstart.trans (of_same_stores (.complete _ _ _ _)))
      cases s.intercepted (s.prepare request clock) with
      | some response => exact ⟨rfl, hcomplete response⟩
      | none =>
          cases s.cached (s.prepare request clock) with
          | some response => exact ⟨rfl, hcomplete response⟩
          | none => exact hstart.fetch_route_agrees _ _ clock

end SamePartition

/-- What a call of a partition observes: the cookies that it sends, and its result. -/
def NetworkStack.observe (s : NetworkStack U) (c : Call U) : Text × Result :=
  (s.cookies.headerForAt c.request.profile c.request.topLevelSite c.request.url
    c.clock.cookieHeader, (s.call c).1)

/-- Related stacks show the same to a call of the partition, and stay related. -/
theorem call_agrees (h : SamePartition p s t) {c : Call U} (hp : c.request.partition = p)
    (hs : (s.call c).1 ≠ .error .requestLimit) (ht : (t.call c).1 ≠ .error .requestLimit) :
    t.observe c = s.observe c ∧ SamePartition p (s.call c).2 (t.call c).2 := by
  have hheader := h.header_for_at hp c.clock.cookieHeader
  by_cases hallowed : c.allowed s
  · have hallowed' : c.allowed t := by
      rw [Call.allowed, h.config_eq]
      exact hallowed
    rw [NetworkStack.observe, NetworkStack.observe, hheader]
    rw [call_of_allowed hallowed] at hs ⊢
    rw [call_of_allowed hallowed'] at ht ⊢
    obtain ⟨hresult, hsame⟩ := h.fetch_agrees ((partition_sent c).trans hp) c.clock hs ht
    rw [hresult]
    exact ⟨rfl, hsame⟩
  · have hallowed' : ¬ c.allowed t := by
      rw [Call.allowed, h.config_eq]
      exact hallowed
    obtain ⟨hresult, hstores⟩ := call_of_not_allowed hallowed
    obtain ⟨hresult', hstores'⟩ := call_of_not_allowed hallowed'
    rw [NetworkStack.observe, NetworkStack.observe, hheader, hresult, hresult']
    exact ⟨rfl, (SamePartition.of_same_stores hstores).symm.trans
      (h.trans (.of_same_stores hstores'))⟩

/-! ## Runs -/

/-- What the calls of a partition observe in a run. -/
def NetworkStack.observations (p : Partition) :
    NetworkStack U → List (Call U) → List (Text × Result)
  | _, [] => []
  | s, c :: calls =>
      if c.request.partition = p then s.observe c :: observations p (s.call c).2 calls
      else observations p (s.call c).2 calls

/-- Calls of other partitions observe nothing, and leave the partition as it is. -/
theorem observations_skip {others : List (Call U)} (hothers : ∀ c ∈ others, c.request.partition ≠ p)
    (s : NetworkStack U) : ∃ t, SamePartition p s t ∧
      ∀ calls, s.observations p (others ++ calls) = t.observations p calls := by
  induction others generalizing s with
  | nil => exact ⟨s, .refl p s, fun calls => rfl⟩
  | cons c others ih =>
      have hp := hothers c List.mem_cons_self
      obtain ⟨t, hsame, hskip⟩ :=
        ih (fun c hc => hothers c (List.mem_cons_of_mem _ hc)) (s.call c).2
      refine ⟨t, (call_frame s hp).trans hsame, fun calls => ?_⟩
      rw [List.cons_append, NetworkStack.observations, if_neg hp, hskip]

/-- No call of the partition is refused for the request limit. -/
def NetworkStack.Unlimited (p : Partition) (s : NetworkStack U) (calls : List (Call U)) : Prop :=
  ∀ observed ∈ s.observations p calls, observed.2 ≠ .error .requestLimit

theorem unlimited_cons {c : Call U} {calls : List (Call U)} (hp : c.request.partition = p) :
    s.Unlimited p (c :: calls) ↔
      (s.call c).1 ≠ .error .requestLimit ∧ (s.call c).2.Unlimited p calls := by
  rw [NetworkStack.Unlimited, NetworkStack.observations, if_pos hp, List.forall_mem_cons]
  exact Iff.rfl

/-- Runs of related stacks with the same calls of the partition. -/
theorem observations_agree {calls calls' : List (Call U)} (h : SamePartition p s t)
    (hcalls : (calls.filter fun c => c.request.partition = p) =
      calls'.filter fun c => c.request.partition = p)
    (hs : s.Unlimited p calls) (ht : t.Unlimited p calls') :
    s.observations p calls = t.observations p calls' := by
  induction calls generalizing s t calls' with
  | nil =>
      have hothers : ∀ c ∈ calls', c.request.partition ≠ p := by
        simpa using hcalls.symm
      obtain ⟨t', -, hskip⟩ := observations_skip hothers t
      rw [← List.append_nil calls', hskip]
      rfl
  | cons c calls ih =>
      by_cases hp : c.request.partition = p
      · rw [List.filter_cons_of_pos (by simpa using hp)] at hcalls
        obtain ⟨others, rest, rfl, hothers, -, hrest⟩ := List.filter_eq_cons_iff.mp hcalls.symm
        obtain ⟨t', hsame, hskip⟩ :=
          observations_skip (fun c hc => by simpa using hothers c hc) t
        rw [NetworkStack.Unlimited, hskip] at ht
        obtain ⟨hlimit, hs⟩ := (unlimited_cons hp).mp hs
        obtain ⟨hlimit', ht⟩ := (unlimited_cons hp).mp ht
        obtain ⟨hobserve, hnext⟩ := call_agrees (h.trans hsame) hp hlimit hlimit'
        rw [hskip, NetworkStack.observations, NetworkStack.observations, if_pos hp, if_pos hp,
          hobserve, ih hnext hrest.symm hs ht]
      · rw [List.filter_cons_of_neg (by simpa using hp)] at hcalls
        have hframe := (call_frame s hp).symm.trans h
        rw [NetworkStack.Unlimited, NetworkStack.observations, if_neg hp] at hs
        rw [NetworkStack.observations, if_neg hp]
        exact ih hframe hcalls hs ht

/-- Two runs of a stack with the same calls of a partition, in which none of these is refused for
the request limit: whatever the other partitions do in between, these calls send the same cookies
and get the same results. -/
theorem partition_isolated (s : NetworkStack U) (p : Partition) (calls calls' : List (Call U))
    (hcalls : (calls.filter fun c => c.request.partition = p) =
      calls'.filter fun c => c.request.partition = p)
    (hs : s.Unlimited p calls) (hs' : s.Unlimited p calls') :
    s.observations p calls = s.observations p calls' :=
  observations_agree (.refl p s) hcalls hs hs'

/-- A stack whose only page sets a cookie. -/
def cookieStack : NetworkStack PlainUrl :=
  .fresh ((∅ : Routes).insert ("GET", "https://shop.test/")
    ⟨0, 200, (∅ : OrdMap Text Text).insert "Set-Cookie" "sid=abc", []⟩) default default default

/-- The call of another site that embeds the shop. -/
def otherCall : Call PlainUrl :=
  let c := shopCall "GET" shopUrl
  { c with request := { c.request with topLevelSite := "https://other.test" } }

/-- Calls of another partition that change nothing. -/
theorem cookie_stack_isolated :
    cookieStack.observations (1, "https://shop.test")
        [otherCall, shopCall "GET" shopUrl, otherCall, shopCall "GET" shopUrl] =
      cookieStack.observations (1, "https://shop.test")
        [shopCall "GET" shopUrl, shopCall "GET" shopUrl] := by
  have hunlimited {calls : List (Call PlainUrl)}
      (h : (cookieStack.observations (1, "https://shop.test") calls).all fun observed =>
        match observed.2 with
        | .error .requestLimit => false
        | _ => true) : cookieStack.Unlimited (1, "https://shop.test") calls := by
    intro observed hmem heq
    have hlimit := List.all_eq_true.mp h observed hmem
    rw [heq] at hlimit
    cases hlimit
  exact partition_isolated cookieStack (1, "https://shop.test") _ _ rfl
    (hunlimited (by decide)) (hunlimited (by decide))

end BrowsAI.Network
