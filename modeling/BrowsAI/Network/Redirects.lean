import BrowsAI.Network.Fetch

/-!
# Redirects

A request is checked for its scheme and its host, and the redirect loop then goes on from URL to URL
without these checks. `followTraced` is the loop with the URLs it takes responses for, `RedirectsTo`
the same chain read off the routes, and `redirects_safe_iff` says that a fetch stays with safe URLs
exactly when this chain does.
-/

namespace BrowsAI.Network

open Utf8 Profiles Cookies Cache ServiceWorker

variable {U : Type} [Url U] {s : NetworkStack U} {method : Text}

namespace NetworkStack

/-- The redirect loop, with the URLs for which it takes a response from the routes. -/
def followTraced (s : NetworkStack U) (method : Text) :
    Nat → U → List U × Except NetworkError NetworkResponse × U
  | remaining, url =>
      match s.routeResponse method url with
      | none => ([], .error .noRoute, url)
      | some response =>
          if 300 ≤ response.status ∧ response.status < 400 then
            match response.headers[("location" : Text)]? with
            | none => ([url], .ok response, url)
            | some location =>
                match remaining with
                | 0 => ([url], .error .redirectLimit, url)
                | remaining + 1 =>
                    match Url.join url location with
                    | none => ([url], .error .invalidRedirect, url)
                    | some nextUrl =>
                        let (taken, result) := followTraced s method remaining nextUrl
                        (url :: taken, result)
          else ([url], .ok response, url)

/-- The request gets to the routes: it is admitted, and nothing else answers it. -/
def reachesRoutes (s : NetworkStack U) (request : NetworkRequest U) (clock : Clock) : Prop :=
  s.refusal request = none ∧ s.intercepted (s.prepare request clock) = none ∧
    s.cached (s.prepare request clock) = none

instance (request : NetworkRequest U) (clock : Clock) : Decidable (s.reachesRoutes request clock) :=
  inferInstanceAs <| Decidable (_ ∧ _ ∧ _)

/-- The URLs for which a fetch takes a response from the routes. -/
def fetchTaken (s : NetworkStack U) (request : NetworkRequest U) (clock : Clock) : List U :=
  if s.reachesRoutes request clock then
    (s.followTraced (s.prepare request clock).method s.limits.maxRedirects.toNat request.url).1
  else []

/-- What the checks ask of a URL. -/
def Safe (s : NetworkStack U) (url : U) : Prop :=
  (Url.scheme url = "http" ∨ Url.scheme url = "https") ∧
    (s.config.trustedCertificates ≠ [] → Url.scheme url = "https" →
      (Url.hostStr url).any fun host =>
        s.config.trustedCertificates.any fun trusted => eqIgnoreAsciiCase trusted host)

instance (url : U) : Decidable (s.Safe url) := inferInstanceAs <| Decidable (_ ∧ _)

/-- The routes have a response for the URL. -/
def HasRoute (s : NetworkStack U) (method : Text) (url : U) : Prop :=
  (s.routes[((method, Url.asStr url) : Text × Text)]?).isSome

/-- The route of a URL redirects to another one. -/
def Redirects (s : NetworkStack U) (method : Text) (url target : U) : Prop :=
  ∃ response location, s.routes[((method, Url.asStr url) : Text × Text)]? = some response ∧
    300 ≤ response.status ∧ response.status < 400 ∧
    response.headers[("location" : Text)]? = some location ∧ Url.join url location = some target

/-- The routes redirect from a URL to another one in a number of steps. -/
inductive RedirectsTo (s : NetworkStack U) (method : Text) : Nat → U → U → Prop
  | refl (url : U) : RedirectsTo s method 0 url url
  | head {n : Nat} {url next target : U} (hfirst : s.Redirects method url next)
      (hrest : RedirectsTo s method n next target) : RedirectsTo s method (n + 1) url target

/-! ## The traced loop -/

/-- The traced loop is the loop. -/
theorem follow_traced_snd (remaining : Nat) (url : U) :
    (s.followTraced method remaining url).2 = s.followRedirects method remaining url := by
  induction remaining generalizing url with
  | zero =>
      unfold followTraced followRedirects
      cases s.routeResponse method url with
      | none => rfl
      | some response =>
          dsimp only
          split_ifs
          · cases response.headers[("location" : Text)]? <;> rfl
          · rfl
  | succ remaining ih =>
      unfold followTraced followRedirects
      cases s.routeResponse method url with
      | none => rfl
      | some response =>
          dsimp only
          split_ifs
          · cases response.headers[("location" : Text)]? with
            | none => rfl
            | some location =>
                dsimp only
                cases Url.join url location with
                | none => rfl
                | some nextUrl => exact ih nextUrl
          · rfl

theorem route_response_direct (hproxy : s.config.proxy = none) (url : U) :
    s.routeResponse method url = s.routes[((method, Url.asStr url) : Text × Text)]? := by
  rw [routeResponse, hproxy]
  rfl

/-- Where a URL redirects to is read off its response. -/
theorem redirects_iff {response : NetworkResponse} {url next : U}
    (hroute : s.routes[((method, Url.asStr url) : Text × Text)]? = some response) :
    s.Redirects method url next ↔ (300 ≤ response.status ∧ response.status < 400) ∧
      ∃ location, response.headers[("location" : Text)]? = some location ∧
        Url.join url location = some next := by
  constructor
  · intro h
    obtain ⟨found, location, hfound, hmin, hmax, hlocation, hnext⟩ := h
    cases Option.some.inj (hroute.symm.trans hfound)
    exact ⟨⟨hmin, hmax⟩, location, hlocation, hnext⟩
  · intro h
    obtain ⟨⟨hmin, hmax⟩, location, hlocation, hnext⟩ := h
    exact ⟨response, location, hroute, hmin, hmax, hlocation, hnext⟩

/-- One turn of the loop takes a response for its URL, and goes on with the URL it redirects to. -/
theorem mem_follow_traced_step (hproxy : s.config.proxy = none) (remaining : Nat) (url target : U) :
    target ∈ (s.followTraced method remaining url).1 ↔
      (target = url ∧ s.HasRoute method url) ∨ ∃ n next, remaining = n + 1 ∧
        s.Redirects method url next ∧ target ∈ (s.followTraced method n next).1 := by
  -- a turn that does not go on ends with at most its own URL
  have hends {taken : List U} (htaken : target ∈ taken ↔ target = url ∧ s.HasRoute method url)
      (hlast : ∀ n next, remaining = n + 1 → ¬ s.Redirects method url next) :
      target ∈ taken ↔ (target = url ∧ s.HasRoute method url) ∨ ∃ n next, remaining = n + 1 ∧
        s.Redirects method url next ∧ target ∈ (s.followTraced method n next).1 := by
    rw [htaken, or_iff_left]
    intro h
    obtain ⟨n, next, hn, hredirects, -⟩ := h
    exact hlast n next hn hredirects
  rw [followTraced.eq_def s method remaining url]
  dsimp only
  rw [route_response_direct hproxy]
  cases hroute : s.routes[((method, Url.asStr url) : Text × Text)]? with
  | none =>
      have hnothing : target ∈ ([] : List U) ↔ target = url ∧ s.HasRoute method url := by
        simp [HasRoute, hroute]
      refine hends hnothing ?_
      intro n next _ hredirects
      obtain ⟨response, location, hresponse, -⟩ := hredirects
      rw [hroute] at hresponse
      cases hresponse
  | some response =>
      have hself : target ∈ [url] ↔ target = url ∧ s.HasRoute method url := by
        simp [HasRoute, hroute]
      dsimp only
      split_ifs with hstatus
      swap
      · refine hends hself ?_
        intro n next _ hredirects
        exact hstatus ((redirects_iff hroute).mp hredirects).1
      cases hlocation : response.headers[("location" : Text)]? with
      | none =>
          refine hends hself ?_
          intro n next _ hredirects
          obtain ⟨-, header, hheader, -⟩ := (redirects_iff hroute).mp hredirects
          rw [hlocation] at hheader
          cases hheader
      | some location =>
          have hnext (next : U) :
              s.Redirects method url next ↔ Url.join url location = some next := by
            rw [redirects_iff hroute, and_iff_right hstatus]
            simp only [hlocation, Option.some.injEq, exists_eq_left']
          cases remaining with
          | zero =>
              refine hends hself ?_
              intro n next hn
              cases hn
          | succ remaining =>
              dsimp only
              cases hjoin : Url.join url location with
              | none =>
                  refine hends hself ?_
                  simp [hnext, hjoin]
              | some nextUrl =>
                  rw [← hself, List.mem_cons, List.mem_singleton]
                  refine or_congr_right ?_
                  constructor
                  · intro hmem
                    exact ⟨remaining, nextUrl, rfl, (hnext nextUrl).mpr hjoin, hmem⟩
                  · intro h
                    obtain ⟨n, next, hn, hredirects, hmem⟩ := h
                    cases hn
                    cases Option.some.inj (hjoin.symm.trans ((hnext next).mp hredirects))
                    exact hmem

/-- The loop takes a response for the URLs of the chain that have one. -/
theorem mem_follow_traced (hproxy : s.config.proxy = none) (remaining : Nat) (url target : U) :
    target ∈ (s.followTraced method remaining url).1 ↔
      ∃ n ≤ remaining, s.RedirectsTo method n url target ∧ s.HasRoute method target := by
  induction remaining generalizing url with
  | zero =>
      rw [mem_follow_traced_step hproxy]
      constructor
      · rintro (⟨rfl, hroute⟩ | ⟨n, next, hn, -⟩)
        · exact ⟨0, Nat.le_refl 0, .refl target, hroute⟩
        · cases hn
      · rintro ⟨n, hn, hredirects, hroute⟩
        cases Nat.le_zero.mp hn
        cases hredirects
        exact .inl ⟨rfl, hroute⟩
  | succ remaining ih =>
      rw [mem_follow_traced_step hproxy]
      constructor
      · rintro (⟨rfl, hroute⟩ | ⟨n, next, hn, hfirst, hmem⟩)
        · exact ⟨0, Nat.zero_le _, .refl target, hroute⟩
        · cases hn
          obtain ⟨n, hn, hrest, hroute⟩ := (ih next).mp hmem
          exact ⟨n + 1, Nat.succ_le_succ hn, .head hfirst hrest, hroute⟩
      · rintro ⟨n, hn, hredirects, hroute⟩
        cases hredirects with
        | refl => exact .inl ⟨rfl, hroute⟩
        | head hfirst hrest =>
            exact .inr ⟨remaining, _, rfl, hfirst,
              (ih _).mpr ⟨_, Nat.le_of_succ_le_succ hn, hrest, hroute⟩⟩

/-! ## Safe redirects -/

/-- The checks of an admitted request hold of its URL. -/
theorem safe_of_admitted {request : NetworkRequest U} (h : s.refusal request = none) :
    s.Safe request.url := by
  obtain ⟨-, hscheme, htrusted, -⟩ := refusal_eq_none.mp h
  refine ⟨hscheme, fun hcertificates hhttps => ?_⟩
  rw [untrusted] at htrusted
  cases hhost : Url.hostStr request.url with
  | none => simp [hhost, hcertificates, hhttps] at htrusted
  | some host =>
      simp only [hhost, hcertificates, hhttps, ne_eq, not_false_eq_true, decide_true,
        beq_self_eq_true, Bool.true_and, Option.all_some, Bool.not_eq_true',
        Bool.not_eq_false] at htrusted
      simpa using htrusted

/-- Without a proxy, a fetch takes responses for safe URLs only, exactly if it does not get to the
routes, or these redirect from its URL, within the limit, to safe URLs or to URLs without a
route. -/
theorem redirects_safe_iff (s : NetworkStack U) (hproxy : s.config.proxy = none)
    (request : NetworkRequest U) (clock : Clock) :
    (∀ url ∈ s.fetchTaken request clock, s.Safe url) ↔
      (s.reachesRoutes request clock → ∀ n < s.limits.maxRedirects.toNat, ∀ url,
        s.RedirectsTo (asciiUpper request.method) (n + 1) request.url url →
          s.HasRoute (asciiUpper request.method) url → s.Safe url) := by
  rw [fetchTaken]
  split_ifs with hreaches
  · rw [forall_prop_of_true hreaches]
    constructor
    · intro h n hn url hredirects hroute
      exact h url ((mem_follow_traced hproxy _ _ _).mpr ⟨n + 1, hn, hredirects, hroute⟩)
    · intro h url hurl
      obtain ⟨n, hn, hredirects, hroute⟩ := (mem_follow_traced hproxy _ _ _).mp hurl
      cases hredirects with
      | refl => exact safe_of_admitted hreaches.1
      | head hfirst hrest => exact h _ hn url (.head hfirst hrest) hroute
  · refine iff_of_true (fun url hurl => ?_) fun h => absurd h hreaches
    cases hurl

end NetworkStack

/-- A stack that trusts the shop and has routes for two other pages; the first page redirects. -/
def redirectStack (location : Text) : NetworkStack PlainUrl :=
  .fresh
    ((((∅ : Routes).insert ("GET", "http://shop.test/")
      ⟨0, 302, (∅ : OrdMap Text Text).insert "location" location, []⟩).insert
        ("GET", "https://shop.test/") ⟨0, 200, ∅, []⟩).insert
          ("GET", "https://other.test/") ⟨0, 200, ∅, []⟩)
    default default { (default : NetworkConfig PlainUrl) with trustedCertificates := ["shop.test"] }

/-- A stack whose redirects all stay safe. -/
theorem redirect_stack_safe :
    (redirectStack "https://shop.test/").config.proxy = none ∧ ∀ n < 10, ∀ url : PlainUrl,
      (redirectStack "https://shop.test/").RedirectsTo "GET" (n + 1) ⟨"http", "shop.test", "/"⟩
        url → (redirectStack "https://shop.test/").HasRoute "GET" url →
          (redirectStack "https://shop.test/").Safe url :=
  ⟨rfl, (NetworkStack.redirects_safe_iff (redirectStack "https://shop.test/") rfl
    (shopCall "GET" ⟨"http", "shop.test", "/"⟩).request ⟨0, 0⟩).mp (by decide +kernel)
      (by decide +kernel)⟩

/-- A redirect leads to a host that is not trusted. -/
theorem redirect_stack_unsafe :
    ¬ ∀ (s : NetworkStack PlainUrl) (request : NetworkRequest PlainUrl) (clock : Clock),
      s.config.proxy = none → ∀ url ∈ s.fetchTaken request clock, s.Safe url := by
  intro h
  have hsafe := h (redirectStack "https://other.test/")
    (shopCall "GET" ⟨"http", "shop.test", "/"⟩).request ⟨0, 0⟩ rfl ⟨"https", "other.test", "/"⟩
    (by decide +kernel)
  revert hsafe
  decide +kernel

end BrowsAI.Network
