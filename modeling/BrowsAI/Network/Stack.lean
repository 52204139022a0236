import BrowsAI.Cache.HttpCache
import BrowsAI.Cookies.CookieJar
import BrowsAI.Library.Saturating
import BrowsAI.ServiceWorker.Registry

/-!
# The network stack

`NetworkStack::fetch` and `fetch_worker` of `crates/network`, with the state they read and write:
the routes, the cookies, the cache, the service workers, the limits, the counters, and the two
logs. A body is a list of bytes and a counter a 64-bit word. The two places that read the system
clock take the time from a `Clock`.

The redirect loop counts down from the limit, so it ends by structural recursion.
-/

namespace BrowsAI.Network

open Utf8 Profiles Cookies Cache ServiceWorker Saturating

/-- A request of a page. -/
structure NetworkRequest (U : Type) where
  id : Uuid
  profile : ProfileId
  topLevelSite : Text
  url : U
  method : Text
  headers : OrdMap Text Text
  body : Option (List UInt8)
  initiator : Option Text

/-- The answer to a request. -/
structure NetworkResponse where
  requestId : Uuid
  status : UInt16
  headers : OrdMap Text Text
  body : List UInt8

/-- What is told of a request. -/
inductive NetworkEvent (U : Type) where
  | requestStarted (requestId : Uuid) (url : U)
  | requestInitiator (requestId : Uuid) (initiator : Text)
  | responseReceived (requestId : Uuid) (status : UInt16) (bytes : Nat)
  | timing (requestId : Uuid) (elapsedMillis : UInt64)
  | requestCompleted (requestId : Uuid) (status : UInt16)
  | requestFailed (requestId : Uuid) (error : Text)
  | mutation (requestId : Uuid) (kind : Text)

/-- The errors of `fetch`. Their normalized forms have the same names. -/
inductive NetworkError where
  | unsupportedScheme | untrustedCertificate | noRoute | invalidMethod | requestLimit
  | responseTooLarge | timeout | redirectLimit | invalidRedirect | workersDisabled
  deriving DecidableEq

/-- `format!("{error:?}")`. -/
def NetworkError.debug : NetworkError → Text
  | .unsupportedScheme => "UnsupportedScheme"
  | .untrustedCertificate => "UntrustedCertificate"
  | .noRoute => "NoRoute"
  | .invalidMethod => "InvalidMethod"
  | .requestLimit => "RequestLimit"
  | .responseTooLarge => "ResponseTooLarge"
  | .timeout => "Timeout"
  | .redirectLimit => "RedirectLimit"
  | .invalidRedirect => "InvalidRedirect"
  | .workersDisabled => "WorkersDisabled"

/-- What is noted of a request. -/
inductive NetworkAuditEvent where
  | completed (requestId : Uuid) (status : UInt16) (bytes : Nat)
  | failed (requestId : Uuid) (error : NetworkError)
  | cookieStored (requestId : Uuid) (domain : Text)
  deriving DecidableEq

/-- How much a stack allows. -/
structure NetworkLimits where
  maxRequests : UInt64
  maxResponseBytes : Nat
  timeoutMillis : UInt64
  maxRedirects : UInt8
  deriving DecidableEq

/-- `NetworkLimits::default()`. -/
instance : Inhabited NetworkLimits := ⟨⟨10000, 16 * 1024 * 1024, 30000, 10⟩⟩

/-- What is switched on, and who is trusted. -/
structure NetworkConfig (U : Type) where
  proxy : Option U
  trustedCertificates : List Text
  workersEnabled : Bool
  serviceWorkersEnabled : Bool
  profileIdentity : Option ProfileIdentity

/-- `NetworkConfig::default()`. -/
instance {U : Type} : Inhabited (NetworkConfig U) := ⟨⟨none, [], false, false, none⟩⟩

/-- What is counted. -/
structure NetworkMetrics where
  requestsStarted : UInt64
  requestsCompleted : UInt64
  requestsFailed : UInt64
  bytesReceived : UInt64
  deriving DecidableEq

/-- `NetworkMetrics::default()`. -/
instance : Inhabited NetworkMetrics := ⟨⟨0, 0, 0, 0⟩⟩

/-- Responses by upper-case method and URL. -/
abbrev Routes := OrdMap (Text × Text) NetworkResponse

/-- The network of the browser: a table of routes with the stores around it. -/
structure NetworkStack (U : Type) where
  routes : Routes
  events : List (NetworkEvent U)
  cookies : CookieJar
  cache : HttpCache
  serviceWorkers : ServiceWorkerRegistry U
  limits : NetworkLimits
  metrics : NetworkMetrics
  config : NetworkConfig U
  logicalTimeMillis : UInt64
  auditEvents : List NetworkAuditEvent

/-- The readings of the system clock in Unix seconds: one when the cookie header is built, one when
a cookie is parsed. -/
structure Clock where
  cookieHeader : Int
  cookieParse : Int

/-- `apply_profile_headers`. A header that is there in any letter case is kept. -/
def applyProfileHeaders (headers : OrdMap Text Text) (identity : Option ProfileIdentity) :
    OrdMap Text Text :=
  match identity with
  | none => headers
  | some identity =>
      let hasHeader (name : Text) : Bool := headers.keys.any fun key => eqIgnoreAsciiCase key name
      let entry (name value : Text) : List (Text × Text) :=
        if hasHeader name then [] else [(name, value)]
      let entries :=
        entry "user-agent" identity.userAgent ++
        entry "accept-language" identity.acceptLanguage ++
        (if identity.brands = [] then [] else entry "sec-ch-ua" identity.secChUa) ++
        entry "sec-ch-ua-mobile" identity.secChUaMobile ++
        entry "sec-ch-ua-platform" identity.secChUaPlatform
      entries.foldl (fun headers (name, value) => headers.insert name value) headers

namespace NetworkStack

variable {U : Type}

/-- A stack as it is made, with the given set-up and nothing fetched. -/
def fresh (routes : Routes) (serviceWorkers : ServiceWorkerRegistry U) (limits : NetworkLimits)
    (config : NetworkConfig U) : NetworkStack U :=
  { routes, events := [], cookies := default, cache := default, serviceWorkers, limits,
    metrics := default, config, logicalTimeMillis := 0, auditEvents := [] }

/-- Tells an event. -/
def pushEvent (s : NetworkStack U) (event : NetworkEvent U) : NetworkStack U :=
  { s with events := s.events ++ [event] }

/-- Notes an event. -/
def pushAudit (s : NetworkStack U) (event : NetworkAuditEvent) : NetworkStack U :=
  { s with auditEvents := s.auditEvents ++ [event] }

/-- Notes a request that was completed. -/
def auditCompleted (s : NetworkStack U) (requestId : Uuid) (status : UInt16) (bytes : Nat) :
    NetworkStack U :=
  s.pushAudit (.completed requestId status bytes)

/-- Notes a request that failed. -/
def auditFailure (s : NetworkStack U) (requestId : Uuid) (error : NetworkError) :
    NetworkStack U :=
  s.pushAudit (.failed requestId error)

/-- `self.metrics.requests_started += 1`. -/
def countStarted (s : NetworkStack U) : NetworkStack U :=
  { s with metrics.requestsStarted := s.metrics.requestsStarted + 1 }

/-- `self.metrics.requests_failed += 1`. -/
def countFailed (s : NetworkStack U) : NetworkStack U :=
  { s with metrics.requestsFailed := s.metrics.requestsFailed + 1 }

/-- The two counters of a request that got its response. -/
def countCompleted (s : NetworkStack U) (bytes : Nat) : NetworkStack U :=
  { s with
    metrics.requestsCompleted := s.metrics.requestsCompleted + 1
    metrics.bytesReceived := s.metrics.bytesReceived + UInt64.ofNat bytes }

/-- The time that has passed since `startedAt`, as an event. -/
def pushTiming (s : NetworkStack U) (requestId : Uuid) (startedAt : UInt64) : NetworkStack U :=
  s.pushEvent (.timing requestId (saturatingSub s.logicalTimeMillis startedAt))

/-- The bookkeeping of every exit with a response. -/
def complete (s : NetworkStack U) (requestId : Uuid) (startedAt : UInt64)
    (response : NetworkResponse) : Except NetworkError NetworkResponse × NetworkStack U :=
  let s := s.countCompleted response.body.length
  let s := s.pushEvent (.responseReceived requestId response.status response.body.length)
  let s := s.pushTiming requestId startedAt
  let s := s.pushEvent (.requestCompleted requestId response.status)
  (.ok response, s.auditCompleted requestId response.status response.body.length)

/-- The bookkeeping of an exit with an error, once the request is started. -/
def fail (s : NetworkStack U) (requestId : Uuid) (error : NetworkError) :
    Except NetworkError NetworkResponse × NetworkStack U :=
  let s := s.pushEvent (.requestFailed requestId error.debug)
  (.error error, s.auditFailure requestId error)

/-- The refusal of a request that is never started. -/
def refuse (s : NetworkStack U) (requestId : Uuid) (error : NetworkError) :
    Except NetworkError NetworkResponse × NetworkStack U :=
  (.error error, s.auditFailure requestId error)

variable [Url U]

/-- The host of an https URL is not among the trusted certificates. -/
def untrusted (s : NetworkStack U) (url : U) : Bool :=
  Url.scheme url == "https" && s.config.trustedCertificates ≠ [] &&
    (Url.hostStr url).all fun host =>
      !s.config.trustedCertificates.any fun trusted => eqIgnoreAsciiCase trusted host

/-- The response of an intercepting service worker. -/
def intercepted (s : NetworkStack U) (request : NetworkRequest U) : Option NetworkResponse :=
  if s.config.serviceWorkersEnabled then
    (s.serviceWorkers.fetch request.url).map fun response =>
      ⟨request.id, response.status, ∅, response.body⟩
  else none

/-- The response of the cache to a GET request. -/
def cached (s : NetworkStack U) (request : NetworkRequest U) : Option NetworkResponse :=
  if request.method = "GET" then
    (s.cache.get request.profile request.topLevelSite request.url).map fun response =>
      ⟨request.id, response.status, response.headers, response.body⟩
  else none

/-- The response for a URL: the route of the proxy, or the route of the URL itself. -/
def routeResponse (s : NetworkStack U) (method : Text) (url : U) : Option NetworkResponse :=
  (s.config.proxy.bind fun proxy => s.routes[((method, Url.asStr proxy) : Text × Text)]?) <|>
    s.routes[((method, Url.asStr url) : Text × Text)]?

/-- The redirect loop with `remaining` redirects left, and the URL it stops at. -/
def followRedirects (s : NetworkStack U) (method : Text) :
    Nat → U → Except NetworkError NetworkResponse × U
  | remaining, url =>
      match s.routeResponse method url with
      | none => (.error .noRoute, url)
      | some response =>
          if 300 ≤ response.status ∧ response.status < 400 then
            match response.headers[("location" : Text)]? with
            | none => (.ok response, url)
            | some location =>
                match remaining with
                | 0 => (.error .redirectLimit, url)
                | remaining + 1 =>
                    match Url.join url location with
                    | none => (.error .invalidRedirect, url)
                    -- the scheme and the certificate of the next URL are not checked
                    | some nextUrl => followRedirects s method remaining nextUrl
          else (.ok response, url)

/-- The cookie of a response, stored and logged. -/
def storeCookie (s : NetworkStack U) (request : NetworkRequest U) (now : Int)
    (response : NetworkResponse) : NetworkStack U :=
  let header := response.headers.toList.find? fun (name, _) => eqIgnoreAsciiCase name "set-cookie"
  match header.bind fun (_, setCookie) => Cookie.parseAt setCookie request.url now with
  | none => s
  | some cookie =>
      { s with cookies := s.cookies.set request.profile request.topLevelSite cookie }.pushAudit
        (.cookieStored request.id cookie.domain)

/-- The cache after a response from a route. -/
def updateCache (s : NetworkStack U) (request : NetworkRequest U) (response : NetworkResponse) :
    NetworkStack U :=
  if request.method = "GET" ∧ 200 ≤ response.status ∧ response.status < 400 then
    { s with
      cache := s.cache.put request.profile request.topLevelSite request.url
        ⟨response.status, response.headers, response.body⟩ }
  else if request.method ≠ "GET" then
    { s with
      cache := s.cache.invalidate request.profile request.topLevelSite request.url }.pushEvent
        (.mutation request.id "cacheInvalidated")
  else s

/-- `fetch` from the redirect loop on. -/
def fetchRoute (s : NetworkStack U) (request : NetworkRequest U) (startedAt : UInt64)
    (clock : Clock) : Except NetworkError NetworkResponse × NetworkStack U :=
  let (result, url) :=
    s.followRedirects request.method s.limits.maxRedirects.toNat request.url
  -- cookie and cache entry are for the URL at which the redirects stop
  let request := { request with url }
  match result with
  | .ok response =>
      let response := { response with requestId := request.id }
      if s.limits.maxResponseBytes < response.body.length then
        s.countFailed.fail request.id .responseTooLarge
      else
        ((s.storeCookie request clock.cookieParse response).updateCache request response).complete
          request.id startedAt response
  | .error error => (s.countFailed.pushTiming request.id startedAt).fail request.id error

/-- The request as it is sent: the method in upper case, the cookies, the profile headers. -/
def prepare (s : NetworkStack U) (request : NetworkRequest U) (clock : Clock) :
    NetworkRequest U :=
  let cookieHeader :=
    s.cookies.headerForAt request.profile request.topLevelSite request.url clock.cookieHeader
  let headers :=
    if cookieHeader = [] then request.headers
    else request.headers.insert "cookie" cookieHeader
  { request with
    method := asciiUpper request.method
    headers := applyProfileHeaders headers s.config.profileIdentity }

/-- The events and the count of a request that starts. -/
def start (s : NetworkStack U) (request : NetworkRequest U) : NetworkStack U :=
  let s := s.pushEvent (.requestStarted request.id request.url)
  let s := match request.initiator with
    | some initiator => s.pushEvent (.requestInitiator request.id initiator)
    | none => s
  s.countStarted

/-- Answers a request from the service worker, the cache, or the routes. -/
def fetch (s : NetworkStack U) (request : NetworkRequest U) (clock : Clock) :
    Except NetworkError NetworkResponse × NetworkStack U :=
  if s.limits.maxRequests ≤ s.metrics.requestsStarted then s.refuse request.id .requestLimit
  else if Url.scheme request.url ≠ "http" ∧ Url.scheme request.url ≠ "https" then
    s.refuse request.id .unsupportedScheme
  else if s.untrusted request.url then s.refuse request.id .untrustedCertificate
  else if request.method = [] then s.refuse request.id .invalidMethod
  else
    let startedAt := s.logicalTimeMillis
    let request := s.prepare request clock
    let s := s.start request
    if s.limits.timeoutMillis = 0 then s.countFailed.fail request.id .timeout
    else
      -- only a response from the routes is held against the limit of the body
      match s.intercepted request with
      | some response => s.complete request.id startedAt response
      | none =>
          match s.cached request with
          | some response => s.complete request.id startedAt response
          | none => s.fetchRoute request startedAt clock

/-- A request of a worker. -/
def fetchWorker (s : NetworkStack U) (request : NetworkRequest U) (clock : Clock) :
    Except NetworkError NetworkResponse × NetworkStack U :=
  if !s.config.workersEnabled then s.refuse request.id .workersDisabled
  else s.fetch { request with initiator := some "worker" } clock

end NetworkStack

end BrowsAI.Network
