import BrowsAI.Library.TextLines
import BrowsAI.EngineServo.Projection
import BrowsAI.PageText.Emitter
import BrowsAI.Serve.Browse
import BrowsAI.Serve.Domains
import BrowsAI.Serve.Http

/-!
# What the server answers

`route` of the `serve` command of `browsai-cli`, without the live browser. All hosts share one engine
and one table of sessions.

How a URL, an identity, an input event and the JSON of a body are read are parameters. An answer is
what is put into the JSON object, without the texts of errors.
-/

namespace BrowsAI.Serve.Handlers

open Utf8 Std Profiles AgentTree Diff AgentProtocol PageText EngineServo Ipc Domains

/-! ## Bodies -/

/-- With the errors of the parser, and the host. -/
class ParsedUrl (U : Type) extends Address U where
  parse : Text → Except Text U
  hostStr : U → Option Text

/-- The identities that a fingerprint id names. -/
class FingerprintCatalog (Identity : Type) where
  get : Text → Option Identity

/-- The events that a JSON value stands for. -/
class InputJson (Event : Type) where
  fromValue : Value → Except Text (List Event)

/-- The JSON value of bytes. -/
class JsonText where
  fromSlice : Bytes → Option Value

/-- `Value::as_u64`. -/
def asU64 : Value → Option Nat
  | .integer n => if 0 ≤ n ∧ n < 2 ^ 64 then some n.toNat else none
  | _ => none

/-- A text of the body. -/
def bodyText (body : Value) (key : Text) : Option Text := (Value.get body key).bind Value.asStr

/-- A number of the body. -/
def bodyNumber (body : Value) (key : Text) : Option Nat := (Value.get body key).bind asU64

/-- A flag of the body. -/
def bodyFlag (body : Value) (key : Text) : Option Bool := (Value.get body key).bind Value.asBool

/-! ## Answers -/

/-- Why a request is refused. -/
inductive Refusal where
  | notFound (method path : Text)
  | followLink
  | autoSolve
  | missingUrl
  | invalidUrl (url : Text)
  | requiresUrl (command : Text)
  | urlRequired
  | unparsedUrl (error : Text)
  | noHost
  | eventsRequired
  | invalidEvents (error : Text)
  | noEvents
  | unknownFingerprint (raw : Text)
  | domain (error : DomainError)
  | navigate (error : EngineError)
  | dispatch (dispatched total : Nat) (error : EngineError)
  | pump (error : EngineError)
  | snapshot (error : EngineError)

/-- The status of a refusal. -/
def Refusal.status : Refusal → UInt16
  | .notFound .. => 404
  | .followLink => 501
  | .autoSolve => 503
  | .missingUrl | .invalidUrl _ | .requiresUrl _ | .urlRequired | .unparsedUrl _ | .noHost
  | .eventsRequired | .invalidEvents _ | .noEvents | .unknownFingerprint _ => 400
  | .domain _ | .navigate _ | .dispatch .. | .pump _ | .snapshot _ => 500

/-- What a request is answered. -/
inductive Answer (U Event : Type) where
  | refused (refusal : Refusal)
  | health (activeDomains : UInt64)
  | capabilities
  | version
  | schema
  | visited (page : PageId) (url : U)
  | filtered (view : FilteredPage)
  | text (format : Text) (page : PageId) (url : U) (view : Option MarkdownView)
  | rows (view : QueryPage)
  | tree (page : PageId) (url : U) (nodeCount : Nat) (results : List QueryResult)
  | dispatched (count : Nat) (host url : Text) (events : List Event)
      (snapshot : Option (Except EngineError (PageSnapshot U)))

variable {Identity U Event : Type}

/-- The status of an answer. -/
def Answer.status : Answer U Event → UInt16
  | .refused refusal => refusal.status
  | _ => 200

/-- Without the numbers of the page and of the snapshot. -/
def Answer.withoutIds : Answer U Event → Answer U Event
  | .visited _ url => .visited 0 url
  | .text format _ url view => .text format 0 url view
  | .tree _ url nodeCount results => .tree 0 url nodeCount results
  | .dispatched count host url events snapshot =>
      .dispatched count host url events
        (snapshot.map fun snapshot => snapshot.map fun snapshot => { snapshot with id := 0 })
  | answer => answer

/-! ## What a page is shown as -/

/-- The nodes with more confidence in those that mention the query. -/
def biasConfidenceByQuery (query : Text) (nodes : List AgentNode) : List AgentNode :=
  let terms := ((splitWhitespace query).map asciiLower).filter fun term => 2 ≤ len term
  if (trim query).isEmpty || terms.isEmpty then nodes
  else
    let needle := List.intercalate (" " : Text) terms
    let mentions := fun text : Text => contains needle text || terms.any fun term => contains term text
    nodes.map fun node =>
      if node.name.any fun name => mentions (asciiLower name) then
        { node with confidence := .direct }
      else if mentions (asciiLower (node.description.getD "")) then
        { node with confidence := .strong }
      else node

/-- The tree with the confidence that the query of a body gives it. -/
def queriedTree (tree : AgentRenderTree) (body : Value) : AgentRenderTree :=
  match bodyText body "query" with
  | some terms => { tree with nodes := biasConfidenceByQuery terms tree.nodes }
  | none => tree

/-- What a body asks for. -/
def BrowseBody.ofJson (body : Value) : BrowseBody :=
  ⟨bodyNumber body "cursor", bodyNumber body "limit", bodyText body "filter"⟩

section Views

variable [F64Display]

/-- `handle_browse` from the snapshot on. -/
def browseView (page : PageId) (url : U) (tree : AgentRenderTree) (body : Value) : Answer U Event :=
  let tree := queriedTree tree body
  let asked := BrowseBody.ofJson body
  let format := (bodyText body "format").getD "tree"
  match Serve.handleBrowse tree asked with
  | some view => .filtered view
  | none =>
      if format = "markdown" ∨ format = "text" then
        let opts : MarkdownOptions :=
          { (default : MarkdownOptions) with
            format := if format = "text" then .plain else .markdown }
        -- a tree without a cycle is not deeper than it has nodes
        .text format page url (PageText.emit tree opts tree.nodes.length)
      else if 0 < asked.cursor.getD 0 ∨ asked.pageLimit ≠ 100 then
        .rows (PageQuery.renderPage tree (asked.cursor.getD 0) asked.pageLimit)
      else .tree page url tree.nodes.length (tree.nodes.map .ofNode)

end Views

/-! ## Handlers -/

/-- When a request is handled, with the UUIDs of the trees that may be made for it. -/
structure Moment where
  now : Instant
  pageUuid : Uuid
  treeUuid : Uuid

/-- `pump_runtime` without a runtime. -/
def pumpRuntime (e : ServoEngine Identity U Event) (page : PageId) : Except EngineError Unit :=
  match e.pages[page]? with
  | none => .error (.pageNotFound page)
  | some _ => .ok ()

/-- The loop over the events, with the number of those that were dispatched. -/
def dispatchAll (page : PageId) (total : Nat) :
    Nat → List Event → ServoEngine Identity U Event →
      Except Refusal Nat × ServoEngine Identity U Event
  | dispatched, [], e => (.ok dispatched, e)
  | dispatched, event :: events, e =>
      match e.dispatchInput page event with
      | (.error error, e) => (.error (.dispatch dispatched total error), e)
      | (.ok (), e) => dispatchAll page total (dispatched + 1) events e

section Requests

variable [ParsedUrl U]

/-- `url_host`, with the URL. -/
def urlHost (url : Text) : Option (U × Text) :=
  match ParsedUrl.parse url with
  | .error _ => none
  | .ok parsed => (ParsedUrl.hostStr parsed).map fun host => (parsed, asciiLower host)

/-- The checks of `handle_browse`. -/
def browseTarget (body : Value) : Except Refusal (U × Text) :=
  match bodyText body "url" with
  | none => .error .missingUrl
  | some url =>
      match urlHost url with
      | none => .error (.invalidUrl url)
      | some target => .ok target

/-- The checks of `handle_query_or_render`. -/
def queryTarget (body : Value) (command : Text) : Except Refusal (U × Text) :=
  match bodyText body "url" with
  | none => .error (.requiresUrl command)
  | some _ => browseTarget body

/-- A request for input that passed the checks of `handle_native_input`. -/
structure NativeInput (Identity Event : Type) where
  url : Text
  host : Text
  events : List Event
  fingerprintOverride : Option Identity

section Native

variable [FingerprintCatalog Identity] [InputJson Event]

/-- The fingerprint that a body names. -/
def resolveBodyFingerprint (body : Value) : Except Refusal (Option Identity) :=
  match (bodyText body "fingerprint").map trim with
  | none | some [] => .ok none
  | some raw =>
      match FingerprintCatalog.get raw with
      | none => .error (.unknownFingerprint raw)
      | some identity => .ok (some identity)

/-- The events of a body, of which there is at least one. -/
def bodyEvents (body : Value) : Except Refusal (List Event) :=
  match Value.get body "events" with
  | none => .error .eventsRequired
  | some events =>
      match InputJson.fromValue events with
      | .error error => .error (.invalidEvents error)
      | .ok [] => .error .noEvents
      | .ok events => .ok events

variable (U) in
/-- The checks of `handle_native_input`. -/
def inputTarget (body : Value) : Except Refusal (NativeInput Identity Event) :=
  match (bodyText body "url").map trim with
  | none | some [] => .error .urlRequired
  | some url =>
      match (ParsedUrl.parse url : Except Text U) with
      | .error error => .error (.unparsedUrl error)
      | .ok parsed =>
          match ParsedUrl.hostStr parsed with
          | none => .error .noHost
          | some host => do
              let events ← bodyEvents body
              let fingerprintOverride ← resolveBodyFingerprint body
              pure ⟨url, asciiLower host, events, fingerprintOverride⟩

end Native

variable [DecidableEq Identity] [F64Display]

/-- The settling and the answer of `handle_browse` behind the navigation. The wait for the network is
not supported without a runtime, which is no reason to fail. -/
def browseAnswer (e : ServoEngine Identity U Event) (page : PageId) (url : U) (body : Value) :
    Answer U Event :=
  match if 0 < (bodyNumber body "wait_ms").getD 1000 then pumpRuntime e page else .ok () with
  | .error error => .refused (.pump error)
  | .ok () =>
      if bodyFlag body "snapshot_only" = some true then .visited page url
      else
        match e.snapshot page with
        | .error error => .refused (.snapshot error)
        | .ok snapshot => browseView page url snapshot.tree body

/-- `handle_browse` for a URL that passed the checks. -/
def handleBrowse (s : ServerState Identity U Event) (m : Moment) (url : U) (host : Text)
    (body : Value) : Answer U Event × ServerState Identity U Event :=
  match s.getOrCreateDomain m.now m.pageUuid host none with
  | (.error error, s) => (.refused (.domain error), s)
  | (.ok (_, page), s) =>
      match s.engine.navigate m.treeUuid page url with
      | (.error error, engine) => (.refused (.navigate error), { s with engine })
      | (.ok (), engine) => (browseAnswer engine page url body, { s with engine })

/-- The settling and the answer of `handle_native_input` behind the events. -/
def inputAnswer (e : ServoEngine Identity U Event) (page : PageId) (dispatched : Nat)
    (input : NativeInput Identity Event) (body : Value) : Answer U Event :=
  match if 0 < (bodyNumber body "wait_ms").getD 0 then pumpRuntime e page else .ok () with
  | .error error => .refused (.pump error)
  | .ok () =>
      .dispatched dispatched input.host input.url input.events
        (if (bodyFlag body "snapshot_only").getD false then none else some (e.snapshot page))

/-- `handle_native_input` for a request that passed the checks. -/
def handleNativeInput (s : ServerState Identity U Event) (m : Moment)
    (input : NativeInput Identity Event) (body : Value) :
    Answer U Event × ServerState Identity U Event :=
  match s.getOrCreateDomain m.now m.pageUuid input.host input.fingerprintOverride with
  | (.error error, s) => (.refused (.domain error), s)
  | (.ok (_, page), s) =>
      match dispatchAll page input.events.length 0 input.events s.engine with
      | (.error refusal, engine) => (.refused refusal, { s with engine })
      | (.ok dispatched, engine) =>
          (inputAnswer engine page dispatched input body, { s with engine })

/-! ## Routes -/

/-- What a request is for. -/
inductive Endpoint where
  | health | capabilities | version | schema | browse | query | render | followLink | autoSolve
  | nativeInput | unknown

/-- The tests of `route`. -/
def endpoint (request : HttpRequest) : Endpoint :=
  if request.method = "GET" ∧ request.path = "/health" then .health
  else if request.method = "GET" ∧ request.path = "/capabilities" then .capabilities
  else if request.method = "GET" ∧ request.path = "/version" then .version
  else if request.method = "GET" ∧ request.path = "/schema" then .schema
  else if request.path = "/browse" ∧ request.method = "POST" then .browse
  else if request.path = "/query" ∧ request.method = "POST" then .query
  else if request.path = "/render" ∧ request.method = "POST" then .render
  else if request.path = "/follow-link" ∧ request.method = "POST" then .followLink
  else if request.path = "/auto-solve" ∧ request.method = "POST" then .autoSolve
  else if request.path = "/native-input" ∧ request.method = "POST" then .nativeInput
  else .unknown

variable [JsonText] [FingerprintCatalog Identity] [InputJson Event]

/-- The body of a request, null if it is no JSON. -/
def requestBody (request : HttpRequest) : Value :=
  if request.body.isEmpty then .null else (JsonText.fromSlice request.body).getD .null

/-- A request that passed the checks of its handler. -/
inductive Job (Identity U Event : Type) where
  | browse (url : U) (host : Text) (body : Value)
  | nativeInput (input : NativeInput Identity Event) (body : Value)

/-- The host that a job is for. -/
def Job.host : Job Identity U Event → Text
  | .browse _ host _ => host
  | .nativeInput input _ => input.host

/-- The answer to a request that needs no session, or the request with what it needs one for. -/
def checked (activeDomains : UInt64) (request : HttpRequest) :
    Except (Answer U Event) (Job Identity U Event) :=
  let body := requestBody request
  let browse := fun target : Except Refusal (U × Text) =>
    match target with
    | .error refusal => Except.error (Answer.refused refusal)
    | .ok (url, host) => .ok (Job.browse url host body)
  match endpoint request with
  | .health => .error (.health activeDomains)
  | .capabilities => .error .capabilities
  | .version => .error .version
  | .schema => .error .schema
  | .browse => browse (browseTarget body)
  | .query => browse (queryTarget body "query")
  | .render => browse (queryTarget body "render")
  | .followLink => .error (.refused .followLink)
  | .autoSolve => .error (.refused .autoSolve)
  | .nativeInput =>
      match (inputTarget U body : Except Refusal (NativeInput Identity Event)) with
      | .error refusal => .error (.refused refusal)
      | .ok input => .ok (.nativeInput input body)
  | .unknown => .error (.refused (.notFound request.method request.path))

/-- A job that passed the checks. -/
def perform (s : ServerState Identity U Event) (m : Moment) :
    Job Identity U Event → Answer U Event × ServerState Identity U Event
  | .browse url host body => handleBrowse s m url host body
  | .nativeInput input body => handleNativeInput s m input body

/-- A request is checked and performed. -/
def route (s : ServerState Identity U Event) (m : Moment) (request : HttpRequest) :
    Answer U Event × ServerState Identity U Event :=
  match checked s.activeDomains request with
  | .error answer => (answer, s)
  | .ok job => perform s m job

/-- The request as a job, whatever the state of the server is. -/
def asked (request : HttpRequest) : Option (Job Identity U Event) := (checked 0 request).toOption

/-! ## Turns of the server -/

/-- A turn of the accept loop: the time that it waited for a connection, what the connection asked
for, and the time until it was handled. -/
structure Turn where
  wait : Nat
  delay : Nat
  pageUuid : Uuid
  treeUuid : Uuid
  request : Option HttpRequest

/-- When a turn handles what was asked for. -/
def Turn.moment (turn : Turn) (now : Instant) : Moment :=
  ⟨now + turn.wait + turn.delay, turn.pageUuid, turn.treeUuid⟩

/-- The server and its clock. -/
structure Daemon (Identity U Event : Type) where
  server : ServerState Identity U Event
  now : Instant

/-- A server without sessions. -/
def Daemon.start (fingerprint : Option Identity) (now : Instant) : Daemon Identity U Event :=
  ⟨.new ⟨fingerprint, false⟩, now⟩

/-- A turn of the loop: a sweep, and the request if there is one. -/
def Daemon.turn (d : Daemon Identity U Event) (turn : Turn) :
    Option (Answer U Event) × Daemon Identity U Event :=
  let server := d.server.idleSweep (d.now + turn.wait)
  let m := turn.moment d.now
  match turn.request with
  | none => (none, ⟨server, m.now⟩)
  | some request =>
      let (answer, server) := route server m request
      (some answer, ⟨server, m.now⟩)

/-- Every connection may come at any time. -/
def machine : Machine (Daemon Identity U Event) Turn where
  step d turn := (d.turn turn).2
  Allowed _ _ := True

/-- The job of a turn, if it needs a session. -/
def Turn.job (turn : Turn) : Option (Job Identity U Event) := turn.request.bind asked

variable (Identity U Event) in
/-- The host that a turn needs a session for. -/
def Turn.host (turn : Turn) : Option Text :=
  (turn.job : Option (Job Identity U Event)).map Job.host

/-- What the clients of a host see. -/
def observe (host : Text) (d : Daemon Identity U Event) (turn : Turn) : Option (Answer U Event) :=
  if turn.host Identity U Event = some host then (d.turn turn).1.map Answer.withoutIds else none

variable (Identity U Event) in
/-- The turn without what it asks of other hosts. -/
def Turn.only (host : Text) (turn : Turn) : Turn :=
  if turn.host Identity U Event = some host then turn else { turn with request := none }

end Requests

end BrowsAI.Serve.Handlers
