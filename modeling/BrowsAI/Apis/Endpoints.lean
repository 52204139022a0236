import BrowsAI.AgentTree.Basic
import BrowsAI.Network.Stack
import Mathlib.Data.Finset.Insert

/-!
# Endpoints found in the traffic

`ApiDiscovery` of `crates/api-discovery`: an endpoint is recorded when its response is observed, or
when a form, a script or an entity of the application lets one infer it. Whichever call comes first
makes the record with its origin and provenance, and the later ones leave both:
`observed_iff`. `JsonBody` is the library that reads a body.
-/

namespace BrowsAI.Apis

open Utf8 Network Profiles AgentTree

/-- `serde_json::Value`, as far as `observe` looks at it. -/
inductive JsonValue where
  | null | bool | number | string | array
  | object (fields : List (Text × JsonValue))

/-- The name of the type of a JSON value. -/
def jsonType : JsonValue → Text
  | .null => "null"
  | .bool => "boolean"
  | .number => "number"
  | .string => "string"
  | .array => "array"
  | .object _ => "object"

/-- `serde_json::from_slice`. -/
class JsonBody where
  fromSlice : List UInt8 → Option JsonValue

/-- Whether something was seen or only guessed. -/
inductive FactOrigin where
  | observed | inferred
  deriving DecidableEq

/-- What is known of the requests with one method and URL. -/
structure ApiEndpoint (U : Type) where
  method : Text
  url : U
  statusCodes : Finset UInt16
  responseFields : OrdMap Text Text
  confidence : Confidence
  origin : FactOrigin
  schemaOrigin : FactOrigin
  provenance : List ProvenanceSource

/-- When a request started and when it was complete. -/
structure NetworkTiming where
  startedAtTick : UInt64
  completedAtTick : UInt64

/-- What a request has to do with the page: the entity, the action, the form or the script behind
it. -/
structure CausalEvidence where
  requestId : Uuid
  entityId : Option Text
  actionId : Option Text
  stateChange : Option Text
  formId : Option Text
  scriptId : Option Text
  timing : NetworkTiming
  provenance : List ProvenanceSource

/-- The endpoints by method and URL, and the evidence in the order it came. -/
structure ApiDiscovery (U : Type) where
  endpoints : OrdMap (Text × Text) (ApiEndpoint U)
  correlations : List CausalEvidence

namespace ApiDiscovery

variable {U : Type} [Url U]

/-- `ApiDiscovery::default()`. -/
instance : Inhabited (ApiDiscovery U) := ⟨⟨∅, []⟩⟩

/-- Methods differ in case only: an endpoint is found by the method in capitals. -/
def key (method : Text) (url : U) : Text × Text := (asciiUpper method, Url.asStr url)

/-- What `observe` notes of the body. -/
def noteBody [JsonBody] (endpoint : ApiEndpoint U) (body : List UInt8) : ApiEndpoint U :=
  match JsonBody.fromSlice body with
  | some (.object fields) =>
      { endpoint with
        responseFields := fields.foldl
          (fun noted (field, value) => noted.insert field (jsonType value)) endpoint.responseFields
        confidence := .strong
        schemaOrigin := .inferred }
  | _ => endpoint

/-- The record that `observe` makes of a new endpoint. -/
def observedEndpoint (request : NetworkRequest U) (response : NetworkResponse) : ApiEndpoint U where
  method := asciiUpper request.method
  url := request.url
  statusCodes := ∅
  responseFields := ∅
  confidence := .probable
  origin := .observed
  schemaOrigin := .observed
  provenance :=
    [⟨.networkResponse, hyphenated response.requestId, some ("observed response" : Text)⟩]

/-- Adds the status and the fields of a response to the endpoint of its request. -/
def observe [JsonBody] (discovery : ApiDiscovery U) (request : NetworkRequest U)
    (response : NetworkResponse) : ApiDiscovery U :=
  let key := key request.method request.url
  let endpoint := discovery.endpoints[key]?.getD (observedEndpoint request response)
  let endpoint := { endpoint with statusCodes := insert response.status endpoint.statusCodes }
  { discovery with
    endpoints := discovery.endpoints.insert key (noteBody endpoint response.body) }

/-- What is known of a method and a URL. -/
def endpoint (discovery : ApiDiscovery U) (method : Text) (url : U) : Option (ApiEndpoint U) :=
  discovery.endpoints[key method url]?

/-- Adds a piece of evidence. -/
def correlate (discovery : ApiDiscovery U) (evidence : CausalEvidence) : ApiDiscovery U :=
  { discovery with correlations := discovery.correlations ++ [evidence] }

/-- Adds the evidence that a request gives. -/
def correlateRequest (discovery : ApiDiscovery U) (request : NetworkRequest U)
    (startedAtTick completedAtTick : UInt64) (entityId actionId stateChange : Option Text) :
    ApiDiscovery U :=
  discovery.correlate
    { requestId := request.id
      entityId
      actionId
      stateChange
      formId := none
      scriptId := none
      timing := ⟨startedAtTick, completedAtTick⟩
      provenance := [⟨.networkRequest, hyphenated request.id, request.initiator⟩] }

/-- The record that `infer_endpoint` makes of a new endpoint. -/
def inferredEndpoint (method : Text) (url : U) (kind : SourceKind) (reference : Text) :
    ApiEndpoint U where
  method := asciiUpper method
  url := url
  statusCodes := ∅
  responseFields := ∅
  confidence := .probable
  origin := .inferred
  schemaOrigin := .inferred
  provenance := [⟨kind, reference, some ("inferred endpoint" : Text)⟩]

/-- Adds an endpoint that was guessed, unless it is known already. -/
def inferEndpoint (discovery : ApiDiscovery U) (method : Text) (url : U) (kind : SourceKind)
    (reference : Text) : ApiDiscovery U :=
  let key := key method url
  let endpoint := discovery.endpoints[key]?.getD (inferredEndpoint method url kind reference)
  { discovery with endpoints := discovery.endpoints.insert key endpoint }

/-- The endpoint that a form goes to. -/
def inferFormEndpoint (discovery : ApiDiscovery U) (method : Text) (url : U) (formId : Text) :
    ApiDiscovery U :=
  discovery.inferEndpoint method url .eventHandler formId

/-- The endpoint that a script asks. -/
def inferRuntimeEndpoint (discovery : ApiDiscovery U) (method : Text) (url : U) (scriptId : Text) :
    ApiDiscovery U :=
  discovery.inferEndpoint method url .javaScript scriptId

/-- The endpoint that the application must have for an entity. -/
def inferApplicationEndpoint (discovery : ApiDiscovery U) (method : Text) (url : U)
    (entityId : Text) : ApiDiscovery U :=
  discovery.inferEndpoint method url .agentInference entityId

end ApiDiscovery

section NoteBody

variable {U : Type} [JsonBody]

/-- What the first call settles. -/
def ApiEndpoint.source (endpoint : ApiEndpoint U) : FactOrigin × List ProvenanceSource :=
  (endpoint.origin, endpoint.provenance)

theorem source_note_body (endpoint : ApiEndpoint U) (body : List UInt8) :
    (ApiDiscovery.noteBody endpoint body).source = endpoint.source := by
  rw [ApiDiscovery.noteBody]
  split <;> rfl

theorem status_codes_note_body (endpoint : ApiEndpoint U) (body : List UInt8) :
    (ApiDiscovery.noteBody endpoint body).statusCodes = endpoint.statusCodes := by
  rw [ApiDiscovery.noteBody]
  split <;> rfl

end NoteBody

/-! ## Histories -/

/-- A call that changes what is known. -/
inductive Call (U : Type) where
  | observe (request : NetworkRequest U) (response : NetworkResponse)
  | inferForm (method : Text) (url : U) (formId : Text)
  | inferRuntime (method : Text) (url : U) (scriptId : Text)
  | inferApplication (method : Text) (url : U) (entityId : Text)
  | correlate (evidence : CausalEvidence)
  | correlateRequest (request : NetworkRequest U) (startedAtTick completedAtTick : UInt64)
      (entityId actionId stateChange : Option Text)

section Histories

variable {U : Type} [Url U] [JsonBody]

/-- What a call does. -/
def ApiDiscovery.apply (discovery : ApiDiscovery U) : Call U → ApiDiscovery U
  | .observe request response => discovery.observe request response
  | .inferForm method url formId => discovery.inferFormEndpoint method url formId
  | .inferRuntime method url scriptId => discovery.inferRuntimeEndpoint method url scriptId
  | .inferApplication method url entityId =>
      discovery.inferApplicationEndpoint method url entityId
  | .correlate evidence => discovery.correlate evidence
  | .correlateRequest request startedAtTick completedAtTick entityId actionId stateChange =>
      discovery.correlateRequest request startedAtTick completedAtTick entityId actionId stateChange

/-- What is known behind a history of calls. -/
def ApiDiscovery.run (discovery : ApiDiscovery U) (history : List (Call U)) : ApiDiscovery U :=
  history.foldl ApiDiscovery.apply discovery

/-- The record that a call makes if its endpoint is new. -/
def Call.fresh : Call U → Option (ApiEndpoint U)
  | .observe request response => some (ApiDiscovery.observedEndpoint request response)
  | .inferForm method url formId =>
      some (ApiDiscovery.inferredEndpoint method url .eventHandler formId)
  | .inferRuntime method url scriptId =>
      some (ApiDiscovery.inferredEndpoint method url .javaScript scriptId)
  | .inferApplication method url entityId =>
      some (ApiDiscovery.inferredEndpoint method url .agentInference entityId)
  | .correlate _ | .correlateRequest .. => none

/-- The endpoint that a call is about. -/
def Call.key : Call U → Option (Text × Text)
  | .observe request _ => some (ApiDiscovery.key request.method request.url)
  | .inferForm method url _ | .inferRuntime method url _ | .inferApplication method url _ =>
      some (ApiDiscovery.key method url)
  | .correlate _ | .correlateRequest .. => none

/-- What a call does to the record of its endpoint. -/
def Call.touch : Call U → ApiEndpoint U → ApiEndpoint U
  | .observe _ response, endpoint =>
      ApiDiscovery.noteBody
        { endpoint with statusCodes := insert response.status endpoint.statusCodes } response.body
  | _, endpoint => endpoint

/-- A call touches the endpoint of its key, and no other. -/
theorem get_apply (discovery : ApiDiscovery U) (call : Call U) (k : Text × Text) :
    (discovery.apply call).endpoints[k]? =
      if call.key = some k then
        call.fresh.map fun fresh => call.touch (discovery.endpoints[k]?.getD fresh)
      else discovery.endpoints[k]? := by
  cases call with
  | correlate | correlateRequest => rfl
  | observe request response =>
      simp only [ApiDiscovery.apply, ApiDiscovery.observe, OrdMap.get_insert, Call.key,
        Option.some.injEq]
      split_ifs with hk
      · rw [← hk]
        rfl
      · rfl
  | inferForm method url id | inferRuntime method url id | inferApplication method url id =>
      simp only [ApiDiscovery.apply, ApiDiscovery.inferFormEndpoint,
        ApiDiscovery.inferRuntimeEndpoint, ApiDiscovery.inferApplicationEndpoint,
        ApiDiscovery.inferEndpoint, OrdMap.get_insert, Call.key, Option.some.injEq]
      split_ifs with hk
      · rw [← hk]
        rfl
      · rfl

/-- The response that a call observes of an endpoint. -/
def Call.response (k : Text × Text) : Call U → Option NetworkResponse
  | .observe request response =>
      if ApiDiscovery.key request.method request.url = k then some response else none
  | _ => none

/-- The responses of an endpoint that were observed. -/
def responses (k : Text × Text) (history : List (Call U)) : List NetworkResponse :=
  history.filterMap (Call.response k)

/-- The record is that of an endpoint with these observed responses. -/
structure ReportsObserved (endpoint : ApiEndpoint U) (responses : List NetworkResponse) : Prop where
  origin : endpoint.origin = .observed
  provenance : ∃ source ∈ endpoint.provenance, source.kind = .networkResponse ∧
    ∃ response ∈ responses, source.reference = hyphenated response.requestId
  statusCodes : endpoint.statusCodes = (responses.map NetworkResponse.status).toFinset

/-- The first call on an endpoint is the observation of a response. -/
def ObservedFirst (k : Text × Text) (history : List (Call U)) : Prop :=
  ∃ request response, (history.find? fun call => call.key = some k) =
    some (.observe request response)

omit [JsonBody] in
theorem exists_fresh {call : Call U} {k : Text × Text} (hk : call.key = some k) :
    ∃ fresh, call.fresh = some fresh ∧ fresh.statusCodes = ∅ := by
  cases call with
  | correlate | correlateRequest => cases hk
  | observe | inferForm | inferRuntime | inferApplication => exact ⟨_, rfl, rfl⟩

omit [Url U] in
theorem source_touch (call : Call U) (endpoint : ApiEndpoint U) :
    (call.touch endpoint).source = endpoint.source := by
  cases call with
  | observe request response => exact source_note_body _ _
  | _ => rfl

/-- The first call on an endpoint settles its origin and its provenance. -/
theorem source_run (discovery : ApiDiscovery U) (history : List (Call U)) (k : Text × Text) :
    (discovery.run history).endpoints[k]?.map ApiEndpoint.source =
      (discovery.endpoints[k]?.map ApiEndpoint.source).or
        ((history.find? fun call => call.key = some k).bind fun call =>
          call.fresh.map ApiEndpoint.source) := by
  induction history generalizing discovery with
  | nil => simp [ApiDiscovery.run]
  | cons call history ih =>
      rw [ApiDiscovery.run, List.foldl_cons]
      show ((discovery.apply call).run history).endpoints[k]?.map ApiEndpoint.source = _
      rw [ih, get_apply]
      by_cases hk : call.key = some k
      · rw [if_pos hk, List.find?_cons_of_pos (by simpa using hk)]
        obtain ⟨fresh, hfresh, -⟩ := exists_fresh hk
        rw [hfresh, Option.map_some, Option.map_some, source_touch]
        cases discovery.endpoints[k]? <;> simp [hfresh]
      · rw [if_neg hk, List.find?_cons_of_neg (by simpa using hk)]

/-- The call adds the status of its response, if it has one. -/
theorem status_codes_touch {call : Call U} {k : Text × Text} (hk : call.key = some k)
    (endpoint : ApiEndpoint U) :
    (call.touch endpoint).statusCodes =
      endpoint.statusCodes ∪ ((call.response k).toList.map NetworkResponse.status).toFinset := by
  cases call with
  | correlate | correlateRequest => cases hk
  | inferForm | inferRuntime | inferApplication => exact (Finset.union_empty _).symm
  | observe request response =>
      have hself : ApiDiscovery.key request.method request.url = k := Option.some.inj hk
      rw [Call.response, if_pos hself, Call.touch, status_codes_note_body]
      simp

omit [JsonBody] in
theorem response_eq_none {call : Call U} {k : Text × Text} (hk : call.key ≠ some k) :
    call.response k = none := by
  cases call with
  | observe request response => exact if_neg fun h => hk (congrArg some h)
  | _ => rfl

/-- The status codes are those of the observed responses, in every history. -/
theorem status_codes_run (discovery : ApiDiscovery U) (history : List (Call U)) (k : Text × Text) :
    (discovery.run history).endpoints[k]?.elim ∅ ApiEndpoint.statusCodes =
      discovery.endpoints[k]?.elim ∅ ApiEndpoint.statusCodes ∪
        ((responses k history).map NetworkResponse.status).toFinset := by
  induction history generalizing discovery with
  | nil => exact (Finset.union_empty _).symm
  | cons call history ih =>
      show ((discovery.apply call).run history).endpoints[k]?.elim ∅ ApiEndpoint.statusCodes = _
      rw [ih, get_apply]
      by_cases hk : call.key = some k
      · obtain ⟨fresh, hfresh, hempty⟩ := exists_fresh hk
        rw [if_pos hk, hfresh, Option.map_some, Option.elim_some, status_codes_touch hk]
        have hcons : responses k (call :: history) =
            (call.response k).toList ++ responses k history := by
          rw [responses, List.filterMap_cons]
          cases call.response k <;> rfl
        have hold : (discovery.endpoints[k]?.getD fresh).statusCodes =
            discovery.endpoints[k]?.elim ∅ ApiEndpoint.statusCodes := by
          cases discovery.endpoints[k]? with
          | none => exact hempty
          | some _ => rfl
        rw [hold, hcons, List.map_append, List.toFinset_append, Finset.union_assoc]
      · rw [if_neg hk, responses, responses, List.filterMap_cons_none (response_eq_none hk)]

omit [JsonBody] in
theorem mem_responses {k : Text × Text} {history : List (Call U)} {request : NetworkRequest U}
    {response : NetworkResponse} (h : (history.find? fun call => call.key = some k) =
      some (.observe request response)) : response ∈ responses k history := by
  have hkey : ApiDiscovery.key request.method request.url = k := by
    simpa [Call.key] using List.find?_some h
  refine List.mem_filterMap.mpr ⟨_, List.mem_of_find?_eq_some h, ?_⟩
  rw [Call.response, if_pos hkey]

/-- An endpoint with an observed response is reported as such exactly if the first call on it was
an observation. -/
theorem observed_iff (history : List (Call U)) (method : Text) (url : U) :
    (∃ endpoint, ((default : ApiDiscovery U).run history).endpoint method url = some endpoint ∧
        ReportsObserved endpoint (responses (ApiDiscovery.key method url) history)) ↔
      ObservedFirst (ApiDiscovery.key method url) history := by
  have hsource := source_run (default : ApiDiscovery U) history (ApiDiscovery.key method url)
  have hcodes := status_codes_run (default : ApiDiscovery U) history (ApiDiscovery.key method url)
  have hempty : (default : ApiDiscovery U).endpoints[ApiDiscovery.key method url]? = none :=
    Std.ExtTreeMap.getElem?_empty
  rw [hempty] at hsource hcodes
  rw [ApiDiscovery.endpoint]
  generalize ApiDiscovery.key method url = k at *
  constructor
  · intro ⟨endpoint, hendpoint, hreports⟩
    have horigin := hreports.origin
    rw [hendpoint] at hsource
    cases hfind : history.find? fun call => call.key = some k with
    | none =>
        rw [hfind] at hsource
        cases hsource
    | some call =>
        rw [hfind] at hsource
        have hinferred {endpoint' : ApiEndpoint U} (hfresh : call.fresh = some endpoint') :
            endpoint'.origin = .observed := by
          simp only [hfresh, Option.map_some, Option.map_none, Option.none_or, Option.bind_some,
            Option.some.injEq] at hsource
          exact (congrArg Prod.fst hsource).symm.trans horigin
        cases call with
        | observe request response => exact ⟨request, response, hfind⟩
        | inferForm | inferRuntime | inferApplication => cases hinferred rfl
        | correlate | correlateRequest => cases hsource
  · intro ⟨request, response, hfind⟩
    rw [hfind] at hsource
    obtain ⟨endpoint, hendpoint, hfirst⟩ := Option.map_eq_some_iff.mp hsource
    rw [hendpoint] at hcodes
    refine ⟨endpoint, hendpoint, congrArg Prod.fst hfirst, ?_, ?_⟩
    · have hprovenance := congrArg Prod.snd hfirst
      rw [show endpoint.provenance = _ from hprovenance]
      exact ⟨_, List.mem_singleton_self _, rfl, response, mem_responses hfind, rfl⟩
    · exact hcodes.trans (Finset.empty_union _)

end Histories

/-! ## A form before its response -/

/-- Where the orders of the example go. -/
def ordersUrl : PlainUrl := ⟨"https", "example.test", "/api/orders"⟩

/-- A request to that URL. -/
def postOrders : NetworkRequest PlainUrl := ⟨1, 0, [], ordersUrl, "POST", ∅, none, none⟩

/-- No body can be read, as an empty one cannot. -/
@[reducible] def JsonBody.unread : JsonBody := ⟨fun _ => none⟩

/-- The form was seen first, so the endpoint stays inferred when its response is observed. -/
theorem form_hides_observation :
    let _ := JsonBody.unread
    ¬ ∃ endpoint, ((default : ApiDiscovery PlainUrl).run
        [.inferForm "POST" ordersUrl "form:order", .observe postOrders ⟨1, 201, ∅, []⟩]).endpoint
          "POST" ordersUrl = some endpoint ∧
      ReportsObserved endpoint [⟨1, 201, ∅, []⟩] := by
  let _ := JsonBody.unread
  intro _ ⟨endpoint, hendpoint, hreports⟩
  have hsource := source_run (default : ApiDiscovery PlainUrl)
    [.inferForm "POST" ordersUrl "form:order", .observe postOrders ⟨1, 201, ∅, []⟩]
    (ApiDiscovery.key "POST" ordersUrl)
  have hempty : (default : ApiDiscovery PlainUrl).endpoints[ApiDiscovery.key "POST" ordersUrl]? =
      none := Std.ExtTreeMap.getElem?_empty
  rw [ApiDiscovery.endpoint] at hendpoint
  rw [hendpoint, hempty, List.find?_cons_of_pos (by decide)] at hsource
  have horigin : endpoint.origin = .inferred := congrArg Prod.fst (Option.some.inj hsource)
  cases horigin.symm.trans hreports.origin

end BrowsAI.Apis
