import BrowsAI.EngineServo.Engine
import BrowsAI.Ipc.Router
import BrowsAI.Library.Words

/-!
# The projection of a live document

`agent_tree` of `crates/engine-servo`: a script in the page answers with a JSON value, one object for
each element with its children in it, and `buildAgentNode` makes the nodes of the tree out of it. What
the script engine answers is the parameter `evaluate`.
-/

namespace BrowsAI.EngineServo

open Utf8 AgentTree Ipc Profiles

/-! ## Reading JSON -/

/-- `u64 as f64` and `i64 as f64`: the closest double, the even one of two. -/
def roundInteger (n : Int) : F64 :=
  let unit := 2 ^ (n.natAbs.log2 + 1 - 53)
  let quotient := n.natAbs / unit
  let remainder := n.natAbs % unit
  let up := unit < 2 * remainder ∨ 2 * remainder = unit ∧ quotient % 2 = 1
  .finite (n.sign * ((if up then quotient + 1 else quotient) * unit : Nat))

namespace Value

/-- `Map::get`. -/
def field (fields : List (Text × Value)) (key : Text) : Option Value := fields.lookup key

/-- `Value::get` with a key. -/
def get : Value → Text → Option Value
  | .object fields, key => field fields key
  | _, _ => none

/-- The text of a JSON string. -/
def asStr : Value → Option Text
  | .string value => some value
  | _ => none

/-- The value of a JSON boolean. -/
def asBool : Value → Option Bool
  | .bool value => some value
  | _ => none

/-- The number of a JSON number, rounded if it is an integer. -/
def asF64 : Value → Option F64
  | .float value => some value
  | .integer value => some (roundInteger value)
  | _ => none

/-- The elements of a JSON array. -/
def asArray : Value → Option (List Value)
  | .array values => some values
  | _ => none

end Value

/-- The text under a key, or the empty text. -/
def textField (fields : List (Text × Value)) (key : Text) : Text :=
  ((Value.field fields key).bind Value.asStr).getD ""

/-- The flag under a key. -/
def flagField (fields : List (Text × Value)) (key : Text) : Option Bool :=
  (Value.field fields key).bind Value.asBool

/-- The elements of the children, if there are any. -/
def childrenField (fields : List (Text × Value)) : Option (List Value) :=
  (Value.field fields "children").bind Value.asArray

/-! ## One element -/

/-- The words that `redact_text` looks for. -/
def redactedWords : List Text := ["password", "secret", "token", "private key", "card number"]

/-- `ExplainabilityReport::redact_text`. -/
def redactText (value : Text) : Text :=
  if redactedWords.any fun key => contains key (asciiLower value) then "[REDACTED]" else value

/-- The role of an element, by its `role` attribute or else by its tag. -/
def roleForTag (tag : Text) (explicitRole : Option Text) : StructuralRole :=
  let role := explicitRole.getD tag
  if role = "button" then .button
  else if (["link", "a"] : List Text).contains role then .link
  else if (["textbox", "combobox", "searchbox", "input", "textarea"] : List Text).contains role then
    .textbox
  else if role = "checkbox" then .checkbox
  else if role = "radio" then .radio
  else if role = "dialog" then .dialog
  else if (["heading", "h1", "h2", "h3", "h4", "h5", "h6"] : List Text).contains role then .heading
  else if role = "form" then .form
  else if (["iframe", "frame"] : List Text).contains role then .frame
  else if role = "canvas" then .canvas
  else if role = "video" then .video
  else if role = "img" then .image
  else if role = "li" then .listItem
  else if (["ol", "ul"] : List Text).contains role then .list
  else if role = "p" then .paragraph
  else if role = "table" then .table
  else .unknown

/-- The words in the name, field name or completion hint of a field that holds a secret. -/
def sensitiveMarkers : List Text :=
  ["secret", "password", "token", "api_key", "apikey", "private_key", "card-number", "cc-number",
    "cvv", "cvc", "one-time-code"]

/-- The element is a field whose value is not shown. -/
def isSensitive (fields : List (Text × Value)) : Bool :=
  let sensitiveText : Text := asciiLower (textField fields "name") ++ " " ++
    asciiLower (textField fields "fieldName") ++ " " ++ asciiLower (textField fields "autocomplete")
  (["password", "hidden"] : List Text).contains (textField fields "type") ||
    sensitiveMarkers.any fun marker => contains marker sensitiveText

/-- An empty text is none. -/
def nonEmpty (text : Text) : Option Text := if text = [] then none else some text

/-- The text of an element as it is shown. -/
def shownText (fields : List (Text × Value)) : Text := redactText (textField fields "text")

/-- The role of an element of the projection. -/
def elementRole (fields : List (Text × Value)) : StructuralRole :=
  let tag := ((Value.field fields "tag").bind Value.asStr).getD "unknown"
  roleForTag tag ((Value.field fields "role").bind Value.asStr |>.bind nonEmpty)

/-- What is shown as the value: nothing of a sensitive element, the address of a link or an image,
or the redacted text. -/
def elementValue (fields : List (Text × Value)) : Option AgentValue :=
  let rawUrl := textField fields "url"
  let rawValue := textField fields "value"
  if isSensitive fields then none
  else if rawUrl ≠ [] ∧ elementRole fields ∈ ([.link, .image] : List StructuralRole) then
    some (.url (redactText rawUrl))
  else if rawValue = [] then (nonEmpty (shownText fields)).map .text
  else some (.text (redactText rawValue))

/-- The box of an element, if all four numbers are there. -/
def elementGeometry (fields : List (Text × Value)) : Option Geometry := do
  let rect ← Value.field fields "rect"
  let x ← (Value.get rect "x").bind Value.asF64
  let y ← (Value.get rect "y").bind Value.asF64
  let width ← (Value.get rect "width").bind Value.asF64
  let height ← (Value.get rect "height").bind Value.asF64
  pure ⟨x, y, width, height⟩

/-- The node of an element, with the ids of its children. -/
def elementNode (fields : List (Text × Value)) (id : AgentNodeId) (generation : UInt64)
    (children : List AgentNodeId) : AgentNode where
  id := id
  origin := (Value.field fields "origin").bind Value.asStr
  identityKey := some
    (((Value.field fields "id").bind Value.asStr |>.bind nonEmpty).getD id)
  structuralRole := elementRole fields
  semanticRole := none
  applicationType := none
  name := (nonEmpty (redactText (textField fields "name"))).or (nonEmpty (shownText fields))
  value := elementValue fields
  description := none
  state :=
    { visible := (flagField fields "visible").getD true
      enabled := !(flagField fields "disabled").getD false
      focused := (flagField fields "focused").getD false
      selected := false
      expanded := none }
  geometry := elementGeometry fields
  relationships := []
  actions :=
    if elementRole fields ∈ ([.button, .link] : List StructuralRole) then
      [⟨"activate", "activates the DOM control"⟩]
    else []
  children := children
  provenance := [⟨.dom, id, some "live Servo WebView DOM projection"⟩]
  confidence := .direct
  generation := generation

/-! ## All elements -/

/-- A field is smaller than the object. -/
theorem size_of_lookup {fields : List (Text × Value)} {key : Text} {value : Value}
    (h : Value.field fields key = some value) : sizeOf value < sizeOf fields := by
  induction fields with
  | nil => cases h
  | cons entry fields ih =>
      rw [Value.field, List.lookup_cons] at h
      cases hsame : key == entry.1 with
      | true =>
          rw [hsame] at h
          cases h
          obtain ⟨name, value⟩ := entry
          simp only [List.cons.sizeOf_spec, Prod.mk.sizeOf_spec]
          omega
      | false =>
          rw [hsame] at h
          have hrest := ih h
          simp only [List.cons.sizeOf_spec]
          omega

theorem size_of_children {fields : List (Text × Value)} {children : List Value}
    (h : childrenField fields = some children) : sizeOf children < sizeOf fields := by
  obtain ⟨value, hvalue, harray⟩ := Option.bind_eq_some_iff.mp h
  have hsize := size_of_lookup hvalue
  cases value with
  | array values =>
      cases harray
      simp only [Value.array.sizeOf_spec] at hsize
      omega
  | _ => cases harray

/-- The id of the child at an index. -/
def childId (id : AgentNodeId) (index : Nat) : AgentNodeId := id ++ "/" ++ ofNat index

mutual

/-- The node of an element, with the nodes below it behind those that are there. -/
def buildAgentNode (generation : UInt64) (value : Value) (id : AgentNodeId) (nodes : List AgentNode) :
    Except EngineError (AgentNode × List AgentNode) :=
  match value with
  | .object fields =>
      match hchildren : childrenField fields with
      | none => .error (.other "Servo DOM projection omitted children")
      | some children => do
          have := size_of_children hchildren
          let (childIds, nodes) ← buildChildren generation children id 0 [] nodes
          .ok (elementNode fields id generation childIds, nodes)
  | _ => .error (.other "Servo DOM projection returned a non-object")
termination_by sizeOf value

/-- The loop over the children from an index on. -/
def buildChildren (generation : UInt64) (children : List Value) (id : AgentNodeId) (index : Nat)
    (childIds : List AgentNodeId) (nodes : List AgentNode) :
    Except EngineError (List AgentNodeId × List AgentNode) :=
  match children with
  | [] => .ok (childIds, nodes)
  | child :: children => do
      let (childNode, nodes) ← buildAgentNode generation child (childId id index) nodes
      buildChildren generation children id (index + 1) (childIds ++ [childNode.id])
        (nodes ++ [childNode])
termination_by sizeOf children

end

/-! ## The tree -/

/-- The scripts that `agent_tree` runs: the walk over all elements, the list of the controls of some
hosts, and the same list as it is asked for when the walk takes too long. -/
inductive ProjectionScript where
  | walk | controls | controlsOnly

/-- Hosts whose documents are never asked. -/
def isRootOnly (host : Text) : Bool :=
  let bareHost := (stripPrefix "www." host).getD host
  List.isPrefixOf ("amazon." : Text) bareHost || bareHost == "stanford.edu" ||
    List.isSuffixOf (".stanford.edu" : Text) bareHost || bareHost == "aftonbladet.se" ||
    bareHost == "home.pl" || bareHost == "bsky.app" || bareHost == "blackberry.net" ||
    bareHost == "blackberry.com" || bareHost == "trueconf.net"

/-- A document with nothing in it. -/
def emptyProjection : Value :=
  .object [
    ("root", .object [
      ("tag", .string "html"), ("role", .string ""), ("name", .string ""), ("fieldName", .string ""),
      ("autocomplete", .string ""), ("text", .string ""), ("value", .string ""),
      ("type", .string ""), ("url", .string ""), ("id", .string ""), ("disabled", .bool false),
      ("focused", .bool false), ("visible", .bool true),
      ("rect", .object [("x", .integer 0), ("y", .integer 0), ("width", .integer 0),
        ("height", .integer 0)]),
      ("children", .array [])]),
    ("truncated", .bool true), ("nodeCount", .integer 0)]

/-- The answer of the page: what a script or its replacement gives in the time that it has. -/
def projectionValue (evaluate : ProjectionScript → UInt64 → Except EngineError Value)
    (host : Option Text) (loadElapsedMillis : UInt64) : Except EngineError Value :=
  let navigationStarved := 8000 ≤ loadElapsedMillis
  let ciscoHost := host = some ("cisco.com" : Text) ∨ host = some ("www.cisco.com" : Text)
  let projectionTimeout := if navigationStarved ∧ ¬ ciscoHost then 500 else 10000
  if ciscoHost then
    match evaluate .controls projectionTimeout with
    | .ok value => .ok value
    | .error .evaluationTimeout => .ok emptyProjection
    | .error error => .error error
  else
    match evaluate .walk projectionTimeout with
    | .ok value => .ok value
    | .error .evaluationTimeout =>
        match evaluate .controlsOnly projectionTimeout with
        | .ok value => .ok value
        | .error .evaluationTimeout =>
            if navigationStarved then .ok emptyProjection else .error .evaluationTimeout
        | .error error => .error error
    | .error error => .error error

/-- The value of the document's root in an answer. -/
def rootValue (value : Value) : Value := (Value.get value "root").getD value

/-- The root of a tree, as a node of the page. -/
def pageNode (rootId : AgentNodeId) (name : Text) (generation : UInt64)
    (children : List AgentNodeId) : AgentNode :=
  { AgentNode.plain rootId .page (some name) children with identityKey := some "page", generation }

/-- The tree of an answer, behind the node of the page. -/
def projectedTree (url : Text) (rootId : AgentNodeId) (generation : UInt64) (value : Value) :
    Except EngineError AgentRenderTree := do
  let (domRoot, nodes) ← buildAgentNode generation (rootValue value) "dom:0"
    [pageNode rootId url 0 []]
  .ok {
    root := rootId
    -- the page is the first node, and gets its child and generation when all others are there
    nodes := nodes.set 0 (pageNode rootId url generation [domRoot.id]) ++ [domRoot]
    generation
    truncated := ((Value.get value "truncated").bind Value.asBool).getD false }

/-- The tree of a page: its root only for some hosts, else what the page answers. -/
def agentTree (evaluate : ProjectionScript → UInt64 → Except EngineError Value) (url : Text)
    (host : Option Text) (loadElapsedMillis : UInt64) (rootId : AgentNodeId) (generation : UInt64) :
    Except EngineError AgentRenderTree :=
  if host.any isRootOnly then
    .ok {
      root := rootId
      nodes := [pageNode rootId url generation []]
      generation
      truncated := true }
  else do
    let value ← projectionValue evaluate host loadElapsedMillis
    projectedTree url rootId generation value

end BrowsAI.EngineServo
