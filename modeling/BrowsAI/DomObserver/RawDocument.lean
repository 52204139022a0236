import BrowsAI.AgentTree.Basic
import BrowsAI.Library.OrdMap
import Std.Data.ExtTreeSet

/-!
# Observed documents

`RawDocument` of `crates/dom-observer`: the nodes that a browser engine reported, keyed by their
engine ids, with parent and child links that come from the caller. `apply` returns its result
together with the document it leaves behind.

`collect_descendants` follows child links without looking where they lead, so on a cyclic document
it does not return. Here it takes a bound on the depth of its calls and fails at the bound, and a
call of `apply` has an outcome when some bound suffices.
-/

namespace BrowsAI.DomObserver

open Utf8 AgentTree Std

/-- The engine's number of a node. -/
abbrev EngineNodeId := UInt64

/-- How far a document is loaded. -/
inductive DocumentLifecycle where
  | initial | loading | interactive | complete | destroyed
  deriving DecidableEq

/-- What a node of the document is. -/
inductive NodeKind where
  | document | element | text | comment | shadowRoot | frame
  deriving DecidableEq

/-- A node as the engine has it. -/
structure RawNode where
  id : EngineNodeId
  kind : NodeKind
  name : Option Text
  attributes : OrdMap Text Text
  text : Option Text
  parent : Option EngineNodeId
  children : List EngineNodeId
  eventListeners : ExtTreeSet Text compare
  provenance : List ProvenanceSource

namespace RawNode

/-- `RawNode::document`. -/
def document (id : EngineNodeId) : RawNode :=
  { id, kind := .document, name := none, attributes := ∅, text := none, parent := none,
    children := [], eventListeners := ∅, provenance := [] }

/-- `RawNode::element`. -/
def element (id : EngineNodeId) (name : Text) (parent : Option EngineNodeId) : RawNode :=
  { id, kind := .element, name := some name, attributes := ∅, text := none, parent,
    children := [], eventListeners := ∅, provenance := [] }

end RawNode

/-- A change of the document. -/
inductive DomMutation where
  | insert (node : RawNode)
  | remove (node : EngineNodeId)
  | setAttribute (node : EngineNodeId) (name value : Text)
  | removeAttribute (node : EngineNodeId) (name : Text)
  | setText (node : EngineNodeId) (value : Text)
  | addEventListener (node : EngineNodeId) (event : Text)
  | removeEventListener (node : EngineNodeId) (event : Text)

/-- The nodes of a document by id. -/
structure RawDocument where
  url : Text
  generation : UInt64
  lifecycle : DocumentLifecycle
  root : Option EngineNodeId
  nodes : OrdMap EngineNodeId RawNode

/-- Why a change or a reference is refused. -/
inductive DomObserverError where
  | missingNode (id : EngineNodeId)
  | duplicateNode (id : EngineNodeId)
  | missingParent (id : EngineNodeId)
  | rootAlreadySet
  | staleReference
  | documentDestroyed
  deriving DecidableEq

/-- `Result<(), DomObserverError>` and the document after the call. -/
abbrev Outcome := Except DomObserverError Unit × RawDocument

namespace RawDocument

/-- `RawDocument::new`. -/
def new (url : Text) : RawDocument := ⟨url, 0, .initial, none, ∅⟩

/-- The node with an id. -/
def node (doc : RawDocument) (id : EngineNodeId) : Option RawNode := doc.nodes[id]?

/-- The end of every successful mutation. -/
def bumpGeneration (doc : RawDocument) : RawDocument :=
  { doc with generation := doc.generation + 1 }

/-- `collect_descendants` with at most `depth` nested calls. -/
def collectDescendants (doc : RawDocument) :
    Nat → EngineNodeId → List EngineNodeId → Option (List EngineNodeId)
  | 0, _, _ => none
  | depth + 1, id, descendants =>
      match doc.node id with
      | none => some descendants
      | some node =>
          node.children.foldlM (fun descendants child => do
            let descendants ← doc.collectDescendants depth child descendants
            pure (descendants ++ [child])) descendants

/-- The branch of `apply` for `DomMutation::Insert`. -/
def insert (doc : RawDocument) (node : RawNode) : Outcome :=
  if doc.nodes.contains node.id then (.error (.duplicateNode node.id), doc)
  else
    match node.parent with
    | some parent =>
        if !doc.nodes.contains parent then (.error (.missingParent parent), doc)
        else
          let nodes := doc.nodes.modify parent fun parentNode =>
            { parentNode with children := parentNode.children ++ [node.id] }
          (.ok (), { doc with nodes := nodes.insert node.id node }.bumpGeneration)
    | none =>
        if doc.root.isSome then (.error .rootAlreadySet, doc)
        else
          (.ok (), { doc with
            root := some node.id
            nodes := doc.nodes.insert node.id node }.bumpGeneration)

/-- The branch of `apply` for `DomMutation::Remove`. -/
def remove (doc : RawDocument) (depth : Nat) (node : EngineNodeId) : Option Outcome :=
  match doc.node node with
  | none => some (.error (.missingNode node), doc)
  | some removed => do
      let removedIds ← doc.collectDescendants depth node []
      let removedIds := removedIds ++ [node]
      let nodes := removedIds.foldl ExtTreeMap.erase doc.nodes
      let nodes := match removed.parent with
        | some parent => nodes.modify parent fun parentNode =>
            { parentNode with children := parentNode.children.filter (· ≠ node) }
        | none => nodes
      let root := if doc.root = some node then none else doc.root
      pure (.ok (), { doc with nodes, root }.bumpGeneration)

/-- The branches of `apply` that change one node in place. -/
def update (doc : RawDocument) (node : EngineNodeId) (change : RawNode → RawNode) : Outcome :=
  if doc.nodes.contains node then
    (.ok (), { doc with nodes := doc.nodes.modify node change }.bumpGeneration)
  else (.error (.missingNode node), doc)

/-- `apply`, where `collect_descendants` may nest `depth` calls. -/
def apply (doc : RawDocument) (depth : Nat) (mutation : DomMutation) : Option Outcome :=
  if doc.lifecycle = .destroyed then some (.error .documentDestroyed, doc)
  else
    match mutation with
    | .insert node => some (doc.insert node)
    | .remove node => doc.remove depth node
    | .setAttribute node name value =>
        some (doc.update node fun n => { n with attributes := n.attributes.insert name value })
    | .removeAttribute node name =>
        some (doc.update node fun n => { n with attributes := n.attributes.erase name })
    | .setText node value => some (doc.update node fun n => { n with text := some value })
    | .addEventListener node event =>
        some (doc.update node fun n =>
          { n with eventListeners := n.eventListeners.insert event })
    | .removeEventListener node event =>
        some (doc.update node fun n => { n with eventListeners := n.eventListeners.erase event })

/-- Sets how far the document is loaded. -/
def advanceLifecycle (doc : RawDocument) (lifecycle : DocumentLifecycle) : RawDocument :=
  { doc with lifecycle }.bumpGeneration

/-- The document without nodes, at its new address. -/
def beginNavigation (doc : RawDocument) (url : Text) : RawDocument :=
  { doc with url, root := none, nodes := ∅, lifecycle := .loading }.bumpGeneration

end RawDocument

/-! ## Histories -/

/-- A call that may change a document. -/
inductive Call where
  | apply (mutation : DomMutation)
  | advanceLifecycle (lifecycle : DocumentLifecycle)
  | beginNavigation (url : Text)

/-- The call returns `outcome` on `doc`. -/
inductive Returns (doc : RawDocument) : Call → Outcome → Prop where
  | apply (depth : Nat) {mutation : DomMutation} {outcome : Outcome}
      (happly : doc.apply depth mutation = some outcome) : Returns doc (.apply mutation) outcome
  | advanceLifecycle (lifecycle : DocumentLifecycle) :
      Returns doc (.advanceLifecycle lifecycle) (.ok (), doc.advanceLifecycle lifecycle)
  | beginNavigation (url : Text) :
      Returns doc (.beginNavigation url) (.ok (), doc.beginNavigation url)

/-- `Runs url allowed doc`: calls that are all `allowed` lead from the new document to `doc`. -/
inductive Runs (url : Text) (allowed : Call → Prop) : RawDocument → Prop where
  | new : Runs url allowed (.new url)
  | call {doc : RawDocument} {outcome : Outcome} (hrun : Runs url allowed doc) (call : Call)
      (hallowed : allowed call) (hreturns : Returns doc call outcome) :
      Runs url allowed outcome.2

end BrowsAI.DomObserver
