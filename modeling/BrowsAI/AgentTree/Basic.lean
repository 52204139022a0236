import BrowsAI.Library.Utf8
import Mathlib.Data.Rat.Floor
import Mathlib.Data.Set.Finite.Basic
import Mathlib.Logic.Relation

/-!
# The agent render tree

Nodes, roles, and values of `crates/agent-tree`, and the lookup that every consumer uses. A tree
is a list of nodes that name their children by id, so the links may dangle, repeat, or form a
cycle; `Acyclic` is the hypothesis under which a recursive walk of the links ends.

An `f64` is one of its special values or an exact rational. Its decimal rendering is the
`F64Display` parameter; nothing is assumed about it.
-/

namespace BrowsAI.AgentTree

open Utf8

/-- A double: the special values, or the exact rational it denotes. -/
inductive F64 where
  | nan
  | infinity (negative : Bool)
  | negativeZero
  | finite (value : ℚ)
  deriving DecidableEq

/-- `f64::to_string`. -/
class F64Display where
  display : F64 → Text

/-- The rendering of the special values and of whole numbers. -/
@[reducible] def F64Display.ofWhole : F64Display where
  display
    | .nan => "NaN"
    | .infinity negative => if negative then "-inf" else "inf"
    | .negativeZero => "-0"
    | .finite q => if q < 0 then "-" ++ ofNat q.num.natAbs else ofNat q.num.natAbs

/-- The id of a node of the agent's tree, a text. -/
abbrev AgentNodeId := Text

/-- What a node is on the page. -/
inductive StructuralRole where
  | page | region | heading | paragraph | text | button | link | textbox | checkbox | radio
  | select | list | listItem | table | row | cell | dialog | menu | tab | image | canvas | video
  | form | frame | shadowRoot | unknown
  deriving DecidableEq

/-- What a node is for. -/
inductive SemanticRole where
  | searchField | submitAction | loginAction | logoutAction | pagination | primaryNavigation
  | accountMenu | confirmationDialog | filePicker | paymentForm | datePicker | searchResults
  | challenge | profileInconsistency
  deriving DecidableEq

/-- What a node is about. -/
inductive ApplicationType where
  | customer | invoice | order | message | conversation | payment | property | lead | document
  | project | task | account | user | product | reservation
  deriving DecidableEq

/-- The value of a node. -/
inductive AgentValue where
  | text (s : Text)
  | number (n : F64)
  | boolean (b : Bool)
  | url (s : Text)
  | secretReference (s : Text)
  deriving DecidableEq

/-- The flags of a node. -/
structure NodeState where
  visible : Bool
  enabled : Bool
  focused : Bool
  selected : Bool
  expanded : Option Bool
  deriving DecidableEq

/-- `NodeState::default()`. -/
instance : Inhabited NodeState := ⟨⟨false, false, false, false, none⟩⟩

/-- The box of a node. -/
structure Geometry where
  x : F64
  y : F64
  width : F64
  height : F64
  deriving DecidableEq

/-- A link from a node to another one. -/
structure Relationship where
  kind : Text
  target : AgentNodeId
  deriving DecidableEq

/-- An action that a node offers. -/
structure ActionDescriptor where
  name : Text
  consequence : Text
  deriving DecidableEq

/-- Where a fact can come from. -/
inductive SourceKind where
  | dom | accessibility | layout | computedStyle | text | eventHandler | javaScript
  | networkRequest | networkResponse | storage | url | visualInference | agentInference
  deriving DecidableEq

/-- Where a fact about a node comes from. -/
structure ProvenanceSource where
  kind : SourceKind
  reference : Text
  detail : Option Text
  deriving DecidableEq

/-- A confidence between zero and one, held as a float in the source. -/
structure Confidence where
  value : F64
  deriving DecidableEq

/-- `Confidence::DIRECT`. -/
def Confidence.direct : Confidence := ⟨.finite 1⟩

/-- `Confidence::STRONG`, the `f32` closest to 0.9. -/
def Confidence.strong : Confidence := ⟨.finite (7549747 / 8388608)⟩

/-- `Confidence::PROBABLE`. -/
def Confidence.probable : Confidence := ⟨.finite (3 / 4)⟩

/-- A node of the tree that the agent sees. -/
structure AgentNode where
  id : AgentNodeId
  origin : Option Text
  /-- Stable conceptual identity, independent of a transient engine or DOM id. -/
  identityKey : Option Text
  structuralRole : StructuralRole
  semanticRole : Option SemanticRole
  applicationType : Option ApplicationType
  name : Option Text
  value : Option AgentValue
  description : Option Text
  state : NodeState
  geometry : Option Geometry
  relationships : List Relationship
  actions : List ActionDescriptor
  children : List AgentNodeId
  provenance : List ProvenanceSource
  confidence : Confidence
  generation : UInt64
  deriving DecidableEq

/-- A visible and enabled node with a role, a name, and children, and nothing else. -/
def AgentNode.plain (id : AgentNodeId) (role : StructuralRole) (name : Option Text)
    (children : List AgentNodeId) : AgentNode where
  id := id
  origin := none
  identityKey := none
  structuralRole := role
  semanticRole := none
  applicationType := none
  name := name
  value := none
  description := none
  state := ⟨true, true, false, false, none⟩
  geometry := none
  relationships := []
  actions := []
  children := children
  provenance := []
  confidence := .direct
  generation := 0

/-- The tree that the agent sees, as a list of nodes with the id of its root. -/
structure AgentRenderTree where
  root : AgentNodeId
  nodes : List AgentNode
  generation : UInt64
  truncated : Bool
  deriving DecidableEq

namespace AgentRenderTree

variable (tree : AgentRenderTree)

/-- The first node with this id. -/
def find (id : AgentNodeId) : Option AgentNode :=
  tree.nodes.find? fun node => node.id == id

variable {tree} in
theorem find_eq_some {id : AgentNodeId} {node : AgentNode} (h : tree.find id = some node) :
    node ∈ tree.nodes ∧ node.id = id :=
  ⟨List.mem_of_find?_eq_some h, by simpa using List.find?_some h⟩

/-- `Links a b`: the node found under `a` lists `b` as a child. -/
def Links (a b : AgentNodeId) : Prop :=
  ∃ node, tree.find a = some node ∧ b ∈ node.children

/-- No node is its own descendant. -/
def Acyclic : Prop :=
  ∀ a, ¬ Relation.TransGen tree.Links a a

/-- No two nodes share an id. -/
def UniqueIds : Prop :=
  (tree.nodes.map AgentNode.id).Nodup

variable {tree}

/-- With unique ids a node is found under its own id. -/
theorem find_of_mem (hunique : tree.UniqueIds) {node : AgentNode} (h : node ∈ tree.nodes) :
    tree.find node.id = some node := by
  obtain ⟨nodes⟩ := tree
  rename_i nodes _ _
  simp only [UniqueIds, find] at *
  induction nodes with
  | nil => simp at h
  | cons first rest ih =>
      simp only [List.map_cons, List.nodup_cons, List.mem_map, not_exists, not_and] at hunique
      rcases List.mem_cons.mp h with rfl | hrest
      · simp
      · have hne : first.id ≠ node.id := fun he => hunique.1 node hrest he.symm
        simpa [hne] using ih hunique.2 hrest

/-- Only finitely many ids have children. -/
theorem finite_links : {a | ∃ b, tree.Links a b}.Finite := by
  refine ((tree.nodes.map AgentNode.id).finite_toSet).subset ?_
  rintro a ⟨b, node, hfind, -⟩
  obtain ⟨hmem, rfl⟩ := find_eq_some hfind
  exact List.mem_map_of_mem hmem

/-- The position of the first node with this id. -/
def rank (tree : AgentRenderTree) (id : AgentNodeId) : Nat :=
  tree.nodes.findIdx fun node => node.id == id

/-- A tree that lists every node in front of its children has no cycle. -/
theorem acyclic_of_ordered
    (h : ∀ node ∈ tree.nodes, ∀ child ∈ node.children, tree.rank node.id < tree.rank child) :
    tree.Acyclic := by
  have hstep : ∀ a b, tree.Links a b → tree.rank a < tree.rank b := by
    rintro a b ⟨node, hfind, hchild⟩
    obtain ⟨hmem, rfl⟩ := find_eq_some hfind
    exact h node hmem b hchild
  have hpath : ∀ a b, Relation.TransGen tree.Links a b → tree.rank a < tree.rank b := by
    intro a b hab
    induction hab with
    | single hlink => exact hstep _ _ hlink
    | tail _ hlink ih => exact ih.trans (hstep _ _ hlink)
  intro a ha
  exact absurd (hpath a a ha) (by omega)

end AgentRenderTree

end BrowsAI.AgentTree
