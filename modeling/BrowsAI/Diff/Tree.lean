import BrowsAI.AgentTree.Equality
import BrowsAI.Library.OrdMap

/-!
# Differences of page snapshots

`diff_tree` and `diff` of `crates/diff`, over the snapshots of `crates/state`. The nodes of both
trees are collected into maps under their identity keys, and the maps are compared.

The type of URLs and the JSON values of nodes and URLs are parameters; nothing is assumed about
them but that URLs can be compared.
-/

namespace BrowsAI.Diff

open Utf8 AgentTree

/-! ## Snapshots -/

/-- A page as it was at one time. -/
structure PageSnapshot (U : Type) where
  schemaVersion : UInt32
  id : UInt64
  url : U
  tree : AgentRenderTree
  focusedNode : Option Text
  scrollX : F64
  scrollY : F64
  pendingNetwork : UInt32
  storageGeneration : UInt64
  semanticGeneration : UInt64

/-- The page as it is. -/
structure PageState (U : Type) where
  url : U
  tree : AgentRenderTree
  generation : UInt64

/-- `SNAPSHOT_SCHEMA_VERSION`. -/
def snapshotSchemaVersion : UInt32 := 1

/-- The snapshot of the page under an id. -/
def PageState.snapshot {U : Type} (state : PageState U) (id : UInt64) : PageSnapshot U where
  schemaVersion := snapshotSchemaVersion
  id := id
  url := state.url
  tree := state.tree
  focusedNode := none
  scrollX := .finite 0
  scrollY := .finite 0
  pendingNetwork := 0
  storageGeneration := 0
  semanticGeneration := state.tree.generation

/-! ## The difference of two trees -/

/-- A node as it was and as it is. -/
structure NodeChange where
  nodeId : AgentNodeId
  before : AgentNode
  after : AgentNode
  deriving DecidableEq

/-- The nodes that came, that went and that changed. -/
structure SemanticTreeDiff where
  added : List AgentNode
  removed : List AgentNode
  changed : List NodeChange
  deriving DecidableEq

/-- The identity key of a node, or its id. -/
def nodeKey (node : AgentNode) : Text := node.identityKey.getD node.id

/-- The nodes collected into a map under their keys. -/
def keyed (nodes : List AgentNode) : OrdMap Text AgentNode :=
  nodes.foldl (fun map node => map.insert (nodeKey node) node) ∅

variable {U V : Type}

/-- Compares the nodes of two snapshots by their keys. -/
def diffTree (before after : PageSnapshot U) : SemanticTreeDiff :=
  let left := keyed before.tree.nodes
  let right := keyed after.tree.nodes
  { added := (right.toList.filter fun entry => !left.contains entry.1).map Prod.snd
    removed := (left.toList.filter fun entry => !right.contains entry.1).map Prod.snd
    changed := right.toList.filterMap fun entry => do
      let beforeNode ← left[entry.1]?
      if beforeNode.partialEq entry.2 then none
      else some ⟨entry.2.id, beforeNode, entry.2⟩ }

/-- A change under a path. -/
inductive DiffOp (V : Type) where
  | add (path : Text) (value : V)
  | remove (path : Text) (value : V)
  | replace (path : Text) (old new : V)

/-- The path of a node in an operation. -/
def nodePath (id : AgentNodeId) : Text := "/tree/nodes/" ++ id

/-- `diff`, where `nodeValue` and `urlValue` are `serde_json::to_value`. -/
def diff [DecidableEq U] (nodeValue : AgentNode → V) (urlValue : U → V) (a b : PageSnapshot U) :
    List (DiffOp V) :=
  let semantic := diffTree a b
  semantic.added.map (fun node => .add (nodePath node.id) (nodeValue node)) ++
    semantic.removed.map (fun node => .remove (nodePath node.id) (nodeValue node)) ++
    semantic.changed.map (fun change =>
      .replace (nodePath change.nodeId) (nodeValue change.before) (nodeValue change.after)) ++
    if a.url ≠ b.url then [.replace "/url" (urlValue a.url) (urlValue b.url)] else []

/-- Between snapshots of one URL there are operations exactly where the trees differ. -/
theorem diff_eq_nil_iff [DecidableEq U] {nodeValue : AgentNode → V} {urlValue : U → V}
    {a b : PageSnapshot U} (hurl : a.url = b.url) :
    diff nodeValue urlValue a b = [] ↔ diffTree a b = ⟨[], [], []⟩ := by
  cases hdelta : diffTree a b with
  | mk added removed changed => simp [diff, hdelta, hurl]

end BrowsAI.Diff
