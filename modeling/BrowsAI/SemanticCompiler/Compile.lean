import BrowsAI.LayoutObserver.HitTest

/-!
# The semantic compiler

`SemanticCompiler::compile` of `crates/semantic-compiler`: a recursive visit of the raw document
that appends one agent node for every raw node and lists it under its parent, which it finds by id
in the nodes compiled so far.

`visit` takes a bound on the depth of its calls. It fails at the bound, and where the source panics
because a listed node does not exist.
-/

namespace BrowsAI

open Utf8 AgentTree DomObserver LayoutObserver

/-- The generation of the last tree. -/
structure SemanticCompiler where
  generation : UInt64
  deriving DecidableEq

namespace SemanticCompiler

/-- The tree, and the nodes that were visited for it. -/
structure CompileResult where
  tree : AgentRenderTree
  recomputedNodes : List EngineNodeId
  deriving DecidableEq

/-- The id of the agent node for a raw node. -/
def domId (id : EngineNodeId) : AgentNodeId := "dom:" ++ ofNat id.toNat

/-- The name of a role in identity keys. -/
def roleName : StructuralRole → Text
  | .page => "page"
  | .region => "region"
  | .heading => "heading"
  | .paragraph => "paragraph"
  | .text => "text"
  | .button => "button"
  | .link => "link"
  | .textbox => "textbox"
  | .checkbox => "checkbox"
  | .radio => "radio"
  | .select => "select"
  | .list => "list"
  | .listItem => "list_item"
  | .table => "table"
  | .row => "row"
  | .cell => "cell"
  | .dialog => "dialog"
  | .menu => "menu"
  | .tab => "tab"
  | .image => "image"
  | .canvas => "canvas"
  | .video => "video"
  | .form => "form"
  | .frame => "frame"
  | .shadowRoot => "shadow_root"
  | .unknown => "unknown"

/-- The identity key of a node, from the first attribute that gives one. -/
def stableIdentity (raw : RawNode) (role : StructuralRole) : Option Text :=
  (raw.attributes[("data-key" : Text)]?.map fun value => roleName role ++ ":" ++ value) <|>
  (raw.attributes[("id" : Text)]?.map fun value => roleName role ++ "#" ++ value) <|>
  (raw.attributes[("aria-label" : Text)]?.map fun value =>
    roleName role ++ ":" ++ asciiLower value)

/-- The role of an element or a text, by its lower-case tag. -/
def tagRole (kind : NodeKind) (tag : Text) : StructuralRole :=
  if tag ∈ ["h1", "h2", "h3", "h4", "h5", "h6"].map String.toList then .heading
  else if tag = "p" then .paragraph
  else if tag = "button" then .button
  else if tag = "a" then .link
  else if tag = "input" then .textbox
  else if tag = "form" then .form
  else if tag ∈ ["main", "section", "nav"].map String.toList then .region
  else if tag = "img" then .image
  else if tag = "dialog" then .dialog
  else if kind = .text then .text
  else .unknown

/-- The roles and the name of a node. -/
def classify (kind : NodeKind) (tag : Option Text) (attributes : OrdMap Text Text)
    (text : Option Text) : StructuralRole × Option SemanticRole × Option Text :=
  match kind with
  | .document => (.page, none, none)
  | .frame => (.frame, none, tag)
  | .shadowRoot => (.shadowRoot, none, none)
  | kind =>
      let tag := asciiLower (tag.getD [])
      let role := tagRole kind tag
      let name := attributes[("aria-label" : Text)]? <|> attributes[("alt" : Text)]? <|> text
      let accessibleName := asciiLower (name.getD [])
      let type := attributes[("type" : Text)]?
      let semantic : Option SemanticRole :=
        if type = some ("submit" : Text) ∨ tag = "button" ∧ contains "save" accessibleName then
          some .submitAction
        else if type = some ("search" : Text) then some .searchField
        else none
      (role, semantic, name)

/-- The agent node that `visit` builds for a raw node, before its children are visited. -/
def compileNode (raw : RawNode) (layout : LayoutSnapshot) (id : EngineNodeId)
    (generation : UInt64) : AgentNode :=
  let (role, semantic, name) := classify raw.kind raw.name raw.attributes raw.text
  let box := layout.get id
  { id := domId id
    origin := none
    identityKey := stableIdentity raw role
    structuralRole := role
    semanticRole := semantic
    applicationType := none
    name
    value := raw.text.map .text
    description := none
    state := { (default : NodeState) with
      visible := (box.map fun layout => layout.visible && !layout.clipped).getD true
      enabled := !(box.map LayoutBox.disabled).getD false }
    geometry := box.map fun layout =>
      ⟨layout.rect.x, layout.rect.y, layout.rect.width, layout.rect.height⟩
    relationships := []
    actions := if semantic = some .submitAction then [⟨"activate", "UNKNOWN"⟩] else []
    children := []
    provenance := [⟨.dom, ofNat id.toNat, raw.name⟩]
    confidence := .direct
    generation }

/-- `iter_mut().find(..)` followed by a change of the node that was found. -/
def modifyFirst (p : AgentNode → Bool) (change : AgentNode → AgentNode) :
    List AgentNode → List AgentNode
  | [] => []
  | node :: nodes =>
      if p node then change node :: nodes else node :: modifyFirst p change nodes

/-- The child listed under its parent, when the parent is in the tree. -/
def adopt (parent : Option AgentNodeId) (child : AgentNodeId) (nodes : List AgentNode) :
    List AgentNode :=
  match parent with
  | none => nodes
  | some parentId =>
      modifyFirst (fun candidate => candidate.id == parentId)
        (fun parentNode => { parentNode with children := parentNode.children ++ [child] }) nodes

/-- `visit` up to its recursive calls. -/
def enter (layout : LayoutSnapshot) (raw : RawNode) (id : EngineNodeId)
    (parent : Option AgentNodeId) (tree : AgentRenderTree) : AgentRenderTree :=
  let node := compileNode raw layout id tree.generation
  { tree with nodes := adopt parent (domId id) tree.nodes ++ [node] }

/-- `visit` with at most `depth` nested calls. -/
def visit (document : RawDocument) (layout : LayoutSnapshot) :
    Nat → EngineNodeId → Option AgentNodeId → AgentRenderTree → Option AgentRenderTree
  | 0, _, _, _ => none
  | depth + 1, id, parent, tree => do
      let raw ← document.node id
      raw.children.foldlM
        (fun tree child => visit document layout depth child (some (domId id)) tree)
        (enter layout raw id parent tree)

/-- `compile`, where `visit` may nest `depth` calls. -/
def compile (compiler : SemanticCompiler) (document : RawDocument)
    (layout : LayoutSnapshot) (depth : Nat) : Option (CompileResult × SemanticCompiler) :=
  let compiler := { compiler with generation := compiler.generation + 1 }
  let tree : AgentRenderTree :=
    -- no node of the tree gets this id
    { root := "page:" ++ document.url, nodes := [], generation := compiler.generation,
      truncated := false }
  let visited := match document.root with
    | some root => visit document layout depth root none tree
    | none => some tree
  visited.map fun tree => (⟨tree, document.nodes.keys⟩, compiler)

end SemanticCompiler

end BrowsAI
