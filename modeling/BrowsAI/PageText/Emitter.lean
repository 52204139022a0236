import BrowsAI.PageText.NodeText

/-!
# The markdown emitter

`MarkdownEmitter` of `crates/page-text`: one output buffer, one index of spans, a count of skipped
nodes, and the list depth, threaded through one function per structural role. The functions that
recurse take the emission of a child as their first argument, and `emitChild` ties the knot at a
bounded call depth. On a cyclic tree the source never returns; here every depth fails.

Offsets are byte offsets into the buffer at the moment they are recorded. `emitListItem` and
`renderRowCells` cut the buffer back afterwards, as the source does.
-/

namespace BrowsAI.PageText

open Utf8 AgentTree

/-- A span of the emitted text. `stop` is the source's `end`. -/
structure NodeSpan where
  id : AgentNodeId
  tag : MarkdownTag
  start : Nat
  stop : Nat
  href : Option Text
  name : Option Text
  deriving DecidableEq

/-- The page as a text, with where its nodes are. -/
structure MarkdownView where
  formatVersion : Nat
  content : Text
  nodeIndex : List NodeSpan
  skippedNodes : Nat
  deriving DecidableEq

/-- The mutable part of the emitter; the tree is a parameter of the functions. -/
structure MarkdownEmitter where
  out : Text
  index : List NodeSpan
  skipped : Nat
  listDepth : Nat
  deriving DecidableEq

namespace MarkdownEmitter

/-- Nothing is printed. -/
def new : MarkdownEmitter := ⟨[], [], 0, 0⟩

/-- Prints a text. -/
def pushStr (e : MarkdownEmitter) (s : Text) : MarkdownEmitter := { e with out := e.out ++ s }

/-- Notes where a node is. -/
def pushSpan (e : MarkdownEmitter) (span : NodeSpan) : MarkdownEmitter :=
  { e with index := e.index ++ [span] }

/-- Counts a node that is not printed. -/
def skip (e : MarkdownEmitter) : MarkdownEmitter := { e with skipped := e.skipped + 1 }

/-- Prints attributes. -/
def pushAttrs (e : MarkdownEmitter) (attrs : List Attribute) : MarkdownEmitter :=
  attrs.foldl (fun e a => e.pushStr a.markup) e

end MarkdownEmitter

open MarkdownEmitter

/-- Nothing but the text is asked for. -/
def isPlain (opts : MarkdownOptions) : Bool := opts.format == .plain

/-- The emission of the child with a given id. -/
abbrev EmitChild := AgentNodeId → MarkdownEmitter → Option MarkdownEmitter

/-- The loop `for child_id in &node.children { self.emit_child(child_id, opts); }`. -/
def emitChildren (emitChild : EmitChild) (ids : List AgentNodeId) (e : MarkdownEmitter) :
    Option MarkdownEmitter :=
  ids.foldlM (fun e id => emitChild id e) e

section Roles

variable [F64Display] (tree : AgentRenderTree) (opts : MarkdownOptions)

omit [F64Display] in
/-- The title, and the children behind it. -/
def emitPage (emitChild : EmitChild) (node : AgentNode) (e : MarkdownEmitter) :
    Option MarkdownEmitter :=
  let e := match node.name with
    | some title =>
        if isPlain opts then (e.pushStr (trim title)).pushStr "\n\n"
        else e.pushStr ("[heading level=\"1\"]" ++ escapeAttrInline (trim title) ++ "[/heading]\n")
    | none => e
  emitChildren emitChild node.children e

/-- A heading with its level. -/
def emitHeadingNode (node : AgentNode) (e : MarkdownEmitter) : MarkdownEmitter :=
  let text := nodeText node opts
  if text = [] then e.skip
  else if isPlain opts then (e.pushStr text).pushStr "\n\n"
  else
    let level := headingLevel node opts.maxHeadingLevel
    e.pushStr ("[heading level=\"" ++ ofNat level ++ "\"]" ++ escapeAttrInline text ++
      "[/heading]\n")

/-- A text as it is, on lines of its own. -/
def emitTextBlock (node : AgentNode) (e : MarkdownEmitter) : MarkdownEmitter :=
  let text := nodeText node opts
  if text = [] then e.skip else (e.pushStr text).pushStr "\n"

/-- What can be acted on, as plain text. -/
def emitActionablePlain (node : AgentNode) (tag : MarkdownTag) (e : MarkdownEmitter) :
    MarkdownEmitter :=
  let bodyText := actionableBodyText node tag opts
  match tag with
  | .link | .image => if bodyText = [] then e else (e.pushStr bodyText).pushStr "\n"
  | .button =>
      let e := e.pushStr bodyText
      let e := if node.state.enabled then e else e.pushStr " (disabled)"
      e.pushStr "\n"
  | .textbox =>
      let name := node.name.getD "input"
      if bodyText = [] then e.pushStr ("(input: " ++ name ++ ")\n")
      else e.pushStr ("(input: " ++ name ++ ") " ++ bodyText ++ "\n")
  | .checkbox | .radio =>
      let mark : Text := if node.state.selected then "[x]" else "[ ]"
      e.pushStr (mark ++ " " ++ bodyText ++ "\n")
  | _ => (e.pushStr bodyText).pushStr "\n"

/-- A link with its address, or a tag with its id. -/
def emitActionable (node : AgentNode) (tag : MarkdownTag) (e : MarkdownEmitter) :
    MarkdownEmitter :=
  if isPlain opts then emitActionablePlain opts node tag e
  else
    let start := len e.out
    let bodyText := actionableBodyText node tag opts
    match resolvedUrl node tag with
    | some url =>
        let e := if tag = .image then
            ((((e.pushStr "![").pushStr (if bodyText = [] then "image" else bodyText)).pushStr
              "](").pushStr url).pushStr ")"
          else
            ((((e.pushStr "[").pushStr bodyText).pushStr "](").pushStr url).pushStr ")"
        let stop := len e.out
        -- in this form the markup does not name the node
        (e.pushStr "\n").pushSpan ⟨node.id, tag, start, stop, some url, node.name⟩
    | none =>
        let e := ((e.pushStr "[").pushStr tag.asStr).pushAttrs [⟨"id", node.id⟩]
        let e := (e.pushAttrs (extraAttrs node tag)).pushStr "]"
        let emptyBody := bodyText = [] ∨ tag = .textbox
        let e := if emptyBody then e else e.pushStr bodyText
        let e := ((e.pushStr "[/").pushStr tag.asStr).pushStr "]"
        let stop := len e.out
        (e.pushStr "\n").pushSpan ⟨node.id, tag, start, stop, linkHref node, node.name⟩

/-- One turn of the option loop in `emit_select`. -/
def emitOption (child : AgentNode) (e : MarkdownEmitter) : MarkdownEmitter :=
  let optionText := nodeText child opts
  let value := optionValue child
  let optionStart := len e.out
  let e := (e.pushStr "  [option").pushAttrs [⟨"id", child.id⟩]
  let e := e.pushAttrs (attrOf "value" value)
  let e := (e.pushAttrs (flag child.state.selected "selected")).pushStr "]"
  let e := e.pushStr (if optionText = [] then value.getD [] else optionText)
  let e := e.pushStr "[/option]"
  let optionEnd := len e.out
  (e.pushStr "\n").pushSpan ⟨child.id, .option, optionStart, optionEnd, none, child.name⟩

omit [F64Display] in
/-- The children of a select that its loops do not pass over. -/
def shownOptions (node : AgentNode) : List AgentNode :=
  (node.children.filterMap tree.find).filter fun child =>
    opts.includeInvisible || child.state.visible

/-- The options of a plain select: how many there are, and the text of the last selected one. -/
def selectedOption (options : List AgentNode) : Option Text × Nat :=
  options.foldl (fun (selected, count) child =>
    let text := nodeText child opts
    let selected :=
      if child.state.selected then
        some (if text = [] then (optionValue child).getD [] else text)
      else selected
    (selected, count + 1)) (none, 0)

/-- A select with its option, or with how many there are. -/
def emitSelectPlain (node : AgentNode) (e : MarkdownEmitter) : MarkdownEmitter :=
  let label := node.name.getD "(select)"
  match selectedOption opts (shownOptions tree opts node) with
  | (some sel, _) => e.pushStr ("(" ++ label ++ ": " ++ sel ++ ")\n")
  | (none, 0) => e.pushStr ("(" ++ label ++ ": (empty))\n")
  | (none, count) => e.pushStr ("(" ++ label ++ ": " ++ ofNat count ++ " options)\n")

/-- A select with its options. -/
def emitSelect (node : AgentNode) (e : MarkdownEmitter) : MarkdownEmitter :=
  if isPlain opts then emitSelectPlain tree opts node e
  else
    let start := len e.out
    let e := (e.pushStr "[select").pushAttrs [⟨"id", node.id⟩]
    let e := e.pushAttrs (attrOf "name" node.name)
    let e := (e.pushAttrs (flag (!node.state.enabled) "disabled")).pushStr "]\n"
    let e := (shownOptions tree opts node).foldl (fun e child => emitOption opts child e) e
    let e := e.pushStr "[/select]"
    let stop := len e.out
    (e.pushStr "\n").pushSpan ⟨node.id, .select, start, stop, none, node.name⟩

omit [F64Display] in
/-- The children, one level deeper. -/
def emitList (emitChild : EmitChild) (node : AgentNode) (e : MarkdownEmitter) :
    Option MarkdownEmitter := do
  let e := { e with listDepth := e.listDepth + 1 }
  let e ← emitChildren emitChild node.children e
  pure { e with listDepth := e.listDepth - 1 }

/-- Newlines to spaces, and no white space at the ends. -/
def collapse (s : Text) : Text := trim (replace '\n' " " s)

omit [F64Display] in
/-- The children on one line behind a bullet. -/
def emitListItem (emitChild : EmitChild) (node : AgentNode) (e : MarkdownEmitter) :
    Option MarkdownEmitter := do
  let e := (e.pushStr (List.replicate e.listDepth "  ".toList).flatten).pushStr "- "
  let leadingLen := len e.out
  let e ← emitChildren emitChild node.children e
  -- the item stays on one logical line
  let body := collapse (dropBytes leadingLen e.out)
  let e := { e with out := takeBytes leadingLen e.out }
  pure ((e.pushStr body).pushStr "\n")

/-- One turn of the cell loop in `render_row_cells`: the text of the cell, and the emitter with
the buffer cut back to where it was. -/
def renderCell (emitChild : EmitChild) (childId : AgentNodeId) (e : MarkdownEmitter) :
    Option (Text × MarkdownEmitter) :=
  match tree.find childId with
  | none => some ([], e)
  | some cell =>
      if cell.structuralRole = .cell then do
        let before := len e.out
        let e ← emitChildren emitChild cell.children e
        let raw := dropBytes before e.out
        -- the buffer is cut back, but the spans pushed by the children stay
        let e := { e with out := takeBytes before e.out }
        let cleaned := collapse raw
        let text := if cleaned = [] then nodeText cell opts else cleaned
        pure (escapePipes text, e)
      else some (escapePipes (nodeText cell opts), e)

/-- The cells of a row. -/
def renderRowCells (emitChild : EmitChild) (row : AgentNode) (e : MarkdownEmitter) :
    Option (List Text × MarkdownEmitter) :=
  row.children.foldlM (fun (cells, e) childId => do
    let (cell, e) ← renderCell tree opts emitChild childId e
    pure (cells ++ [cell], e)) ([], e)

/-- The children of a table that are rows. -/
def tableRows (node : AgentNode) : List AgentNode :=
  (node.children.filterMap tree.find).filter fun n => n.structuralRole = .row

/-- The rows, with bars between the cells. -/
def emitTablePlain (emitChild : EmitChild) (node : AgentNode) (e : MarkdownEmitter) :
    Option MarkdownEmitter := do
  let rows := tableRows tree node
  let e ← rows.foldlM (fun e row => do
    let (cells, e) ← renderRowCells tree opts emitChild row e
    pure ((e.pushStr (List.intercalate (" | " : Text) cells)).pushStr "\n")) e
  pure (if rows = [] then e else e.pushStr "\n")

/-- The cells of one row between bars. -/
def pushRow (e : MarkdownEmitter) (cells : List Text) : MarkdownEmitter :=
  (e.pushStr "| ").pushStr (List.intercalate (" | " : Text) cells)

/-- A table with a line below its header. -/
def emitTable (emitChild : EmitChild) (node : AgentNode) (e : MarkdownEmitter) :
    Option MarkdownEmitter :=
  if isPlain opts then emitTablePlain tree opts emitChild node e
  else
    match tableRows tree node with
    | [] => some (e.pushStr ("[table id=\"" ++ escapeAttrInline node.id ++ "\"]empty[/table]\n"))
    | header :: bodyRows => do
        let columnCount := Nat.max header.children.length 1
        let (headerCells, e) ← renderRowCells tree opts emitChild header e
        let e := (pushRow e headerCells).pushStr " |\n|"
        let e := (e.pushStr (List.replicate columnCount " --- |".toList).flatten).pushStr "\n"
        let e ← bodyRows.foldlM (fun e row => do
          let (cells, e) ← renderRowCells tree opts emitChild row e
          pure ((pushRow e cells).pushStr " |\n")) e
        pure (e.pushStr "\n")

omit [F64Display] in
/-- The line a challenge prints in plain mode. -/
def challengeLine (node : AgentNode) : Text :=
  if node.semanticRole = some .challenge then
    "(challenge: " ++ node.description.getD "unknown" ++ ")\n"
  else []

omit [F64Display] in
/-- `emit_region` and `emit_dialog` in Markdown mode, which differ only in the tag. -/
def emitBox (emitChild : EmitChild) (node : AgentNode) (tag : MarkdownTag)
    (e : MarkdownEmitter) : Option MarkdownEmitter := do
  let start := len e.out
  let e := ((e.pushStr "[").pushStr tag.asStr).pushAttrs [⟨"id", node.id⟩]
  let e := (e.pushAttrs (extraAttrs node tag)).pushStr "]\n"
  let e ← emitChildren emitChild node.children e
  let e := ((e.pushStr "[/").pushStr tag.asStr).pushStr "]"
  let stop := len e.out
  pure ((e.pushStr "\n").pushSpan ⟨node.id, tag, start, stop, none, node.name⟩)

omit [F64Display] in
/-- A region with its children. -/
def emitRegion (emitChild : EmitChild) (node : AgentNode) (e : MarkdownEmitter) :
    Option MarkdownEmitter :=
  if isPlain opts then emitChildren emitChild node.children (e.pushStr (challengeLine node))
  else emitBox emitChild node .region e

omit [F64Display] in
/-- A dialog with its children. -/
def emitDialog (emitChild : EmitChild) (node : AgentNode) (e : MarkdownEmitter) :
    Option MarkdownEmitter :=
  if isPlain opts then
    let e := e.pushStr (challengeLine node)
    let e := match node.name with
      | some name => e.pushStr ("(dialog: " ++ name ++ ")\n")
      | none => e
    emitChildren emitChild node.children e
  else emitBox emitChild node .dialog e

omit [F64Display] in
/-- What a canvas is called. -/
def emitCanvas (node : AgentNode) (e : MarkdownEmitter) : MarkdownEmitter :=
  (e.pushStr (truncate (node.name.getD "(canvas)") opts.maxTextBytes)).pushStr "\n"

omit [F64Display] in
/-- What a video is called. -/
def emitVideo (node : AgentNode) (e : MarkdownEmitter) : MarkdownEmitter :=
  let body := truncate (node.name.getD "(video)") opts.maxTextBytes
  if isPlain opts then e.pushStr ("(video: " ++ body ++ ")\n")
  else
    let start := len e.out
    let e := ((e.pushStr "[video").pushAttrs [⟨"id", node.id⟩]).pushStr "]"
    let e := (e.pushStr body).pushStr "[/video]\n"
    -- here the span reaches over the newline
    let stop := len e.out
    e.pushSpan ⟨node.id, .region, start, stop, none, node.name⟩

/-- A node by its role. -/
def emitNode (emitChild : EmitChild) (node : AgentNode) (e : MarkdownEmitter) :
    Option MarkdownEmitter :=
  match node.structuralRole with
  | .page => emitPage opts emitChild node e
  | .heading => some (emitHeadingNode opts node e)
  | .paragraph | .text => some (emitTextBlock opts node e)
  | .link => some (emitActionable opts node .link e)
  | .button => some (emitActionable opts node .button e)
  | .textbox => some (emitActionable opts node .textbox e)
  | .checkbox => some (emitActionable opts node .checkbox e)
  | .radio => some (emitActionable opts node .radio e)
  | .select => some (emitSelect tree opts node e)
  | .image => some (emitActionable opts node .image e)
  | .list => emitList emitChild node e
  | .listItem => emitListItem emitChild node e
  | .table => emitTable tree opts emitChild node e
  | .row | .cell => emitChildren emitChild node.children e
  | .region => emitRegion opts emitChild node e
  | .dialog => emitDialog opts emitChild node e
  | .form => emitChildren emitChild node.children e
  | .menu | .tab | .frame | .shadowRoot => emitRegion opts emitChild node e
  | .canvas => some (emitCanvas opts node e)
  | .video => some (emitVideo opts node e)
  | .unknown => emitChildren emitChild node.children e

/-- `emit_child` with at most `depth` nested calls. -/
def emitChild : Nat → EmitChild
  | 0, _, _ => none
  | depth + 1, id, e =>
      match tree.find id with
      | none => some e.skip
      | some node =>
          if !opts.includeInvisible && !node.state.visible then some e.skip
          else if !opts.includeDisabled && !node.state.enabled then some e.skip
          else emitNode tree opts (emitChild depth) node e

/-- What stands before the page. -/
def envelopePrefix : Text := "<page-content trust=\"untrusted\">\n"

/-- What stands behind it. -/
def envelopeSuffix : Text := "</page-content>"

omit [F64Display] in
/-- The part of `emit` after the walk: the envelope, and the spans moved behind its prefix. -/
def finish (e : MarkdownEmitter) : MarkdownView :=
  let body := e.out
  let pre : Text := if opts.raw then [] else envelopePrefix
  let wrapped :=
    if pre = [] then body
    else
      let newline : Text := if body.getLast? = some '\n' then [] else "\n"
      pre ++ body ++ newline ++ envelopeSuffix
  let index := e.index.map fun span =>
    { span with start := span.start + len pre, stop := span.stop + len pre }
  ⟨2, wrapped, index, e.skipped⟩

/-- `MarkdownEmitter::emit` with at most `depth` nested calls of `emit_child`. -/
def emit (depth : Nat) : Option MarkdownView := do
  let e ← match tree.find tree.root with
    | some root => emitPage opts (emitChild tree opts depth) root new
    | none => some new
  pure (finish opts e)

end Roles

end BrowsAI.PageText
