import BrowsAI.Library.Unfold
import BrowsAI.PageText.Emitter

/-!
# The walk of the emitter, without its buffer

What the emitter prints is determined by the nodes it visits and by the place each has in the
output. A `Visit` is a node at a place; `next` lists the visits that a visit leads to, in order,
and `frame` gives the text that the visit itself contributes around them. A frame's text is made
of pieces that say where they come from: fixed by the emitter, copied verbatim from the page, or
copied with the attribute characters escaped.

`Reaches` is the walk as a relation. It does not mention fuel, buffers, or offsets, and states
which nodes of a tree have a part in the output.
-/

namespace BrowsAI.PageText

open Utf8 AgentTree

/-! ## Pieces and frames -/

/-- A part of the text by where it comes from. -/
inductive Piece where
  | fixed (t : Text)
  | copied (t : Text)
  | escaped (t : Text)
  deriving DecidableEq

/-- The text of a part. -/
def Piece.text : Piece → Text
  | .fixed t => t
  | .copied t => t
  | .escaped t => escapeAttrInline t

/-- The printed text of a list of pieces. -/
def textOf (pieces : List Piece) : Text := pieces.flatMap Piece.text

@[simp] theorem textOf_nil : textOf [] = [] := rfl

@[simp] theorem textOf_cons (p : Piece) (ps : List Piece) :
    textOf (p :: ps) = p.text ++ textOf ps := rfl

@[simp] theorem textOf_append (ps qs : List Piece) :
    textOf (ps ++ qs) = textOf ps ++ textOf qs := by
  simp [textOf]

/-- The span that a visit records, up to its offsets. -/
structure Mark where
  id : AgentNodeId
  tag : MarkdownTag
  href : Option Text
  name : Option Text
  deriving DecidableEq

/-- What a visit prints around the visits below it. -/
inductive Frame where
  /-- Nothing: the node is counted as skipped. -/
  | skip
  /-- `before`, the visits below, and `after`, all inside the recorded span; then `trail`. -/
  | around (mark : Option Mark) (before after trail : List Piece)
  /-- A list item: the visits below, collapsed to one line behind the bullet. -/
  | item (depth : Nat)
  /-- A table row around its cells. -/
  | row (lead trail : Text)
  /-- A table cell: the visits below, collapsed, or the text of the cell when they print nothing.
  The text is `none` for a child id that names no node. -/
  | cell (sep : Text) (fallback : Option Text)
  deriving DecidableEq

/-- A frame that only prints. -/
abbrev Frame.print (pieces : List Piece) : Frame := .around none pieces [] []

/-- An attribute, whose value is escaped. -/
def Attribute.pieces (a : Attribute) : List Piece :=
  [.fixed (" " ++ a.key ++ "=\""), .escaped a.value, .fixed "\""]

@[simp] theorem Attribute.textOf_pieces (a : Attribute) : textOf a.pieces = a.markup := by
  simp [Attribute.pieces, Attribute.markup, Piece.text]

/-- `[tag`, the attributes, and the closing bracket. -/
def tagOpen (tag : Text) (attrs : List Attribute) (close : Text) : List Piece :=
  .fixed ("[" ++ tag) :: attrs.flatMap Attribute.pieces ++ [.fixed close]

/-! ## Frames of the roles -/

section Frames

variable [F64Display] (tree : AgentRenderTree) (opts : MarkdownOptions)

omit [F64Display] in
/-- What `emitPage` prints. -/
def pageFrame (node : AgentNode) : Frame :=
  match node.name with
  | some title =>
      if isPlain opts then .print [.copied (trim title), .fixed "\n\n"]
      else .print [.fixed "[heading level=\"1\"]", .escaped (trim title), .fixed "[/heading]\n"]
  | none => .print []

/-- What `emitHeadingNode` prints. -/
def headingFrame (node : AgentNode) : Frame :=
  let text := nodeText node opts
  if text = [] then .skip
  else if isPlain opts then .print [.copied text, .fixed "\n\n"]
  else
    .print [.fixed ("[heading level=\"" ++ ofNat (headingLevel node opts.maxHeadingLevel) ++ "\"]"),
      .escaped text, .fixed "[/heading]\n"]

/-- What `emitTextBlock` prints. -/
def textBlockFrame (node : AgentNode) : Frame :=
  let text := nodeText node opts
  if text = [] then .skip else .print [.copied text, .fixed "\n"]

/-- What `emitActionablePlain` prints. -/
def actionablePlainFrame (node : AgentNode) (tag : MarkdownTag) : Frame :=
  let bodyText := actionableBodyText node tag opts
  match tag with
  | .link | .image =>
      if bodyText = [] then .print [] else .print [.copied bodyText, .fixed "\n"]
  | .button =>
      .print [.copied bodyText, .fixed (if node.state.enabled then "\n" else " (disabled)\n")]
  | .textbox =>
      let name : Piece := match node.name with
        | some name => .copied name
        | none => .fixed "input"
      if bodyText = [] then .print [.fixed "(input: ", name, .fixed ")\n"]
      else .print [.fixed "(input: ", name, .fixed ") ", .copied bodyText, .fixed "\n"]
  | .checkbox | .radio =>
      .print [.fixed (if node.state.selected then "[x] " else "[ ] "), .copied bodyText,
        .fixed "\n"]
  | _ => .print [.copied bodyText, .fixed "\n"]

/-- The markup of a widget: the link syntax for a resolved URL, a tag otherwise. -/
def actionableFrame (node : AgentNode) (tag : MarkdownTag) : Frame :=
  if isPlain opts then actionablePlainFrame opts node tag
  else
    let bodyText := actionableBodyText node tag opts
    match resolvedUrl node tag with
    | some url =>
        let shown : List Piece :=
          if tag = .image then
            [.fixed "![", if bodyText = [] then .fixed "image" else .copied bodyText]
          else [.fixed "[", .copied bodyText]
        .around (some ⟨node.id, tag, some url, node.name⟩)
          (shown ++ [.fixed "](", .copied url, .fixed ")"]) [] [.fixed "\n"]
    | none =>
        let body : List Piece := if bodyText = [] ∨ tag = .textbox then [] else [.copied bodyText]
        .around (some ⟨node.id, tag, linkHref node, node.name⟩)
          (tagOpen tag.asStr (⟨"id", node.id⟩ :: extraAttrs node tag) "]" ++ body ++
            [.fixed ("[/" ++ tag.asStr ++ "]")]) [] [.fixed "\n"]

/-- What an option prints. -/
def optionFrame (node : AgentNode) : Frame :=
  let attrs := ⟨"id", node.id⟩ :: attrOf "value" (optionValue node) ++
    flag node.state.selected "selected"
  let text := nodeText node opts
  let body := if text = [] then (optionValue node).getD [] else text
  .around (some ⟨node.id, .option, none, node.name⟩)
    (.fixed "  " :: tagOpen "option" attrs "]" ++ [.copied body, .fixed "[/option]"]) []
    [.fixed "\n"]

/-- What `emitSelectPlain` prints. -/
def selectPlainFrame (node : AgentNode) : Frame :=
  let label : Piece := match node.name with
    | some name => .copied name
    | none => .fixed "(select)"
  match selectedOption opts (shownOptions tree opts node) with
  | (some sel, _) => .print [.fixed "(", label, .fixed ": ", .copied sel, .fixed ")\n"]
  | (none, 0) => .print [.fixed "(", label, .fixed ": (empty))\n"]
  | (none, count) =>
      .print [.fixed "(", label, .fixed (": " ++ ofNat count ++ " options)\n")]

/-- What `emitSelect` prints around the options. -/
def selectFrame (node : AgentNode) : Frame :=
  if isPlain opts then selectPlainFrame tree opts node
  else
    let attrs := ⟨"id", node.id⟩ :: attrOf "name" node.name ++
      flag (!node.state.enabled) "disabled"
    .around (some ⟨node.id, .select, none, node.name⟩) (tagOpen "select" attrs "]\n")
      [.fixed "[/select]"] [.fixed "\n"]

omit [F64Display] in
/-- What `emitTable` prints around the rows. -/
def tableFrame (node : AgentNode) : Frame :=
  if tableRows tree node = [] then
    if isPlain opts then .print []
    else .print (tagOpen "table" [⟨"id", node.id⟩] "]empty[/table]\n")
  else .around none [] [] [.fixed "\n"]

omit [F64Display] in
/-- The line of a challenge. -/
def challengePieces (node : AgentNode) : List Piece :=
  if node.semanticRole = some .challenge then
    [.fixed "(challenge: ",
      match node.description with
        | some provider => .copied provider
        | none => .fixed "unknown",
      .fixed ")\n"]
  else []

omit [F64Display] in
/-- What a box prints around its children. -/
def boxFrame (node : AgentNode) (tag : MarkdownTag) : Frame :=
  .around (some ⟨node.id, tag, none, node.name⟩)
    (tagOpen tag.asStr (⟨"id", node.id⟩ :: extraAttrs node tag) "]\n")
    [.fixed ("[/" ++ tag.asStr ++ "]")] [.fixed "\n"]

omit [F64Display] in
/-- What `emitRegion` prints around the children. -/
def regionFrame (node : AgentNode) : Frame :=
  if isPlain opts then .print (challengePieces node) else boxFrame node .region

omit [F64Display] in
/-- What `emitDialog` prints around the children. -/
def dialogFrame (node : AgentNode) : Frame :=
  if isPlain opts then
    .print (challengePieces node ++
      match node.name with
        | some name => [.fixed "(dialog: ", .copied name, .fixed ")\n"]
        | none => [])
  else boxFrame node .dialog

omit [F64Display] in
/-- What `emitCanvas` prints. -/
def canvasFrame (node : AgentNode) : Frame :=
  .print [.copied (truncate (node.name.getD "(canvas)") opts.maxTextBytes), .fixed "\n"]

omit [F64Display] in
/-- The recorded span of a video reaches past the newline behind its closing tag. -/
def videoFrame (node : AgentNode) : Frame :=
  let body := truncate (node.name.getD "(video)") opts.maxTextBytes
  if isPlain opts then .print [.fixed "(video: ", .copied body, .fixed ")\n"]
  else
    .around (some ⟨node.id, .region, none, node.name⟩)
      (tagOpen "video" [⟨"id", node.id⟩] "]" ++ [.copied body, .fixed "[/video]\n"]) [] []

/-! ## Visits -/

/-- What the nodes above a visit decide: the nesting of lists, and whether the output is later
collapsed by a list item or moved by a table cell. -/
structure Context where
  listDepth : Nat
  inItem : Bool
  inCell : Bool
  deriving DecidableEq

/-- Where a node is printed. -/
inductive Place where
  | page
  | block
  | option
  | row (header : Bool)
  | cell (first : Bool)
  deriving DecidableEq

/-- A node in its place, or a place without one. -/
inductive Visit where
  /-- A child id that names no node, or a node that the filters drop. -/
  | skipped
  /-- A cell whose id names no node. -/
  | missing (first : Bool)
  | node (place : Place) (ctx : Context) (node : AgentNode)
  deriving DecidableEq

omit [F64Display] in
/-- The filters of `emit_child`. -/
def passes (node : AgentNode) : Bool :=
  (opts.includeInvisible || node.state.visible) && (opts.includeDisabled || node.state.enabled)

omit [F64Display] in
/-- The visit of a child. -/
def childVisit (ctx : Context) (id : AgentNodeId) : Visit :=
  match tree.find id with
  | none => .skipped
  | some node => if passes opts node then .node .block ctx node else .skipped

omit [F64Display] in
/-- The visit of a cell. -/
def cellVisit (ctx : Context) (first : Bool) (id : AgentNodeId) : Visit :=
  match tree.find id with
  | none => .missing first
  | some cell => .node (.cell first) { ctx with inCell := true } cell

omit [F64Display] in
/-- The first visit of a list gets the flag. -/
def flagFirst {α : Type} (visit : Bool → α → Visit) : List α → List Visit
  | [] => []
  | a :: rest => visit true a :: rest.map (visit false)

/-- The roles that emit their children as blocks, one after the other. -/
def isFlow : StructuralRole → Bool
  | .page | .row | .cell | .region | .dialog | .menu | .tab | .form | .frame | .shadowRoot
  | .unknown => true
  | _ => false

omit [F64Display] in
/-- The visits below a block. -/
def blockNext (ctx : Context) (node : AgentNode) : List Visit :=
  match node.structuralRole with
  | .list => node.children.map (childVisit tree opts { ctx with listDepth := ctx.listDepth + 1 })
  | .listItem => node.children.map (childVisit tree opts { ctx with inItem := true })
  | .table => flagFirst (fun first row => .node (.row first) ctx row) (tableRows tree node)
  | .select =>
      if isPlain opts then [] else (shownOptions tree opts node).map (.node .option ctx)
  | role => if isFlow role then node.children.map (childVisit tree opts ctx) else []

omit [F64Display] in
/-- The visits that a visit leads to, in the order of the output. -/
def next : Visit → List Visit
  | .skipped | .missing _ => []
  | .node .page ctx node => node.children.map (childVisit tree opts ctx)
  | .node .block ctx node => blockNext tree opts ctx node
  | .node .option _ _ => []
  | .node (.row _) ctx row => flagFirst (cellVisit tree ctx) row.children
  | .node (.cell _) ctx cell =>
      if cell.structuralRole = .cell then cell.children.map (childVisit tree opts ctx) else []

/-- What a node prints as a block. -/
def blockFrame (ctx : Context) (node : AgentNode) : Frame :=
  match node.structuralRole with
  | .page => pageFrame opts node
  | .heading => headingFrame opts node
  | .paragraph | .text => textBlockFrame opts node
  | .link => actionableFrame opts node .link
  | .button => actionableFrame opts node .button
  | .textbox => actionableFrame opts node .textbox
  | .checkbox => actionableFrame opts node .checkbox
  | .radio => actionableFrame opts node .radio
  | .select => selectFrame tree opts node
  | .image => actionableFrame opts node .image
  | .listItem => .item ctx.listDepth
  | .table => tableFrame tree opts node
  | .region | .menu | .tab | .frame | .shadowRoot => regionFrame opts node
  | .dialog => dialogFrame opts node
  | .canvas => canvasFrame opts node
  | .video => videoFrame opts node
  | .list | .row | .cell | .form | .unknown => .print []

omit [F64Display] in
/-- What a row prints around its cells. -/
def rowFrame (header : Bool) (row : AgentNode) : Frame :=
  if isPlain opts then .row [] "\n"
  else if header then
    .row "| " (" |\n|" ++
      (List.replicate (Nat.max row.children.length 1) " --- |".toList).flatten ++ "\n")
  else .row "| " " |\n"

/-- What stands between cells. -/
def cellSep (first : Bool) : Text := if first then [] else " | "

/-- The text that a visit contributes around the visits below it. -/
def frame : Visit → Frame
  | .skipped => .skip
  | .missing first => .cell (cellSep first) none
  | .node .page _ node => pageFrame opts node
  | .node .block ctx node => blockFrame tree opts ctx node
  | .node .option _ node => optionFrame opts node
  | .node (.row header) _ row => rowFrame opts header row
  | .node (.cell first) _ cell => .cell (cellSep first) (some (nodeText cell opts))

omit [F64Display] in
/-- `Reaches v w`: the walk that starts at `v` comes to `w`. -/
def Reaches : Visit → Visit → Prop :=
  Relation.ReflTransGen fun v w => w ∈ next tree opts v

omit [F64Display] in
/-- The visit that the output starts with. -/
def rootVisit (root : AgentNode) : Visit := .node .page ⟨0, false, false⟩ root

omit [F64Display] in
/-- The visits that have a part in the output. -/
def Visited (v : Visit) : Prop :=
  ∃ root, tree.find tree.root = some root ∧ Reaches tree opts (rootVisit root) v

end Frames

/-! ## Inverting the walk -/

section Inversion

variable {tree : AgentRenderTree} {opts : MarkdownOptions}

theorem mem_flag_first {α : Type} {visit : Bool → α → Visit} {l : List α} {w : Visit}
    (hw : w ∈ flagFirst visit l) : ∃ first, ∃ a ∈ l, w = visit first a := by
  cases l with
  | nil => simp [flagFirst] at hw
  | cons a l =>
      rcases List.mem_cons.mp hw with rfl | hw
      · exact ⟨true, a, by simp, rfl⟩
      · obtain ⟨b, hb, rfl⟩ := List.mem_map.mp hw
        exact ⟨false, b, by simp [hb], rfl⟩

theorem exists_mem_flag_first {α : Type} (visit : Bool → α → Visit) {l : List α} {a : α}
    (ha : a ∈ l) : ∃ first, visit first a ∈ flagFirst visit l := by
  cases l with
  | nil => simp at ha
  | cons b l =>
      rcases List.mem_cons.mp ha with rfl | ha
      · exact ⟨true, by simp [flagFirst]⟩
      · exact ⟨false, List.mem_cons_of_mem _ (List.mem_map_of_mem ha)⟩

theorem flag_first_congr {α : Type} {visit visit' : Bool → α → Visit} {l : List α}
    (h : ∀ first, ∀ a ∈ l, visit first a = visit' first a) :
    flagFirst visit l = flagFirst visit' l := by
  cases l with
  | nil => rfl
  | cons a l =>
      rw [flagFirst, flagFirst, h true a (by simp),
        List.map_congr_left fun b hb => h false b (by simp [hb])]

theorem mem_table_rows {node row : AgentNode} (hrow : row ∈ tableRows tree node) :
    ∃ id ∈ node.children, tree.find id = some row ∧ row.structuralRole = .row := by
  simp only [tableRows, List.mem_filter, List.mem_filterMap, decide_eq_true_eq] at hrow
  obtain ⟨⟨id, hid, hfind⟩, hrole⟩ := hrow
  exact ⟨id, hid, hfind, hrole⟩

theorem mem_shown_options {node child : AgentNode} (h : child ∈ shownOptions tree opts node) :
    ∃ id ∈ node.children, tree.find id = some child ∧
      (opts.includeInvisible || child.state.visible) := by
  simp only [shownOptions, List.mem_filter, List.mem_filterMap] at h
  obtain ⟨⟨id, hid, hfind⟩, hvisible⟩ := h
  exact ⟨id, hid, hfind, hvisible⟩

/-- The place, the context, and the node of a child that is not dropped. -/
theorem child_visit_eq_node {ctx ctx' : Context} {id : AgentNodeId} {place : Place}
    {node : AgentNode} (h : childVisit tree opts ctx id = .node place ctx' node) :
    place = .block ∧ ctx' = ctx ∧ tree.find id = some node ∧ passes opts node := by
  unfold childVisit at h
  cases hfind : tree.find id with
  | none => simp [hfind] at h
  | some found =>
      simp only [hfind] at h
      split_ifs at h with hpasses
      cases h
      exact ⟨rfl, rfl, rfl, hpasses⟩

theorem cell_visit_eq_node {ctx ctx' : Context} {first : Bool} {id : AgentNodeId} {place : Place}
    {node : AgentNode} (h : cellVisit tree ctx first id = .node place ctx' node) :
    place = .cell first ∧ ctx' = { ctx with inCell := true } ∧ tree.find id = some node := by
  unfold cellVisit at h
  cases hfind : tree.find id with
  | none => simp [hfind] at h
  | some found =>
      simp only [hfind] at h
      cases h
      exact ⟨rfl, rfl, rfl⟩

/-- The visit is a list item. -/
def Visit.isItem : Visit → Bool
  | .node .block _ block => block.structuralRole = .listItem
  | _ => false

/-- The four ways in which the walk goes on from a visit: to a child, to an option of a select, to
a row of a table, and to a cell of a row. -/
theorem next_cases {v w : Visit} (h : w ∈ next tree opts v) : ∃ place ctx node,
    v = .node place ctx node ∧
    ((∃ id ∈ node.children, ∃ ctx', w = childVisit tree opts ctx' id ∧
        ctx'.inItem = (ctx.inItem || v.isItem) ∧ ctx'.inCell = ctx.inCell) ∨
      (place = .block ∧ node.structuralRole = .select ∧
        ∃ child ∈ shownOptions tree opts node, w = .node .option ctx child) ∨
      (place = .block ∧ node.structuralRole = .table ∧
        ∃ header, ∃ row ∈ tableRows tree node, w = .node (.row header) ctx row) ∨
      ((∃ header, place = .row header) ∧
        ∃ first, ∃ id ∈ node.children, w = cellVisit tree ctx first id)) := by
  cases v with
  | skipped | missing => simp [next] at h
  | node place ctx node =>
      refine ⟨place, ctx, node, rfl, ?_⟩
      cases place with
      | page =>
          obtain ⟨id, hid, rfl⟩ := List.mem_map.mp h
          exact .inl ⟨id, hid, ctx, rfl, by simp [Visit.isItem], rfl⟩
      | block =>
          simp only [next, blockNext] at h
          split at h
          · obtain ⟨id, hid, rfl⟩ := List.mem_map.mp h
            exact .inl ⟨id, hid, _, rfl, by simp [Visit.isItem, *], rfl⟩
          · obtain ⟨id, hid, rfl⟩ := List.mem_map.mp h
            exact .inl ⟨id, hid, _, rfl, by simp [Visit.isItem, *], rfl⟩
          · obtain ⟨header, row, hrow, rfl⟩ := mem_flag_first h
            exact .inr (.inr (.inl ⟨rfl, ‹_›, header, row, hrow, rfl⟩))
          · split_ifs at h
            · simp at h
            · obtain ⟨child, hchild, rfl⟩ := List.mem_map.mp h
              exact .inr (.inl ⟨rfl, ‹_›, child, hchild, rfl⟩)
          · have hitem : node.structuralRole ≠ .listItem := by assumption
            split_ifs at h
            · obtain ⟨id, hid, rfl⟩ := List.mem_map.mp h
              exact .inl ⟨id, hid, ctx, rfl, by simp [Visit.isItem, hitem], rfl⟩
            · simp at h
      | option => simp [next] at h
      | row header =>
          obtain ⟨first, id, hid, rfl⟩ := mem_flag_first h
          exact .inr (.inr (.inr ⟨⟨header, rfl⟩, first, id, hid, rfl⟩))
      | cell first =>
          simp only [next] at h
          split_ifs at h
          · obtain ⟨id, hid, rfl⟩ := List.mem_map.mp h
            exact .inl ⟨id, hid, ctx, rfl, by simp [Visit.isItem], rfl⟩
          · simp at h

/-- The visit prints a row of a table. -/
def Visit.IsRow : Visit → Prop
  | .node (.row _) _ _ => True
  | _ => False

theorem Visit.IsRow.exists_node {v : Visit} (h : v.IsRow) :
    ∃ header ctx row, v = .node (.row header) ctx row := by
  cases v with
  | skipped | missing => exact absurd h id
  | node place ctx row =>
      cases place with
      | row header => exact ⟨header, ctx, row, rfl⟩
      | page | block | option | cell => exact absurd h id

/-- The visit is printed by a row, which cuts it out of the buffer. -/
def Visit.IsCell : Visit → Prop
  | .missing _ => True
  | .node (.cell _) _ _ => True
  | _ => False

/-- The frame prints its pieces around the visits below, and nothing moves. -/
def Frame.IsAround (f : Frame) : Prop :=
  ∃ mark before after trail, f = .around mark before after trail

variable [F64Display]

omit [F64Display] in
theorem page_around (node : AgentNode) : (pageFrame opts node).IsAround := by
  unfold pageFrame
  split
  · split_ifs <;> exact ⟨_, _, _, _, rfl⟩
  · exact ⟨_, _, _, _, rfl⟩

theorem actionable_plain_around (node : AgentNode) (tag : MarkdownTag) :
    (actionablePlainFrame opts node tag).IsAround := by
  unfold actionablePlainFrame
  cases tag with
  | link | image | textbox => simp only; split_ifs <;> exact ⟨_, _, _, _, rfl⟩
  | _ => exact ⟨_, _, _, _, rfl⟩

theorem actionable_around (node : AgentNode) (tag : MarkdownTag) :
    (actionableFrame opts node tag).IsAround := by
  by_cases hplain : isPlain opts
  · simpa only [actionableFrame, hplain, if_true] using actionable_plain_around node tag
  · simp only [actionableFrame, hplain, if_false, Bool.false_eq_true]
    cases resolvedUrl node tag <;> exact ⟨_, _, _, _, rfl⟩

theorem select_around (node : AgentNode) : (selectFrame tree opts node).IsAround := by
  simp only [selectFrame, selectPlainFrame]
  split_ifs
  · split <;> exact ⟨_, _, _, _, rfl⟩
  · exact ⟨_, _, _, _, rfl⟩

theorem frame_of_row {v : Visit} (h : v.IsRow) :
    ∃ lead trail, frame tree opts v = .row lead trail := by
  obtain ⟨header, ctx, row, rfl⟩ := h.exists_node
  simp only [frame, rowFrame]
  split_ifs <;> exact ⟨_, _, rfl⟩

theorem not_row_of_frame {v : Visit} {f : Frame} (hframe : frame tree opts v = f)
    (hf : ∀ lead trail, f ≠ .row lead trail) : ¬ v.IsRow := by
  intro hrow
  obtain ⟨lead, trail, hrow⟩ : ∃ lead trail, frame tree opts v = .row lead trail :=
    frame_of_row hrow
  exact hf lead trail (hframe ▸ hrow)

/-- A cell without a text to fall back to names no node. -/
theorem frame_of_cell {v : Visit} (h : v.IsCell) :
    ∃ first fallback, frame tree opts v = .cell (cellSep first) fallback ∧
      (fallback = none → next tree opts v = []) := by
  cases v with
  | skipped => exact absurd h id
  | missing first => exact ⟨first, none, rfl, fun _ => rfl⟩
  | node place ctx node =>
      cases place with
      | cell first => exact ⟨first, some _, rfl, by simp⟩
      | page | block | option | row => exact absurd h id

/-- The cells of a row behind the first are separated from the one in front of them. -/
theorem frame_of_mem_tail {v w : Visit} (hrow : v.IsRow) (hw : w ∈ (next tree opts v).tail) :
    ∃ fallback, frame tree opts w = .cell " | " fallback := by
  obtain ⟨header, ctx, row, rfl⟩ := hrow.exists_node
  simp only [next] at hw
  cases hids : row.children with
  | nil => simp [hids, flagFirst] at hw
  | cons first ids =>
      rw [hids, flagFirst, List.tail_cons] at hw
      obtain ⟨id, -, rfl⟩ := List.mem_map.mp hw
      unfold cellVisit
      split
      · exact ⟨none, rfl⟩
      · exact ⟨_, rfl⟩

/-- What belongs to the cells of a row behind the first belongs to separated ones. -/
theorem cell_of_mem_tail {α : Type} {R : Visit → α → Prop} {v : Visit} {l : List α} (hrow : v.IsRow)
    (hl : List.Forall₂ R (next tree opts v) l) {a : α} (ha : a ∈ l.tail) :
    ∃ w fallback, R w a ∧ frame tree opts w = .cell " | " fallback := by
  have htail := List.forall₂_drop 1 hl
  rw [List.drop_one, List.drop_one] at htail
  obtain ⟨w, hw, hR⟩ := Unfold.exists_of_mem_right htail ha
  obtain ⟨fallback, hframe⟩ := frame_of_mem_tail hrow hw
  exact ⟨w, fallback, hR, hframe⟩

/-- The five kinds of visits: the silent ones, those that print around the visits below them, list
items, rows, and cells. -/
theorem frame_cases (tree : AgentRenderTree) (opts : MarkdownOptions) (v : Visit) :
    (frame tree opts v = .skip ∧ next tree opts v = []) ∨
      (v.isItem = false ∧ (frame tree opts v).IsAround) ∨
      (v.isItem = true ∧ ∃ depth, frame tree opts v = .item depth) ∨
      (v.IsRow ∧ ∃ lead trail, frame tree opts v = .row lead trail) ∨
      (v.IsCell ∧ ∃ first fallback, frame tree opts v = .cell (cellSep first) fallback ∧
        (fallback = none → next tree opts v = [])) := by
  cases v with
  | skipped => exact .inl ⟨rfl, rfl⟩
  | missing first => exact .inr (.inr (.inr (.inr ⟨trivial, frame_of_cell trivial⟩)))
  | node place ctx node =>
      cases place with
      | page => exact .inr (.inl ⟨rfl, page_around node⟩)
      | option => exact .inr (.inl ⟨rfl, ⟨_, _, _, _, rfl⟩⟩)
      | row header => exact .inr (.inr (.inr (.inl ⟨trivial, frame_of_row trivial⟩)))
      | cell first => exact .inr (.inr (.inr (.inr ⟨trivial, frame_of_cell trivial⟩)))
      | block =>
          cases hrole : node.structuralRole with
          | heading =>
              -- an empty text is not printed, and nothing is below it
              by_cases htext : nodeText node opts = []
              · exact .inl ⟨by simp [frame, blockFrame, hrole, headingFrame, htext],
                  by simp [next, blockNext, hrole, isFlow]⟩
              · refine .inr (.inl ⟨by simp [Visit.isItem, hrole], ?_⟩)
                simp only [frame, blockFrame, hrole, headingFrame, htext, if_false]
                split_ifs <;> exact ⟨_, _, _, _, rfl⟩
          | paragraph | text =>
              by_cases htext : nodeText node opts = []
              · exact .inl ⟨by simp [frame, blockFrame, hrole, textBlockFrame, htext],
                  by simp [next, blockNext, hrole, isFlow]⟩
              · refine .inr (.inl ⟨by simp [Visit.isItem, hrole], ?_⟩)
                simp only [frame, blockFrame, hrole, textBlockFrame, htext, if_false]
                exact ⟨_, _, _, _, rfl⟩
          | listItem =>
              exact .inr (.inr (.inl ⟨by simp [Visit.isItem, hrole], ctx.listDepth,
                by simp [frame, blockFrame, hrole]⟩))
          | page =>
              refine .inr (.inl ⟨by simp [Visit.isItem, hrole], ?_⟩)
              simpa only [frame, blockFrame, hrole] using page_around node
          | link | button | textbox | checkbox | radio | image =>
              refine .inr (.inl ⟨by simp [Visit.isItem, hrole], ?_⟩)
              simpa only [frame, blockFrame, hrole] using actionable_around node _
          | select =>
              refine .inr (.inl ⟨by simp [Visit.isItem, hrole], ?_⟩)
              simpa only [frame, blockFrame, hrole] using select_around node
          | table =>
              refine .inr (.inl ⟨by simp [Visit.isItem, hrole], ?_⟩)
              simp only [frame, blockFrame, hrole, tableFrame]
              split_ifs <;> exact ⟨_, _, _, _, rfl⟩
          | region | menu | tab | frame | shadowRoot =>
              refine .inr (.inl ⟨by simp [Visit.isItem, hrole], ?_⟩)
              simp only [PageText.frame, blockFrame, hrole, regionFrame]
              split_ifs <;> exact ⟨_, _, _, _, rfl⟩
          | dialog =>
              refine .inr (.inl ⟨by simp [Visit.isItem, hrole], ?_⟩)
              simp only [frame, blockFrame, hrole, dialogFrame]
              split_ifs <;> exact ⟨_, _, _, _, rfl⟩
          | video =>
              refine .inr (.inl ⟨by simp [Visit.isItem, hrole], ?_⟩)
              simp only [frame, blockFrame, hrole, videoFrame]
              split_ifs <;> exact ⟨_, _, _, _, rfl⟩
          | canvas | list | row | cell | form | unknown =>
              refine .inr (.inl ⟨by simp [Visit.isItem, hrole], ?_⟩)
              simp only [frame, blockFrame, hrole]
              exact ⟨_, _, _, _, rfl⟩

end Inversion

end BrowsAI.PageText
