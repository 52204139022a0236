import BrowsAI.PageText.Layout

/-!
# The emitter refines the layout

Emitting at any call depth is laying out at that depth and appending the fragment: `emit_child_eq`
for a child, `emit_eq` for the whole view. Each role has one lemma that matches its emission
function with its frame.
-/

namespace BrowsAI.PageText

open Utf8 AgentTree Unfold Fragment

namespace MarkdownEmitter

/-- The fragment printed at the end of the buffer. -/
def append (e : MarkdownEmitter) (f : Fragment) : MarkdownEmitter :=
  { e with
    out := e.out ++ f.text
    index := e.index ++ f.spans.map (NodeSpan.shift (len e.out))
    skipped := e.skipped + f.skipped }

@[simp] theorem append_default (e : MarkdownEmitter) : e.append default = e := by
  simp [append, default]

theorem append_append (e : MarkdownEmitter) (f g : Fragment) :
    (e.append f).append g = e.append (f ++ g) := by
  simp [append, Function.comp_def, Nat.add_comm, Nat.add_left_comm]

theorem foldl_append (e : MarkdownEmitter) (fs : List Fragment) :
    fs.foldl append e = e.append (concat fs) := by
  induction fs generalizing e with
  | nil => exact (append_default e).symm
  | cons f fs ih => rw [List.foldl_cons, ih, append_append, concat]

theorem push_str_eq (e : MarkdownEmitter) (s : Text) : e.pushStr s = e.append (ofText s) := by
  simp [pushStr, append, ofText]

theorem skip_eq (e : MarkdownEmitter) (fs : List Fragment) :
    e.skip = e.append (Frame.skip.lay fs) := by
  simp [skip, append, Frame.lay]

/-- Two pushes are one push of both texts. -/
@[simp] theorem push_str_push_str (e : MarkdownEmitter) (s t : Text) :
    (e.pushStr s).pushStr t = e.pushStr (s ++ t) := by
  simp [pushStr]

@[simp] theorem push_str_nil (e : MarkdownEmitter) : e.pushStr [] = e := by
  simp [pushStr]

@[simp] theorem push_str_list_depth (e : MarkdownEmitter) (s : Text) :
    (e.pushStr s).listDepth = e.listDepth := rfl

/-- Pushing attributes pushes their pieces. -/
@[simp] theorem push_attrs_eq (e : MarkdownEmitter) (attrs : List Attribute) :
    e.pushAttrs attrs = e.pushStr (textOf (attrs.flatMap Attribute.pieces)) := by
  induction attrs generalizing e with
  | nil => simp [pushAttrs]
  | cons a attrs ih => simpa [pushAttrs] using ih (e.pushStr a.markup)

end MarkdownEmitter

open MarkdownEmitter

section Refinement

variable [F64Display] {tree : AgentRenderTree} {opts : MarkdownOptions}

omit [F64Display] in
/-- A printing frame around nothing is its text. -/
theorem append_print (e : MarkdownEmitter) (pieces : List Piece) :
    e.append ((Frame.print pieces).lay []) = e.pushStr (textOf pieces) := by
  simp [MarkdownEmitter.append, pushStr, Frame.lay, Mark.wrap, ofText, concat, default]

omit [F64Display] in
/-- A marked frame around nothing pushes its text, and a span that ends before the trail. -/
theorem append_marked (e : MarkdownEmitter) (m : Mark) (before trail : List Piece) :
    e.append ((Frame.around (some m) before [] trail).lay []) =
      (e.pushStr (textOf before ++ textOf trail)).pushSpan
        ⟨m.id, m.tag, len e.out, len e.out + len (textOf before), m.href, m.name⟩ := by
  simp [MarkdownEmitter.append, pushStr, pushSpan, Frame.lay, Mark.wrap, ofText, concat, default,
    NodeSpan.shift, Nat.add_comm]

/-! ## Leaves -/

theorem emit_heading_node_eq (node : AgentNode) (e : MarkdownEmitter) :
    emitHeadingNode opts node e = e.append ((headingFrame opts node).lay []) := by
  simp only [emitHeadingNode, headingFrame]
  split_ifs
  · exact skip_eq e []
  · simp only [append_print, push_str_push_str, textOf_cons, Piece.text, textOf_nil,
      List.append_nil]
  · simp only [append_print, textOf_cons, Piece.text, textOf_nil, List.append_nil,
      List.append_assoc]

theorem emit_text_block_eq (node : AgentNode) (e : MarkdownEmitter) :
    emitTextBlock opts node e = e.append ((textBlockFrame opts node).lay []) := by
  simp only [emitTextBlock, textBlockFrame]
  split_ifs
  · exact skip_eq e []
  · simp only [append_print, push_str_push_str, textOf_cons, Piece.text, textOf_nil,
      List.append_nil]

/-- The emitter prints the frame of a plain actionable. -/
theorem emit_actionable_plain_eq (node : AgentNode) (tag : MarkdownTag) (e : MarkdownEmitter) :
    emitActionablePlain opts node tag e =
      e.append ((actionablePlainFrame opts node tag).lay []) := by
  cases tag with
  | link | image =>
      simp only [emitActionablePlain, actionablePlainFrame]
      split_ifs
      · simp only [append_print, textOf_nil, push_str_nil]
      · simp only [append_print, push_str_push_str, textOf_cons, Piece.text, textOf_nil,
          List.append_nil]
  | button =>
      simp only [emitActionablePlain, actionablePlainFrame, append_print, textOf_cons, Piece.text,
        textOf_nil, List.append_nil]
      split_ifs
      · simp only [push_str_push_str]
      · simp only [push_str_push_str, List.append_assoc]
        rfl
  | textbox =>
      simp only [emitActionablePlain, actionablePlainFrame]
      cases node.name <;> split_ifs <;>
        simp only [append_print, textOf_cons, Piece.text, textOf_nil, List.append_nil,
          List.append_assoc, Option.getD_none, Option.getD_some]
  | checkbox | radio =>
      simp only [emitActionablePlain, actionablePlainFrame, append_print, textOf_cons, Piece.text,
        textOf_nil, List.append_nil]
      split_ifs <;> simp only [List.append_assoc] <;> rfl
  | _ =>
      simp only [emitActionablePlain, actionablePlainFrame, append_print, push_str_push_str,
        textOf_cons, Piece.text, textOf_nil, List.append_nil]

/-- The emitter prints the frame of an actionable. -/
theorem emit_actionable_eq (node : AgentNode) (tag : MarkdownTag) (e : MarkdownEmitter) :
    emitActionable opts node tag e = e.append ((actionableFrame opts node tag).lay []) := by
  by_cases hplain : isPlain opts
  · simp only [emitActionable, actionableFrame, hplain, if_true]
    exact emit_actionable_plain_eq node tag e
  simp only [emitActionable, actionableFrame, hplain, if_false, Bool.false_eq_true]
  cases resolvedUrl node tag with
  | some url =>
      simp only [append_marked]
      split_ifs <;>
        simp only [textOf_cons, textOf_append, Piece.text, textOf_nil,
          List.append_nil, List.append_assoc, pushStr, len_append]
  | none =>
      simp only [append_marked, push_attrs_eq]
      split_ifs <;>
        simp only [tagOpen, textOf_cons, textOf_append, Piece.text, textOf_nil, List.append_nil,
          List.append_assoc, List.flatMap_cons, List.flatMap_nil, pushStr, len_append,
          List.cons_append, List.nil_append]

theorem emit_select_plain_eq (node : AgentNode) (e : MarkdownEmitter) :
    emitSelectPlain tree opts node e = e.append ((selectPlainFrame tree opts node).lay []) := by
  simp only [emitSelectPlain, selectPlainFrame]
  rcases selectedOption opts (shownOptions tree opts node) with ⟨_ | sel, _ | count⟩ <;>
    cases node.name <;>
    simp only [append_print, textOf_cons, Piece.text, textOf_nil, List.append_nil,
      List.append_assoc, Option.getD_none, Option.getD_some]

omit [F64Display] in
theorem emit_canvas_eq (node : AgentNode) (e : MarkdownEmitter) :
    emitCanvas opts node e = e.append ((canvasFrame opts node).lay []) := by
  simp only [emitCanvas, canvasFrame, append_print, push_str_push_str, textOf_cons, Piece.text,
    textOf_nil, List.append_nil]

omit [F64Display] in
theorem emit_video_eq (node : AgentNode) (e : MarkdownEmitter) :
    emitVideo opts node e = e.append ((videoFrame opts node).lay []) := by
  have hopen : ("[video" : Text) = "[" ++ "video" := rfl
  simp only [emitVideo, videoFrame, hopen]
  split_ifs
  · simp only [append_print, textOf_cons, Piece.text, textOf_nil, List.append_nil,
      List.append_assoc]
  · simp only [append_marked, push_attrs_eq, tagOpen, textOf_cons, textOf_append, Piece.text,
      textOf_nil, List.append_nil, List.append_assoc, List.cons_append, List.nil_append, pushStr,
      len_append]

theorem emit_option_eq (node : AgentNode) (e : MarkdownEmitter) :
    emitOption opts node e = e.append ((optionFrame opts node).lay []) := by
  have hopen : ("  [option" : Text) = "  " ++ "[" ++ "option" := rfl
  simp only [emitOption, optionFrame, append_marked, push_attrs_eq, tagOpen, textOf_cons,
    textOf_append, Piece.text, textOf_nil, List.append_nil, List.append_assoc, List.flatMap_cons,
    List.flatMap_nil, List.flatMap_append, pushStr, len_append, List.cons_append, List.nil_append,
    hopen]

/-! ## Roles with children -/

omit [F64Display] in
/-- A frame without a mark is printed part by part. -/
theorem append_around (e : MarkdownEmitter) (before after trail : List Piece)
    (fs : List Fragment) :
    e.append ((Frame.around none before after trail).lay fs) =
      (((e.pushStr (textOf before)).append (concat fs)).pushStr (textOf after)).pushStr
        (textOf trail) := by
  simp only [push_str_eq, MarkdownEmitter.append_append, Frame.lay, Mark.wrap]

omit [F64Display] in
/-- So is one with a mark, whose span is noted. -/
theorem append_around_marked (e : MarkdownEmitter) (m : Mark) (before after trail : List Piece)
    (fs : List Fragment) :
    e.append ((Frame.around (some m) before after trail).lay fs) =
      let inner := ((e.pushStr (textOf before)).append (concat fs)).pushStr (textOf after)
      (inner.pushStr (textOf trail)).pushSpan
        ⟨m.id, m.tag, len e.out, len inner.out, m.href, m.name⟩ := by
  simp [MarkdownEmitter.append, pushStr, pushSpan, Frame.lay, Mark.wrap, ofText, NodeSpan.shift,
    Function.comp_def, Nat.add_comm, Nat.add_left_comm]

variable {emitSub : EmitChild} {sub : Visit → Option Fragment} {ctx : Context}

/-- A child emits what its visit lays out, wherever the emitter stands at this list depth. -/
def ChildRefines (tree : AgentRenderTree) (opts : MarkdownOptions) (emitSub : EmitChild)
    (sub : Visit → Option Fragment) : Prop :=
  ∀ (ctx : Context) (id : AgentNodeId) (e : MarkdownEmitter), e.listDepth = ctx.listDepth →
    emitSub id e = (sub (childVisit tree opts ctx id)).map e.append

omit [F64Display] in
/-- The children are printed one behind the other. -/
theorem emit_children_eq (hsub : ChildRefines tree opts emitSub sub) (ctx : Context)
    (ids : List AgentNodeId) {e : MarkdownEmitter} (he : e.listDepth = ctx.listDepth) :
    emitChildren emitSub ids e =
      ((ids.map (childVisit tree opts ctx)).mapM sub).map (fun fs => e.append (concat fs)) := by
  rw [emitChildren, List.mapM_map, foldlM_eq_mapM (P := fun e => e.listDepth = ctx.listDepth) he
    (k := MarkdownEmitter.append) (fun _ _ h => h) fun e he id _ => hsub ctx id e he]
  simp only [foldl_append]
  rfl

theorem lay_visit_leaf {v : Visit} (h : next tree opts v = []) :
    layVisit tree opts sub v = some ((frame tree opts v).lay []) := by
  simp [expand, h]

/-- A visit that prints `before` and then its children one after the other. -/
theorem lay_visit_flow (hsub : ChildRefines tree opts emitSub sub) {ids : List AgentNodeId}
    {e : MarkdownEmitter} (he : e.listDepth = ctx.listDepth) {v : Visit} {before : List Piece}
    (hnext : next tree opts v = ids.map (childVisit tree opts ctx))
    (hframe : frame tree opts v = .print before) :
    emitChildren emitSub ids (e.pushStr (textOf before)) =
      (layVisit tree opts sub v).map e.append := by
  rw [emit_children_eq hsub ctx ids (by simpa using he), layVisit, expand, hnext,
    Option.map_map]
  simp only [Function.comp_def, hframe, append_around, textOf_nil, push_str_nil]

/-- The emitter prints the frame of a page. -/
theorem emit_page_eq (hsub : ChildRefines tree opts emitSub sub) (node : AgentNode)
    {e : MarkdownEmitter} (he : e.listDepth = ctx.listDepth) {v : Visit}
    (hnext : next tree opts v = node.children.map (childVisit tree opts ctx))
    (hframe : frame tree opts v = pageFrame opts node) :
    emitPage opts emitSub node e = (layVisit tree opts sub v).map e.append := by
  rw [pageFrame] at hframe
  cases hname : node.name with
  | none =>
      simp only [hname] at hframe
      simp only [emitPage, hname, ← lay_visit_flow hsub he hnext hframe, textOf_nil, push_str_nil]
  | some title =>
      simp only [hname] at hframe
      split_ifs at hframe with hplain <;>
        simp only [emitPage, hname, hplain, if_true, if_false, Bool.false_eq_true,
          ← lay_visit_flow hsub he hnext hframe, push_str_push_str, textOf_cons, Piece.text,
          textOf_nil, List.append_nil, List.append_assoc]

/-- `emit_region` and `emit_dialog` in Markdown mode. -/
theorem emit_box_eq (hsub : ChildRefines tree opts emitSub sub) (node : AgentNode)
    (tag : MarkdownTag) {e : MarkdownEmitter} (he : e.listDepth = ctx.listDepth) {v : Visit}
    (hnext : next tree opts v = node.children.map (childVisit tree opts ctx))
    (hframe : frame tree opts v = boxFrame node tag) :
    emitBox emitSub node tag e = (layVisit tree opts sub v).map e.append := by
  rw [layVisit, expand, hnext, Option.map_map]
  simp only [emitBox, push_attrs_eq, push_str_push_str, bind, pure, Function.comp_def, hframe,
    boxFrame, append_around_marked]
  rw [emit_children_eq hsub ctx node.children (by simpa using he)]
  cases (node.children.map (childVisit tree opts ctx)).mapM sub with
  | none => rfl
  | some fs =>
      simp only [Option.map_some, Option.bind_some, tagOpen, textOf_cons, textOf_append, Piece.text,
        textOf_nil, List.append_nil, List.append_assoc, List.cons_append, List.flatMap_cons,
        List.flatMap_nil]

omit [F64Display] in
theorem challenge_line_eq (node : AgentNode) :
    challengeLine node = textOf (challengePieces node) := by
  unfold challengePieces challengeLine
  split_ifs
  · cases node.description <;>
      simp only [textOf_cons, Piece.text, textOf_nil, List.append_nil, List.append_assoc,
        Option.getD_none, Option.getD_some]
  · rfl

/-- The emitter prints the frame of a region. -/
theorem emit_region_eq (hsub : ChildRefines tree opts emitSub sub) (node : AgentNode)
    {e : MarkdownEmitter} (he : e.listDepth = ctx.listDepth) {v : Visit}
    (hnext : next tree opts v = node.children.map (childVisit tree opts ctx))
    (hframe : frame tree opts v = regionFrame opts node) :
    emitRegion opts emitSub node e = (layVisit tree opts sub v).map e.append := by
  unfold regionFrame at hframe
  unfold emitRegion
  split_ifs at hframe ⊢
  · rw [← lay_visit_flow hsub he hnext hframe]
    rw [challenge_line_eq]
  · exact emit_box_eq hsub node .region he hnext hframe

/-- The emitter prints the frame of a dialog. -/
theorem emit_dialog_eq (hsub : ChildRefines tree opts emitSub sub) (node : AgentNode)
    {e : MarkdownEmitter} (he : e.listDepth = ctx.listDepth) {v : Visit}
    (hnext : next tree opts v = node.children.map (childVisit tree opts ctx))
    (hframe : frame tree opts v = dialogFrame opts node) :
    emitDialog opts emitSub node e = (layVisit tree opts sub v).map e.append := by
  unfold dialogFrame at hframe
  unfold emitDialog
  split_ifs at hframe ⊢
  · rw [← lay_visit_flow hsub he hnext hframe]
    cases node.name <;>
      simp only [challenge_line_eq, push_str_push_str, textOf_append, textOf_cons, Piece.text,
        textOf_nil, List.append_nil, List.append_assoc]
  · exact emit_box_eq hsub node .dialog he hnext hframe

/-- The emitter prints the frame of a list. -/
theorem emit_list_eq (hsub : ChildRefines tree opts emitSub sub) (node : AgentNode)
    {e : MarkdownEmitter} (he : e.listDepth = ctx.listDepth) {v : Visit}
    (hnext : next tree opts v =
      node.children.map (childVisit tree opts { ctx with listDepth := ctx.listDepth + 1 }))
    (hframe : frame tree opts v = .print []) :
    emitList emitSub node e = (layVisit tree opts sub v).map e.append := by
  rw [layVisit, expand, hnext, Option.map_map]
  simp only [emitList, bind, pure, Function.comp_def, hframe, append_around, textOf_nil,
    push_str_nil]
  rw [emit_children_eq hsub { ctx with listDepth := ctx.listDepth + 1 } node.children
    (by simpa using he)]
  cases (node.children.map _).mapM sub <;> rfl

/-- The emitter prints the frame of a list item. -/
theorem emit_list_item_eq (hsub : ChildRefines tree opts emitSub sub) (node : AgentNode)
    {e : MarkdownEmitter} (he : e.listDepth = ctx.listDepth) {v : Visit}
    (hnext : next tree opts v =
      node.children.map (childVisit tree opts { ctx with inItem := true }))
    (hframe : frame tree opts v = .item ctx.listDepth) :
    emitListItem emitSub node e = (layVisit tree opts sub v).map e.append := by
  rw [layVisit, expand, hnext, Option.map_map]
  have hbullet : e.pushStr ((List.replicate e.listDepth "  ".toList).flatten ++ "- ".toList) =
      e.pushStr (bullet ctx.listDepth) := by rw [bullet, he]
  simp only [emitListItem, push_str_push_str, bind, pure, Function.comp_def, hframe, hbullet]
  rw [emit_children_eq hsub { ctx with inItem := true } node.children (by simpa using he)]
  cases (node.children.map (childVisit tree opts { ctx with inItem := true })).mapM sub with
  | none => rfl
  | some fs =>
      have hdrop : dropBytes (len (e.pushStr (bullet ctx.listDepth)).out)
          ((e.pushStr (bullet ctx.listDepth)).append (concat fs)).out = (concat fs).text :=
        dropBytes_append _ _
      have htake : takeBytes (len (e.pushStr (bullet ctx.listDepth)).out)
          ((e.pushStr (bullet ctx.listDepth)).append (concat fs)).out =
            (e.pushStr (bullet ctx.listDepth)).out := takeBytes_append _ _
      simp only [Option.map_some, Option.bind_some, hdrop, htake]
      simp [MarkdownEmitter.append, pushStr, Frame.lay, Function.comp_def, Nat.add_comm]

/-- The emitter prints the frame of a select. -/
theorem emit_select_eq (node : AgentNode) (e : MarkdownEmitter)
    (hrole : node.structuralRole = .select) :
    some (emitSelect tree opts node e) =
      (layVisit tree opts (layVisit tree opts sub) (.node .block ctx node)).map e.append := by
  by_cases hplain : isPlain opts
  · rw [lay_visit_leaf (by simp [next, blockNext, hrole, hplain])]
    simp only [emitSelect, frame, blockFrame, hrole, selectFrame, hplain, if_true,
      emit_select_plain_eq, Option.map_some]
  · have hoptions : ∀ e : MarkdownEmitter, (shownOptions tree opts node).foldl
        (fun e child => emitOption opts child e) e =
          e.append (concat ((shownOptions tree opts node).map fun child =>
            (optionFrame opts child).lay [])) := by
      intro e
      rw [← foldl_append, List.foldl_map]
      simp only [emit_option_eq]
    have hnext : (next tree opts (.node .block ctx node)).mapM (layVisit tree opts sub) =
        some ((shownOptions tree opts node).map fun child => (optionFrame opts child).lay []) := by
      rw [mapM_eq_some_iff]
      simp only [next, blockNext, hrole, hplain, List.forall₂_map_left_iff, if_false,
        Bool.false_eq_true, List.forall₂_map_right_iff]
      exact List.forall₂_same.mpr fun child _ => lay_visit_leaf rfl
    rw [layVisit, expand, hnext]
    simp only [emitSelect, hplain, if_false, Bool.false_eq_true, Option.map_some, frame, blockFrame,
      hrole, selectFrame, append_around_marked, hoptions, push_attrs_eq, push_str_push_str, tagOpen,
      textOf_cons, textOf_append, Piece.text, textOf_nil, List.append_nil, List.append_assoc,
      List.cons_append, List.flatMap_cons, List.flatMap_append, List.flatMap_nil]
    rfl

/-! ## Tables -/

omit [F64Display] in
/-- The spans and the count of a fragment whose text is not printed here. -/
def absorb (e : MarkdownEmitter) (f : Fragment) : MarkdownEmitter :=
  { e with
    index := e.index ++ f.spans.map (NodeSpan.shift (len e.out))
    skipped := e.skipped + f.skipped }

omit [F64Display] in
/-- The spans of cells are kept, and their texts are not. -/
theorem foldl_absorb (e : MarkdownEmitter) (fs : List Fragment) :
    fs.foldl absorb e =
      { e with
        index := e.index ++ (fs.flatMap Fragment.spans).map (NodeSpan.shift (len e.out))
        skipped := e.skipped + (fs.map Fragment.skipped).sum } := by
  induction fs generalizing e with
  | nil => simp
  | cons f fs ih => simp [ih, absorb, Nat.add_assoc]

/-- The fragment of a cell, without the separator in front of it. -/
abbrev layCell (tree : AgentRenderTree) (opts : MarkdownOptions) (sub : Visit → Option Fragment)
    (ctx : Context) (id : AgentNodeId) : Option Fragment :=
  layVisit tree opts sub (cellVisit tree ctx true id)

/-- A cell is laid out and absorbed. -/
theorem render_cell_eq (hsub : ChildRefines tree opts emitSub sub) (id : AgentNodeId)
    {e : MarkdownEmitter} (he : e.listDepth = ctx.listDepth) :
    renderCell tree opts emitSub id e =
      (layCell tree opts sub ctx id).map fun f => (f.text, absorb e f) := by
  unfold renderCell layCell cellVisit
  cases tree.find id with
  | none =>
      simp [show layVisit tree opts sub (.missing true) = some _ from lay_visit_leaf rfl, frame,
        Frame.lay, cellSep, cellText, absorb, default, concat]
  | some cell =>
      simp only
      split_ifs with hcell
      · rw [layVisit, expand, Option.map_map]
        simp only [next, hcell, if_true, bind, pure, Function.comp_def, frame]
        rw [emit_children_eq hsub { ctx with inCell := true } cell.children (by simpa using he)]
        cases (cell.children.map (childVisit tree opts { ctx with inCell := true })).mapM sub with
        | none => rfl
        | some fs =>
            -- the cell is printed into the buffer, and then cut out of it again
            have hdrop : dropBytes (len e.out) (e.append (concat fs)).out = (concat fs).text :=
              dropBytes_append _ _
            have htake : takeBytes (len e.out) (e.append (concat fs)).out = e.out :=
              takeBytes_append _ _
            simp only [Option.map_some, Option.bind_some, hdrop, htake]
            simp [MarkdownEmitter.append, absorb, Frame.lay, cellSep, cellText]
      · rw [lay_visit_leaf (by simp [next, hcell])]
        simp [frame, Frame.lay, cellSep, cellText, absorb, default, concat, collapse, trim,
          trimStart, trimEnd]

omit [F64Display] in
/-- Fragments with a separator in front of all but the first. -/
def separated : List Fragment → List Fragment
  | [] => []
  | f :: fs => f :: fs.map fun g => { g with text := " | " ++ g.text }

omit [F64Display] in
theorem intercalate_cons (sep t : Text) (ts : List Text) :
    List.intercalate sep (t :: ts) = t ++ (ts.map (sep ++ ·)).flatten := by
  induction ts generalizing t with
  | nil => simp [List.intercalate]
  | cons u ts ih =>
      rw [List.map_cons, List.flatten_cons, List.append_assoc sep u, ← ih u]
      simp [List.intercalate]

omit [F64Display] in
theorem separated_text (fs : List Fragment) :
    ((separated fs).map Fragment.text).flatten =
      List.intercalate (" | " : Text) (fs.map Fragment.text) := by
  cases fs with
  | nil => rfl
  | cons f fs =>
      rw [List.map_cons, intercalate_cons]
      simp [separated, Function.comp_def]

omit [F64Display] in
theorem separated_spans (fs : List Fragment) :
    (separated fs).flatMap Fragment.spans = fs.flatMap Fragment.spans := by
  cases fs <;> simp [separated, List.flatMap_map]

omit [F64Display] in
theorem separated_skipped (fs : List Fragment) :
    (separated fs).map Fragment.skipped = fs.map Fragment.skipped := by
  cases fs <;> simp [separated, Function.comp_def]

/-- A cell behind another one has the separator in front. -/
theorem lay_cell_separated (id : AgentNodeId) :
    layVisit tree opts sub (cellVisit tree ctx false id) =
      (layCell tree opts sub ctx id).map fun g => { g with text := " | " ++ g.text } := by
  unfold layCell cellVisit
  cases tree.find id <;>
    simp [layVisit, expand, next, frame, Frame.lay, cellSep, Function.comp_def]

/-- The cells of a row, with bars between them. -/
theorem map_cells_eq (ids : List AgentNodeId) :
    (flagFirst (cellVisit tree ctx) ids).mapM (layVisit tree opts sub) =
      (ids.mapM (layCell tree opts sub ctx)).map separated := by
  cases ids with
  | nil => rfl
  | cons id ids =>
      have htail : ∀ ids : List AgentNodeId,
          (ids.map (cellVisit tree ctx false)).mapM (layVisit tree opts sub) =
            (ids.mapM (layCell tree opts sub ctx)).map
              (List.map fun g => { g with text := " | " ++ g.text }) := by
        intro ids
        induction ids with
        | nil => rfl
        | cons id ids ih =>
            rw [List.map_cons, List.mapM_cons, List.mapM_cons, ih, lay_cell_separated]
            cases layCell tree opts sub ctx id <;>
              cases ids.mapM (layCell tree opts sub ctx) <;> rfl
      have hfirst : layVisit tree opts sub (cellVisit tree ctx true id) =
          layCell tree opts sub ctx id := rfl
      rw [flagFirst, List.mapM_cons, List.mapM_cons, htail, hfirst]
      cases layCell tree opts sub ctx id <;>
        cases ids.mapM (layCell tree opts sub ctx) <;> rfl

/-- A row is laid out cell by cell. -/
theorem render_row_cells_eq (hsub : ChildRefines tree opts emitSub sub) (row : AgentNode)
    {e : MarkdownEmitter} (he : e.listDepth = ctx.listDepth) :
    renderRowCells tree opts emitSub row e =
      (row.children.mapM (layCell tree opts sub ctx)).map
        fun fs => (fs.map Fragment.text, fs.foldl absorb e) := by
  have hfold : ∀ (fs : List Fragment) (cells : List Text) (e : MarkdownEmitter),
      fs.foldl (fun s f => (s.1 ++ [f.text], absorb s.2 f)) (cells, e) =
        (cells ++ fs.map Fragment.text, fs.foldl absorb e) := by
    intro fs
    induction fs with
    | nil => simp
    | cons f fs ih => simp [ih]
  rw [renderRowCells, foldlM_eq_mapM (P := fun s => s.2.listDepth = ctx.listDepth)
    (g := layCell tree opts sub ctx) (k := fun s f => (s.1 ++ [f.text], absorb s.2 f)) he
    (fun _ _ h => h)]
  · simp only [hfold, List.nil_append]
  · intro s hs id _
    simp only [render_cell_eq hsub id hs, bind, pure]
    cases layCell tree opts sub ctx id <;> rfl

/-- A row printed between `lead` and `trail`. -/
theorem emit_row_eq (hsub : ChildRefines tree opts emitSub sub) (row : AgentNode)
    {e : MarkdownEmitter} (he : e.listDepth = ctx.listDepth) (header : Bool) {lead trail : Text}
    (hframe : rowFrame opts header row = .row lead trail) :
    (renderRowCells tree opts emitSub row e).map (fun r =>
        ((r.2.pushStr lead).pushStr (List.intercalate (" | " : Text) r.1)).pushStr trail) =
      (layVisit tree opts (layVisit tree opts sub) (.node (.row header) ctx row)).map e.append := by
  rw [render_row_cells_eq hsub row he, layVisit, expand, next, map_cells_eq]
  simp only [Option.map_map, Function.comp_def, frame, hframe, foldl_absorb]
  congr 1
  funext fs
  simp [MarkdownEmitter.append, pushStr, Frame.lay, separated_text, separated_spans,
    separated_skipped]

/-- The layout of the row `row` of a table. -/
abbrev layRow (tree : AgentRenderTree) (opts : MarkdownOptions) (sub : Visit → Option Fragment)
    (ctx : Context) (header : Bool) (row : AgentNode) : Option Fragment :=
  layVisit tree opts (layVisit tree opts sub) (.node (.row header) ctx row)

/-- The rows of a table, one after the other. -/
theorem emit_rows_eq (hsub : ChildRefines tree opts emitSub sub) (rows : List AgentNode)
    {e : MarkdownEmitter} (he : e.listDepth = ctx.listDepth) {header : Bool} {lead trail : Text}
    (hframe : ∀ row, rowFrame opts header row = .row lead trail)
    {step : MarkdownEmitter → AgentNode → Option MarkdownEmitter}
    (hstep : ∀ e row, step e row = (renderRowCells tree opts emitSub row e).map fun r =>
      ((r.2.pushStr lead).pushStr (List.intercalate (" | " : Text) r.1)).pushStr trail) :
    rows.foldlM step e =
      (rows.mapM (layRow tree opts sub ctx header)).map fun fs => e.append (concat fs) := by
  rw [foldlM_eq_mapM (P := fun e => e.listDepth = ctx.listDepth)
    (g := layRow tree opts sub ctx header) (k := MarkdownEmitter.append) he (fun _ _ h => h)
    fun e he row _ => by rw [hstep, emit_row_eq hsub row he header (hframe row)]]
  simp only [foldl_append]

/-- The rows below a table. -/
theorem lay_rows_eq (node : AgentNode) (hrole : node.structuralRole = .table) :
    layVisit tree opts (layVisit tree opts (layVisit tree opts sub)) (.node .block ctx node) =
      (match tableRows tree node with
        | [] => some []
        | row :: rows => do
            let f ← layRow tree opts sub ctx true row
            let fs ← rows.mapM (layRow tree opts sub ctx false)
            pure (f :: fs)).map (tableFrame tree opts node).lay := by
  simp only [layVisit, expand, next, blockNext, hrole, frame, blockFrame]
  cases tableRows tree node with
  | nil => rfl
  | cons row rows => rw [flagFirst, List.mapM_cons, List.mapM_map]; rfl

/-- The emitter prints the frame of a plain table. -/
theorem emit_table_plain_eq (hsub : ChildRefines tree opts emitSub sub) (node : AgentNode)
    {e : MarkdownEmitter} (he : e.listDepth = ctx.listDepth) (hrole : node.structuralRole = .table)
    (hplain : isPlain opts) :
    emitTablePlain tree opts emitSub node e =
      (layVisit tree opts (layVisit tree opts (layVisit tree opts sub))
        (.node .block ctx node)).map e.append := by
  have hframe : ∀ header row, rowFrame opts header row = .row [] "\n" := by
    simp [rowFrame, hplain]
  -- in plain mode the first row is laid out like the others
  have hfirst : ∀ row, layRow tree opts sub ctx true row = layRow tree opts sub ctx false row := by
    intro row
    simp only [layRow, layVisit, expand, next, frame, hframe]
  rw [lay_rows_eq node hrole, emitTablePlain,
    emit_rows_eq hsub (tableRows tree node) he (hframe false) fun e row => by
      cases renderRowCells tree opts emitSub row e <;> simp]
  cases hrows : tableRows tree node with
  | nil => simp [tableFrame, hrows, hplain, append_print, concat]
  | cons row rows =>
      simp only [hfirst, List.mapM_cons, tableFrame, hrows, bind, pure, Option.map_map,
        reduceCtorEq, if_false]
      cases layRow tree opts sub ctx false row <;>
        cases rows.mapM (layRow tree opts sub ctx false) <;>
        simp [append_around, Piece.text]

/-- The emitter prints the frame of a table. -/
theorem emit_table_eq (hsub : ChildRefines tree opts emitSub sub) (node : AgentNode)
    {e : MarkdownEmitter} (he : e.listDepth = ctx.listDepth)
    (hrole : node.structuralRole = .table) :
    emitTable tree opts emitSub node e =
      (layVisit tree opts (layVisit tree opts (layVisit tree opts sub))
        (.node .block ctx node)).map e.append := by
  by_cases hplain : isPlain opts
  · simp only [emitTable, hplain, if_true, emit_table_plain_eq hsub node he hrole hplain]
  rw [lay_rows_eq node hrole]
  cases hrows : tableRows tree node with
  | nil =>
      simp only [emitTable, hplain, if_false, Bool.false_eq_true, hrows, tableFrame, if_true,
        Option.map_some, append_print, tagOpen, textOf_cons, textOf_append, Piece.text, textOf_nil,
        List.flatMap_cons, List.flatMap_nil, Attribute.textOf_pieces, Attribute.markup,
        List.cons_append, List.append_nil, List.append_assoc]
      rfl
  | cons header rows =>
      have hbody : ∀ row, rowFrame opts false row = .row "| " " |\n" := by simp [rowFrame, hplain]
      have hheader := emit_row_eq hsub header he true
        (by simp only [rowFrame, hplain, if_false, Bool.false_eq_true, if_true]; rfl)
      simp only [emitTable, hplain, if_false, Bool.false_eq_true, hrows, tableFrame, reduceCtorEq,
        bind, pure]
      rw [← layRow] at hheader
      cases hrender : renderRowCells tree opts emitSub header e with
      | none =>
          simp only [hrender, Option.map_none] at hheader
          rw [Option.map_eq_none_iff.mp hheader.symm]
          rfl
      | some r =>
          simp only [hrender, Option.map_some] at hheader
          obtain ⟨f, hf, he'⟩ := Option.map_eq_some_iff.mp hheader.symm
          have hdepth : (e.append f).listDepth = ctx.listDepth := he
          -- the header row is followed by the rule, in one push each
          have hstart : (((pushRow r.2 r.1).pushStr " |\n|").pushStr
              (List.replicate (Nat.max header.children.length 1) " --- |".toList).flatten).pushStr
                "\n" = e.append f := by
            rw [he']
            simp only [pushRow, push_str_push_str, List.append_assoc]
          simp only [hf, Option.bind_some, hstart]
          rw [emit_rows_eq hsub rows hdepth hbody fun e row => by
            cases renderRowCells tree opts emitSub row e <;> simp [pushRow]]
          cases rows.mapM (layRow tree opts sub ctx false) <;>
            simp [append_around, Piece.text, ← foldl_append]

/-! ## Nodes, children, views -/

/-- The emitter prints the plan of every node. -/
theorem emit_node_eq (hsub : ChildRefines tree opts emitSub sub) (node : AgentNode)
    {e : MarkdownEmitter} (he : e.listDepth = ctx.listDepth) :
    emitNode tree opts emitSub node e =
      (planVisit tree opts sub (.node .block ctx node)).map e.append := by
  have hflow : isFlow node.structuralRole → frame tree opts (.node .block ctx node) = .print [] →
      emitChildren emitSub node.children e =
        (layVisit tree opts sub (.node .block ctx node)).map e.append := by
    intro hrole hframe
    have hnext : next tree opts (.node .block ctx node) =
        node.children.map (childVisit tree opts ctx) := by
      cases hr : node.structuralRole <;> simp_all [next, blockNext, isFlow]
    simpa using lay_visit_flow hsub he hnext hframe
  cases hrole : node.structuralRole with
  | page =>
      simp only [emitNode, planVisit, hrole, reduceCtorEq, if_false]
      exact emit_page_eq hsub node he (by simp [next, blockNext, hrole, isFlow])
        (by simp [frame, blockFrame, hrole])
  | region | menu | tab | frame | shadowRoot =>
      simp only [emitNode, planVisit, hrole, reduceCtorEq, if_false]
      exact emit_region_eq hsub node he (by simp [next, blockNext, hrole, isFlow])
        (by simp [PageText.frame, blockFrame, hrole])
  | dialog =>
      simp only [emitNode, planVisit, hrole, reduceCtorEq, if_false]
      exact emit_dialog_eq hsub node he (by simp [next, blockNext, hrole, isFlow])
        (by simp [frame, blockFrame, hrole])
  | list =>
      simp only [emitNode, planVisit, hrole, reduceCtorEq, if_false]
      exact emit_list_eq hsub node he (by simp [next, blockNext, hrole])
        (by simp [frame, blockFrame, hrole])
  | listItem =>
      simp only [emitNode, planVisit, hrole, reduceCtorEq, if_false]
      exact emit_list_item_eq hsub node he (by simp [next, blockNext, hrole])
        (by simp [frame, blockFrame, hrole])
  | table =>
      simp only [emitNode, planVisit, hrole, if_true]
      exact emit_table_eq hsub node he hrole
  | select =>
      simp only [emitNode, planVisit, hrole, reduceCtorEq, if_false, if_true]
      exact emit_select_eq node e hrole
  | row | cell | form | unknown =>
      simp only [emitNode, planVisit, hrole, reduceCtorEq, if_false]
      exact hflow (by simp [hrole, isFlow]) (by simp [frame, blockFrame, hrole])
  | heading | paragraph | text | link | button | textbox | checkbox | radio | image | canvas
  | video =>
      simp only [emitNode, planVisit, hrole, reduceCtorEq, if_false]
      rw [lay_visit_leaf (by simp [next, blockNext, hrole, isFlow])]
      simp [frame, blockFrame, hrole, emit_heading_node_eq, emit_text_block_eq, emit_actionable_eq,
        emit_canvas_eq, emit_video_eq]

/-- Emitting a child at any call depth is laying it out at that depth and appending the fragment. -/
theorem emit_child_eq (depth : Nat) :
    ChildRefines tree opts (emitChild tree opts depth) (plan tree opts depth) := by
  induction depth with
  | zero => intro ctx id e he; rfl
  | succ depth ih =>
      intro ctx id e he
      have hskip : (planVisit tree opts (plan tree opts depth) .skipped).map e.append =
          some e.skip := by
        rw [planVisit, lay_visit_leaf rfl, Option.map_some, frame, ← skip_eq]
        simp
      rw [emitChild, plan, childVisit]
      cases tree.find id with
      | none => exact hskip.symm
      | some node =>
          have hnode := emit_node_eq ih node he
          cases hinvisible : opts.includeInvisible <;> cases hdisabled : opts.includeDisabled <;>
            cases hvisible : node.state.visible <;> cases henabled : node.state.enabled <;>
            simp [passes, hinvisible, hdisabled, hvisible, henabled, hskip, hnode]

/-- The fragment of the whole page, at most `depth` blocks deep. -/
def pagePlan (tree : AgentRenderTree) (opts : MarkdownOptions) (depth : Nat) : Option Fragment :=
  match tree.find tree.root with
  | some root => layVisit tree opts (plan tree opts depth) (rootVisit root)
  | none => some default

/-- A view is the layout of the page inside its envelope. -/
theorem emit_eq (depth : Nat) :
    emit tree opts depth = (pagePlan tree opts depth).map fun f => finish opts (new.append f) := by
  rw [emit, pagePlan]
  cases tree.find tree.root with
  | none => simp [default, MarkdownEmitter.append, new]
  | some root =>
      have hdepth : new.listDepth = (⟨0, false, false⟩ : Context).listDepth := rfl
      have hpage : emitPage opts (emitChild tree opts depth) root new =
          (layVisit tree opts (plan tree opts depth) (rootVisit root)).map new.append :=
        emit_page_eq (emit_child_eq depth) root hdepth rfl rfl
      simp only [hpage, bind, pure]
      cases layVisit tree opts (plan tree opts depth) (rootVisit root) <;> rfl

/-! ## The envelope -/

omit [F64Display] in
/-- The envelope in front of the printed page. -/
def envelopeOpen (opts : MarkdownOptions) : Text := if opts.raw then [] else envelopePrefix

omit [F64Display] in
/-- The envelope behind the printed page `out`. -/
def envelopeClose (opts : MarkdownOptions) (out : Text) : Text :=
  if opts.raw then [] else (if out.getLast? = some '\n' then [] else "\n") ++ envelopeSuffix

omit [F64Display] in
theorem finish_content (e : MarkdownEmitter) :
    (finish opts e).content = envelopeOpen opts ++ (e.out ++ envelopeClose opts e.out) := by
  cases hraw : opts.raw with
  | true => simp [finish, envelopeOpen, envelopeClose, hraw]
  | false =>
      have hne : envelopePrefix ≠ [] := by decide
      simp only [finish, envelopeOpen, envelopeClose, hraw, Bool.false_eq_true, if_false, hne,
        List.append_assoc]

omit [F64Display] in
theorem finish_index (e : MarkdownEmitter) :
    (finish opts e).nodeIndex = e.index.map (NodeSpan.shift (len (envelopeOpen opts))) := by
  simp only [finish]
  rfl

omit [F64Display] in
theorem Visited.next {v w : Visit} (hv : Visited tree opts v) (hw : w ∈ next tree opts v) :
    Visited tree opts w := by
  obtain ⟨root, hroot, hpath⟩ := hv
  exact ⟨root, hroot, hpath.tail hw⟩

/-- What every visit of the page passes up holds of the whole page. -/
theorem page_plan_induction {P : Visit → Fragment → Prop}
    (hstep : ∀ v fs, Visited tree opts v → List.Forall₂ P (next tree opts v) fs →
      P v ((frame tree opts v).lay fs)) {depth : Nat} {f : Fragment} {root : AgentNode}
    (hroot : tree.find tree.root = some root) (h : pagePlan tree opts depth = some f) :
    P (rootVisit root) f := by
  have hvisited : StepRule tree opts fun v f => Visited tree opts v → P v f := by
    intro v fs hfs hv
    refine hstep v fs hv ?_
    have hbelow := (List.forall₂_and_left _ _).mpr ⟨fun w hw => hv.next hw, hfs⟩
    exact hbelow.imp fun w f hwf => hwf.2 hwf.1
  simp only [pagePlan, hroot] at h
  exact lay_visit_induction hvisited (fun v f => plan_induction hvisited) h
    ⟨root, hroot, .refl⟩

end Refinement

end BrowsAI.PageText
