import BrowsAI.PageText.Termination

/-!
# Marked visits and their markup

A visit that records a span is marked. Its markup is the text that the emitter pushes between the
two offsets of the span: `Markup`, over the relation `Laid` between a visit and its fragment. It
starts and ends with the tokens of the node, `Markup.tokens`. What is known of a marked visit from
the visits above it, that it is inside a list item or a table cell, is in its context.
-/

namespace BrowsAI.PageText

open Utf8 AgentTree Fragment Relation

/-! ## Tokens -/

/-- The token that the markup of a node starts with. -/
def openToken (node : AgentNode) (tag : MarkdownTag) : Text :=
  match resolvedUrl node tag with
  | some _ => if tag = .image then "![" else "["
  | none => "[" ++ tag.asStr ++ " id=\"" ++ escapeAttrInline node.id ++ "\""

/-- The token that the markup of a node ends with. -/
def closeToken (node : AgentNode) (tag : MarkdownTag) : Text :=
  match resolvedUrl node tag with
  | some url => "](" ++ url ++ ")"
  | none => "[/" ++ tag.asStr ++ "]"

/-- An opening tag with its id first. -/
theorem text_of_tag_open (tag id close : Text) (attrs : List Attribute) :
    textOf (tagOpen tag (⟨"id", id⟩ :: attrs) close) =
      "[" ++ tag ++ " id=\"" ++ escapeAttrInline id ++ "\"" ++
        (textOf (attrs.flatMap Attribute.pieces) ++ close) := by
  have hkey : (" " ++ "id" ++ "=\"" : Text) = " id=\"" := rfl
  simp only [tagOpen, List.flatMap_cons, textOf_append, textOf_cons, textOf_nil, Piece.text,
    Attribute.textOf_pieces, Attribute.markup, List.cons_append, List.append_nil, hkey,
    List.append_assoc]

theorem close_token_ends (node : AgentNode) (tag : MarkdownTag) :
    ∃ t c, closeToken node tag = t ++ [c] ∧ ¬ isWhitespace c := by
  unfold closeToken
  cases resolvedUrl node tag with
  | some url => exact ⟨"](" ++ url, ')', rfl, by decide⟩
  | none => exact ⟨"[/" ++ tag.asStr, ']', rfl, by decide⟩

/-- The span that a frame records. -/
def Frame.mark : Frame → Option Mark
  | .around mark _ _ _ => mark
  | _ => none

section Markup

variable [F64Display] (tree : AgentRenderTree) (opts : MarkdownOptions)

/-- `Laid v f`: the emitter prints the fragment `f` for the visit `v`. -/
inductive Laid : Visit → Fragment → Prop where
  | lay {v : Visit} {fs : List Fragment} (below : List.Forall₂ Laid (next tree opts v) fs) :
      Laid v ((frame tree opts v).lay fs)

/-- The span that a visit records, up to its offsets. -/
def Visit.mark (v : Visit) : Option Mark := (PageText.frame tree opts v).mark

/-- `Markup v m t`: the visit records the span `m`, and pushes `t` between its two offsets. -/
inductive Markup (v : Visit) (m : Mark) : Text → Prop where
  | intro {before after trail : List Piece} {fs : List Fragment}
      (marked : frame tree opts v = .around (some m) before after trail)
      (below : List.Forall₂ (Laid tree opts) (next tree opts v) fs) :
      Markup v m (textOf before ++ ((concat fs).text ++ textOf after))

end Markup

section Frames

variable [F64Display] {tree : AgentRenderTree} {opts : MarkdownOptions}

theorem Markup.mark {v : Visit} {m : Mark} {t : Text} (h : Markup tree opts v m t) :
    v.mark tree opts = some m := by
  cases h with
  | intro marked _ => simp [Visit.mark, Frame.mark, marked]

/-- A marked frame carries the two tokens of its node, unless it is a video or an option. -/
structure Tokens (node : AgentNode) (m : Mark) (before after : List Piece) (leaf : Prop) :
    Prop where
  id_eq : m.id = node.id
  opens : openToken node m.tag <+: textOf before
  closes : closeToken node m.tag <:+ textOf after ∨
    leaf ∧ after = [] ∧ closeToken node m.tag <:+ textOf before

theorem actionable_marked (hformat : opts.format = .markdown) (node : AgentNode)
    (tag : MarkdownTag) : ∃ m, (actionableFrame opts node tag).mark = some m ∧ m.id = node.id := by
  have hplain : isPlain opts = false := by simp [isPlain, hformat]
  simp only [actionableFrame, hplain, Bool.false_eq_true, if_false]
  cases resolvedUrl node tag with
  | some url => exact ⟨_, rfl, rfl⟩
  | none => exact ⟨_, rfl, rfl⟩

/-- An actionable has its tokens. -/
theorem actionable_tokens {node : AgentNode} {tag : MarkdownTag} {m : Mark}
    {before after trail : List Piece} {leaf : Prop} (hleaf : leaf)
    (hformat : opts.format = .markdown)
    (h : actionableFrame opts node tag = .around (some m) before after trail) :
    Tokens node m before after leaf := by
  have hplain : isPlain opts = false := by simp [isPlain, hformat]
  simp only [actionableFrame, hplain, Bool.false_eq_true, if_false] at h
  cases hurl : resolvedUrl node tag with
  | some url =>
      simp only [hurl] at h
      cases h
      refine ⟨rfl, ?_, .inr ⟨hleaf, rfl, ?_⟩⟩
      · simp only [openToken, hurl, textOf_append]
        split_ifs
        all_goals exact (List.prefix_append _ _).trans (List.prefix_append _ _)
      · simp only [closeToken, hurl, textOf_append]
        simp [Piece.text]
  | none =>
      simp only [hurl] at h
      cases h
      refine ⟨rfl, ?_, .inr ⟨hleaf, rfl, ?_⟩⟩
      · simp only [openToken, hurl, textOf_append, text_of_tag_open, List.append_assoc]
        simp
      · simp only [closeToken, hurl, textOf_append, textOf_cons, textOf_nil, Piece.text,
          List.append_nil]
        exact List.suffix_append _ _

omit [F64Display] in
/-- So has a box. -/
theorem box_tokens {node : AgentNode} {m : Mark} {attrs : List Attribute} {close : Text}
    {leaf : Prop} (hid : m.id = node.id) (htag : resolvedUrl node m.tag = none) :
    Tokens node m (tagOpen m.tag.asStr (⟨"id", node.id⟩ :: attrs) close)
      [.fixed ("[/" ++ m.tag.asStr ++ "]")] leaf := by
  refine ⟨hid, ?_, .inl ?_⟩
  · simp only [openToken, htag, text_of_tag_open]
    exact List.prefix_append _ _
  · simp [closeToken, htag, Piece.text]

/-- The visit prints a video. -/
def Visit.isVideo : Visit → Bool
  | .node .block _ block => block.structuralRole = .video
  | _ => false

/-- The visit prints an option of a select. -/
def Visit.isOption : Visit → Bool
  | .node .option _ _ => true
  | _ => false

/-- What a visit marks starts and ends with the tokens of its node. -/
theorem marked_tokens {place : Place} {ctx : Context} {node : AgentNode} {m : Mark}
    {before after trail : List Piece} (hformat : opts.format = .markdown)
    (hvideo : ¬ (Visit.node place ctx node).isVideo)
    (hoption : ¬ (Visit.node place ctx node).isOption)
    (h : frame tree opts (.node place ctx node) = .around (some m) before after trail) :
    Tokens node m before after (next tree opts (.node place ctx node) = []) := by
  have hplain : isPlain opts = false := by simp [isPlain, hformat]
  cases place with
  | page =>
      simp only [PageText.frame, pageFrame] at h
      split at h <;> simp [hplain] at h
  | option => exact absurd rfl hoption
  | row header =>
      simp only [PageText.frame, rowFrame, hplain] at h
      split_ifs at h
  | cell first => simp [PageText.frame] at h
  | block =>
      simp only [PageText.frame, blockFrame] at h
      cases hrole : node.structuralRole with
      | page =>
          simp only [hrole, pageFrame] at h
          split at h <;> simp [hplain] at h
      | heading =>
          simp only [hrole, headingFrame, hplain] at h
          split_ifs at h <;> simp at h
      | paragraph | text =>
          simp only [hrole, textBlockFrame] at h
          split_ifs at h
          simp at h
      | link | button | textbox | checkbox | radio | image =>
          simp only [hrole] at h
          exact actionable_tokens (by simp [next, blockNext, hrole, isFlow]) hformat h
      | select =>
          simp only [hrole, selectFrame, hplain, Bool.false_eq_true, if_false] at h
          cases h
          exact box_tokens rfl rfl
      | table =>
          simp only [hrole, tableFrame, hplain] at h
          split_ifs at h <;> simp at h
      | region | menu | tab | frame | shadowRoot =>
          simp only [hrole, regionFrame, boxFrame, hplain, Bool.false_eq_true, if_false] at h
          cases h
          exact box_tokens rfl rfl
      | dialog =>
          simp only [hrole, dialogFrame, boxFrame, hplain, Bool.false_eq_true, if_false] at h
          cases h
          exact box_tokens rfl rfl
      | canvas => simp [hrole, canvasFrame] at h
      | video => exact absurd (by simp [Visit.isVideo, hrole]) hvideo
      | listItem | list | row | cell | form | unknown => simp [hrole] at h

/-- What is marked starts with its opening tag and ends with its closing one. -/
theorem Markup.tokens {place : Place} {ctx : Context} {node : AgentNode} {m : Mark} {t : Text}
    (hformat : opts.format = .markdown) (hvideo : ¬ (Visit.node place ctx node).isVideo)
    (hoption : ¬ (Visit.node place ctx node).isOption)
    (h : Markup tree opts (.node place ctx node) m t) :
    m.id = node.id ∧ openToken node m.tag <+: t ∧ closeToken node m.tag <:+ t := by
  cases h with
  | @intro before after trail fs marked below =>
      obtain ⟨hid, hopens, hcloses⟩ := marked_tokens hformat hvideo hoption marked
      refine ⟨hid, hopens.trans (List.prefix_append _ _), ?_⟩
      rcases hcloses with hafter | ⟨hleaf, rfl, hbefore⟩
      · exact hafter.trans ((List.suffix_append _ _).trans (List.suffix_append _ _))
      · rw [hleaf, List.forall₂_nil_left_iff] at below
        subst below
        simpa using hbefore

end Frames

/-! ## Marks along the walk -/

/-- The context of a visit of a node. -/
def Visit.context : Visit → Option Context
  | .node _ ctx _ => some ctx
  | _ => none

/-- The visit is within a list item. -/
def Visit.inItem (v : Visit) : Bool := v.context.any Context.inItem

/-- The visit is within a cell. -/
def Visit.inCell (v : Visit) : Bool := v.context.any Context.inCell

section Contexts

variable [F64Display] {tree : AgentRenderTree} {opts : MarkdownOptions}

theorem node_of_mark {v : Visit} {m : Mark} (h : v.mark tree opts = some m) :
    ∃ place ctx node, v = .node place ctx node := by
  cases v with
  | skipped | missing => simp [Visit.mark, Frame.mark, frame] at h
  | node place ctx node => exact ⟨place, ctx, node, rfl⟩

omit [F64Display] in
/-- What the visit of a node below a visit inherits from it. -/
theorem inherits_of_next {v w : Visit} (hw : w ∈ next tree opts v) (hnode : w.context ≠ none) :
    w.inItem = (v.inItem || v.isItem) ∧ (v.inCell → w.inCell) := by
  obtain ⟨place, ctx, node, rfl, hcases⟩ := next_cases hw
  have hitem : (Visit.node place ctx node).inItem = ctx.inItem := rfl
  have hcell : (Visit.node place ctx node).inCell = ctx.inCell := rfl
  rw [hitem, hcell]
  rcases hcases with ⟨id, -, ctx', rfl, hinItem, hinCell⟩ | ⟨rfl, hrole, child, -, rfl⟩ |
    ⟨rfl, hrole, header, row, -, rfl⟩ | ⟨⟨header, rfl⟩, first, id, -, rfl⟩
  · cases hv : childVisit tree opts ctx' id with
    | skipped | missing => simp [hv, Visit.context] at hnode
    | node place' ctx'' child =>
        obtain ⟨-, rfl, -⟩ := child_visit_eq_node hv
        rw [← hinItem, ← hinCell]
        exact ⟨rfl, fun h => h⟩
  · simp [Visit.inItem, Visit.inCell, Visit.context, Visit.isItem, hrole]
  · simp [Visit.inItem, Visit.inCell, Visit.context, Visit.isItem, hrole]
  · cases hv : cellVisit tree ctx first id with
    | skipped | missing => simp [hv, Visit.context] at hnode
    | node place' ctx'' cell =>
        obtain ⟨-, rfl, -⟩ := cell_visit_eq_node hv
        simp [Visit.inItem, Visit.inCell, Visit.context, Visit.isItem]

omit [F64Display] in
theorem context_of_next {v w : Visit} (hw : w ∈ next tree opts v) : v.context ≠ none := by
  obtain ⟨place, ctx, node, rfl, -⟩ := next_cases hw
  simp [Visit.context]

omit [F64Display] in
/-- Below a table cell everything is inside a table cell. -/
theorem in_cell_of_reaches {v w : Visit} (h : Reaches tree opts v w) (hnode : w.context ≠ none)
    (hv : v.inCell) : w.inCell := by
  induction h with
  | refl => exact hv
  | tail _ hw ih => exact (inherits_of_next hw hnode).2 (ih (context_of_next hw))

omit [F64Display] in
/-- Inside a list item everything below is inside a list item. -/
theorem in_item_of_reaches {v w : Visit} (h : Reaches tree opts v w) (hnode : w.context ≠ none)
    (hv : v.inItem) : w.inItem := by
  induction h with
  | refl => exact hv
  | tail _ hw ih =>
      rw [(inherits_of_next hw hnode).1, ih (context_of_next hw), Bool.true_or]

/-- A visit that leads to a marked visit is the visit of a node. -/
theorem context_of_mark {v w : Visit} {m : Mark} (h : Reaches tree opts v w)
    (hmark : w.mark tree opts = some m) : v.context ≠ none := by
  rcases h.cases_head with rfl | ⟨u, hu, -⟩
  · obtain ⟨place, ctx, node, rfl⟩ := node_of_mark hmark
    simp [Visit.context]
  · exact context_of_next hu

omit [F64Display] in
/-- Only rows lead to cells. -/
theorem not_cell_of_next {v w : Visit} (hrow : ¬ v.IsRow) (hw : w ∈ next tree opts v) :
    ¬ w.IsCell := by
  obtain ⟨place, ctx, node, rfl, hcases⟩ := next_cases hw
  rcases hcases with ⟨id, -, ctx', rfl, -⟩ | ⟨-, -, child, -, rfl⟩ | ⟨-, -, header, row, -, rfl⟩ |
    ⟨⟨header, rfl⟩, -⟩
  · unfold childVisit
    split
    · exact fun h => h
    · split_ifs <;> exact fun h => h
  · exact fun h => h
  · exact fun h => h
  · exact absurd trivial hrow

omit [F64Display] in
/-- What a row leads to is inside a cell. -/
theorem in_cell_of_row {v w : Visit} (hrow : v.IsRow) (hw : w ∈ next tree opts v)
    (hnode : w.context ≠ none) : w.inCell := by
  obtain ⟨header, ctx, row, rfl⟩ := hrow.exists_node
  obtain ⟨first, id, -, rfl⟩ := mem_flag_first hw
  cases hcell : cellVisit tree ctx first id with
  | skipped | missing => simp [hcell, Visit.context] at hnode
  | node place' ctx' cell =>
      obtain ⟨-, rfl, -⟩ := cell_visit_eq_node hcell
      rfl

omit [F64Display] in
/-- The cells that the walk comes to are in a row. -/
theorem in_cell_of_visited {v : Visit} (h : Visited tree opts v) (hcell : v.IsCell)
    (hnode : v.context ≠ none) : v.inCell := by
  obtain ⟨root, -, hpath⟩ := h
  cases hpath with
  | refl => exact absurd hcell id
  | tail _ hw =>
      refine in_cell_of_row ?_ hw hnode
      by_contra hrow
      exact not_cell_of_next hrow hw hcell

omit [F64Display] in
/-- The walk stays in the tree. -/
theorem mem_nodes_of_visited {place : Place} {ctx : Context} {node : AgentNode}
    (h : Visited tree opts (.node place ctx node)) : node ∈ tree.nodes := by
  obtain ⟨root, hroot, hpath⟩ := h
  cases hpath with
  | refl => exact (AgentRenderTree.find_eq_some hroot).1
  | tail _ hw =>
      obtain ⟨place', ctx', parent, rfl, hcases⟩ := next_cases hw
      rcases hcases with ⟨id, -, _, hv, -⟩ | ⟨-, -, child, hchild, hv⟩ |
        ⟨-, -, _, row, hrow, hv⟩ | ⟨-, first, id, -, hv⟩
      · obtain ⟨-, -, hfind, -⟩ := child_visit_eq_node hv.symm
        exact (AgentRenderTree.find_eq_some hfind).1
      · cases hv
        obtain ⟨id, -, hfind, -⟩ := mem_shown_options hchild
        exact (AgentRenderTree.find_eq_some hfind).1
      · cases hv
        obtain ⟨id, -, hfind, -⟩ := mem_table_rows hrow
        exact (AgentRenderTree.find_eq_some hfind).1
      · obtain ⟨-, -, hfind⟩ := cell_visit_eq_node hv.symm
        exact (AgentRenderTree.find_eq_some hfind).1

/-- Blocks and options record the spans, each under the id of its node. -/
theorem mark_cases {v : Visit} {m : Mark} (hformat : opts.format = .markdown)
    (h : v.mark tree opts = some m) :
    ∃ place ctx node, v = .node place ctx node ∧ m.id = node.id ∧
      (place = .block ∨ place = .option) := by
  have hplain : isPlain opts = false := by simp [isPlain, hformat]
  obtain ⟨place, ctx, node, rfl⟩ := node_of_mark h
  refine ⟨place, ctx, node, rfl, ?_⟩
  cases place with
  | page =>
      simp only [Visit.mark, Frame.mark, frame, pageFrame, hplain] at h
      cases hname : node.name <;> simp [hname] at h
  | row header =>
      simp only [Visit.mark, Frame.mark, frame, rowFrame, hplain] at h
      cases header <;> simp at h
  | cell first => simp [Visit.mark, Frame.mark, frame] at h
  | option =>
      obtain rfl : _ = m := Option.some.inj h
      exact ⟨rfl, .inr rfl⟩
  | block =>
      refine ⟨?_, .inl rfl⟩
      by_cases hvideo : (Visit.node .block ctx node).isVideo
      · have hrole : node.structuralRole = .video := by simpa [Visit.isVideo] using hvideo
        simp only [Visit.mark, Frame.mark, frame, blockFrame, hrole, videoFrame, hplain] at h
        obtain rfl : _ = m := Option.some.inj h
        rfl
      · cases hframe : frame tree opts (.node .block ctx node) with
        | around mark before after trail =>
            obtain rfl : mark = some m := by simpa [Visit.mark, Frame.mark, hframe] using h
            exact (marked_tokens hformat hvideo (by simp [Visit.isOption]) hframe).id_eq
        | skip | item | row | cell => simp [Visit.mark, Frame.mark, hframe] at h

end Contexts

end BrowsAI.PageText
