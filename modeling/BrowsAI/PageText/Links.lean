import BrowsAI.Library.LinkPattern
import BrowsAI.PageText.Spans

/-!
# Reading the link syntax back

A link or an image whose URL resolves is printed as `[text](url)`. Outside of list items and table
cells its markup stands in the content at the offsets of its span, `flow_marked`. The URL and the
name come from the page and are copied as they are, so a reader of the pattern gets the URL back
only under the condition of `link_reads_back_iff`.
-/

namespace BrowsAI.PageText

open Utf8 AgentTree Fragment Relation LinkPattern

/-! ## Markup in the flow of the page -/

section Flow

variable [F64Display] {tree : AgentRenderTree} {opts : MarkdownOptions}

/-- The fragment holds the markup of the visit `w`, and a span that cuts it out. -/
def Holds (tree : AgentRenderTree) (opts : MarkdownOptions) (w : Visit) (m : Mark)
    (f : Fragment) : Prop :=
  ∃ p t q, Markup tree opts w m t ∧ f.text = p ++ (t ++ q) ∧
    ⟨m.id, m.tag, len p, len p + len t, m.href, m.name⟩ ∈ f.spans

variable {w : Visit} {m : Mark}

theorem Holds.append_right {f : Fragment} (h : Holds tree opts w m f) (g : Fragment) :
    Holds tree opts w m (f ++ g) := by
  obtain ⟨p, t, q, hmarkup, htext, hspan⟩ := h
  exact ⟨p, t, q ++ g.text, hmarkup, by simp [htext], by simp [hspan]⟩

theorem Holds.append_left {f : Fragment} (h : Holds tree opts w m f) (g : Fragment) :
    Holds tree opts w m (g ++ f) := by
  obtain ⟨p, t, q, hmarkup, htext, hspan⟩ := h
  refine ⟨g.text ++ p, t, q, hmarkup, by simp [htext], ?_⟩
  rw [append_spans, List.mem_append, List.mem_map]
  refine .inr ⟨_, hspan, ?_⟩
  simp only [NodeSpan.shift, len_append, NodeSpan.mk.injEq, and_true, true_and]
  omega

theorem Holds.concat {f : Fragment} (h : Holds tree opts w m f) {fs : List Fragment}
    (hf : f ∈ fs) : Holds tree opts w m (concat fs) := by
  induction fs with
  | nil => simp at hf
  | cons g fs ih =>
      rcases List.mem_cons.mp hf with rfl | hf
      · exact h.append_right _
      · exact (ih hf).append_left g

/-- What a fragment holds is held by the frame around it. -/
theorem Holds.around {f : Fragment} (h : Holds tree opts w m f) {fs : List Fragment} (hf : f ∈ fs)
    (mark : Option Mark) (before after trail : List Piece) :
    Holds tree opts w m ((Frame.around mark before after trail).lay fs) := by
  refine Holds.append_right ?_ _
  have hinner := ((h.concat hf).append_left (ofText (textOf before))).append_right
    (ofText (textOf after))
  cases mark with
  | none => exact hinner
  | some m' =>
      obtain ⟨p, t, q, hmarkup, htext, hspan⟩ := hinner
      exact ⟨p, t, q, hmarkup, htext, List.mem_append_left _ hspan⟩

/-- A visit that is not inside a list item or a table cell is not below one. -/
theorem flow_step (v : Visit) (fs : List Fragment) (hv : Visited tree opts v)
    (hfs : List.Forall₂ (fun v f => Laid tree opts v f ∧ ∀ w m, Reaches tree opts v w →
      w.mark tree opts = some m → w.inItem = false → w.inCell = false → Holds tree opts w m f)
        (next tree opts v) fs) :
    Laid tree opts v ((frame tree opts v).lay fs) ∧ ∀ w m, Reaches tree opts v w →
      w.mark tree opts = some m → w.inItem = false → w.inCell = false →
        Holds tree opts w m ((frame tree opts v).lay fs) := by
  have hlaid : List.Forall₂ (Laid tree opts) (next tree opts v) fs := hfs.imp fun _ _ h => h.1
  refine ⟨.lay hlaid, ?_⟩
  intro w m hpath hmark hitem hcell
  have hnode : w.context ≠ none := context_of_mark .refl hmark
  -- the visit itself, or one below a successor, which has its markup already
  rcases hpath.cases_head with rfl | ⟨u, hu, huw⟩
  · cases hframe : frame tree opts v with
    | around mark before after trail =>
        obtain rfl : mark = some m := by simpa [Visit.mark, Frame.mark, hframe] using hmark
        refine ⟨[], _, textOf trail, .intro hframe hlaid, ?_, ?_⟩
        · simp [Frame.lay, ofText]
        · simp [Frame.lay, Mark.wrap, ofText]
    | skip | item | row | cell => simp [Visit.mark, Frame.mark, hframe] at hmark
  obtain ⟨f, hf, -, hholds⟩ := Unfold.exists_of_mem_left hfs hu
  have hu' := context_of_mark huw hmark
  rcases frame_cases tree opts v with ⟨-, hnext⟩ |
    ⟨-, mark, before, after, trail, hframe⟩ | ⟨hisItem, -⟩ | ⟨hrow, -⟩ | ⟨hisCell, -⟩
  · simp [hnext] at hu
  · rw [hframe]
    exact (hholds w m huw hmark hitem hcell).around hf mark before after trail
  · have hinside : u.inItem := by rw [(inherits_of_next hu hu').1, hisItem, Bool.or_true]
    rw [in_item_of_reaches huw hnode hinside] at hitem
    cases hitem
  · rw [in_cell_of_reaches huw hnode (in_cell_of_row hrow hu hu')] at hcell
    cases hcell
  · have hinside := in_cell_of_visited hv hisCell (context_of_next hu)
    rw [in_cell_of_reaches hpath hnode hinside] at hcell
    cases hcell

/-- The markup of a visit that is not inside a list item or a table cell stands in the content at
the offsets of its span. -/
theorem flow_marked {depth : Nat} {view : MarkdownView} (hview : emit tree opts depth = some view)
    (hw : Visited tree opts w) (hmark : w.mark tree opts = some m) (hitem : w.inItem = false)
    (hcell : w.inCell = false) :
    ∃ span ∈ view.nodeIndex, span.id = m.id ∧ span.tag = m.tag ∧ span.href = m.href ∧
      Markup tree opts w m (slice view.content span.start span.stop) := by
  rw [emit_eq, Option.map_eq_some_iff] at hview
  obtain ⟨f, hplan, rfl⟩ := hview
  obtain ⟨root, hroot, hpath⟩ := hw
  obtain ⟨p, t, q, hmarkup, htext, hspan⟩ :=
    (page_plan_induction flow_step hroot hplan).2 w m hpath hmark hitem hcell
  refine ⟨⟨m.id, m.tag, len (envelopeOpen opts ++ p), len (envelopeOpen opts ++ p) + len t, m.href,
    m.name⟩, ?_, rfl, rfl, rfl, ?_⟩
  · rw [finish_index]
    refine List.mem_map.mpr ⟨⟨m.id, m.tag, len p, len p + len t, m.href, m.name⟩, ?_, ?_⟩
    · simpa [MarkdownEmitter.new, MarkdownEmitter.append] using hspan
    · simp only [NodeSpan.shift, len_append, NodeSpan.mk.injEq, and_true, true_and]
      omega
  · have hcontent : (finish opts (MarkdownEmitter.new.append f)).content =
        (envelopeOpen opts ++ p) ++ (t ++ (q ++ envelopeClose opts f.text)) := by
      rw [finish_content]
      simp [MarkdownEmitter.new, MarkdownEmitter.append, htext]
    rw [hcontent, slice_append]
    exact hmarkup

end Flow

/-! ## Links and images -/

/-- The tags of the roles that have a link syntax. -/
def linkTag : StructuralRole → Option MarkdownTag
  | .link => some .link
  | .image => some .image
  | _ => none

section Links

variable [F64Display] {tree : AgentRenderTree} {opts : MarkdownOptions}

/-- The text between the brackets of the link syntax. -/
def shownText (opts : MarkdownOptions) (node : AgentNode) (tag : MarkdownTag) : Text :=
  let bodyText := actionableBodyText node tag opts
  if tag = .image ∧ bodyText = [] then "image" else bodyText

variable {ctx : Context} {node : AgentNode} {tag : MarkdownTag} {url : Text}

/-- A link is its text in brackets with its address behind. -/
theorem link_frame (tree : AgentRenderTree) (ctx : Context) (hformat : opts.format = .markdown)
    (htag : linkTag node.structuralRole = some tag) (hurl : resolvedUrl node tag = some url) :
    ∃ before trail, frame tree opts (.node .block ctx node) =
        .around (some ⟨node.id, tag, some url, node.name⟩) before [] trail ∧
      textOf before = (if tag = .image then ['!'] else []) ++
        ('[' :: shownText opts node tag ++ linkTail url) := by
  have hframe : frame tree opts (.node .block ctx node) = actionableFrame opts node tag := by
    unfold linkTag at htag
    split at htag <;> cases htag <;> simp [frame, blockFrame, *]
  have hplain : isPlain opts = false := by simp [isPlain, hformat]
  rw [hframe]
  simp only [actionableFrame, hplain, Bool.false_eq_true, if_false, hurl]
  refine ⟨_, _, rfl, ?_⟩
  by_cases himage : tag = .image
  · subst himage
    by_cases hbody : actionableBodyText node .image opts = [] <;>
      simp [hbody, shownText, linkTail, Piece.text]
  · simp [himage, shownText, linkTail, Piece.text]

omit [F64Display] in
/-- The reader passes over the mark of an image. -/
theorem read_link_markup (tag : MarkdownTag) (s : Text) :
    readLink ((if tag = .image then ['!'] else []) ++ s) = readLink s := by
  split_ifs
  · simp [readLink, matchLink]
  · simp

/-- The emitter returns on a tree without cycles, and whenever it does, the markup of a link or an
image in the flow of the page stands at the offsets of its span; the reader gets back the URL of the
span exactly when the URL has no `)` and the name leaves the brackets readable. -/
theorem link_reads_back_iff (tree : AgentRenderTree) (opts : MarkdownOptions)
    (hformat : opts.format = .markdown) :
    (tree.Acyclic → ∃ bound, ∀ depth ≥ bound, ∃ view, emit tree opts depth = some view) ∧
      ∀ depth view, emit tree opts depth = some view →
        ∀ ctx node tag url, Visited tree opts (.node .block ctx node) →
          linkTag node.structuralRole = some tag → ctx.inItem = false → ctx.inCell = false →
          resolvedUrl node tag = some url →
          ∃ span ∈ view.nodeIndex, span.id = node.id ∧ span.tag = tag ∧ span.href = some url ∧
            Markup tree opts (.node .block ctx node) ⟨node.id, tag, some url, node.name⟩
              (slice view.content span.start span.stop) ∧
            (readLink (slice view.content span.start span.stop) = some url ↔
              ')' ∉ url ∧ Readable ('[' :: shownText opts node tag) url) := by
  refine ⟨eventually_emit opts, ?_⟩
  intro depth view hview ctx node tag url hv htag hitem hcell hurl
  obtain ⟨before, trail, hframe, hbefore⟩ := link_frame tree ctx hformat htag hurl
  obtain ⟨span, hspan, hid, hspanTag, hhref, hmarkup⟩ :=
    flow_marked hview hv (m := ⟨node.id, tag, some url, node.name⟩)
      (by simp [Visit.mark, Frame.mark, hframe]) hitem hcell
  refine ⟨span, hspan, hid, hspanTag, hhref, hmarkup, ?_⟩
  generalize slice view.content span.start span.stop = t at hmarkup
  cases hmarkup with
  | @intro before' after' trail' fs marked below =>
      rw [hframe] at marked
      obtain ⟨-, rfl, rfl, -⟩ := Frame.around.inj marked
      have hleaf : next tree opts (.node .block ctx node) = [] := by
        unfold linkTag at htag
        split at htag <;> cases htag <;> simp [next, blockNext, isFlow, *]
      rw [hleaf, List.forall₂_nil_left_iff] at below
      subst below
      simp only [concat_nil_text, textOf_nil, List.append_nil, hbefore, read_link_markup]
      exact readLink_print

end Links

/-- The link of `listPage`. -/
def moreLink : AgentNode :=
  { AgentNode.plain "more" .link (some "More") [] with value := some (.url "/more") }

/-- The link of a list is read back. -/
theorem list_page_link_reads_back : ∃ view,
    @emit F64Display.ofWhole listPage default 3 = some view ∧ ∃ span ∈ view.nodeIndex,
      span.href = some "/more" ∧
        readLink (slice view.content span.start span.stop) = some "/more" := by
  let display := F64Display.ofWhole
  have hreturns : (emit listPage default 3).isSome := by decide
  obtain ⟨view, hview⟩ := Option.isSome_iff_exists.mp hreturns
  have hvisited : Visited listPage default (.node .block ⟨0, false, false⟩ moreLink) :=
    ⟨.plain "page" .page (some "Home") ["more", "list"], by decide,
      .single (by decide)⟩
  obtain ⟨span, hspan, -, -, hhref, -, hread⟩ :=
    (@link_reads_back_iff F64Display.ofWhole listPage default rfl).2 3 view hview
      ⟨0, false, false⟩ moreLink .link "/more" hvisited rfl rfl rfl (by decide)
  have hreadable : Readable ('[' :: shownText default moreLink .link) "/more" :=
    ⟨[], "More", by decide, by simp, .inl (by decide)⟩
  exact ⟨view, hview, span, hspan, hhref, hread.mpr ⟨by decide, hreadable⟩⟩

/-- A link to `/good` whose name closes the brackets in front of another URL. -/
def goodLink : AgentNode :=
  { AgentNode.plain "go" .link (some "Home](/evil)") [] with value := some (.url "/good") }

/-- A page with that link alone. -/
def evilPage : AgentRenderTree where
  root := "page"
  nodes := [.plain "page" .page none ["go"], goodLink]
  generation := 0
  truncated := false

/-- The pattern reads another URL than the one in the span. -/
theorem evil_page_reads_evil :
    Visited evilPage default (.node .block ⟨0, false, false⟩ goodLink) ∧
      linkTag goodLink.structuralRole = some .link ∧ resolvedUrl goodLink .link = some "/good" ∧
      ∃ view, @emit F64Display.ofWhole evilPage default 2 = some view ∧
        ∃ span ∈ view.nodeIndex, span.id = goodLink.id ∧ span.href = some "/good" ∧
          readLink (slice view.content span.start span.stop) = some "/evil" := by
  let display := F64Display.ofWhole
  refine ⟨⟨.plain "page" .page none ["go"], by decide, .single (by decide)⟩, rfl,
    by decide, ?_⟩
  have hreturns : (emit evilPage default 2).isSome := by decide
  obtain ⟨view, hview⟩ := Option.isSome_iff_exists.mp hreturns
  have hspan : ∀ view ∈ emit evilPage default 2, ∃ span ∈ view.nodeIndex,
      span.id = goodLink.id ∧ span.href = some "/good" ∧
        readLink (slice view.content span.start span.stop) = some "/evil" := by decide
  exact ⟨view, hview, hspan view hview⟩

end BrowsAI.PageText
