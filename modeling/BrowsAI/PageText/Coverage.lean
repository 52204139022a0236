import BrowsAI.PageText.Spans

/-!
# How often a node is indexed

A node should have exactly one span for an agent to act on it. The emitter records one span each
time its walk marks the node, so the spans of a node are counted by the paths of the walk:
`counted_step`, and for a whole view `spans_of_node_iff`. A node that is reachable in the tree is
not on the walk when it is below a role that does not emit its children.
-/

namespace BrowsAI.PageText

open Utf8 AgentTree Fragment Relation Unfold

/-- The roles of the nodes that an agent can act on. -/
def isActionable : StructuralRole → Bool
  | .link | .button | .textbox | .checkbox | .radio | .select | .image => true
  | _ => false

section Coverage

variable [F64Display] (tree : AgentRenderTree) (opts : MarkdownOptions)

/-- The visit records a span of the node `id`. -/
def Marks (id : AgentNodeId) (v : Visit) : Prop :=
  ∃ m, v.mark tree opts = some m ∧ m.id = id

omit [F64Display] in
/-- The node `id` is found, and passes the filters. -/
def PassesAt (id : AgentNodeId) : Prop :=
  ∃ node, tree.find id = some node ∧ passes opts node

omit [F64Display] in
/-- The node `id` is reachable from the root through nodes that pass the filters, and passes them
itself. -/
inductive Shown : AgentNodeId → Prop where
  | root (found : PassesAt tree opts tree.root) : Shown tree.root
  | child {a b : AgentNodeId} (parent : Shown a) (link : tree.Links a b)
      (found : PassesAt tree opts b) : Shown b

/-- The number of spans of the node `id`. -/
def spanCount (id : AgentNodeId) (spans : List NodeSpan) : Nat :=
  spans.countP fun span => span.id = id

variable {tree opts} {id : AgentNodeId}

instance (v : Visit) : Decidable (Marks tree opts id v) :=
  match h : v.mark tree opts with
  | none => isFalse fun ⟨_, hm, _⟩ => by simp [h] at hm
  | some m =>
      if hid : m.id = id then isTrue ⟨m, h, hid⟩
      else isFalse fun ⟨_, hm, hid'⟩ => by
        rw [h] at hm
        exact hid (Option.some.inj hm ▸ hid')

omit [F64Display] in
@[simp] theorem span_count_append (spans spans' : List NodeSpan) :
    spanCount id (spans ++ spans') = spanCount id spans + spanCount id spans' :=
  List.countP_append

omit [F64Display] in
@[simp] theorem span_count_shift (n : Nat) (spans : List NodeSpan) :
    spanCount id (spans.map (NodeSpan.shift n)) = spanCount id spans := by
  simp only [spanCount, List.countP_map]
  rfl

omit [F64Display] in
theorem span_count_concat (fs : List Fragment) :
    spanCount id (concat fs).spans = (fs.map fun f => spanCount id f.spans).sum := by
  induction fs with
  | nil => rfl
  | cons f fs ih => simp [concat, ih]

omit [F64Display] in
theorem span_count_flat (fs : List Fragment) :
    spanCount id (fs.flatMap Fragment.spans) = (fs.map fun f => spanCount id f.spans).sum := by
  induction fs with
  | nil => rfl
  | cons f fs ih => simp [ih]

/-- A visit adds its own span, when it marks the node, to the spans below it. -/
theorem span_count_lay (v : Visit) (fs : List Fragment)
    (hskip : frame tree opts v = .skip → fs = []) :
    spanCount id ((frame tree opts v).lay fs).spans =
      (if Marks tree opts id v then 1 else 0) + (fs.map fun f => spanCount id f.spans).sum := by
  have hunmarked : v.mark tree opts = none → ¬ Marks tree opts id v := by
    rintro h ⟨m, hm, -⟩
    rw [h] at hm
    cases hm
  cases hframe : frame tree opts v with
  | skip =>
      have hmarks := hunmarked (by simp [Visit.mark, Frame.mark, hframe])
      obtain rfl := hskip hframe
      simp [hmarks, Frame.lay, spanCount]
  | around mark before after trail =>
      have hinner : spanCount id
          (ofText (textOf before) ++ concat fs ++ ofText (textOf after)).spans =
            (fs.map fun f => spanCount id f.spans).sum := by
        simp only [append_spans, ofText, List.map_nil, List.append_nil, List.nil_append,
          span_count_shift, span_count_concat]
      have htrail : spanCount id ((Frame.around mark before after trail).lay fs).spans =
          spanCount id (Mark.wrap mark
            (ofText (textOf before) ++ concat fs ++ ofText (textOf after))).spans := by
        simp [Frame.lay, ofText]
      rw [htrail]
      cases mark with
      | none =>
          have hmarks := hunmarked (by simp [Visit.mark, Frame.mark, hframe])
          simp only [Mark.wrap, hinner, hmarks, if_false, Nat.zero_add]
      | some m =>
          have hmarks : Marks tree opts id v ↔ m.id = id := by
            simp [Marks, Visit.mark, Frame.mark, hframe]
          -- the span of the mark comes behind those of the visits inside it
          rw [Mark.wrap, span_count_append, hinner, Nat.add_comm]
          by_cases hid : m.id = id <;> simp [hmarks, hid, spanCount]
  | item depth =>
      have hmarks := hunmarked (by simp [Visit.mark, Frame.mark, hframe])
      simp [hmarks, Frame.lay, span_count_concat]
  | row lead trail =>
      have hmarks := hunmarked (by simp [Visit.mark, Frame.mark, hframe])
      simp [hmarks, Frame.lay, span_count_flat]
  | cell sep fallback =>
      have hmarks := hunmarked (by simp [Visit.mark, Frame.mark, hframe])
      simp [hmarks, Frame.lay, span_count_concat]

/-- The spans of a visit are its own and those below. -/
theorem counted_step (id : AgentNodeId) : StepRule tree opts fun v f =>
    Counted (next tree opts) (Marks tree opts id) v (spanCount id f.spans) := by
  intro v fs hfs
  rw [span_count_lay]
  · exact .node (List.forall₂_map_right_iff.mpr hfs)
  · intro hskip
    rcases frame_cases tree opts v with ⟨-, hnext⟩ |
      ⟨-, mark, before, after, trail, hframe⟩ | ⟨-, depth, hframe⟩ | ⟨-, lead, trail, hframe⟩ |
      ⟨-, first, fallback, hframe, -⟩
    · rwa [hnext, List.forall₂_nil_left_iff] at hfs
    all_goals
      rw [hskip] at hframe
      cases hframe

/-- The positions along which the walk comes from the root to a visit that marks the node. -/
def MarkedAlong (tree : AgentRenderTree) (opts : MarkdownOptions) (id : AgentNodeId)
    (positions : List Nat) : Prop :=
  ∃ root, tree.find tree.root = some root ∧ ∃ v,
    Path (next tree opts) (rootVisit root) positions v ∧ Marks tree opts id v

/-- A node has one span exactly if one chain of positions marks it. -/
theorem span_count_emit {depth : Nat} {view : MarkdownView}
    (hview : emit tree opts depth = some view) :
    spanCount id view.nodeIndex = 1 ↔ ∃! positions, MarkedAlong tree opts id positions := by
  rw [emit_eq, Option.map_eq_some_iff] at hview
  obtain ⟨f, hplan, rfl⟩ := hview
  have hcount : spanCount id (finish opts (MarkdownEmitter.new.append f)).nodeIndex =
      spanCount id f.spans := by
    rw [finish_index, span_count_shift]
    simp [MarkdownEmitter.append, MarkdownEmitter.new]
  rw [hcount]
  cases hroot : tree.find tree.root with
  | none =>
      obtain rfl : default = f := by simpa [pagePlan, hroot] using hplan
      simp [MarkedAlong, hroot, default, spanCount]
  | some root =>
      have hcounted := page_plan_induction (fun v fs _ => counted_step id v fs) hroot hplan
      simpa [MarkedAlong, hroot] using hcounted.eq_one_iff

omit [F64Display] in
/-- The positions along which the walk comes from the root to the node, as a block or as an option
of a select. -/
def ComesTo (tree : AgentRenderTree) (opts : MarkdownOptions) (node : AgentNode)
    (positions : List Nat) : Prop :=
  ∃ root, tree.find tree.root = some root ∧ ∃ place ctx,
    Path (next tree opts) (rootVisit root) positions (.node place ctx node) ∧
      (place = .block ∨ place = .option)

/-- An actionable node is marked by the visits that come to it as a block or as an option, and by
no others. -/
theorem marks_iff {node : AgentNode} (hunique : tree.UniqueIds) (hformat : opts.format = .markdown)
    (hnode : node ∈ tree.nodes) (hrole : isActionable node.structuralRole) {v : Visit}
    (hv : Visited tree opts v) :
    Marks tree opts node.id v ↔
      ∃ place ctx, v = .node place ctx node ∧ (place = .block ∨ place = .option) := by
  have hplain : isPlain opts = false := by simp [isPlain, hformat]
  constructor
  · rintro ⟨m, hmark, hid⟩
    obtain ⟨place, ctx, node', rfl, hid', hplace⟩ := mark_cases hformat hmark
    have hfind := AgentRenderTree.find_of_mem hunique (mem_nodes_of_visited hv)
    rw [← hid', hid, AgentRenderTree.find_of_mem hunique hnode] at hfind
    obtain rfl := Option.some.inj hfind
    exact ⟨place, ctx, rfl, hplace⟩
  · rintro ⟨place, ctx, rfl, rfl | rfl⟩
    · cases hr : node.structuralRole with
      | link | button | textbox | checkbox | radio | image =>
          simp only [Marks, Visit.mark, frame, blockFrame, hr]
          exact actionable_marked hformat node _
      | select =>
          refine ⟨⟨node.id, .select, none, node.name⟩, ?_, rfl⟩
          simp [Visit.mark, Frame.mark, frame, blockFrame, hr, selectFrame, hplain]
      | _ => simp [hr, isActionable] at hrole
    · exact ⟨_, rfl, rfl⟩

/-- On a tree without cycles and with unique ids an actionable node has exactly one span when the
walk comes to it, as a block or as an option, along exactly one path. -/
theorem span_unique_iff (hacyclic : tree.Acyclic) (hunique : tree.UniqueIds)
    (hformat : opts.format = .markdown) :
    ∃ bound, ∀ depth ≥ bound, ∃ view, emit tree opts depth = some view ∧
      ∀ node ∈ tree.nodes, isActionable node.structuralRole → Shown tree opts node.id →
        (spanCount node.id view.nodeIndex = 1 ↔
          ∃! positions, ComesTo tree opts node positions) := by
  obtain ⟨bound, hbound⟩ := eventually_emit opts hacyclic
  refine ⟨bound, fun depth hdepth => ?_⟩
  obtain ⟨view, hview⟩ := hbound depth hdepth
  refine ⟨view, hview, fun node hnode hrole _ => ?_⟩
  rw [span_count_emit hview]
  refine existsUnique_congr fun positions => ?_
  constructor
  · rintro ⟨root, hroot, v, hpath, hmarks⟩
    obtain ⟨place, ctx, rfl, hplace⟩ :=
      (marks_iff hunique hformat hnode hrole ⟨root, hroot, hpath.reaches⟩).mp hmarks
    exact ⟨root, hroot, place, ctx, hpath, hplace⟩
  · rintro ⟨root, hroot, place, ctx, hpath, hplace⟩
    exact ⟨root, hroot, _, hpath, (marks_iff hunique hformat hnode hrole
      ⟨root, hroot, hpath.reaches⟩).mpr ⟨place, ctx, rfl, hplace⟩⟩

end Coverage

/-- One path of the walk leads to the button of `listPage`, which has one span. -/
theorem list_page_span_unique :
    ∃! positions, ComesTo listPage default (.plain "go" .button (some "Go") []) positions := by
  let display := F64Display.ofWhole
  have hids : (listPage.nodes.map AgentNode.id).Nodup := by decide
  obtain ⟨bound, hbound⟩ := @span_unique_iff F64Display.ofWhole listPage default
    (AgentRenderTree.acyclic_of_ordered (by decide)) hids rfl
  obtain ⟨view, hview, hunique⟩ := hbound (max bound 4) (le_max_left _ _)
  have hreturns : (emit listPage default 4).isSome := by decide
  obtain ⟨shown, hshown⟩ := Option.isSome_iff_exists.mp hreturns
  obtain rfl : shown = view :=
    Option.some.inj ((emit_mono (le_max_right _ _) hshown).symm.trans hview)
  have hcount : ∀ view ∈ emit listPage default 4, spanCount "go" view.nodeIndex = 1 := by
    decide
  have hpasses : ∀ id ∈ listPage.nodes.map AgentNode.id, PassesAt listPage default id := by
    intro id hid
    have h : ∀ id ∈ listPage.nodes.map AgentNode.id, ∃ node ∈ listPage.nodes,
        listPage.find id = some node ∧ passes default node := by decide
    obtain ⟨node, -, hnode⟩ := h id hid
    exact ⟨node, hnode⟩
  have hlist : Shown listPage default "list" :=
    .child (.root (hpasses _ (by decide))) ⟨_, rfl, by decide⟩
      (hpasses _ (by decide))
  have hitem : Shown listPage default "item" :=
    .child hlist ⟨.plain "list" .list none ["item"], by decide, by decide⟩
      (hpasses _ (by decide))
  have hgo : Shown listPage default "go" :=
    .child hitem ⟨.plain "item" .listItem none ["go"], by decide, by decide⟩
      (hpasses _ (by decide))
  exact (hunique _ (by decide) rfl hgo).mp (hcount shown hshown)

/-- A button in a paragraph. -/
def paragraphPage : AgentRenderTree where
  root := "page"
  nodes := [.plain "page" .page none ["text"], .plain "text" .paragraph (some "Press") ["go"],
    .plain "go" .button (some "Go") []]
  generation := 0
  truncated := false

/-- A paragraph does not emit its children, so the button has no span. -/
theorem paragraph_page_span_missing :
    paragraphPage.Acyclic ∧ paragraphPage.UniqueIds ∧
      AgentNode.plain "go" .button (some "Go") [] ∈ paragraphPage.nodes ∧
      Shown paragraphPage default "go" ∧
      ∃ view, @emit F64Display.ofWhole paragraphPage default 2 = some view ∧
        spanCount "go" view.nodeIndex = 0 := by
  let display := F64Display.ofWhole
  have hroot : Shown paragraphPage default "page" :=
    .root ⟨.plain "page" .page none ["text"], by decide, rfl⟩
  have htext : Shown paragraphPage default "text" :=
    .child hroot ⟨.plain "page" .page none ["text"], by decide, by decide⟩
      ⟨.plain "text" .paragraph (some "Press") ["go"], by decide, rfl⟩
  have hgo : Shown paragraphPage default "go" :=
    .child htext
      ⟨.plain "text" .paragraph (some "Press") ["go"], by decide, by decide⟩
      ⟨.plain "go" .button (some "Go") [], by decide, rfl⟩
  have hreturns : (emit paragraphPage default 2).isSome := by decide
  obtain ⟨view, hview⟩ := Option.isSome_iff_exists.mp hreturns
  have hcount : ∀ view ∈ emit paragraphPage default 2, spanCount "go" view.nodeIndex = 0 := by
    decide
  have hunique : (paragraphPage.nodes.map AgentNode.id).Nodup := by decide
  exact ⟨AgentRenderTree.acyclic_of_ordered (by decide), hunique, by decide, hgo,
    view, hview, hcount view hview⟩

end BrowsAI.PageText
