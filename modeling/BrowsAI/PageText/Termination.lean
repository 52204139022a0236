import BrowsAI.PageText.Refinement

/-!
# The emitter returns

On a tree without cycles the walk comes to its end: from some call depth on the emitter returns,
`eventually_emit`, and a larger depth gives the same view, `emit_mono`. The rows, cells, and options
of a table or a select are laid out within one call, so the argument is about the links of the tree
and their transitive closure.
-/

namespace BrowsAI.PageText

open Utf8 AgentTree Unfold Fragment Relation

variable [F64Display] {tree : AgentRenderTree} {opts : MarkdownOptions}

/-! ## More depth changes nothing -/

/-- A visit that is planned is planned in the same way at every greater depth. -/
theorem plan_visit_mono {sub sub' : Visit → Option Fragment}
    (hsub : ∀ v f, sub v = some f → sub' v = some f) {v : Visit} {f : Fragment}
    (h : planVisit tree opts sub v = some f) : planVisit tree opts sub' v = some f := by
  have hblock : ∀ v f, layVisit tree opts sub v = some f → layVisit tree opts sub' v = some f :=
    fun v f => expand_mono fun x _ y => hsub x y
  have hcell : ∀ v f, layVisit tree opts (layVisit tree opts sub) v = some f →
      layVisit tree opts (layVisit tree opts sub') v = some f :=
    fun v f => expand_mono fun x _ y => hblock x y
  unfold planVisit at h ⊢
  split at h
  · split_ifs at h ⊢
    · exact expand_mono (fun x _ y => hcell x y) h
    · exact hcell _ _ h
    · exact hblock _ _ h
  · exact hblock _ _ h

theorem plan_mono {depth depth' : Nat} (hdepth : depth ≤ depth') {v : Visit} {f : Fragment}
    (h : plan tree opts depth v = some f) : plan tree opts depth' v = some f := by
  induction depth generalizing depth' v f with
  | zero => simp [plan] at h
  | succ depth ih =>
      obtain ⟨deeper, rfl⟩ : ∃ k, depth' = k + 1 := ⟨depth' - 1, by omega⟩
      exact plan_visit_mono (fun _ _ hsub => ih (by omega) hsub) h

/-- A view does not change when the emitter may go deeper. -/
theorem emit_mono {depth depth' : Nat} (hdepth : depth ≤ depth') {view : MarkdownView}
    (h : emit tree opts depth = some view) : emit tree opts depth' = some view := by
  rw [emit_eq, Option.map_eq_some_iff] at h ⊢
  obtain ⟨f, hplan, hview⟩ := h
  refine ⟨f, ?_, hview⟩
  unfold pagePlan at hplan ⊢
  cases hroot : tree.find tree.root with
  | none => simpa [hroot] using hplan
  | some root =>
      simp only [hroot] at hplan ⊢
      exact expand_mono (fun x _ y => plan_mono hdepth) hplan

/-! ## Enough depth -/

theorem exists_lay_visit {sub : Visit → Option Fragment} {v : Visit}
    (h : ∀ w ∈ next tree opts v, ∃ f, sub w = some f) : ∃ f, layVisit tree opts sub v = some f :=
  exists_expand h

/-- All ids below `id` are laid out. -/
def LaysBelow (tree : AgentRenderTree) (opts : MarkdownOptions) (sub : Visit → Option Fragment)
    (id : AgentNodeId) : Prop :=
  ∀ below, TransGen tree.Links id below →
    ∀ ctx, ∃ f, sub (childVisit tree opts ctx below) = some f

omit [F64Display] in
/-- The visits below a block that is neither a table nor a select are children. -/
theorem mem_next_block {ctx : Context} {node : AgentNode} (htable : node.structuralRole ≠ .table)
    (hselect : node.structuralRole ≠ .select) {w : Visit}
    (hw : w ∈ next tree opts (.node .block ctx node)) :
    ∃ ctx', ∃ child ∈ node.children, w = childVisit tree opts ctx' child := by
  simp only [next, blockNext] at hw
  split at hw
  · obtain ⟨child, hchild, rfl⟩ := List.mem_map.mp hw
    exact ⟨_, child, hchild, rfl⟩
  · obtain ⟨child, hchild, rfl⟩ := List.mem_map.mp hw
    exact ⟨_, child, hchild, rfl⟩
  · exact absurd ‹_› htable
  · exact absurd ‹_› hselect
  · split_ifs at hw
    · obtain ⟨child, hchild, rfl⟩ := List.mem_map.mp hw
      exact ⟨_, child, hchild, rfl⟩
    · simp at hw

variable {sub : Visit → Option Fragment} {id : AgentNodeId}

/-- A cell is laid out when everything below its id is. -/
theorem exists_lay_cell (hbelow : LaysBelow tree opts sub id) (ctx : Context) (first : Bool) :
    ∃ f, layVisit tree opts sub (cellVisit tree ctx first id) = some f := by
  refine exists_lay_visit fun w hw => ?_
  unfold cellVisit at hw
  cases hfind : tree.find id with
  | none => simp [hfind, next] at hw
  | some cell =>
      simp only [hfind, next] at hw
      split_ifs at hw
      · obtain ⟨child, hchild, rfl⟩ := List.mem_map.mp hw
        exact hbelow child (.single ⟨cell, hfind, hchild⟩) _
      · simp at hw

omit [F64Display] in
theorem LaysBelow.child {node : AgentNode} (hbelow : LaysBelow tree opts sub id)
    (hfind : tree.find id = some node) {child : AgentNodeId} (hchild : child ∈ node.children) :
    LaysBelow tree opts sub child :=
  fun below hpath => hbelow below (.head ⟨node, hfind, hchild⟩ hpath)

theorem exists_lay_row {row : AgentNode} (hbelow : LaysBelow tree opts sub id)
    (hfind : tree.find id = some row) (ctx : Context) (header : Bool) :
    ∃ f, layVisit tree opts (layVisit tree opts sub) (.node (.row header) ctx row) = some f := by
  refine exists_lay_visit fun w hw => ?_
  obtain ⟨first, child, hchild, rfl⟩ := mem_flag_first hw
  exact exists_lay_cell (hbelow.child hfind hchild) ctx first

/-- A block is laid out when everything below its id is. -/
theorem exists_plan_visit {node : AgentNode} (hbelow : LaysBelow tree opts sub id)
    (hfind : tree.find id = some node) (ctx : Context) :
    ∃ f, planVisit tree opts sub (.node .block ctx node) = some f := by
  simp only [planVisit]
  split_ifs with htable hselect
  · refine exists_lay_visit fun w hw => ?_
    simp only [next, blockNext, htable] at hw
    obtain ⟨header, row, hrow, rfl⟩ := mem_flag_first hw
    obtain ⟨rowId, hrowId, hfindRow, -⟩ := mem_table_rows hrow
    exact exists_lay_row (hbelow.child hfind hrowId) hfindRow ctx header
  · refine exists_lay_visit fun w hw => ?_
    simp only [next, blockNext, hselect] at hw
    split_ifs at hw
    · simp at hw
    · obtain ⟨child, -, rfl⟩ := List.mem_map.mp hw
      exact exists_lay_visit (by simp [next])
  · refine exists_lay_visit fun w hw => ?_
    obtain ⟨ctx', child, hchild, rfl⟩ := mem_next_block htable hselect hw
    exact hbelow child (.single ⟨node, hfind, hchild⟩) ctx'

omit [F64Display] in
/-- Whatever is below some id is listed as a child. -/
theorem mem_children_of_below {below : AgentNodeId} (h : TransGen tree.Links id below) :
    below ∈ tree.nodes.flatMap AgentNode.children := by
  obtain ⟨parent, -, node, hnode, hmem⟩ := TransGen.tail'_iff.mp h
  exact List.mem_flatMap.mpr ⟨node, (AgentRenderTree.find_eq_some hnode).1, hmem⟩

/-- From some depth on everything below an id is laid out, when each id below it is. -/
theorem eventually_lays_below (opts : MarkdownOptions) (id : AgentNodeId)
    (h : ∀ below, TransGen tree.Links id below → ∃ bound, ∀ depth ≥ bound, ∀ ctx, ∃ f,
      plan tree opts depth (childVisit tree opts ctx below) = some f) :
    ∃ bound, ∀ depth ≥ bound, LaysBelow tree opts (plan tree opts depth) id := by
  obtain ⟨bound, hbound⟩ := eventually_forall_mem
    (P := fun depth below => TransGen tree.Links id below → ∀ ctx, ∃ f,
      plan tree opts depth (childVisit tree opts ctx below) = some f)
    (l := tree.nodes.flatMap AgentNode.children) fun below _ => by
      by_cases hpath : TransGen tree.Links id below
      · obtain ⟨bound, hbound⟩ := h below hpath
        exact ⟨bound, fun depth hdepth _ => hbound depth hdepth⟩
      · exact ⟨0, fun _ _ habsurd => absurd habsurd hpath⟩
  exact ⟨bound, fun depth hdepth below hpath =>
    hbound depth hdepth below (mem_children_of_below hpath) hpath⟩

/-- From some depth on a child is laid out. -/
theorem eventually_plan (hacyclic : tree.Acyclic) (id : AgentNodeId) :
    ∃ bound, ∀ depth ≥ bound, ∀ ctx, ∃ f,
      plan tree opts depth (childVisit tree opts ctx id) = some f := by
  have hwf := (wellFounded_of_acyclic tree.finite_links hacyclic).transGen
  induction id using hwf.induction with
  | _ id ih =>
      obtain ⟨bound, hbound⟩ := eventually_lays_below opts id
        fun below hpath => ih below (TransGen.swap _ _ hpath)
      refine ⟨bound + 1, fun depth hdepth ctx => ?_⟩
      obtain ⟨depth, rfl⟩ : ∃ k, depth = k + 1 := ⟨depth - 1, by omega⟩
      have hbelow := hbound depth (by omega)
      unfold childVisit plan
      cases hfind : tree.find id with
      | none => exact exists_lay_visit (by simp [next])
      | some node =>
          simp only
          split_ifs
          · exact exists_plan_visit hbelow hfind ctx
          · exact exists_lay_visit (by simp [next])

/-- On a tree without cycles the emitter returns from some call depth on. -/
theorem eventually_emit (opts : MarkdownOptions) (hacyclic : tree.Acyclic) :
    ∃ bound, ∀ depth ≥ bound, ∃ view, emit tree opts depth = some view := by
  simp only [emit_eq, Option.map_eq_some_iff]
  obtain ⟨bound, hbound⟩ := eventually_lays_below opts tree.root
    fun below _ => eventually_plan hacyclic below
  refine ⟨bound, fun depth hdepth => ?_⟩
  have hbelow := hbound depth hdepth
  suffices hpage : ∃ f, pagePlan tree opts depth = some f by
    obtain ⟨f, hf⟩ := hpage
    exact ⟨_, f, hf, rfl⟩
  unfold pagePlan
  cases hroot : tree.find tree.root with
  | none => exact ⟨_, rfl⟩
  | some root =>
      refine exists_lay_visit fun w hw => ?_
      obtain ⟨child, hchild, rfl⟩ := List.mem_map.mp hw
      exact hbelow child (.single ⟨root, hroot, hchild⟩) _

end BrowsAI.PageText
