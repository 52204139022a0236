import BrowsAI.DomObserver.Removal
import BrowsAI.SemanticCompiler.Compile

/-!
# The root of a compiled tree

A compiled tree names its root by the URL of the page and its nodes by their engine ids, so the
root is never one of the nodes: `compile_not_rooted`. The nodes themselves hang together below the
node of the document root, `compile_reaches`.

`visit_induction` is the rule for both: what entering one node under a node of the tree preserves,
a whole visit preserves.
-/

namespace BrowsAI.SemanticCompiler

open Utf8 AgentTree DomObserver LayoutObserver Relation Unfold

/-- A walk from `tree.root` finds the root, and reaches every node. -/
def Rooted (tree : AgentRenderTree) : Prop :=
  (tree.find tree.root).isSome ∧
    ∀ node ∈ tree.nodes, ReflTransGen tree.Links tree.root node.id

/-! ## Entering a node -/

/-- A change of one node is found under its id. -/
theorem find_modify_first (change : AgentNode → AgentNode)
    (hchange : ∀ node, (change node).id = node.id) (nodes : List AgentNode)
    (parentId id : AgentNodeId) :
    (modifyFirst (fun node => node.id == parentId) change nodes).find?
        (fun node => node.id == id) =
      if id = parentId then (nodes.find? fun node => node.id == id).map change
      else nodes.find? fun node => node.id == id := by
  induction nodes with
  | nil => simp [modifyFirst]
  | cons node nodes ih =>
      by_cases hparent : node.id = parentId
      · subst hparent
        by_cases hid : node.id = id
        · simp [modifyFirst, hchange, hid]
        · have hid' : id ≠ node.id := fun heq => hid heq.symm
          simp [modifyFirst, hchange, hid, hid']
      · by_cases hid : node.id = id
        · subst hid
          simp [modifyFirst, hparent]
        · simp only [modifyFirst, hparent, beq_iff_eq, if_false, List.find?_cons_of_neg, hid,
            not_false_eq_true, ih]

section Enter

variable {layout : LayoutSnapshot} {raw : RawNode} {id : EngineNodeId} {tree : AgentRenderTree}

theorem compile_node_id (generation : UInt64) :
    (compileNode raw layout id generation).id = domId id := rfl

/-- A node that is there stays where it is found, with more children at most. -/
theorem find_enter (layout : LayoutSnapshot) (raw : RawNode) (id : EngineNodeId)
    (parent : Option AgentNodeId) {other : AgentNodeId} {node : AgentNode}
    (hnode : tree.find other = some node) :
    ∃ node', (enter layout raw id parent tree).find other = some node' ∧
      node.children ⊆ node'.children ∧ (parent = some other → domId id ∈ node'.children) := by
  simp only [AgentRenderTree.find] at hnode ⊢
  cases parent with
  | none => exact ⟨node, by simp [enter, adopt, List.find?_append, hnode], by simp, by simp⟩
  | some parentId =>
      have hmodify := find_modify_first
        (fun node => { node with children := node.children ++ [domId id] }) fun _ => rfl
      simp only [enter, adopt, List.find?_append, hmodify, hnode]
      split_ifs with hother
      · exact ⟨{ node with children := node.children ++ [domId id] }, rfl, by simp, by simp⟩
      · exact ⟨node, rfl, by simp, fun heq => absurd (Option.some.inj heq).symm hother⟩

theorem links_enter (parent : Option AgentNodeId) {a b : AgentNodeId} (hlink : tree.Links a b) :
    (enter layout raw id parent tree).Links a b := by
  obtain ⟨node, hnode, hb⟩ := hlink
  obtain ⟨node', hnode', hsub, -⟩ := find_enter layout raw id parent hnode
  exact ⟨node', hnode', hsub hb⟩

/-- The entered node is listed by its parent. -/
theorem parent_links_enter {parent : AgentNodeId} (hparent : (tree.find parent).isSome) :
    (enter layout raw id (some parent) tree).Links parent (domId id) := by
  obtain ⟨node, hnode⟩ := Option.isSome_iff_exists.mp hparent
  obtain ⟨node', hnode', -, hmem⟩ := find_enter layout raw id (some parent) hnode
  exact ⟨node', hnode', hmem rfl⟩

theorem ids_modify_first {p : AgentNode → Bool} {change : AgentNode → AgentNode}
    (hchange : ∀ node, (change node).id = node.id) (nodes : List AgentNode) :
    (modifyFirst p change nodes).map AgentNode.id = nodes.map AgentNode.id := by
  induction nodes with
  | nil => rfl
  | cons node nodes ih =>
      rw [modifyFirst]
      split_ifs
      · simp [hchange]
      · simp [ih]

/-- Entering a node adds its id to the ids of the tree. -/
theorem ids_enter (parent : Option AgentNodeId) :
    (enter layout raw id parent tree).nodes.map AgentNode.id =
      tree.nodes.map AgentNode.id ++ [domId id] := by
  cases parent with
  | none => simp [enter, adopt, compile_node_id]
  | some parentId =>
      simp only [enter, adopt, List.map_append, List.map_cons, List.map_nil, compile_node_id]
      rw [ids_modify_first]
      exact fun _ => rfl

theorem find_is_some_iff {tree : AgentRenderTree} {id : AgentNodeId} :
    (tree.find id).isSome ↔ id ∈ tree.nodes.map AgentNode.id := by
  simp [AgentRenderTree.find, List.find?_isSome]

end Enter

/-! ## A whole visit -/

variable {document : RawDocument} {layout : LayoutSnapshot}

/-- What entering a node under a node of the tree preserves, a visit preserves. -/
theorem visit_induction {P : AgentRenderTree → Prop}
    (henter : ∀ raw id parent tree, (tree.find parent).isSome → P tree →
      P (enter layout raw id (some parent) tree))
    {depth : Nat} {id : EngineNodeId} {parent : Option AgentNodeId} {tree tree' : AgentRenderTree}
    (hroot : ∀ raw, P (enter layout raw id parent tree))
    (h : visit document layout depth id parent tree = some tree') :
    P tree' ∧ ∀ other, (tree.find other).isSome → (tree'.find other).isSome := by
  induction depth generalizing id parent tree tree' with
  | zero => simp [visit] at h
  | succ depth ih =>
      simp only [visit, bind, Option.bind_eq_some_iff] at h
      obtain ⟨raw, -, hchildren⟩ := h
      have hfound : ∀ other, (tree.find other).isSome →
          ((enter layout raw id parent tree).find other).isSome := by
        intro other hother
        simp only [find_is_some_iff, ids_enter] at hother ⊢
        exact List.mem_append_left _ hother
      have hself : ((enter layout raw id parent tree).find (domId id)).isSome := by
        simp [find_is_some_iff, ids_enter]
      have hstart := hroot raw
      -- every child is visited under the entered node, which stays in the tree
      generalize enter layout raw id parent tree = entered at hchildren hfound hself hstart
      generalize raw.children = children at hchildren
      induction children generalizing entered with
      | nil =>
          simp only [List.foldlM_nil, pure, Option.some.injEq] at hchildren
          exact hchildren ▸ ⟨hstart, hfound⟩
      | cons child children ihchildren =>
          simp only [List.foldlM_cons, bind, Option.bind_eq_some_iff] at hchildren
          obtain ⟨next, hnext, hrest⟩ := hchildren
          obtain ⟨hP, hmono⟩ := ih (fun raw => henter raw child _ entered hself hstart) hnext
          exact ihchildren next (fun other hother => hmono _ (hfound other hother))
            (hmono _ hself) hP hrest

/-- Every node has the id of an engine node, and the root has not changed. -/
structure DomTree (root : AgentNodeId) (tree : AgentRenderTree) : Prop where
  root_eq : tree.root = root
  ids : ∀ id ∈ tree.nodes.map AgentNode.id, ∃ engineId, id = domId engineId

/-- The root stays the only node that is none of the document's. -/
theorem DomTree.enter {root : AgentNodeId} {tree : AgentRenderTree} (h : DomTree root tree)
    (raw : RawNode) (id : EngineNodeId) (parent : Option AgentNodeId) :
    DomTree root (enter layout raw id parent tree) where
  root_eq := h.root_eq
  ids other hother := by
    rw [ids_enter] at hother
    rcases List.mem_append.mp hother with hother | hother
    · exact h.ids other hother
    · exact ⟨id, List.mem_singleton.mp hother⟩

/-- Every node is reachable from `start`. -/
def HangsFrom (start : AgentNodeId) (tree : AgentRenderTree) : Prop :=
  ∀ id ∈ tree.nodes.map AgentNode.id, ReflTransGen tree.Links start id

/-- A node that is entered below another hangs where that does. -/
theorem HangsFrom.enter {start : AgentNodeId} {tree : AgentRenderTree} (h : HangsFrom start tree)
    (raw : RawNode) (id : EngineNodeId) {parent : AgentNodeId}
    (hparent : (tree.find parent).isSome) :
    HangsFrom start (enter layout raw id (some parent) tree) := by
  have hlift : ∀ other, ReflTransGen tree.Links start other →
      ReflTransGen (SemanticCompiler.enter layout raw id (some parent) tree).Links start other :=
    fun other hother => ReflTransGen.mono (fun _ _ => links_enter _) _ _ hother
  intro other hother
  rw [ids_enter] at hother
  rcases List.mem_append.mp hother with hother | hother
  · exact hlift other (h other hother)
  · rw [List.mem_singleton.mp hother]
    exact (hlift parent (h parent (find_is_some_iff.mp hparent))).tail (parent_links_enter hparent)

/-! ## Compiling -/

/-- On a well-formed document a visit of a node that exists returns. -/
theorem eventually_visit (layout : LayoutSnapshot) (hdocument : WellFormed document)
    (id : EngineNodeId) (hid : (document.node id).isSome) :
    ∃ bound, ∀ depth ≥ bound, ∀ parent tree,
      (visit document layout depth id parent tree).isSome := by
  have hwf := wellFounded_of_acyclic document.finite_links hdocument.acyclic
  induction id using hwf.induction with
  | _ id ih =>
      obtain ⟨raw, hraw⟩ := Option.isSome_iff_exists.mp hid
      obtain ⟨bound, hbound⟩ := eventually_forall_mem
        (P := fun depth child => ∀ parent tree,
          (visit document layout depth child parent tree).isSome)
        (l := raw.children) fun child hchild => by
          obtain ⟨childRaw, hchildRaw, -⟩ := hdocument.child_parent id raw child hraw hchild
          exact ih child ⟨raw, hraw, hchild⟩ (by simp [hchildRaw])
      refine ⟨bound + 1, fun depth hdepth parent tree => ?_⟩
      obtain ⟨depth, rfl⟩ : ∃ k, depth = k + 1 := ⟨depth - 1, by omega⟩
      have hchildren := hbound depth (by omega)
      simp only [visit, hraw, bind, Option.bind_some]
      generalize enter layout raw id parent tree = entered
      generalize raw.children = children at hchildren
      clear ih hbound
      induction children generalizing entered with
      | nil => rfl
      | cons child children ihchildren =>
          obtain ⟨next, hnext⟩ := Option.isSome_iff_exists.mp
            (hchildren child (by simp) (some (domId id)) entered)
          simp only [List.foldlM_cons, bind, hnext, Option.bind_some]
          exact ihchildren next fun c hc => hchildren c (by simp [hc])

/-- A well-formed document is compiled. -/
theorem eventually_compile (compiler : SemanticCompiler) (layout : LayoutSnapshot)
    (hdocument : WellFormed document) :
    ∃ bound, ∀ depth ≥ bound, (compiler.compile document layout depth).isSome := by
  cases hroot : document.root with
  | none => exact ⟨0, fun depth _ => by simp [compile, hroot]⟩
  | some root =>
      obtain ⟨raw, hraw⟩ := hdocument.root_mem root hroot
      obtain ⟨bound, hbound⟩ := eventually_visit layout hdocument root (by simp [hraw])
      refine ⟨bound, fun depth hdepth => ?_⟩
      simp only [compile, hroot, Option.isSome_map]
      exact hbound depth hdepth none _

/-- The nodes of a compiled tree hang together below the node of the document root. -/
theorem compile_reaches {compiler : SemanticCompiler} {root : EngineNodeId}
    (hroot : document.root = some root) {depth : Nat} {out : CompileResult × SemanticCompiler}
    (h : compiler.compile document layout depth = some out) :
    ∀ node ∈ out.1.tree.nodes, ReflTransGen out.1.tree.Links (domId root) node.id := by
  simp only [compile, hroot, Option.map_eq_some_iff] at h
  obtain ⟨tree, hvisit, rfl⟩ := h
  have hhangs : HangsFrom (domId root) tree := by
    refine (visit_induction (fun raw id parent tree hparent h => h.enter raw id hparent)
      (fun raw => ?_) hvisit).1
    intro other hother
    simp only [ids_enter, List.map_nil, List.nil_append, List.mem_singleton] at hother
    exact hother ▸ .refl
  exact fun node hnode => hhangs node.id (List.mem_map_of_mem hnode)

/-- The root of the tree is the page, and all other nodes are the document's. -/
theorem compile_dom_tree {compiler : SemanticCompiler} {depth : Nat}
    {out : CompileResult × SemanticCompiler}
    (h : compiler.compile document layout depth = some out) :
    DomTree ("page:" ++ document.url) out.1.tree := by
  simp only [compile, Option.map_eq_some_iff] at h
  obtain ⟨tree, hvisit, rfl⟩ := h
  cases hroot : document.root with
  | none =>
      simp only [hroot, Option.some.injEq] at hvisit
      exact hvisit ▸ ⟨rfl, by simp⟩
  | some root =>
      simp only [hroot] at hvisit
      exact (visit_induction (fun raw id parent _ _ h => h.enter raw id (some parent))
        (fun raw => DomTree.enter ⟨rfl, by simp⟩ raw root none) hvisit).1

/-- A compiled tree is never rooted: `find` does not find its root. -/
theorem find_root_eq_none {compiler : SemanticCompiler} {depth : Nat}
    {out : CompileResult × SemanticCompiler}
    (h : compiler.compile document layout depth = some out) :
    out.1.tree.find out.1.tree.root = none := by
  have hdom := compile_dom_tree h
  rw [← Option.not_isSome_iff_eq_none, find_is_some_iff, hdom.root_eq]
  intro hmem
  obtain ⟨engineId, hid⟩ := hdom.ids _ hmem
  have hfirst := congrArg List.head? hid
  simp [domId] at hfirst

/-- Compiling a well-formed document returns a tree that is not rooted. -/
theorem compile_not_rooted (compiler : SemanticCompiler) (document : RawDocument)
    (layout : LayoutSnapshot) (hdocument : WellFormed document) :
    ∃ bound, ∀ depth ≥ bound, ∃ out, compiler.compile document layout depth = some out ∧
      ¬ Rooted out.1.tree := by
  obtain ⟨bound, hbound⟩ := eventually_compile compiler layout hdocument
  refine ⟨bound, fun depth hdepth => ?_⟩
  obtain ⟨out, hout⟩ := Option.isSome_iff_exists.mp (hbound depth hdepth)
  refine ⟨out, hout, fun hrooted => ?_⟩
  have hsome := hrooted.1
  rw [find_root_eq_none hout] at hsome
  cases hsome

theorem compile_button_page_not_rooted :
    ∃ bound, ∀ depth ≥ bound, ∃ out,
      compile ⟨0⟩ buttonPage default depth = some out ∧ ¬ Rooted out.1.tree :=
  compile_not_rooted ⟨0⟩ buttonPage default (well_formed_of_runs runs_button_page)

/-- The tree of a page with one button is not rooted. -/
theorem not_always_rooted :
    ¬ ∀ (compiler : SemanticCompiler) (document : RawDocument) (layout : LayoutSnapshot)
        (depth : Nat) (out : CompileResult × SemanticCompiler),
      WellFormed document → document.root.isSome →
        compiler.compile document layout depth = some out → Rooted out.1.tree := by
  intro h
  have hwell := well_formed_of_runs runs_button_page
  obtain ⟨bound, hbound⟩ := eventually_compile ⟨0⟩ default hwell
  obtain ⟨out, hout⟩ := Option.isSome_iff_exists.mp (hbound bound le_rfl)
  have hsome := (h ⟨0⟩ buttonPage default bound out hwell rfl hout).1
  rw [find_root_eq_none hout] at hsome
  cases hsome

end BrowsAI.SemanticCompiler
