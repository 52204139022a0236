import BrowsAI.Library.Descendants
import BrowsAI.SemanticCompiler.Rooted

/-!
# Compiling is an isomorphism

What `visit` makes of a document, node by node. The compiled nodes are the raw nodes below the root
in pre-order, each with the ids of its raw children, `visit_eq`. On a well-formed document this is
an isomorphism of trees, `compile_isomorphic`.
-/

namespace BrowsAI.SemanticCompiler

open Utf8 AgentTree DomObserver LayoutObserver Relation Unfold

variable {document : RawDocument} {layout : LayoutSnapshot} {generation : UInt64}

theorem dom_id_inj {id id' : EngineNodeId} : domId id = domId id' ↔ id = id' := by
  refine ⟨fun h => UInt64.toNat_inj.mp (of_nat_inj ?_), congrArg domId⟩
  exact List.append_cancel_left h

/-! ## What a visit appends -/

/-- A raw node compiled with the ids of some children. -/
def compileWith (raw : RawNode) (layout : LayoutSnapshot) (id : EngineNodeId)
    (generation : UInt64) (children : List EngineNodeId) : AgentNode :=
  { compileNode raw layout id generation with children := children.map domId }

/-- The compiled nodes of some engine ids, in their order. -/
def compiled (document : RawDocument) (layout : LayoutSnapshot) (generation : UInt64)
    (ids : List EngineNodeId) : List AgentNode :=
  ids.filterMap fun id => (document.node id).map fun raw =>
    compileWith raw layout id generation raw.children

theorem compiled_append (ids ids' : List EngineNodeId) :
    compiled document layout generation (ids ++ ids') =
      compiled document layout generation ids ++ compiled document layout generation ids' :=
  List.filterMap_append ..

theorem mem_compiled_id {ids : List EngineNodeId} {id : AgentNodeId}
    (h : id ∈ (compiled document layout generation ids).map AgentNode.id) :
    ∃ engineId ∈ ids, id = domId engineId := by
  obtain ⟨node, hnode, rfl⟩ := List.mem_map.mp h
  obtain ⟨engineId, hmem, hraw⟩ := List.mem_filterMap.mp hnode
  obtain ⟨raw, -, rfl⟩ := Option.map_eq_some_iff.mp hraw
  exact ⟨engineId, hmem, rfl⟩

/-- A child is listed by the first node with the id of its parent. -/
theorem adopt_append {id : AgentNodeId} {nodes : List AgentNode} {node : AgentNode}
    (rest : List AgentNode) (child : AgentNodeId) (hid : node.id = id)
    (hnodes : id ∉ nodes.map AgentNode.id) :
    adopt (some id) child (nodes ++ node :: rest) =
      nodes ++ { node with children := node.children ++ [child] } :: rest := by
  subst hid
  rw [adopt]
  induction nodes with
  | nil => simp [modifyFirst]
  | cons first nodes ih =>
      rw [List.map_cons, List.mem_cons, not_or] at hnodes
      rw [List.cons_append, modifyFirst, if_neg (by simpa using Ne.symm hnodes.1), ih hnodes.2]
      rfl

theorem ids_adopt (parent : Option AgentNodeId) (child : AgentNodeId) (nodes : List AgentNode) :
    (adopt parent child nodes).map AgentNode.id = nodes.map AgentNode.id := by
  cases parent with
  | none => rfl
  | some parentId =>
      rw [adopt, ids_modify_first]
      exact fun _ => rfl

/-- No node of the list has the id of one of the engine ids. -/
def Fresh (ids : List EngineNodeId) (nodes : List AgentNode) : Prop :=
  ∀ id ∈ ids, domId id ∉ nodes.map AgentNode.id

namespace Fresh

variable {ids ids' : List EngineNodeId} {nodes nodes' : List AgentNode}

theorem mono (h : Fresh ids nodes) (hsub : ids' ⊆ ids) : Fresh ids' nodes :=
  fun id hid => h id (hsub hid)

theorem append (h : Fresh ids nodes) (h' : Fresh ids nodes') : Fresh ids (nodes ++ nodes') := by
  intro id hid hmem
  rw [List.map_append, List.mem_append] at hmem
  exact hmem.elim (h id hid) (h' id hid)

/-- Other engine ids have other compiled nodes. -/
theorem compiled (hdisjoint : ∀ id ∈ ids, id ∉ ids') :
    Fresh ids (compiled document layout generation ids') := by
  intro id hid hmem
  obtain ⟨other, hother, heq⟩ := mem_compiled_id hmem
  exact hdisjoint id hid (dom_id_inj.mp heq ▸ hother)

theorem cons (h : Fresh ids nodes) {node : AgentNode} {other : EngineNodeId}
    (hnode : node.id = domId other) (hother : other ∉ ids) : Fresh ids (node :: nodes) := by
  intro id hid hmem
  rw [List.map_cons, List.mem_cons, hnode, dom_id_inj] at hmem
  rcases hmem with rfl | hmem
  · exact hother hid
  · exact h id hid hmem

end Fresh

/-- The tree that a visit of the ids `order` leaves behind. -/
def visited (document : RawDocument) (layout : LayoutSnapshot) (parent : Option AgentNodeId)
    (id : EngineNodeId) (order : List EngineNodeId) (tree : AgentRenderTree) : AgentRenderTree :=
  { tree with
    nodes := adopt parent (domId id) tree.nodes ++
      compiled document layout tree.generation order }

/-- The children of an entered node are visited one after the other: the node lists those that are
`done`, and their nodes follow it. -/
theorem visit_children {depth : Nat} {id : EngineNodeId} (raw : RawNode)
    (ih : ∀ child order (tree : AgentRenderTree),
      (∀ x ∈ order, (document.node x).isSome) →
      unfold document.childIds preorder depth child = some order → order.Nodup →
      Fresh order tree.nodes →
      visit document layout depth child (some (domId id)) tree =
        some (visited document layout (some (domId id)) child order tree))
    {children : List EngineNodeId} {lists : List (List EngineNodeId)}
    (hlists : List.Forall₂
      (fun child list => unfold document.childIds preorder depth child = some list) children lists)
    (hexists : ∀ x ∈ lists.flatten, (document.node x).isSome)
    (hnodup : (id :: lists.flatten).Nodup) (tree : AgentRenderTree) (nodes : List AgentNode)
    (done : List EngineNodeId) (below : List AgentNode)
    (htree : tree.nodes = nodes ++ compileWith raw layout id tree.generation done :: below)
    (hnodes : Fresh (id :: lists.flatten) nodes) (hbelow : Fresh (id :: lists.flatten) below) :
    children.foldlM (fun tree child => visit document layout depth child (some (domId id)) tree)
        tree =
      some { tree with
        nodes := nodes ++ compileWith raw layout id tree.generation (done ++ children) ::
          (below ++ compiled document layout tree.generation lists.flatten) } := by
  induction hlists generalizing tree done below with
  | nil =>
      rw [List.append_nil, List.flatten_nil, compiled, List.filterMap_nil, List.append_nil,
        ← htree]
      rfl
  | @cons child list children lists hlist _ ihlists =>
      rw [List.flatten_cons] at hexists hnodup hnodes hbelow ⊢
      have hsub : id :: lists.flatten ⊆ id :: (list ++ lists.flatten) := by
        intro x hx
        rw [List.mem_cons] at hx ⊢
        exact hx.imp_right (List.mem_append_right list)
      have hlist_sub : list ⊆ id :: (list ++ lists.flatten) := fun x hx =>
        List.mem_cons_of_mem id (List.mem_append_left _ hx)
      obtain ⟨hid, hbelow_nodup⟩ := List.nodup_cons.mp hnodup
      obtain ⟨hlist_nodup, hrest_nodup, hdisjoint⟩ := List.nodup_append.mp hbelow_nodup
      have hid_list : id ∉ list := fun hmem => hid (List.mem_append_left _ hmem)
      have hid_rest : id ∉ lists.flatten := fun hmem => hid (List.mem_append_right _ hmem)
      -- the child's nodes are new, and are appended behind what is there
      have hfresh : Fresh list tree.nodes := by
        rw [htree]
        exact (hnodes.mono hlist_sub).append ((hbelow.mono hlist_sub).cons rfl hid_list)
      have hexists_list : ∀ x ∈ list, (document.node x).isSome := fun x hx =>
        hexists x (List.mem_append_left _ hx)
      rw [List.foldlM_cons, ih child list tree hexists_list hlist hlist_nodup hfresh]
      have hadopt : adopt (some (domId id)) (domId child) tree.nodes =
          nodes ++ compileWith raw layout id tree.generation (done ++ [child]) :: below := by
        rw [htree]
        have hself : (compileWith raw layout id tree.generation done).id = domId id := rfl
        rw [adopt_append below (domId child) hself (hnodes id List.mem_cons_self), compileWith,
          compileWith, List.map_append]
        rfl
      have hrest : Fresh (id :: lists.flatten)
          (compiled document layout tree.generation list) := by
        refine Fresh.compiled fun x hx hmem => ?_
        rcases List.mem_cons.mp hx with rfl | hx
        · exact hid_list hmem
        · exact hdisjoint x hmem x hx rfl
      refine (ihlists (fun x hx => hexists x (List.mem_append_right _ hx))
        (List.nodup_cons.mpr ⟨hid_rest, hrest_nodup⟩)
        (visited document layout (some (domId id)) child list tree) (done ++ [child])
        (below ++ compiled document layout tree.generation list) ?_ (hnodes.mono hsub)
        ((hbelow.mono hsub).append hrest)).trans ?_
      · rw [visited, hadopt]
        simp only [List.append_assoc, List.cons_append]
      · simp only [visited, compiled_append, List.append_assoc, List.singleton_append]

/-- A visit appends the compiled nodes in pre-order. -/
theorem visit_eq (layout : LayoutSnapshot) {depth : Nat} {id : EngineNodeId}
    {order : List EngineNodeId} (hexists : ∀ x ∈ order, (document.node x).isSome)
    (horder : unfold document.childIds preorder depth id = some order) (hnodup : order.Nodup)
    (parent : Option AgentNodeId) (tree : AgentRenderTree) (hfresh : Fresh order tree.nodes) :
    visit document layout depth id parent tree =
      some (visited document layout parent id order tree) := by
  induction depth generalizing id order parent tree with
  | zero => cases horder
  | succ depth ih =>
      obtain ⟨lists, hlists, rfl⟩ := preorder_succ_iff.mp horder
      obtain ⟨raw, hraw⟩ := Option.isSome_iff_exists.mp (hexists id List.mem_cons_self)
      have hchildren : document.childIds id = raw.children := by
        rw [RawDocument.childIds, hraw]
        rfl
      rw [hchildren] at hlists
      have hexists_below : ∀ x ∈ lists.flatten, (document.node x).isSome := fun x hx =>
        hexists x (List.mem_cons_of_mem id hx)
      have hfresh_adopt : Fresh (id :: lists.flatten) (adopt parent (domId id) tree.nodes) := by
        intro x hx
        rw [ids_adopt]
        exact hfresh x hx
      have hnone : Fresh (id :: lists.flatten) [] := fun _ _ hmem => by cases hmem
      have hvisit := visit_children raw
        (fun child order tree hexists horder hnodup hfresh =>
          ih hexists horder hnodup (some (domId id)) tree hfresh)
        hlists hexists_below hnodup (enter layout raw id parent tree)
        (adopt parent (domId id) tree.nodes) [] [] rfl hfresh_adopt hnone
      rw [visit, hraw]
      refine hvisit.trans ?_
      simp only [visited, enter, compiled, List.filterMap_cons, hraw, Option.map_some,
        List.nil_append]

/-! ## The compiled tree -/

/-- The raw nodes from the root on in pre-order. -/
def RootPreorder (document : RawDocument) (order : List EngineNodeId) : Prop :=
  match document.root with
  | none => order = []
  | some root => ∃ depth, unfold document.childIds preorder depth root = some order

/-- The compiled nodes are the raw nodes from the root on, with the same links. -/
structure Isomorphic (document : RawDocument) (layout : LayoutSnapshot) (generation : UInt64)
    (order : List EngineNodeId) (nodes : List AgentNode) : Prop where
  preorder : RootPreorder document order
  reachable : ∀ id, id ∈ order ↔
    ∃ root, document.root = some root ∧ ReflTransGen document.Links root id
  once : order.Nodup
  image : List.Forall₂ (fun id node => ∃ raw, document.node id = some raw ∧
    node = { compileNode raw layout id generation with children := raw.children.map domId })
    order nodes
  unique_ids : (nodes.map AgentNode.id).Nodup
  listed : ∀ node ∈ nodes.tail, ∃! parent, parent ∈ nodes ∧ node.id ∈ parent.children
  listed_once : ∀ node ∈ nodes, node.children.Nodup

/-- What is compiled of existing nodes are their images. -/
theorem compiled_image {ids : List EngineNodeId} (hexists : ∀ id ∈ ids, (document.node id).isSome) :
    List.Forall₂ (fun id node => ∃ raw, document.node id = some raw ∧
      node = { compileNode raw layout id generation with children := raw.children.map domId })
      ids (compiled document layout generation ids) := by
  induction ids with
  | nil => exact .nil
  | cons id ids ih =>
      obtain ⟨raw, hraw⟩ := Option.isSome_iff_exists.mp (hexists id List.mem_cons_self)
      rw [compiled, List.filterMap_cons, hraw]
      exact .cons ⟨raw, hraw, rfl⟩ (ih fun other hother => hexists other (.tail _ hother))

/-- The nodes that are compiled. -/
theorem mem_compiled {ids : List EngineNodeId} {node : AgentNode} :
    node ∈ compiled document layout generation ids ↔
      ∃ id ∈ ids, ∃ raw, document.node id = some raw ∧
        compileWith raw layout id generation raw.children = node := by
  simp only [compiled, List.mem_filterMap, Option.map_eq_some_iff]

theorem compiled_ids {ids : List EngineNodeId} (hexists : ∀ id ∈ ids, (document.node id).isSome) :
    (compiled document layout generation ids).map AgentNode.id = ids.map domId := by
  induction ids with
  | nil => rfl
  | cons id ids ih =>
      obtain ⟨raw, hraw⟩ := Option.isSome_iff_exists.mp (hexists id List.mem_cons_self)
      rw [compiled, List.filterMap_cons, hraw]
      exact congrArg (domId id :: ·) (ih fun other hother => hexists other (.tail _ hother))

section WellFormed

variable (hdocument : WellFormed document) {order : List EngineNodeId} {root : EngineNodeId}

include hdocument

/-- A node below the root is listed by the compiled node of its raw parent, and by no other. -/
theorem exists_unique_parent {id : EngineNodeId}
    (hreachable : ∀ x, x ∈ order ↔ ReflTransGen document.Links root x) (hid : id ∈ order)
    (hne : id ≠ root) :
    ∃! parent, parent ∈ compiled document layout generation order ∧
      domId id ∈ parent.children := by
  rcases ((hreachable id).mp hid).cases_tail with heq | ⟨above, habove, raw, hraw, hmem⟩
  · exact absurd heq hne
  refine ⟨compileWith raw layout above generation raw.children, ⟨?_, ?_⟩, ?_⟩
  · exact mem_compiled.mpr ⟨above, (hreachable above).mpr habove, raw, hraw, rfl⟩
  · exact List.mem_map_of_mem hmem
  · rintro parent ⟨hparent, hlisted⟩
    obtain ⟨other, _, otherRaw, hotherRaw, rfl⟩ := mem_compiled.mp hparent
    obtain ⟨child, hchild, heq⟩ := List.mem_map.mp hlisted
    obtain rfl := dom_id_inj.mp heq
    obtain rfl := hdocument.links_unique ⟨otherRaw, hotherRaw, hchild⟩ ⟨raw, hraw, hmem⟩
    obtain rfl := Option.some.inj (hotherRaw.symm.trans hraw)
    rfl

/-- The compiled nodes of the pre-order from the root are isomorphic to the document. -/
theorem isomorphic_compiled (layout : LayoutSnapshot) (generation : UInt64)
    (hroot : document.root = some root) {depth : Nat}
    (horder : unfold document.childIds preorder depth root = some order) :
    (∀ id ∈ order, (document.node id).isSome) ∧
      Isomorphic document layout generation order
        (compiled document layout generation order) := by
  obtain ⟨rootNode, hrootNode⟩ := hdocument.root_mem root hroot
  have hreachable : ∀ id, id ∈ order ↔ ReflTransGen document.Links root id := by
    intro id
    have hmem := mem_preorder_iff horder id
    simp only [RawDocument.mem_child_ids] at hmem
    exact hmem
  have hexists : ∀ id ∈ order, (document.node id).isSome := fun id hid =>
    hdocument.is_some_of_reaches (by rw [hrootNode]; rfl) ((hreachable id).mp hid)
  have hacyclic : ∀ id, ¬ TransGen (fun a b => b ∈ document.childIds a) id id := by
    simp only [RawDocument.mem_child_ids]
    exact hdocument.acyclic
  have honce : order.Nodup := nodup_preorder (hdocument.unique_links.unique_paths hacyclic) horder
  refine ⟨hexists, ?_, fun id => ?_, honce, compiled_image hexists, ?_, fun node hnode => ?_,
    fun node hnode => ?_⟩
  · rw [RootPreorder, hroot]
    exact ⟨depth, horder⟩
  · rw [hreachable]
    refine ⟨fun h => ⟨root, hroot, h⟩, ?_⟩
    rintro ⟨other, hother, h⟩
    rwa [Option.some.inj (hroot.symm.trans hother)]
  · rw [compiled_ids hexists]
    exact honce.map fun _ _ h => dom_id_inj.mp h
  · -- the nodes behind the first are those of the nodes behind the root
    obtain ⟨below, rfl⟩ := head_preorder horder
    have htail : (compiled document layout generation (root :: below)).tail =
        compiled document layout generation below := by
      rw [compiled, List.filterMap_cons, hrootNode]
      rfl
    rw [htail] at hnode
    obtain ⟨id, hid, raw, _, rfl⟩ := mem_compiled.mp hnode
    refine exists_unique_parent hdocument hreachable (List.mem_cons_of_mem root hid) ?_
    rintro rfl
    exact (List.nodup_cons.mp honce).1 hid
  · obtain ⟨id, _, raw, hraw, rfl⟩ := mem_compiled.mp hnode
    have hchildren := hdocument.nodup_child_ids id
    rw [RawDocument.childIds, hraw] at hchildren
    exact hchildren.map fun _ _ h => dom_id_inj.mp h

/-- Compiling a well-formed document is an isomorphism onto the compiled nodes. -/
theorem compile_isomorphic (compiler : SemanticCompiler) (layout : LayoutSnapshot) :
    ∃ bound, ∀ depth ≥ bound, ∃ result next,
      compiler.compile document layout depth = some (result, next) ∧
      ∃ order, Isomorphic document layout next.generation order result.tree.nodes := by
  cases hroot : document.root with
  | none =>
      refine ⟨0, fun depth _ => ?_⟩
      simp only [compile, hroot]
      refine ⟨_, _, rfl, [], ?_⟩
      refine ⟨by rw [RootPreorder, hroot], fun id => ?_, .nil, .nil, .nil, ?_, ?_⟩
      · refine iff_of_false List.not_mem_nil ?_
        rintro ⟨root, hsome, _⟩
        rw [hroot] at hsome
        cases hsome
      · exact fun _ hnode => by cases hnode
      · exact fun _ hnode => by cases hnode
  | some root =>
      have hwf := wellFounded_of_acyclic document.finite_links hdocument.acyclic
      simp only [← RawDocument.mem_child_ids] at hwf
      obtain ⟨bound, hbound⟩ : ∃ bound, ∀ depth ≥ bound, ∃ order,
          unfold document.childIds preorder depth root = some order := eventually_unfold hwf root
      refine ⟨bound, fun depth hdepth => ?_⟩
      obtain ⟨order, horder⟩ := hbound depth hdepth
      obtain ⟨hexists, hiso⟩ := isomorphic_compiled hdocument layout (compiler.generation + 1)
        hroot horder
      have hvisit := visit_eq layout hexists horder hiso.once none
        ⟨"page:" ++ document.url, [], compiler.generation + 1, false⟩ fun _ _ hmem => by cases hmem
      simp only [compile, hroot, hvisit]
      exact ⟨_, _, rfl, order, hiso⟩

end WellFormed

/-- The page with a button. -/
theorem compile_button_page_isomorphic :
    ∃ bound, ∀ depth ≥ bound, ∃ result next,
      compile ⟨0⟩ buttonPage default depth = some (result, next) ∧
      ∃ order, Isomorphic buttonPage default next.generation order result.tree.nodes :=
  compile_isomorphic (well_formed_of_runs runs_button_page) ⟨0⟩ default

end BrowsAI.SemanticCompiler
