import BrowsAI.SemanticCompiler.Rooted

/-!
# Compiling again

The compiler writes its generation into the tree and into every node. Nothing else in a tree
depends on it, `compile_stamped`: compiling a document again gives the tree of the first time under
the next generation.
-/

namespace BrowsAI.SemanticCompiler

open Utf8 AgentTree DomObserver LayoutObserver

/-- The node under a generation. -/
def stampNode (generation : UInt64) (node : AgentNode) : AgentNode :=
  { node with generation := generation }

@[simp] theorem stamp_node_id (generation : UInt64) (node : AgentNode) :
    (stampNode generation node).id = node.id := rfl

/-- The tree and all its nodes under a generation. -/
def stamp (generation : UInt64) (tree : AgentRenderTree) : AgentRenderTree :=
  { tree with nodes := tree.nodes.map (stampNode generation), generation := generation }

variable {document : RawDocument} {layout : LayoutSnapshot} {generation : UInt64}

/-! ## A visit under another generation -/

/-- A change of one node goes with another generation. -/
theorem modify_first_stamped {p : AgentNode → Bool} {change : AgentNode → AgentNode}
    (hp : ∀ node, p (stampNode generation node) = p node)
    (hchange : ∀ node, change (stampNode generation node) = stampNode generation (change node))
    (nodes : List AgentNode) :
    modifyFirst p change (nodes.map (stampNode generation)) =
      (modifyFirst p change nodes).map (stampNode generation) := by
  induction nodes with
  | nil => rfl
  | cons node nodes ih =>
      rw [List.map_cons, modifyFirst, modifyFirst, hp, hchange, ih]
      split_ifs
      · rfl
      · rfl

/-- So does a child that is adopted. -/
theorem adopt_stamped (parent : Option AgentNodeId) (child : AgentNodeId)
    (nodes : List AgentNode) :
    adopt parent child (nodes.map (stampNode generation)) =
      (adopt parent child nodes).map (stampNode generation) := by
  cases parent with
  | none => rfl
  | some parentId =>
      rw [adopt, adopt]
      apply modify_first_stamped
      · exact fun _ => rfl
      · exact fun _ => rfl

/-- So does a node that is entered. -/
theorem enter_stamped (raw : RawNode) (id : EngineNodeId) (parent : Option AgentNodeId)
    (tree : AgentRenderTree) :
    enter layout raw id parent (stamp generation tree) =
      stamp generation (enter layout raw id parent tree) := by
  have hnode : compileNode raw layout id generation =
      stampNode generation (compileNode raw layout id tree.generation) := rfl
  simp only [enter, stamp, adopt_stamped, List.map_append, List.map_cons, List.map_nil, hnode]

/-- A visit does the same under every generation. -/
theorem visit_stamped (depth : Nat) (id : EngineNodeId) (parent : Option AgentNodeId)
    (tree : AgentRenderTree) :
    visit document layout depth id parent (stamp generation tree) =
      (visit document layout depth id parent tree).map (stamp generation) := by
  induction depth generalizing id parent tree with
  | zero => rfl
  | succ depth ih =>
      rw [visit, visit]
      cases document.node id with
      | none => rfl
      | some raw =>
          simp only [bind, Option.bind_some, enter_stamped]
          generalize enter layout raw id parent tree = entered
          induction raw.children generalizing entered with
          | nil => rfl
          | cons child children ihchildren =>
              rw [List.foldlM_cons, List.foldlM_cons, ih]
              cases visit document layout depth child (some (domId id)) entered with
              | none => rfl
              | some next => exact ihchildren next

/-! ## Compiling again -/

/-- What `compile` returns under another generation. -/
theorem compile_stamped {compiler : SemanticCompiler} (other : SemanticCompiler) {depth : Nat}
    {out : CompileResult × SemanticCompiler}
    (h : compiler.compile document layout depth = some out) :
    other.compile document layout depth =
      some (⟨stamp (other.generation + 1) out.1.tree, out.1.recomputedNodes⟩,
        ⟨other.generation + 1⟩) := by
  simp only [compile, Option.map_eq_some_iff] at h ⊢
  obtain ⟨tree, hvisit, rfl⟩ := h
  refine ⟨stamp (other.generation + 1) tree, ?_, rfl⟩
  cases hroot : document.root with
  | none =>
      rw [hroot] at hvisit
      cases hvisit
      rfl
  | some root =>
      rw [hroot] at hvisit
      exact (visit_stamped depth root none _).trans (congrArg (Option.map _) hvisit)

/-- Every node of a compiled tree has the generation of the compiler. -/
theorem compile_generation {compiler : SemanticCompiler} {depth : Nat}
    {out : CompileResult × SemanticCompiler}
    (h : compiler.compile document layout depth = some out) :
    out.2.generation = compiler.generation + 1 ∧
      ∀ node ∈ out.1.tree.nodes, node.generation = compiler.generation + 1 := by
  have hsame := h.symm.trans (compile_stamped compiler h)
  rw [Option.some.injEq] at hsame
  have htree : out.1.tree = stamp (compiler.generation + 1) out.1.tree :=
    congrArg (fun out => out.1.tree) hsame
  refine ⟨congrArg (fun out => out.2.generation) hsame, fun node hnode => ?_⟩
  rw [htree] at hnode
  obtain ⟨first, -, rfl⟩ := List.mem_map.mp hnode
  rfl

/-- A tree has no nodes exactly when the document has no root. -/
theorem compile_nodes_eq_nil_iff {compiler : SemanticCompiler} {depth : Nat}
    {out : CompileResult × SemanticCompiler}
    (h : compiler.compile document layout depth = some out) :
    out.1.tree.nodes = [] ↔ document.root = none := by
  simp only [compile, Option.map_eq_some_iff] at h
  obtain ⟨tree, hvisit, rfl⟩ := h
  cases hroot : document.root with
  | none =>
      rw [hroot] at hvisit
      cases hvisit
      simp
  | some root =>
      rw [hroot] at hvisit
      have hnodes : tree.nodes ≠ [] :=
        (visit_induction (P := fun tree => tree.nodes ≠ []) (fun _ _ _ _ _ _ => by simp [enter])
          (fun _ => by simp [enter]) hvisit).1
      simp [hnodes]

end BrowsAI.SemanticCompiler
