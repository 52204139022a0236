import BrowsAI.Diff.Tree
import BrowsAI.Library.Indexed
import BrowsAI.SemanticCompiler.Recompile

/-!
# The difference of two compilations

The generation of a node takes part in its equality, and the compiler stamps every node with a new
one each time. So the difference of two compilations of one document reports every node that the
maps hold as changed, `diff_tree_stamped`, and it is empty only for a document without a root,
`recompile_unchanged_iff`.
-/

namespace BrowsAI.Diff

open Utf8 AgentTree DomObserver LayoutObserver SemanticCompiler Indexed LastOf Std

variable {U V : Type}

/-- Neither the difference of the trees nor the operations report anything. -/
structure Unchanged [DecidableEq U] (nodeValue : AgentNode → V) (urlValue : U → V)
    (a b : PageSnapshot U) : Prop where
  added : (diffTree a b).added = []
  removed : (diffTree a b).removed = []
  changed : (diffTree a b).changed = []
  operations : diff nodeValue urlValue a b = []

/-! ## Trees of two generations -/

theorem keyed_stamped (generation : UInt64) (nodes : List AgentNode) :
    keyed (nodes.map (stampNode generation)) =
      (keyed nodes).map fun _ => stampNode generation := by
  have hkey : ∀ node, nodeKey (stampNode generation node) = nodeKey node := fun _ => rfl
  exact index_map hkey nodes

/-- Between trees that differ in their generations, every node that the maps hold is changed. -/
theorem diff_tree_stamped {before after : PageSnapshot U} {generation : UInt64}
    (htree : after.tree = stamp generation before.tree)
    (hold : ∀ node ∈ before.tree.nodes, node.generation ≠ generation) :
    diffTree before after = ⟨[], [], (keyed before.tree.nodes).toList.map fun entry =>
      ⟨entry.2.id, entry.2, stampNode generation entry.2⟩⟩ := by
  have hnodes : after.tree.nodes = before.tree.nodes.map (stampNode generation) :=
    congrArg AgentRenderTree.nodes htree
  have hnone : (keyed before.tree.nodes).toList.filter
      (fun entry => !(keyed before.tree.nodes).contains entry.1) = [] := by
    refine List.filter_eq_nil_iff.mpr fun entry hentry => ?_
    have hget := ExtTreeMap.mem_toList_iff_getElem?_eq_some.mp hentry
    simp [← ExtTreeMap.isSome_getElem?_eq_contains, hget]
  simp only [diffTree, hnodes, keyed_stamped, ExtTreeMap.toList_map, ExtTreeMap.contains_map,
    hnone, List.filter_map, Function.comp_def, List.map_nil, List.filterMap_map,
    SemanticTreeDiff.mk.injEq, true_and]
  rw [← List.filterMap_eq_map]
  refine List.filterMap_congr fun entry hentry => ?_
  have hget := ExtTreeMap.mem_toList_iff_getElem?_eq_some.mp hentry
  have hne : ¬ entry.2.partialEq (stampNode generation entry.2) :=
    AgentNode.not_partial_eq (hold entry.2 (mem_of_mem_index hentry))
  simp [hget, hne]

/-- Between trees that differ in their generations, nothing is reported only without nodes. -/
theorem unchanged_stamped_iff [DecidableEq U] {nodeValue : AgentNode → V} {urlValue : U → V}
    {a b : PageSnapshot U} (hurl : a.url = b.url) {generation : UInt64}
    (htree : b.tree = stamp generation a.tree)
    (hold : ∀ node ∈ a.tree.nodes, node.generation ≠ generation) :
    Unchanged nodeValue urlValue a b ↔ a.tree.nodes = [] := by
  have hdelta := diff_tree_stamped htree hold
  have hempty : (keyed a.tree.nodes).toList = [] ↔ a.tree.nodes = [] := index_to_list_eq_nil_iff
  constructor
  · intro h
    have hchanged := h.changed
    rw [hdelta] at hchanged
    exact hempty.mp (List.map_eq_nil_iff.mp hchanged)
  · intro h
    rw [hempty.mpr h] at hdelta
    have hnil : diffTree a b = ⟨[], [], []⟩ := hdelta
    exact ⟨by rw [hnil], by rw [hnil], by rw [hnil], (diff_eq_nil_iff hurl).mpr hnil⟩

/-! ## Two compilations -/

variable {document : RawDocument} {layout : LayoutSnapshot}

/-- Compiling again returns the tree of the first time under the next generation. -/
theorem compile_twice {compiler : SemanticCompiler} {depth : Nat}
    {first : CompileResult × SemanticCompiler}
    (hfirst : compiler.compile document layout depth = some first) :
    ∃ second, first.2.compile document layout depth = some second ∧
      second.1.tree = stamp (compiler.generation + 2) first.1.tree := by
  have hnext : first.2.generation + 1 = compiler.generation + 2 := by
    rw [(compile_generation hfirst).1, UInt64.add_assoc]
    rfl
  refine ⟨_, compile_stamped first.2 hfirst, ?_⟩
  rw [hnext]

/-- Between the two snapshots nothing is reported only when nothing was compiled. -/
theorem unchanged_twice_iff [DecidableEq U] {nodeValue : AgentNode → V} {urlValue : U → V}
    {compiler : SemanticCompiler} {depth : Nat} {first : CompileResult × SemanticCompiler}
    (hfirst : compiler.compile document layout depth = some first) {a b : PageSnapshot U}
    (ha : a.tree = first.1.tree) (hb : b.tree = stamp (compiler.generation + 2) first.1.tree)
    (hurl : a.url = b.url) :
    Unchanged nodeValue urlValue a b ↔ document.root = none := by
  have hold : ∀ node ∈ a.tree.nodes, node.generation ≠ compiler.generation + 2 := by
    intro node hnode
    rw [ha] at hnode
    rw [(compile_generation hfirst).2 node hnode]
    simp
  rw [← ha] at hb
  rw [unchanged_stamped_iff hurl hb hold, ha]
  exact compile_nodes_eq_nil_iff hfirst

/-- The difference of two compilations is empty exactly when nothing is compiled. -/
theorem recompile_unchanged_iff [DecidableEq U] (nodeValue : AgentNode → V) (urlValue : U → V)
    (compiler : SemanticCompiler) (document : RawDocument) (layout : LayoutSnapshot)
    (hdocument : WellFormed document) :
    ∃ bound, ∀ depth ≥ bound, ∃ first second,
      compiler.compile document layout depth = some first ∧
      first.2.compile document layout depth = some second ∧
      ∀ a b : PageSnapshot U, a.tree = first.1.tree → b.tree = second.1.tree → a.url = b.url →
        (Unchanged nodeValue urlValue a b ↔ document.root = none) := by
  obtain ⟨bound, hbound⟩ := eventually_compile compiler layout hdocument
  refine ⟨bound, fun depth hdepth => ?_⟩
  obtain ⟨first, hfirst⟩ := Option.isSome_iff_exists.mp (hbound depth hdepth)
  obtain ⟨second, hsecond, htree⟩ := compile_twice hfirst
  exact ⟨first, second, hfirst, hsecond, fun a b ha hb hurl =>
    unchanged_twice_iff hfirst ha (hb.trans htree) hurl⟩

/-- The page with a button compiled twice. -/
theorem button_page_unchanged_iff :
    ∃ bound, ∀ depth ≥ bound, ∃ first second,
      compile ⟨0⟩ buttonPage default depth = some first ∧
      first.2.compile buttonPage default depth = some second ∧
      ∀ a b : PageSnapshot Text, a.tree = first.1.tree → b.tree = second.1.tree → a.url = b.url →
        (Unchanged (V := AgentNode ⊕ Text) .inl .inr a b ↔ buttonPage.root = none) :=
  recompile_unchanged_iff _ _ ⟨0⟩ buttonPage default (well_formed_of_runs runs_button_page)

/-- The page with one button, compiled twice, is reported as changed. -/
theorem button_page_not_unchanged :
    ¬ ∀ (compiler : SemanticCompiler) (document : RawDocument) (layout : LayoutSnapshot)
        (depth : Nat) (first second : CompileResult × SemanticCompiler),
      WellFormed document → compiler.compile document layout depth = some first →
      (first.1.tree.nodes.map nodeKey).Nodup →
      first.2.compile document layout depth = some second →
      ∀ a b : PageSnapshot Text, a.tree = first.1.tree → b.tree = second.1.tree → a.url = b.url →
        Unchanged (V := AgentNode ⊕ Text) .inl .inr a b := by
  intro h
  have hkeys : ((compile ⟨0⟩ buttonPage default 3).map fun first =>
      decide (first.1.tree.nodes.map nodeKey).Nodup) = some true := by
    decide
  obtain ⟨first, hfirst, hdistinct⟩ := Option.map_eq_some_iff.mp hkeys
  obtain ⟨second, hsecond, htree⟩ := compile_twice hfirst
  let snapshot (tree : AgentRenderTree) : PageSnapshot Text :=
    PageState.snapshot ⟨"https://example.test/", tree, 0⟩ 0
  have hunchanged := h ⟨0⟩ buttonPage default 3 first second
    (well_formed_of_runs runs_button_page) hfirst (of_decide_eq_true hdistinct) hsecond
    (snapshot first.1.tree) (snapshot second.1.tree) rfl rfl rfl
  have hroot := (unchanged_twice_iff hfirst (a := snapshot first.1.tree)
    (b := snapshot second.1.tree) rfl htree rfl).mp hunchanged
  cases hroot

end BrowsAI.Diff
