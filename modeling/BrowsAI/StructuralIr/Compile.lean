import BrowsAI.AgentTree.Basic
import BrowsAI.Library.Worklist

/-!
# Pruning

`StructuralIr::compile` of `crates/structural-ir`. Without the invisible nodes, a worklist collects
the ids that visible nodes link to from the root on, and every other node and link is dropped. The
links of a tree may dangle or form cycles: the loop ends all the same, and pruning twice prunes
nothing more.
-/

namespace BrowsAI

open Utf8 AgentTree Relation

/-- `STRUCTURAL_IR_VERSION`. -/
def structuralIrVersion : UInt16 := 1

/-- A tree with the version of its format. -/
structure StructuralIr where
  schemaVersion : UInt16
  tree : AgentRenderTree
  deriving DecidableEq

namespace StructuralIr

/-- The whole tree. -/
def fromTree (tree : AgentRenderTree) : StructuralIr := ⟨structuralIrVersion, tree⟩

/-- The children of the node that is found under an id, unless it is invisible. -/
def admitted (tree : AgentRenderTree) (id : AgentNodeId) : Option (List AgentNodeId) :=
  match tree.find id with
  | none => none
  | some node => if id ≠ tree.root ∧ !node.state.visible then none else some node.children

/-- The loop of `compile`, at most `fuel` times. -/
def visibleIds (fuel : Nat) (tree : AgentRenderTree) : Option (Finset AgentNodeId) :=
  Worklist.visit (admitted tree) fuel [tree.root] ∅

/-- A node with the links that are kept. -/
def retainChildren (visible : Finset AgentNodeId) (node : AgentNode) : AgentNode :=
  { node with children := node.children.filter fun child => child ∈ visible }

/-- The nodes and links that are kept. -/
def retain (tree : AgentRenderTree) (visible : Finset AgentNodeId) : AgentRenderTree :=
  let nodes := tree.nodes.filter fun node => node.id = tree.root ∨ node.id ∈ visible
  { tree with nodes := nodes.map (retainChildren visible) }

/-- The tree, or its visible part. -/
def compile (fuel : Nat) (tree : AgentRenderTree) (includeInvisible : Bool) :
    Option StructuralIr :=
  if includeInvisible then some (fromTree tree)
  else (visibleIds fuel tree).map fun visible => fromTree (retain tree visible)

/-! ## The loop -/

variable {tree : AgentRenderTree}

/-- A link to a visible node. -/
def VisibleLink (tree : AgentRenderTree) (a b : AgentNodeId) : Prop :=
  tree.Links a b ∧ ∃ node, tree.find b = some node ∧ node.state.visible

/-- Visible nodes lead from the root to this id. -/
def Shown (tree : AgentRenderTree) (id : AgentNodeId) : Prop :=
  ReflTransGen (VisibleLink tree) tree.root id

theorem admitted_eq_some_iff {id : AgentNodeId} {children : List AgentNodeId} :
    admitted tree id = some children ↔ ∃ node, tree.find id = some node ∧
      (id = tree.root ∨ node.state.visible) ∧ node.children = children := by
  unfold admitted
  cases tree.find id with
  | none => simp
  | some node =>
      by_cases hroot : id = tree.root
      · simp [hroot]
      · cases hvisible : node.state.visible <;> simp [hroot, hvisible]

/-- The root and the visible nodes are admitted. -/
theorem is_some_admitted_iff {id : AgentNodeId} : (admitted tree id).isSome ↔
    ∃ node, tree.find id = some node ∧ (id = tree.root ∨ node.state.visible) := by
  rw [Option.isSome_iff_exists]
  simp only [admitted_eq_some_iff]
  constructor
  · intro h
    obtain ⟨_, node, hfind, hadmitted, _⟩ := h
    exact ⟨node, hfind, hadmitted⟩
  · intro h
    obtain ⟨node, hfind, hadmitted⟩ := h
    exact ⟨node.children, node, hfind, hadmitted, rfl⟩

/-- The loop ends on every tree. -/
theorem exists_visible_ids (tree : AgentRenderTree) :
    ∃ visible enough, ∀ fuel, enough ≤ fuel → visibleIds fuel tree = some visible := by
  let places := (tree.nodes.map AgentNode.id).toFinset
  have hplaces : ∀ id, (admitted tree id).isSome → id ∈ places := by
    intro id hid
    obtain ⟨node, hfind, _⟩ := is_some_admitted_iff.mp hid
    obtain ⟨hmem, rfl⟩ := AgentRenderTree.find_eq_some hfind
    exact List.mem_toFinset.mpr (List.mem_map_of_mem hmem)
  obtain ⟨visible, hvisible⟩ := Worklist.exists_visit hplaces
    (Nat.lt_succ_self (Worklist.budget (admitted tree) places [tree.root] ∅))
  exact ⟨visible, _, fun fuel hfuel => Worklist.visit_mono hfuel hvisible⟩

variable {fuel : Nat} {visible : Finset AgentNodeId}

/-- A step of the loop goes along a visible link or back to the root. -/
theorem shown_of_step {a b : AgentNodeId} (ha : Shown tree a)
    (hstep : Worklist.Step (admitted tree) a b) : Shown tree b := by
  obtain ⟨hchild, hadmitted⟩ := hstep
  obtain ⟨child, hfindchild, hvisible⟩ := is_some_admitted_iff.mp hadmitted
  obtain rfl | hvisible := hvisible
  · exact .refl
  · cases hchildren : admitted tree a with
    | none =>
        rw [hchildren] at hchild
        cases hchild
    | some children =>
        obtain ⟨node, hfind, _, rfl⟩ := admitted_eq_some_iff.mp hchildren
        rw [hchildren, Option.getD_some] at hchild
        exact ha.tail ⟨⟨node, hfind, hchild⟩, child, hfindchild, hvisible⟩

theorem step_of_visible_link {a b : AgentNodeId} (ha : (admitted tree a).isSome)
    (hlink : VisibleLink tree a b) : Worklist.Step (admitted tree) a b := by
  obtain ⟨⟨parent, hparent, hchild⟩, child, hfindchild, hvisible⟩ := hlink
  obtain ⟨children, hchildren⟩ := Option.isSome_iff_exists.mp ha
  obtain ⟨parent', hparent', _, rfl⟩ := admitted_eq_some_iff.mp hchildren
  rw [hparent] at hparent'
  cases hparent'
  refine ⟨?_, is_some_admitted_iff.mpr ⟨child, hfindchild, .inr hvisible⟩⟩
  rw [hchildren]
  exact hchild

/-- The ids collected are those that are shown and name a node. -/
theorem mem_visible_ids_iff (h : visibleIds fuel tree = some visible) (id : AgentNodeId) :
    id ∈ visible ↔ Shown tree id ∧ ∃ node, tree.find id = some node := by
  rw [Worklist.mem_visit_iff h]
  constructor
  · intro hreached
    obtain ⟨a, ha, hadmitted, hreach⟩ := hreached
    obtain rfl := List.mem_singleton.mp ha
    have hfound := is_some_admitted_iff.mp (Worklist.is_some_of_reach hadmitted hreach)
    refine ⟨?_, hfound.imp fun _ h => h.1⟩
    clear hfound
    induction hreach with
    | refl => exact .refl
    | tail _ hstep ih => exact shown_of_step ih hstep
  · intro hid
    obtain ⟨hshown, node, hfind⟩ := hid
    induction hshown generalizing node with
    | refl =>
        exact ⟨_, List.mem_cons_self, is_some_admitted_iff.mpr ⟨node, hfind, .inl rfl⟩, .refl⟩
    | tail _ hlink ih =>
        obtain ⟨parent, hparent, _⟩ := hlink.1
        obtain ⟨a, ha, hadmitted, hreach⟩ := ih parent hparent
        have hparentadmitted := Worklist.is_some_of_reach hadmitted hreach
        exact ⟨a, ha, hadmitted, hreach.tail (step_of_visible_link hparentadmitted hlink)⟩

/-! ## The pruned tree -/

/-- The ids that stay are shown. -/
theorem kept_iff (h : visibleIds fuel tree = some visible) {node : AgentNode}
    (hnode : node ∈ tree.nodes) :
    node.id = tree.root ∨ node.id ∈ visible ↔ Shown tree node.id := by
  have hfound : ∃ found, tree.find node.id = some found :=
    Option.isSome_iff_exists.mp (List.find?_isSome.mpr ⟨node, hnode, by simp⟩)
  rw [mem_visible_ids_iff h, and_iff_left hfound]
  refine or_iff_right_of_imp fun hroot => ?_
  rw [hroot]
  exact .refl

/-- The lookup in the pruned tree. -/
theorem find_retain (id : AgentNodeId) : (retain tree visible).find id =
    if id = tree.root ∨ id ∈ visible then (tree.find id).map (retainChildren visible)
    else none := by
  have hsame : ∀ node : AgentNode,
      (decide (node.id = tree.root ∨ node.id ∈ visible) = true ∧ (node.id == id) = true) ↔
        (id = tree.root ∨ id ∈ visible) ∧ (node.id == id) = true := by
    intro node
    rw [beq_iff_eq, decide_eq_true_iff]
    exact and_congr_left fun hid => by rw [hid]
  unfold retain AgentRenderTree.find
  rw [List.find?_map, List.find?_filter]
  show Option.map _ (tree.nodes.find? fun node : AgentNode => decide
    (decide (node.id = tree.root ∨ node.id ∈ visible) = true ∧ (node.id == id) = true)) = _
  simp only [hsame]
  by_cases hkept : id = tree.root ∨ id ∈ visible
  · rw [if_pos hkept]
    simp only [hkept, true_and, Bool.decide_eq_true]
  · rw [if_neg hkept]
    simp [hkept]

theorem find_retain_of_mem {id : AgentNodeId} {node : AgentNode} (hid : id ∈ visible)
    (hfind : tree.find id = some node) :
    (retain tree visible).find id = some (retainChildren visible node) := by
  rw [find_retain, if_pos (.inr hid), hfind, Option.map_some]

/-- Pruning leads to no new nodes. -/
theorem shown_of_retain {id : AgentNodeId} (h : Shown (retain tree visible) id) :
    Shown tree id := by
  have hfind : ∀ {id node}, (retain tree visible).find id = some node →
      ∃ found, tree.find id = some found ∧ retainChildren visible found = node := by
    intro id node hnode
    rw [find_retain] at hnode
    split_ifs at hnode
    exact Option.map_eq_some_iff.mp hnode
  refine ReflTransGen.mono ?_ _ _ h
  intro a b hlink
  obtain ⟨⟨parent, hparent, hchild⟩, child, hchildfind, hvisible⟩ := hlink
  obtain ⟨parent', hparent', rfl⟩ := hfind hparent
  obtain ⟨child', hchild', rfl⟩ := hfind hchildfind
  exact ⟨⟨parent', hparent', List.mem_of_mem_filter hchild⟩, child', hchild', hvisible⟩

/-- What is shown stays shown. -/
theorem shown_retain (h : visibleIds fuel tree = some visible) {id : AgentNodeId}
    (hid : id ∈ visible) : Shown (retain tree visible) id := by
  obtain ⟨hshown, node, hnode⟩ := (mem_visible_ids_iff h id).mp hid
  clear hid
  induction hshown generalizing node with
  | refl => exact .refl
  | @tail a b hpath hlink ih =>
      have hlink' := hlink
      obtain ⟨⟨parent, hparent, hchild⟩, child, hfindchild, hvisible⟩ := hlink'
      have ha : a ∈ visible := (mem_visible_ids_iff h a).mpr ⟨hpath, parent, hparent⟩
      have hb : b ∈ visible := (mem_visible_ids_iff h b).mpr ⟨hpath.tail hlink, child, hfindchild⟩
      exact (ih parent hparent).tail ⟨⟨retainChildren visible parent,
        find_retain_of_mem ha hparent, List.mem_filter.mpr ⟨hchild, decide_eq_true hb⟩⟩,
        retainChildren visible child, find_retain_of_mem hb hfindchild, hvisible⟩

/-- The loop over the pruned tree collects the same ids. -/
theorem visible_ids_retain {fuel' : Nat} {visible' : Finset AgentNodeId}
    (h : visibleIds fuel tree = some visible)
    (h' : visibleIds fuel' (retain tree visible) = some visible') : visible' = visible := by
  refine Finset.ext fun id => ?_
  rw [mem_visible_ids_iff h']
  constructor
  · intro hid
    obtain ⟨hshown, node, hnode⟩ := hid
    rw [find_retain] at hnode
    split_ifs at hnode
    obtain ⟨found, hfound, _⟩ := Option.map_eq_some_iff.mp hnode
    exact (mem_visible_ids_iff h id).mpr ⟨shown_of_retain hshown, found, hfound⟩
  · intro hid
    obtain ⟨_, node, hnode⟩ := (mem_visible_ids_iff h id).mp hid
    exact ⟨shown_retain h hid, _, find_retain_of_mem hid hnode⟩

/-- A tree is pruned once. -/
theorem retain_retain (tree : AgentRenderTree) (visible : Finset AgentNodeId) :
    retain (retain tree visible) visible = retain tree visible := by
  have hchildren : ∀ node, retainChildren visible (retainChildren visible node) =
      retainChildren visible node := by
    intro node
    simp [retainChildren, List.filter_filter]
  have hkept : ∀ node ∈ (retain tree visible).nodes,
      decide (node.id = (retain tree visible).root ∨ node.id ∈ visible) = true := by
    intro node hnode
    obtain ⟨original, horiginal, rfl⟩ := List.mem_map.mp hnode
    exact (List.mem_filter.mp horiginal).2
  have hnodes : (retain (retain tree visible) visible).nodes = (retain tree visible).nodes := by
    show ((retain tree visible).nodes.filter _).map _ = _
    rw [List.filter_eq_self.mpr hkept]
    show ((tree.nodes.filter _).map _).map _ = (tree.nodes.filter _).map _
    rw [List.map_map]
    exact List.map_congr_left fun node _ => hchildren node
  show { tree with nodes := (retain (retain tree visible) visible).nodes } = _
  rw [hnodes]
  rfl

/-- Every child in the pruned tree is one of its nodes. -/
theorem mem_nodes_of_child (h : visibleIds fuel tree = some visible) {node : AgentNode}
    (hnode : node ∈ (retain tree visible).nodes) {child : AgentNodeId}
    (hchild : child ∈ node.children) :
    ∃ other ∈ (retain tree visible).nodes, other.id = child := by
  obtain ⟨original, _, rfl⟩ := List.mem_map.mp hnode
  have hvisible := of_decide_eq_true (List.mem_filter.mp hchild).2
  obtain ⟨_, found, hfound⟩ := (mem_visible_ids_iff h child).mp hvisible
  obtain ⟨hmem, rfl⟩ := AgentRenderTree.find_eq_some hfound
  exact ⟨_, List.mem_map_of_mem (List.mem_filter.mpr ⟨hmem, decide_eq_true (.inr hvisible)⟩), rfl⟩

/-! ## The compiler -/

theorem compile_eq (h : visibleIds fuel tree = some visible) :
    compile fuel tree false = some (fromTree (retain tree visible)) := by
  rw [compile, if_neg Bool.false_ne_true, h, Option.map_some]

open Classical in
/-- The root and the nodes that visible nodes lead to, with the links among them. -/
noncomputable def shownPart (tree : AgentRenderTree) : AgentRenderTree :=
  { tree with
    nodes := (tree.nodes.filter fun node => Shown tree node.id).map fun node =>
      { node with
        children := node.children.filter fun child =>
          Shown tree child ∧ ∃ found, tree.find child = some found } }

open Classical in
/-- What is kept is what is shown. -/
theorem retain_eq (h : visibleIds fuel tree = some visible) :
    retain tree visible = shownPart tree := by
  have hnodes : (tree.nodes.filter fun node => node.id = tree.root ∨ node.id ∈ visible) =
      tree.nodes.filter fun node => Shown tree node.id :=
    List.filter_congr fun node hnode => decide_eq_decide.mpr (kept_iff h hnode)
  have hchildren : ∀ node, retainChildren visible node =
      { node with
        children := node.children.filter fun child =>
          Shown tree child ∧ ∃ found, tree.find child = some found } := by
    intro node
    rw [retainChildren]
    simp only [mem_visible_ids_iff h]
  rw [retain, shownPart, hnodes]
  exact congrArg (fun nodes => { tree with nodes }) (List.map_congr_left fun node _ =>
    hchildren node)

/-- Without the invisible nodes, the compiler returns for every tree. It keeps the root and the
nodes that visible nodes lead to, in their order; the links that are left lead to nodes that are
left; and compiling again changes nothing. -/
theorem compile_prunes (tree : AgentRenderTree) :
    ∃ ir, (∃ enough, ∀ fuel, enough ≤ fuel → compile fuel tree false = some ir) ∧
      ir.tree = shownPart tree ∧
      (∀ node ∈ ir.tree.nodes, ∀ child ∈ node.children,
        ∃ other ∈ ir.tree.nodes, other.id = child) ∧
      ∃ enough, ∀ fuel, enough ≤ fuel → compile fuel ir.tree false = some ir := by
  obtain ⟨visible, enough, henough⟩ := exists_visible_ids tree
  have h := henough enough le_rfl
  refine ⟨fromTree (retain tree visible), ⟨enough, fun fuel hfuel =>
    compile_eq (henough fuel hfuel)⟩, retain_eq h, fun node hnode child hchild =>
      mem_nodes_of_child h hnode hchild, ?_⟩
  obtain ⟨visible', enough', henough'⟩ := exists_visible_ids (retain tree visible)
  obtain rfl := visible_ids_retain h (henough' enough' le_rfl)
  refine ⟨enough', fun fuel hfuel => (compile_eq (henough' fuel hfuel)).trans ?_⟩
  rw [retain_retain]

end StructuralIr

end BrowsAI
