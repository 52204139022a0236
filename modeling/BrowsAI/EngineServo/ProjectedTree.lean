import BrowsAI.EngineServo.Projection
import BrowsAI.SemanticCompiler.Rooted

/-!
# The tree of a projection

`Renders` says which nodes belong to a JSON value, without the accumulator of `buildAgentNode`. A node
is found under the path to its element, `find_path_id`, and `agent_tree_mirrors` says that the tree
is the document: a node for each element with its children in their order, hanging from the page.
-/

namespace BrowsAI.EngineServo

open Utf8 AgentTree Ipc Relation

/-! ## Ids -/

/-- The id of the element that a path leads to. -/
def pathId (id : AgentNodeId) : List Nat → AgentNodeId
  | [] => id
  | index :: path => pathId (childId id index) path

theorem path_id_append (id : AgentNodeId) (path : List Nat) (index : Nat) :
    pathId id (path ++ [index]) = childId (pathId id path) index := by
  induction path generalizing id with
  | nil => rfl
  | cons first path ih => exact ih _

theorem child_id_eq (id : AgentNodeId) (index : Nat) :
    childId id index = id ++ '/' :: ofNat index := List.append_assoc _ _ _

theorem length_child_id (id : AgentNodeId) (index : Nat) : id.length < (childId id index).length := by
  rw [child_id_eq, List.length_append, List.length_cons]
  omega

/-- The id of an element or of one below it. -/
def Under (id other : AgentNodeId) : Prop := other = id ∨ ∃ rest : Text, other = id ++ '/' :: rest

theorem Under.of_child {id other : AgentNodeId} {index : Nat} (h : Under (childId id index) other) :
    ∃ rest : Text, other = id ++ '/' :: rest := by
  rcases h with rfl | ⟨rest, rfl⟩
  · exact ⟨_, child_id_eq id index⟩
  · exact ⟨ofNat index ++ '/' :: rest, by rw [child_id_eq, List.append_assoc, List.cons_append]⟩

theorem slash_not_mem (n : Nat) : '/' ∉ ofNat n := not_mem_of_nat rfl n

/-- What is under one child is not under another one. -/
theorem Under.index_eq {id other : AgentNodeId} {i j : Nat} (hi : Under (childId id i) other)
    (hj : Under (childId id j) other) : i = j := by
  rw [child_id_eq] at hi hj
  rcases hi with rfl | ⟨rest, rfl⟩
  · rcases hj with heq | ⟨rest, heq⟩
    · exact of_nat_inj (List.cons.inj (List.append_cancel_left heq)).2
    · rw [List.append_assoc] at heq
      have hdigits := (List.cons.inj (List.append_cancel_left heq)).2
      exact absurd (hdigits ▸ List.mem_append_right _ List.mem_cons_self) (slash_not_mem i)
  · rw [List.append_assoc] at hj
    rcases hj with heq | ⟨rest', heq⟩
    · have hdigits := (List.cons.inj (List.append_cancel_left heq)).2
      exact absurd (hdigits ▸ List.mem_append_right _ List.mem_cons_self) (slash_not_mem j)
    · rw [List.append_assoc] at heq
      have hdigits := (List.cons.inj (List.append_cancel_left heq)).2
      exact of_nat_inj (append_cons_inj (slash_not_mem i) (slash_not_mem j) hdigits).1

/-! ## What is built -/

/-- Every element is an object with its children in an array. -/
inductive Complete : Value → Prop
  | intro {fields : List (Text × Value)} {children : List Value} :
      childrenField fields = some children → (∀ child ∈ children, Complete child) →
      Complete (.object fields)

mutual

/-- `Renders generation value id node below` says that `node` is the node of a value under an id, and
that `below` are the nodes of what is in it. -/
inductive Renders (generation : UInt64) : Value → AgentNodeId → AgentNode → List AgentNode → Prop
  | element {fields : List (Text × Value)} {children : List Value} {id : AgentNodeId}
      {childIds : List AgentNodeId} {below : List AgentNode} :
      childrenField fields = some children →
      RendersAll generation children id 0 childIds below →
      Renders generation (.object fields) id (elementNode fields id generation childIds) below

/-- `RendersAll generation children id index childIds below` says the same of the children from an
index on. -/
inductive RendersAll (generation : UInt64) :
    List Value → AgentNodeId → Nat → List AgentNodeId → List AgentNode → Prop
  | nil (id : AgentNodeId) (index : Nat) : RendersAll generation [] id index [] []
  | cons {child : Value} {children : List Value} {id : AgentNodeId} {index : Nat} {node : AgentNode}
      {childIds : List AgentNodeId} {below rest : List AgentNode} :
      Renders generation child (childId id index) node below →
      RendersAll generation children id (index + 1) childIds rest →
      RendersAll generation (child :: children) id index (node.id :: childIds)
        (below ++ node :: rest)

end

theorem value_induction {P : Value → Prop}
    (h : ∀ value, (∀ fields children, value = .object fields → childrenField fields = some children →
      ∀ child ∈ children, P child) → P value) (value : Value) : P value :=
  h value fun fields children heq hchildren child hmem =>
    have : sizeOf child < sizeOf value := by
      have hchild := List.sizeOf_lt_of_mem hmem
      have hfields := size_of_children hchildren
      rw [heq, Value.object.sizeOf_spec]
      omega
    value_induction h child
termination_by sizeOf value

section Build

variable {generation : UInt64}

/-- An element is rendered behind what is there, or it is not complete. -/
def Built (generation : UInt64) (value : Value) : Prop :=
  ∀ id nodes,
    (∃ node below, buildAgentNode generation value id nodes = .ok (node, nodes ++ below) ∧
      Renders generation value id node below) ∨
    ¬ Complete value ∧ ∃ message, buildAgentNode generation value id nodes = .error (.other message)

/-- The children are rendered one after the other, or one of them is not complete. -/
theorem build_children_cases {children : List Value}
    (hchildren : ∀ child ∈ children, Built generation child) (id : AgentNodeId) (index : Nat)
    (childIds : List AgentNodeId) (nodes : List AgentNode) :
    (∃ ids below, buildChildren generation children id index childIds nodes =
        .ok (childIds ++ ids, nodes ++ below) ∧
      RendersAll generation children id index ids below) ∨
    (∃ child ∈ children, ¬ Complete child) ∧
      ∃ message, buildChildren generation children id index childIds nodes =
        .error (.other message) := by
  induction children generalizing index childIds nodes with
  | nil =>
      refine .inl ⟨[], [], ?_, .nil id index⟩
      rw [buildChildren, List.append_nil, List.append_nil]
  | cons child children ih =>
      obtain ⟨hchild, hrest⟩ := List.forall_mem_cons.mp hchildren
      rw [buildChildren]
      rcases hchild (childId id index) nodes with ⟨node, below, hbuild, hrenders⟩ | ⟨hnot, message, h⟩
      · rw [hbuild]
        rcases ih hrest (index + 1) (childIds ++ [node.id]) (nodes ++ below ++ [node]) with
          ⟨ids, rest, heq, hall⟩ | ⟨⟨other, hmem, hnot⟩, message, heq⟩
        · refine .inl ⟨node.id :: ids, below ++ node :: rest, ?_, .cons hrenders hall⟩
          refine heq.trans ?_
          simp only [List.append_assoc, List.cons_append, List.nil_append]
        · exact .inr ⟨⟨other, List.mem_cons_of_mem _ hmem, hnot⟩, message, heq⟩
      · rw [h]
        exact .inr ⟨⟨child, List.mem_cons_self, hnot⟩, message, rfl⟩

/-- An element without children is an error. -/
theorem build_childless {fields : List (Text × Value)} (h : childrenField fields = none)
    (id : AgentNodeId) (nodes : List AgentNode) :
    buildAgentNode generation (.object fields) id nodes =
      .error (.other "Servo DOM projection omitted children") := by
  rw [buildAgentNode]
  split
  · rfl
  · next hsome =>
    rw [hsome] at h
    cases h

/-- An element is built behind its children. -/
theorem build_object {fields : List (Text × Value)} {children : List Value}
    (h : childrenField fields = some children) (id : AgentNodeId) (nodes : List AgentNode) :
    buildAgentNode generation (.object fields) id nodes =
      (buildChildren generation children id 0 [] nodes).map fun result =>
        (elementNode fields id generation result.1, result.2) := by
  rw [buildAgentNode]
  split
  · next hnone =>
    rw [hnone] at h
    cases h
  · next hsome =>
    rw [hsome] at h
    cases h
    cases buildChildren generation children id 0 [] nodes with
    | error error => rfl
    | ok result => rfl

theorem not_complete {fields : List (Text × Value)} (h : childrenField fields = none) :
    ¬ Complete (.object fields) := by
  rintro ⟨hchildren, -⟩
  rw [h] at hchildren
  cases hchildren

/-- `build_agent_node` renders what is complete, and fails on what is not. -/
theorem built (value : Value) : Built generation value := by
  induction value using value_induction with
  | h value ih =>
      intro id nodes
      cases value with
      | object fields =>
          cases hchildren : childrenField fields with
          | none =>
              exact .inr ⟨not_complete hchildren, _, build_childless hchildren id nodes⟩
          | some children =>
              rw [build_object hchildren]
              rcases build_children_cases (ih fields children rfl hchildren) id 0 [] nodes with
                ⟨ids, below, heq, hall⟩ | ⟨⟨child, hmem, hnot⟩, message, heq⟩
              · rw [heq]
                exact .inl ⟨_, below, rfl, .element hchildren hall⟩
              · rw [heq]
                refine .inr ⟨?_, message, rfl⟩
                rintro ⟨hfound, hcomplete⟩
                rw [hchildren] at hfound
                cases hfound
                exact hnot (hcomplete child hmem)
      | _ =>
          refine .inr ⟨fun hcomplete => ?_, "Servo DOM projection returned a non-object", ?_⟩
          · cases hcomplete
          · rw [buildAgentNode]
            intro _ hvalue
            cases hvalue

end Build

/-! ## The nodes of a rendering -/

section Rendering

variable {generation : UInt64} {value : Value} {children : List Value} {id : AgentNodeId}
  {index : Nat} {node : AgentNode} {childIds : List AgentNodeId} {below : List AgentNode}

theorem Renders.id_eq (h : Renders generation value id node below) : node.id = id := by
  cases h with
  | element => rfl

mutual

/-- All nodes of a value have ids below its own. -/
theorem Renders.under : ∀ {value id node below}, Renders generation value id node below →
    ∀ n ∈ below ++ [node], Under id n.id
  | _, _, _, _, .element _ hall, n, hmem => by
      rcases List.mem_append.mp hmem with hbelow | hnode
      · obtain ⟨i, -, hunder⟩ := hall.under n hbelow
        exact .inr hunder.of_child
      · rw [List.mem_singleton.mp hnode]
        exact .inl rfl

/-- Those of a list have ids below the ones of the list. -/
theorem RendersAll.under : ∀ {children id index childIds below},
    RendersAll generation children id index childIds below →
    ∀ n ∈ below, ∃ i, index ≤ i ∧ Under (childId id i) n.id
  | _, _, _, _, _, .nil _ _, _, hmem => nomatch hmem
  | _, _, index, _, _, .cons hchild hrest, n, hmem => by
      rw [List.append_cons, List.mem_append] at hmem
      rcases hmem with hfirst | hrest'
      · exact ⟨index, Nat.le_refl _, hchild.under n hfirst⟩
      · obtain ⟨i, hle, hunder⟩ := hrest.under n hrest'
        exact ⟨i, Nat.le_of_succ_le hle, hunder⟩

end

mutual

/-- No two nodes share an id. -/
theorem Renders.nodup : ∀ {value id node below}, Renders generation value id node below →
    ((below ++ [node]).map AgentNode.id).Nodup
  | _, id, _, _, .element _ hall => by
      rw [List.map_append, List.nodup_append']
      refine ⟨hall.nodup, List.nodup_singleton _, fun other hbelow hnode => ?_⟩
      obtain ⟨n, hn, rfl⟩ := List.mem_map.mp hbelow
      obtain ⟨i, -, hunder⟩ := hall.under n hn
      obtain ⟨rest, hrest⟩ := hunder.of_child
      have hsame : n.id = id := List.mem_singleton.mp hnode
      have hlength := congrArg List.length (hsame.symm.trans hrest)
      rw [List.length_append, List.length_cons] at hlength
      omega

/-- No id is given twice. -/
theorem RendersAll.nodup : ∀ {children id index childIds below},
    RendersAll generation children id index childIds below → (below.map AgentNode.id).Nodup
  | _, _, _, _, _, .nil _ _ => .nil
  | _, _, index, _, _, .cons hchild hrest => by
      rw [List.append_cons, List.map_append, List.nodup_append']
      refine ⟨hchild.nodup, hrest.nodup, fun other hfirst hlater => ?_⟩
      obtain ⟨n, hn, rfl⟩ := List.mem_map.mp hfirst
      obtain ⟨n', hn', hsame⟩ := List.mem_map.mp hlater
      obtain ⟨i, hle, hunder⟩ := hrest.under n' hn'
      have hindex : index = i := (hchild.under n hn).index_eq (hsame ▸ hunder)
      omega

end

mutual

/-- Every node below is listed as a child once. -/
theorem Renders.listed : ∀ {value id node below}, Renders generation value id node below →
    ((below ++ [node]).flatMap AgentNode.children).Perm (below.map AgentNode.id)
  | _, _, _, _, .element _ hall => by
      rw [List.flatMap_append, List.flatMap_singleton]
      exact hall.listed

/-- Every node is listed as a child once. -/
theorem RendersAll.listed : ∀ {children id index childIds below},
    RendersAll generation children id index childIds below →
    (below.flatMap AgentNode.children ++ childIds).Perm (below.map AgentNode.id)
  | _, _, _, _, _, .nil _ _ => .refl _
  | _, _, _, _, _, @RendersAll.cons _ _ _ _ _ node childIds below rest hchild hrest => by
      rw [List.append_cons below node rest, List.flatMap_append, List.map_append, List.append_assoc]
      have hmiddle : (rest.flatMap AgentNode.children ++ node.id :: childIds).Perm
          (node.id :: rest.map AgentNode.id) :=
        List.perm_middle.trans (hrest.listed.cons _)
      refine (hchild.listed.append hmiddle).trans ?_
      rw [List.map_append, List.append_assoc]
      exact .refl _

end

/-! ## Elements by their paths -/

/-- The children of an element. -/
def childrenOf : Value → List Value
  | .object fields => (childrenField fields).getD []
  | _ => []

/-- The element that a path leads to. -/
def elementAt (value : Value) : List Nat → Option Value
  | [] => some value
  | index :: path => (childrenOf value)[index]?.bind fun child => elementAt child path

theorem element_at_append (value : Value) (path : List Nat) (index : Nat) :
    elementAt value (path ++ [index]) =
      (elementAt value path).bind fun element => (childrenOf element)[index]? := by
  induction path generalizing value with
  | nil => exact Option.bind_fun_some _
  | cons first path ih =>
      rw [List.cons_append, elementAt, elementAt, Option.bind_assoc]
      exact congrArg _ (funext fun child => ih child)

/-- The node that an element has to have under an id. -/
def nodeOf (generation : UInt64) (id : AgentNodeId) : Value → Option AgentNode
  | .object fields => some (elementNode fields id generation
      ((List.range (childrenOf (.object fields)).length).map (childId id)))
  | _ => none

theorem under_path_id (id : AgentNodeId) (path : List Nat) : Under id (pathId id path) := by
  induction path generalizing id with
  | nil => exact .inl rfl
  | cons index path ih => exact .inr (ih _).of_child

/-- The id of a node tells its path. -/
theorem path_id_inj {path path' : List Nat} (h : pathId id path = pathId id path') :
    path = path' := by
  have hnot : ∀ {id : AgentNodeId} (index : Nat) (path : List Nat),
      pathId id (index :: path) ≠ id := by
    intro id index path heq
    obtain ⟨rest, hrest⟩ := (under_path_id (childId id index) path).of_child
    have hlength := congrArg List.length (heq.symm.trans hrest)
    rw [List.length_append, List.length_cons] at hlength
    omega
  induction path generalizing id path' with
  | nil =>
      cases path' with
      | nil => rfl
      | cons index path' => exact absurd h.symm (hnot index path')
  | cons index path ih =>
      cases path' with
      | nil => exact absurd h (hnot index path)
      | cons index' path' =>
          have hindex : index = index' :=
            (under_path_id (childId id index) path).index_eq (h ▸ under_path_id _ path')
          subst hindex
          rw [ih h]

/-- The children are numbered in their order. -/
theorem RendersAll.child_ids : ∀ {children id index childIds below},
    RendersAll generation children id index childIds below →
    childIds = (List.range' index children.length).map (childId id)
  | _, _, _, _, _, .nil _ _ => rfl
  | _, _, _, _, _, .cons hchild hrest => by
      rw [List.length_cons, List.range'_succ, List.map_cons, hchild.id_eq, ← hrest.child_ids]

theorem Renders.node_of (h : Renders generation value id node below) :
    nodeOf generation id value = some node := by
  cases h with
  | element hchildren hall =>
      rw [nodeOf, childrenOf, hchildren, Option.getD_some, hall.child_ids, List.range_eq_range']

mutual

/-- The nodes are those of the elements. -/
theorem Renders.mem_iff : ∀ {value id node below}, Renders generation value id node below →
    ∀ n, n ∈ below ++ [node] ↔ ∃ path element, elementAt value path = some element ∧
      nodeOf generation (pathId id path) element = some n
  | _, _, _, _, @Renders.element _ fields children _ _ _ hchildren hall, n => by
      have hof : childrenOf (.object fields) = children := by
        rw [childrenOf, hchildren, Option.getD_some]
      have hnode := (Renders.element hchildren hall).node_of
      rw [List.mem_append, hall.mem_iff, List.mem_singleton]
      constructor
      · rintro (⟨i, child, path, element, hchild, helement, hn⟩ | rfl)
        · rw [Nat.zero_add] at hn
          refine ⟨i :: path, element, ?_, hn⟩
          rw [elementAt, hof, hchild]
          exact helement
        · exact ⟨[], _, rfl, hnode⟩
      · rintro ⟨path, element, helement, hn⟩
        cases path with
        | nil =>
            cases helement
            exact .inr (Option.some.inj (hn.symm.trans hnode))
        | cons i path =>
            rw [elementAt, hof] at helement
            obtain ⟨child, hchild, helement⟩ := Option.bind_eq_some_iff.mp helement
            exact .inl ⟨i, child, path, element, hchild, helement, by rwa [Nat.zero_add]⟩

/-- The nodes are those of the elements at some path. -/
theorem RendersAll.mem_iff : ∀ {children id index childIds below},
    RendersAll generation children id index childIds below →
    ∀ n, n ∈ below ↔ ∃ i child path element, children[i]? = some child ∧
      elementAt child path = some element ∧
      nodeOf generation (pathId (childId id (index + i)) path) element = some n
  | _, _, _, _, _, .nil _ _, n => by simp
  | _, _, index, _, _, @RendersAll.cons _ child _ _ _ _ _ _ _ hchild hrest, n => by
      rw [List.append_cons, List.mem_append, hchild.mem_iff, hrest.mem_iff]
      have hnext : ∀ i, index + 1 + i = index + (i + 1) := fun i => by omega
      constructor
      · rintro (⟨path, element, helement, hn⟩ | ⟨i, other, path, element, hother, helement, hn⟩)
        · exact ⟨0, child, path, element, rfl, helement, hn⟩
        · exact ⟨i + 1, other, path, element, hother, helement, hnext i ▸ hn⟩
      · rintro ⟨i, other, path, element, hother, helement, hn⟩
        cases i with
        | zero =>
            cases hother
            exact .inl ⟨path, element, helement, hn⟩
        | succ i => exact .inr ⟨i, other, path, element, hother, helement, (hnext i).symm ▸ hn⟩

end

theorem node_of_id {n : AgentNode} {element : Value} (h : nodeOf generation id element = some n) :
    n.id = id := by
  cases element with
  | object fields =>
      cases h
      rfl
  | _ => cases h

/-- The elements hang together, in a tree that finds their nodes. -/
theorem Renders.reaches (h : Renders generation value id node below) {tree : AgentRenderTree}
    (hfind : ∀ n ∈ below ++ [node], tree.find n.id = some n) {path : List Nat} {element : Value}
    (helement : elementAt value path = some element) :
    ReflTransGen tree.Links id (pathId id path) := by
  induction path using List.reverseRecOn generalizing element with
  | nil => exact .refl
  | append_singleton path i ih =>
      rw [element_at_append] at helement
      obtain ⟨parent, hparent, hchild⟩ := Option.bind_eq_some_iff.mp helement
      rw [path_id_append]
      refine (ih hparent).tail ?_
      cases parent with
      | object fields =>
          have hmem := (h.mem_iff _).mpr ⟨path, _, hparent, rfl⟩
          obtain ⟨hi, -⟩ := List.getElem?_eq_some_iff.mp hchild
          exact ⟨_, hfind _ hmem, List.mem_map_of_mem (List.mem_range.mpr hi)⟩
      | _ => cases hchild

/-- A child's id is longer than the id of the node that lists it. -/
theorem Renders.length_lt (h : Renders generation value id node below) {n : AgentNode}
    (hn : n ∈ below ++ [node]) {child : AgentNodeId} (hchild : child ∈ n.children) :
    n.id.length < child.length := by
  obtain ⟨path, element, -, hnode⟩ := (h.mem_iff n).mp hn
  rw [node_of_id hnode]
  cases element with
  | object fields =>
      cases hnode
      obtain ⟨i, -, rfl⟩ := List.mem_map.mp hchild
      exact length_child_id _ i
  | _ => cases hnode

end Rendering

/-! ## The tree -/

/-- A tree as its consumers expect it: every node but the root is listed by one node, once, and the
root leads to all of them. -/
structure WellFormed (tree : AgentRenderTree) : Prop where
  unique : tree.UniqueIds
  listed : (tree.root :: tree.nodes.flatMap AgentNode.children).Perm (tree.nodes.map AgentNode.id)
  rooted : SemanticCompiler.Rooted tree
  acyclic : tree.Acyclic

/-- The tree of a page over the nodes of a document. -/
def pageTree (url : Text) (rootId : AgentNodeId) (generation : UInt64) (nodes : List AgentNode)
    (truncated : Bool) : AgentRenderTree :=
  ⟨rootId, pageNode rootId url generation ["dom:0"] :: nodes, generation, truncated⟩

/-- The id is that of no element. -/
def Outside (rootId : AgentNodeId) : Prop := ¬ ("dom:0" : Text) <+: rootId

/-- The root of the tree that the engine asks a page for. -/
def pageRootId (page : PageId) : AgentNodeId := "page:servo-" ++ ofNat page

theorem outside_page_root_id (page : PageId) : Outside (pageRootId page) := by
  rintro ⟨rest, heq⟩
  have hhead : some 'd' = some 'p' := congrArg List.head? heq
  exact absurd hhead (by decide)

section Page

variable {generation : UInt64} {value : Value} {node : AgentNode} {below : List AgentNode}
  {url : Text} {rootId : AgentNodeId} {truncated : Bool}

theorem Outside.ne_of_under (h : Outside rootId) {other : AgentNodeId} (hunder : Under "dom:0" other) :
    rootId ≠ other := by
  rintro rfl
  rcases hunder with rfl | ⟨rest, rfl⟩
  · exact h List.prefix_rfl
  · exact h (List.prefix_append _ _)

theorem Renders.unique_ids (h : Renders generation value "dom:0" node below)
    (hroot : Outside rootId) :
    (pageTree url rootId generation (below ++ [node]) truncated).UniqueIds := by
  refine List.nodup_cons.mpr ⟨fun hmem => ?_, h.nodup⟩
  obtain ⟨n, hn, hid⟩ := List.mem_map.mp hmem
  exact hroot.ne_of_under (h.under n hn) hid.symm

/-- A node is found under the path to its element, and nothing under any other path. -/
theorem Renders.find_path_id (h : Renders generation value "dom:0" node below)
    (hroot : Outside rootId) (path : List Nat) :
    (pageTree url rootId generation (below ++ [node]) truncated).find (pathId "dom:0" path) =
      (elementAt value path).bind (nodeOf generation (pathId "dom:0" path)) := by
  have hunique : (pageTree url rootId generation (below ++ [node]) truncated).UniqueIds :=
    h.unique_ids hroot
  cases hexpected : (elementAt value path).bind (nodeOf generation (pathId "dom:0" path)) with
  | some n =>
      obtain ⟨element, helement, hnode⟩ := Option.bind_eq_some_iff.mp hexpected
      have hmem := (h.mem_iff n).mpr ⟨path, element, helement, hnode⟩
      rw [← node_of_id hnode]
      exact AgentRenderTree.find_of_mem hunique (List.mem_cons_of_mem _ hmem)
  | none =>
      refine Option.eq_none_iff_forall_ne_some.mpr fun n hfind => ?_
      obtain ⟨hmem, hid⟩ := AgentRenderTree.find_eq_some hfind
      rcases List.mem_cons.mp hmem with rfl | hmem
      · exact hroot.ne_of_under (under_path_id _ path) hid
      · obtain ⟨path', element, helement, hnode⟩ := (h.mem_iff n).mp hmem
        have hpath : path' = path := path_id_inj ((node_of_id hnode).symm.trans hid)
        subst hpath
        rw [helement, Option.bind_some, hnode] at hexpected
        cases hexpected

/-- The nodes below the page are a well-formed tree. -/
theorem Renders.well_formed (h : Renders generation value "dom:0" node below)
    (hroot : Outside rootId) :
    WellFormed (pageTree url rootId generation (below ++ [node]) truncated) := by
  have hunique : (pageTree url rootId generation (below ++ [node]) truncated).UniqueIds :=
    h.unique_ids hroot
  have hfind : ∀ n ∈ below ++ [node],
      (pageTree url rootId generation (below ++ [node]) truncated).find n.id = some n :=
    fun n hn => AgentRenderTree.find_of_mem hunique (List.mem_cons_of_mem _ hn)
  have hpage : (pageTree url rootId generation (below ++ [node]) truncated).find rootId =
      some (pageNode rootId url generation ["dom:0"]) :=
    AgentRenderTree.find_of_mem hunique List.mem_cons_self
  refine ⟨hunique, ?_, ⟨Option.isSome_of_eq_some hpage, fun n hn => ?_⟩, fun a ha => ?_⟩
  · refine List.Perm.cons rootId ?_
    show ([("dom:0" : Text)] ++ (below ++ [node]).flatMap AgentNode.children).Perm _
    rw [List.map_append, List.map_singleton, h.id_eq]
    exact List.perm_append_comm.trans (h.listed.append_right _)
  · rcases List.mem_cons.mp hn with rfl | hn
    · exact .refl
    · obtain ⟨path, element, helement, hnode⟩ := (h.mem_iff n).mp hn
      rw [node_of_id hnode]
      exact .head ⟨_, hpage, List.mem_singleton.mpr rfl⟩ (h.reaches hfind helement)
  · -- the ids get longer along the links, from the page on
    have hlink : ∀ a b, (pageTree url rootId generation (below ++ [node]) truncated).Links a b →
        b ≠ rootId ∧ (a ≠ rootId → a.length < b.length) := by
      rintro a b ⟨n, hn, hb⟩
      obtain ⟨hmem, rfl⟩ := AgentRenderTree.find_eq_some hn
      rcases List.mem_cons.mp hmem with rfl | hmem
      · rw [List.mem_singleton.mp hb]
        exact ⟨(hroot.ne_of_under (.inl rfl)).symm, fun hne => absurd rfl hne⟩
      · have hbelow := h.listed.subset (List.mem_flatMap.mpr ⟨n, hmem, hb⟩)
        obtain ⟨n', hn', rfl⟩ := List.mem_map.mp hbelow
        have hunder := h.under n' (List.mem_append_left _ hn')
        exact ⟨(hroot.ne_of_under hunder).symm, fun _ => h.length_lt hmem hb⟩
    have hpath : ∀ {b}, TransGen
        (pageTree url rootId generation (below ++ [node]) truncated).Links a b →
        b ≠ rootId ∧ (a ≠ rootId → a.length < b.length) := by
      intro b hab
      induction hab with
      | single hab => exact hlink _ _ hab
      | tail _ hbc ih => exact ⟨(hlink _ _ hbc).1, fun hne => (ih.2 hne).trans ((hlink _ _ hbc).2 ih.1)⟩
    exact Nat.lt_irrefl _ ((hpath ha).2 (hpath ha).1)

/-- An answer of the page makes a tree if it is complete, and fails otherwise. -/
theorem projected_tree_cases (url : Text) (rootId : AgentNodeId) (generation : UInt64)
    (value : Value) :
    (∃ node below truncated, projectedTree url rootId generation value =
        .ok (pageTree url rootId generation (below ++ [node]) truncated) ∧
      Renders generation (rootValue value) "dom:0" node below) ∨
    ¬ Complete (rootValue value) ∧
      ∃ message, projectedTree url rootId generation value = .error (.other message) := by
  rw [projectedTree]
  have hbuilt : Built generation (rootValue value) := built _
  rcases hbuilt "dom:0" [pageNode rootId url 0 []] with
    ⟨node, below, hbuild, hrenders⟩ | ⟨hnot, message, hbuild⟩
  · rw [hbuild]
    refine .inl ⟨node, below,
      ((Value.get value "truncated").bind Value.asBool).getD false, ?_, hrenders⟩
    show Except.ok (AgentRenderTree.mk rootId (pageNode rootId url generation [node.id] ::
      (below ++ [node])) generation _) = _
    rw [hrenders.id_eq]
    rfl
  · rw [hbuild]
    exact .inr ⟨hnot, message, rfl⟩

/-- So is the page alone. -/
theorem root_only_well_formed (url : Text) (rootId : AgentNodeId) (generation : UInt64) :
    WellFormed ⟨rootId, [pageNode rootId url generation []], generation, true⟩ := by
  have hlinks : ∀ a b, ¬ AgentRenderTree.Links
      ⟨rootId, [pageNode rootId url generation []], generation, true⟩ a b := by
    rintro a b ⟨n, hn, hb⟩
    rw [List.mem_singleton.mp (AgentRenderTree.find_eq_some hn).1] at hb
    cases hb
  have hunique : AgentRenderTree.UniqueIds
      ⟨rootId, [pageNode rootId url generation []], generation, true⟩ := List.nodup_singleton _
  refine ⟨hunique, .refl _, ⟨?_, fun n hn => ?_⟩, fun a ha => ?_⟩
  · exact Option.isSome_of_eq_some (AgentRenderTree.find_of_mem hunique List.mem_cons_self)
  · rw [List.mem_singleton.mp hn]
    exact .refl
  · obtain ⟨b, -, hab⟩ := TransGen.tail'_iff.mp ha
    exact hlinks _ _ hab

/-- Whatever a page answers, a tree that `agent_tree` returns is well-formed. It is the page alone for
the hosts that are never asked. For the others it is the document of the answer: under the path to an
element its node with its children in order is found, and nothing under any other path. An answer
makes no tree only if an element in it is no object or has no array of children. -/
theorem agent_tree_mirrors (evaluate : ProjectionScript → UInt64 → Except EngineError Value)
    (url : Text) (host : Option Text) (loadElapsedMillis : UInt64) (rootId : AgentNodeId)
    (generation : UInt64) (hroot : Outside rootId) :
    match agentTree evaluate url host loadElapsedMillis rootId generation with
    | .ok tree =>
        WellFormed tree ∧ tree.root = rootId ∧ tree.generation = generation ∧
          if host.any isRootOnly then tree.nodes = [pageNode rootId url generation []] else
            tree.find rootId = some (pageNode rootId url generation ["dom:0"]) ∧
            ∃ value, projectionValue evaluate host loadElapsedMillis = .ok value ∧
              ∀ path, tree.find (pathId "dom:0" path) = (elementAt (rootValue value) path).bind
                (nodeOf generation (pathId "dom:0" path))
    | .error error =>
        projectionValue evaluate host loadElapsedMillis = .error error ∨
          ∃ value, projectionValue evaluate host loadElapsedMillis = .ok value ∧
            ¬ Complete (rootValue value) := by
  rw [agentTree]
  split_ifs with honly
  · exact ⟨root_only_well_formed url rootId generation, rfl, rfl, rfl⟩
  · cases hvalue : projectionValue evaluate host loadElapsedMillis with
    | error error => exact .inl rfl
    | ok value =>
        show match projectedTree url rootId generation value with
          | .ok tree => _
          | .error error => _
        rcases projected_tree_cases url rootId generation value with
          ⟨node, below, truncated, htree, hrenders⟩ | ⟨hnot, message, htree⟩
        · rw [htree]
          exact ⟨hrenders.well_formed hroot, rfl, rfl,
            AgentRenderTree.find_of_mem (hrenders.unique_ids hroot) List.mem_cons_self, value, rfl,
            hrenders.find_path_id hroot⟩
        · rw [htree]
          exact .inr ⟨value, rfl, hnot⟩

/-- A button with a label in it. -/
def buyButton : Value :=
  .object [("tag", .string "button"), ("name", .string "Buy"),
    ("children", .array [.object [("tag", .string "span"), ("text", .string "Buy"),
      ("children", .array [])]])]

/-- The answer of a page with this button. -/
def buyPage : Value :=
  .object [("root", .object [("tag", .string "html"), ("children", .array [buyButton])])]

theorem buy_page_complete : Complete (rootValue buyPage) := by
  refine .intro rfl (List.forall_mem_singleton.mpr (.intro rfl (List.forall_mem_singleton.mpr ?_)))
  exact .intro rfl (List.forall_mem_nil _)

/-- The tree of this page has the button with its label, and nothing beside it. -/
theorem buy_page_mirrors :
    ∃ tree, agentTree (fun _ _ => .ok buyPage) "https://shop.example/" (some "shop.example") 0
        (pageRootId 1) 3 = .ok tree ∧
      WellFormed tree ∧ tree.find "dom:0/0" = nodeOf 3 "dom:0/0" buyButton ∧
      tree.find "dom:0/1" = none := by
  have h := agent_tree_mirrors (fun _ _ => .ok buyPage) "https://shop.example/"
    (some "shop.example") 0 (pageRootId 1) 3 (outside_page_root_id 1)
  cases htree : agentTree (fun _ _ => .ok buyPage) "https://shop.example/" (some "shop.example") 0
      (pageRootId 1) 3 with
  | error error =>
      rw [htree] at h
      rcases h with h | ⟨value, hvalue, hnot⟩
      · cases h
      · cases hvalue
        exact absurd buy_page_complete hnot
  | ok tree =>
      rw [htree] at h
      obtain ⟨hwell, -, -, hfind⟩ := h
      rw [if_neg (by decide)] at hfind
      obtain ⟨-, value, hvalue, hmirror⟩ := hfind
      cases hvalue
      exact ⟨tree, rfl, hwell, hmirror [0], hmirror [1]⟩

end Page

end BrowsAI.EngineServo
