import BrowsAI.PageText.Visits
import BrowsAI.SemanticIr.Enrichment

/-!
# Challenges and the consumers of the tree

`with_challenge_observations` adds its nodes so that the tree surfaces the walls, but no node links
to them and their state is the default, which is not visible. A consumer that walks the visible
links from the root comes to none of them: pruning drops them, unless it keeps another node with
the same id, and the emitter prints at most that other node.
-/

namespace BrowsAI.SemanticIr

open Utf8 AgentTree Network PageText

/-- What the structural compiler makes of a tree without the invisible nodes. -/
def Prunes (tree : AgentRenderTree) (ir : StructuralIr) : Prop :=
  ∃ enough, ∀ fuel, enough ≤ fuel → StructuralIr.compile fuel tree false = some ir

/-- The node at a position comes through the structural compiler, and the walk of the emitter comes
to it. The walk looks nodes up by their ids, so it comes to the first one with an id. -/
structure Surfaces (tree : AgentRenderTree) (opts : MarkdownOptions) (position : Nat)
    (node : AgentNode) : Prop where
  survives : ∃ ir, Prunes tree ir ∧ node ∈ ir.tree.nodes
  first : tree.rank node.id = position
  emitted : ∃ place ctx, Visited tree opts (.node place ctx node)

/-! ## What is pushed -/

section Push

variable {α : Type} (make : AgentRenderTree → α → AgentNode)

/-- The tree stays in front of what is pushed. -/
theorem exists_push_nodes (tree : AgentRenderTree) (items : List α) :
    ∃ added, (pushNodes make tree items).nodes = tree.nodes ++ added ∧
      added.length = items.length ∧
      ∀ node ∈ added, ∃ before item, node = make before item := by
  induction items generalizing tree with
  | nil => exact ⟨[], (List.append_nil _).symm, rfl, fun _ h => by cases h⟩
  | cons item items ih =>
      obtain ⟨added, hnodes, hlength, hadded⟩ :=
        ih { tree with nodes := tree.nodes ++ [make tree item] }
      refine ⟨make tree item :: added, ?_, ?_, fun node hnode => ?_⟩
      · exact hnodes.trans (by simp)
      · simp only [List.length_cons, hlength]
      · obtain rfl | hnode := List.mem_cons.mp hnode
        · exact ⟨tree, item, rfl⟩
        · exact hadded node hnode

theorem root_push_nodes (tree : AgentRenderTree) (items : List α) :
    (pushNodes make tree items).root = tree.root := by
  induction items generalizing tree with
  | nil => rfl
  | cons item items ih => exact ih _

end Push

/-! ## The lookup -/

variable {tree : AgentRenderTree} {opts : MarkdownOptions} {position : Nat} {node : AgentNode}

/-- The first node with an id is the one that is found. -/
theorem find_of_rank (hnode : tree.nodes[position]? = some node)
    (hfirst : tree.rank node.id = position) : tree.find node.id = some node := by
  obtain ⟨hlt, hget⟩ := List.getElem?_eq_some_iff.mp hnode
  refine List.find?_eq_some_iff_getElem.mpr ⟨by simp, position, hlt, hget, fun j hj => ?_⟩
  have hnot := List.not_of_lt_findIdx (p := fun node' : AgentNode => node'.id == node.id) (i := j)
    (by rw [show tree.nodes.findIdx _ = position from hfirst]; exact hj)
  simpa using hnot

/-- A node that has the id of one in front of it is not the first with its id. -/
theorem rank_lt_of_mem {front added : List AgentNode} (hnodes : tree.nodes = front ++ added)
    {id : AgentNodeId} (hfront : ∃ node ∈ front, node.id = id) : tree.rank id < front.length := by
  obtain ⟨node, hmem, hid⟩ := hfront
  have hmatch : (node.id == id) = true := beq_iff_eq.mpr hid
  have hlt : (front.findIdx fun node => node.id == id) < front.length :=
    List.findIdx_lt_length_of_exists ⟨node, hmem, hmatch⟩
  rw [AgentRenderTree.rank, hnodes, List.findIdx_append, if_pos hlt]
  exact hlt

/-! ## No wall surfaces -/

/-- An invisible node, found under its id, that is not the root is pruned. -/
theorem not_survives (hfind : tree.find node.id = some node) (hroot : node.id ≠ tree.root)
    (hvisible : node.state.visible = false) {ir : StructuralIr} (hprunes : Prunes tree ir) :
    node ∉ ir.tree.nodes := by
  intro hmem
  obtain ⟨enough, henough⟩ := hprunes
  obtain ⟨visible, enough', henough'⟩ := StructuralIr.exists_visible_ids tree
  have hids := henough' (max enough enough') (Nat.le_max_right _ _)
  have hir := (henough _ (Nat.le_max_left enough enough')).symm.trans (StructuralIr.compile_eq hids)
  cases hir
  obtain ⟨original, horiginal, rfl⟩ := List.mem_map.mp hmem
  obtain ⟨hnode, hkept⟩ := List.mem_filter.mp horiginal
  have hshown := (StructuralIr.kept_iff hids hnode).mp (of_decide_eq_true hkept)
  obtain heq | ⟨_, _, _, found, hfound, hfoundvisible⟩ := hshown.cases_tail
  · exact hroot heq
  · rw [show tree.find original.id = _ from hfind] at hfound
    cases hfound
    rw [hvisible] at hfoundvisible
    cases hfoundvisible

variable {U : Type} [Url U]

/-- None of the nodes that are added surfaces. -/
theorem not_surfaces (hroot : ∃ node ∈ tree.nodes, node.id = tree.root)
    {observations : List (ChallengeObservation U)} (hposition : tree.nodes.length ≤ position)
    (hnode : (withChallengeObservations tree observations).nodes[position]? = some node) :
    ¬ Surfaces (withChallengeObservations tree observations) opts position node := by
  intro h
  obtain ⟨added, hnodes, _, hadded⟩ := exists_push_nodes challengeNode tree observations
  have hnodes : (withChallengeObservations tree observations).nodes = tree.nodes ++ added := hnodes
  have hroot' : (withChallengeObservations tree observations).root = tree.root :=
    root_push_nodes challengeNode tree observations
  have hmem : node ∈ added := by
    rw [hnodes, List.getElem?_append_right hposition] at hnode
    exact List.mem_of_getElem? hnode
  obtain ⟨before, observation, hmade⟩ := hadded node hmem
  obtain ⟨ir, hprunes, hir⟩ := h.survives
  refine not_survives (find_of_rank hnode h.first) (fun heq => ?_) (by rw [hmade]; rfl) hprunes hir
  -- the root stands in front of what is added
  have hlt := rank_lt_of_mem hnodes
    (show ∃ front ∈ tree.nodes, front.id = node.id by rw [heq, hroot']; exact hroot)
  rw [h.first] at hlt
  omega

/-- All nodes that are added come through pruning and are printed exactly when nothing was
observed. -/
theorem all_surface_iff (hroot : ∃ node ∈ tree.nodes, node.id = tree.root)
    (opts : MarkdownOptions) (observations : List (ChallengeObservation U)) :
    (∀ position node, tree.nodes.length ≤ position →
      (withChallengeObservations tree observations).nodes[position]? = some node →
        Surfaces (withChallengeObservations tree observations) opts position node) ↔
      observations = [] := by
  obtain ⟨added, hnodes, hlength, _⟩ :=
    exists_push_nodes challengeNode tree observations
  have hnodes : (withChallengeObservations tree observations).nodes = tree.nodes ++ added := hnodes
  constructor
  · intro h
    cases hadded : added with
    | nil =>
        rw [hadded, List.length_nil] at hlength
        exact List.eq_nil_of_length_eq_zero hlength.symm
    | cons node rest =>
        have hnode : (withChallengeObservations tree observations).nodes[tree.nodes.length]? =
            some node := by
          rw [hnodes, hadded, List.getElem?_append_right le_rfl, Nat.sub_self]
          rfl
        exact absurd (h _ node le_rfl hnode) (not_surfaces hroot le_rfl hnode)
  · intro h
    subst h
    intro position node hposition hnode
    have hnone : (tree.nodes)[position]? = none := List.getElem?_eq_none hposition
    cases hnone.symm.trans hnode

/-- Nothing observed on the page with a note. -/
theorem nothing_observed_all_surface :
    (∃ node ∈ notedPage.nodes, node.id = notedPage.root) ∧
      ∀ position node, notedPage.nodes.length ≤ position →
        (withChallengeObservations notedPage ([] : List (ChallengeObservation PlainUrl))).nodes[
          position]? = some node →
        Surfaces (withChallengeObservations notedPage ([] : List (ChallengeObservation PlainUrl)))
          default position node := by
  have hroot : ∃ node ∈ notedPage.nodes, node.id = notedPage.root := ⟨_, List.mem_cons_self, rfl⟩
  exact ⟨hroot, (all_surface_iff hroot default []).mpr rfl⟩

/-- The wall is on the page and pruned from it. -/
theorem hcaptcha_wall_pruned :
    (withChallengeObservations notedPage [hcaptchaWall]).nodes[2]? =
        some (challengeNode notedPage hcaptchaWall) ∧
      StructuralIr.compile 4 (withChallengeObservations notedPage [hcaptchaWall]) false =
        some (.fromTree { notedPage with nodes := [.plain "document" .page none []] }) ∧
      ¬ ∀ position node, notedPage.nodes.length ≤ position →
        (withChallengeObservations notedPage [hcaptchaWall]).nodes[position]? = some node →
          Surfaces (withChallengeObservations notedPage [hcaptchaWall]) default position node := by
  refine ⟨rfl, by decide, fun h => ?_⟩
  exact not_surfaces ⟨_, List.mem_cons_self, rfl⟩ le_rfl rfl
    (h 2 (challengeNode notedPage hcaptchaWall) le_rfl rfl)

end BrowsAI.SemanticIr
