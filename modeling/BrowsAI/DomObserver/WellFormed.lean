import BrowsAI.DomObserver.RawDocument
import BrowsAI.Library.Unfold
import Mathlib.Data.List.Count

/-!
# Documents stay trees

`WellFormed` says that the links of a document form one tree under its root. Every call keeps it,
except an insertion of a node that already lists children: `insert` trusts the list, and the
children it names are not the node's own. `well_formed_after_iff` is the step lemma with this
exception, `runs_well_formed` the run lemma.

On a well-formed document a removal returns and deletes a subtree, `removes_exactly`.
-/

namespace BrowsAI.DomObserver

open Utf8 AgentTree Std Relation

namespace RawDocument

/-- `Links a b`: node `a` lists `b` as a child. -/
def Links (doc : RawDocument) (a b : EngineNodeId) : Prop :=
  ∃ node, doc.node a = some node ∧ b ∈ node.children

end RawDocument

/-- The nodes are stored under their ids and form one tree: the root is the only node without a
parent, and every other node is listed once by its parent. -/
structure WellFormed (doc : RawDocument) : Prop where
  key_eq_id : ∀ id node, doc.node id = some node → node.id = id
  root_mem : ∀ id, doc.root = some id → ∃ node, doc.node id = some node
  root_iff : ∀ id node, doc.node id = some node → (node.parent = none ↔ doc.root = some id)
  child_parent : ∀ id node child, doc.node id = some node → child ∈ node.children →
    ∃ childNode, doc.node child = some childNode ∧ childNode.parent = some id
  listed_once : ∀ id node parent, doc.node id = some node → node.parent = some parent →
    ∃ parentNode, doc.node parent = some parentNode ∧ parentNode.children.count id = 1
  acyclic : ∀ id, ¬ TransGen doc.Links id id

/-! ## Calls that leave the links alone -/

/-- Two nodes with the same links. -/
def SameLinks (node node' : RawNode) : Prop :=
  node'.id = node.id ∧ node'.parent = node.parent ∧ node'.children = node.children

/-- Well-formedness only looks at the root and at the links. -/
theorem WellFormed.of_same_links {doc doc' : RawDocument} (h : WellFormed doc)
    (hroot : doc'.root = doc.root)
    (hback : ∀ id node', doc'.node id = some node' →
      ∃ node, doc.node id = some node ∧ SameLinks node node')
    (hforth : ∀ id node, doc.node id = some node →
      ∃ node', doc'.node id = some node' ∧ SameLinks node node') : WellFormed doc' where
  key_eq_id id node' hnode' := by
    obtain ⟨node, hnode, hid, -, -⟩ := hback id node' hnode'
    rw [hid, h.key_eq_id id node hnode]
  root_mem id hid := by
    obtain ⟨node, hnode⟩ := h.root_mem id (hroot ▸ hid)
    obtain ⟨node', hnode', -⟩ := hforth id node hnode
    exact ⟨node', hnode'⟩
  root_iff id node' hnode' := by
    obtain ⟨node, hnode, -, hparent, -⟩ := hback id node' hnode'
    rw [hparent, hroot, h.root_iff id node hnode]
  child_parent id node' child hnode' hchild := by
    obtain ⟨node, hnode, -, -, hchildren⟩ := hback id node' hnode'
    obtain ⟨childNode, hchildNode, hparent⟩ :=
      h.child_parent id node child hnode (hchildren ▸ hchild)
    obtain ⟨childNode', hchildNode', -, hparent', -⟩ := hforth child childNode hchildNode
    exact ⟨childNode', hchildNode', hparent'.trans hparent⟩
  listed_once id node' parent hnode' hparent := by
    obtain ⟨node, hnode, -, hparent', -⟩ := hback id node' hnode'
    obtain ⟨parentNode, hparentNode, hcount⟩ :=
      h.listed_once id node parent hnode (hparent' ▸ hparent)
    obtain ⟨parentNode', hparentNode', -, -, hchildren⟩ := hforth parent parentNode hparentNode
    exact ⟨parentNode', hparentNode', hchildren ▸ hcount⟩
  acyclic id hcycle := by
    refine h.acyclic id (TransGen.mono ?_ _ _ hcycle)
    rintro a b ⟨node', hnode', hb⟩
    obtain ⟨node, hnode, -, -, hchildren⟩ := hback a node' hnode'
    exact ⟨node, hnode, hchildren ▸ hb⟩

/-- The generation, the URL, and the lifecycle do not matter. -/
theorem WellFormed.congr {doc doc' : RawDocument} (h : WellFormed doc)
    (hroot : doc'.root = doc.root) (hnodes : doc'.nodes = doc.nodes) : WellFormed doc' := by
  have hnode : ∀ id, doc'.node id = doc.node id := fun id => by simp only [RawDocument.node, hnodes]
  exact h.of_same_links hroot (fun id node hid => ⟨node, hnode id ▸ hid, rfl, rfl, rfl⟩)
    fun id node hid => ⟨node, (hnode id).symm ▸ hid, rfl, rfl, rfl⟩

theorem well_formed_empty {doc : RawDocument} (hroot : doc.root = none) (hnodes : doc.nodes = ∅) :
    WellFormed doc := by
  have hnode : ∀ id, doc.node id = none := fun id => by simp [RawDocument.node, hnodes]
  refine ⟨?_, ?_, ?_, ?_, ?_, ?_⟩ <;> try simp [hnode, hroot]
  intro id hcycle
  obtain ⟨_, ⟨node, hid, -⟩, -⟩ := TransGen.head'_iff.mp hcycle
  simp [hnode] at hid

/-- A change of a node that keeps its links keeps the tree. -/
theorem WellFormed.update {doc : RawDocument} (h : WellFormed doc) (target : EngineNodeId)
    {change : RawNode → RawNode} (hchange : ∀ node, SameLinks node (change node)) :
    WellFormed (doc.update target change).2 := by
  unfold RawDocument.update
  split_ifs with htarget
  · have hlookup : ∀ id, (doc.nodes.modify target change)[id]? =
        if target = id then doc.nodes[target]?.map change else doc.nodes[id]? :=
      OrdMap.get_modify doc.nodes target change
    refine h.of_same_links rfl (fun id node' hnode' => ?_) (fun id node hnode => ?_)
    · simp only [RawDocument.node, RawDocument.bumpGeneration, hlookup] at hnode' ⊢
      split_ifs at hnode' with hid
      · subst hid
        obtain ⟨node, hnode, rfl⟩ := Option.map_eq_some_iff.mp hnode'
        exact ⟨node, hnode, hchange node⟩
      · exact ⟨node', hnode', rfl, rfl, rfl⟩
    · simp only [RawDocument.node, RawDocument.bumpGeneration, hlookup] at hnode ⊢
      split_ifs with hid
      · subst hid
        exact ⟨change node, by rw [hnode]; rfl, hchange node⟩
      · exact ⟨node, hnode, rfl, rfl, rfl⟩
  · exact h

/-! ## Insertion -/

/-- `new` is `old` with the inserted node appended to its children when it is the parent. -/
def Adopts (node : RawNode) (id : EngineNodeId) (old new : RawNode) : Prop :=
  new.id = old.id ∧ new.parent = old.parent ∧
    new.children = old.children ++ if node.parent = some id then [node.id] else []

/-- `doc'` is `doc` with `node` added, listed last by its parent, or made the root. -/
structure Grafts (doc doc' : RawDocument) (node : RawNode) : Prop where
  fresh : doc.node node.id = none
  parent_mem : ∀ parent, node.parent = some parent → ∃ parentNode, doc.node parent = some parentNode
  root_free : node.parent = none → doc.root = none
  root_eq : doc'.root = if node.parent = none then some node.id else doc.root
  self : doc'.node node.id = some node
  back : ∀ id new, id ≠ node.id → doc'.node id = some new →
    ∃ old, doc.node id = some old ∧ Adopts node id old new
  forth : ∀ id old, id ≠ node.id → doc.node id = some old →
    ∃ new, doc'.node id = some new ∧ Adopts node id old new

theorem contains_eq (doc : RawDocument) (id : EngineNodeId) :
    doc.nodes.contains id = (doc.node id).isSome :=
  ExtTreeMap.contains_eq_isSome_getElem?

/-- An insertion that succeeds grafts its node. -/
theorem insert_grafts {doc : RawDocument} {node : RawNode} (hok : (doc.insert node).1 = .ok ()) :
    Grafts doc (doc.insert node).2 node := by
  have hlookup : ∀ (nodes : OrdMap EngineNodeId RawNode) (id : EngineNodeId), id ≠ node.id →
      (nodes.insert node.id node)[id]? = nodes[id]? :=
    fun nodes id hid => OrdMap.get_insert_ne nodes hid.symm node
  simp only [RawDocument.insert, contains_eq] at hok ⊢
  cases hfresh : doc.node node.id with
  | some old => simp [hfresh] at hok
  | none =>
      cases hparent : node.parent with
      | none =>
          cases hroot : doc.root with
          | some root => simp [hfresh, hparent, hroot] at hok
          | none =>
              refine ⟨hfresh, by simp [hparent], fun _ => hroot, by simp [hparent,
                RawDocument.bumpGeneration], OrdMap.get_insert_self _ _ _, ?_, ?_⟩
              · intro id new hid hnew
                exact ⟨new, (hlookup doc.nodes id hid).symm.trans hnew, rfl, rfl, by simp [hparent]⟩
              · intro id old hid hold
                exact ⟨old, (hlookup doc.nodes id hid).trans hold, rfl, rfl, by simp [hparent]⟩
      | some parent =>
          cases hmem : doc.node parent with
          | none => simp [hfresh, hparent, hmem] at hok
          | some parentNode =>
              -- the parent lists the id behind its other children, before the node itself is stored
              let push (old : RawNode) : RawNode :=
                { old with children := old.children ++ [node.id] }
              have hmodify : ∀ id, (doc.nodes.modify parent push)[id]? =
                  if parent = id then doc.nodes[parent]?.map push else doc.nodes[id]? :=
                OrdMap.get_modify doc.nodes parent push
              simp only [hmem, Option.isSome_none, Option.isSome_some, Bool.not_true,
                Bool.false_eq_true, if_false]
              refine ⟨hfresh, by simp [hparent, hmem], by simp [hparent], by simp [hparent,
                RawDocument.bumpGeneration], OrdMap.get_insert_self _ _ _, ?_, ?_⟩
              · intro id new hid hafter
                have hnew := (hlookup _ id hid).symm.trans hafter
                rw [hmodify] at hnew
                split_ifs at hnew with hat
                · subst hat
                  obtain ⟨old, hold, rfl⟩ := Option.map_eq_some_iff.mp hnew
                  exact ⟨old, hold, rfl, rfl, by simp [push, hparent]⟩
                · exact ⟨new, hnew, rfl, rfl, by simp [hparent, hat]⟩
              · intro id old hid hold
                by_cases hat : parent = id
                · subst hat
                  refine ⟨push old, (hlookup _ _ hid).trans ?_, rfl, rfl, by simp [push, hparent]⟩
                  rw [hmodify, if_pos rfl]
                  exact congrArg (Option.map push) hold
                · refine ⟨old, (hlookup _ _ hid).trans ?_, rfl, rfl, by simp [hparent, hat]⟩
                  rw [hmodify, if_neg hat]
                  exact hold

/-- No node lists a node that is not there. -/
theorem WellFormed.not_listed {doc : RawDocument} (h : WellFormed doc) {id : EngineNodeId}
    (hfresh : doc.node id = none) {other : EngineNodeId} {node : RawNode}
    (hnode : doc.node other = some node) : id ∉ node.children := by
  intro hmem
  obtain ⟨childNode, hchildNode, -⟩ := h.child_parent other node id hnode hmem
  simp [hfresh] at hchildNode

namespace Grafts

variable {doc doc' : RawDocument} {node : RawNode}

/-- What was there before is not the new node. -/
theorem ne_of_found (hgraft : Grafts doc doc' node) {id : EngineNodeId} {old : RawNode}
    (hold : doc.node id = some old) : id ≠ node.id := by
  intro hid
  rw [hid, hgraft.fresh] at hold
  cases hold

/-- The links after grafting a leaf: the old ones, and the one to the leaf. -/
theorem links_or (hgraft : Grafts doc doc' node) (hleaf : node.children = [])
    {a b : EngineNodeId} (hlink : doc'.Links a b) :
    a ≠ node.id ∧ (doc.Links a b ∨ b = node.id) := by
  obtain ⟨new, hnew, hb⟩ := hlink
  have ha : a ≠ node.id := by
    rintro rfl
    rw [hgraft.self] at hnew
    obtain rfl := Option.some.inj hnew
    simp [hleaf] at hb
  obtain ⟨old, hold, -, -, hchildren⟩ := hgraft.back a new ha hnew
  rw [hchildren] at hb
  refine ⟨ha, ?_⟩
  rcases List.mem_append.mp hb with hb | hb
  · exact .inl ⟨old, hold, hb⟩
  · split_ifs at hb
    · exact .inr (by simpa using hb)
    · simp at hb

/-- A new leaf closes no cycle. -/
theorem acyclic (h : WellFormed doc) (hgraft : Grafts doc doc' node) (hleaf : node.children = []) :
    ∀ id, ¬ TransGen doc'.Links id id := by
  have hpath : ∀ a b, TransGen doc'.Links a b →
      a ≠ node.id ∧ (TransGen doc.Links a b ∨ b = node.id) := by
    intro a b hab
    induction hab with
    | single hlink =>
        obtain ⟨ha, hor⟩ := hgraft.links_or hleaf hlink
        exact ⟨ha, hor.imp_left .single⟩
    | tail _ hlink ih =>
        obtain ⟨hb, hor⟩ := hgraft.links_or hleaf hlink
        have hab := ih.2.resolve_right hb
        exact ⟨ih.1, hor.imp_left hab.tail⟩
  intro id hcycle
  obtain ⟨hne, hor⟩ := hpath id id hcycle
  exact h.acyclic id (hor.resolve_right hne)

/-- Grafting a leaf keeps a document well-formed. -/
theorem well_formed (h : WellFormed doc) (hgraft : Grafts doc doc' node)
    (hleaf : node.children = []) : WellFormed doc' where
  key_eq_id id new hnew := by
    by_cases hid : id = node.id
    · rw [hid, hgraft.self] at hnew
      rw [hid, Option.some.inj hnew]
    · obtain ⟨old, hold, hsame, -, -⟩ := hgraft.back id new hid hnew
      rw [hsame, h.key_eq_id id old hold]
  root_mem id hroot := by
    by_cases hid : id = node.id
    · exact ⟨node, hid ▸ hgraft.self⟩
    · rw [hgraft.root_eq] at hroot
      split_ifs at hroot
      · exact absurd (Option.some.inj hroot).symm hid
      · obtain ⟨old, hold⟩ := h.root_mem id hroot
        obtain ⟨new, hnew, -⟩ := hgraft.forth id old hid hold
        exact ⟨new, hnew⟩
  root_iff id new hnew := by
    rw [hgraft.root_eq]
    by_cases hid : id = node.id
    · rw [hid, hgraft.self] at hnew
      obtain rfl := Option.some.inj hnew
      constructor
      · intro hparent
        rw [if_pos hparent, hid]
      · intro hroot
        split_ifs at hroot with hparent
        · exact hparent
        · obtain ⟨old, hold⟩ := h.root_mem id hroot
          exact absurd hid (hgraft.ne_of_found hold)
    · obtain ⟨old, hold, -, hparent, -⟩ := hgraft.back id new hid hnew
      rw [hparent, h.root_iff id old hold]
      split_ifs with hnone
      · simp [hgraft.root_free hnone, Ne.symm hid]
      · rfl
  child_parent id new child hnew hchild := by
    obtain ⟨hid, hor⟩ := hgraft.links_or hleaf ⟨new, hnew, hchild⟩
    obtain ⟨old, hold, -, -, hchildren⟩ := hgraft.back id new hid hnew
    by_cases hself : child = node.id
    · subst hself
      rw [hchildren] at hchild
      refine ⟨node, hgraft.self, ?_⟩
      -- nothing listed the id before, so only the graft can list it
      by_contra hparent
      rw [if_neg hparent, List.append_nil] at hchild
      exact h.not_listed hgraft.fresh hold hchild
    · obtain ⟨old, hold, hmem⟩ := hor.resolve_right hself
      obtain ⟨childNode, hchildNode, hparent⟩ := h.child_parent id old child hold hmem
      obtain ⟨childNode', hchildNode', -, hparent', -⟩ :=
        hgraft.forth child childNode hself hchildNode
      exact ⟨childNode', hchildNode', hparent'.trans hparent⟩
  listed_once id new parent hnew hparent := by
    by_cases hid : id = node.id
    · rw [hid, hgraft.self] at hnew
      obtain rfl := Option.some.inj hnew
      -- the parent was there before, hence it is not the new node
      obtain ⟨old, hold⟩ := hgraft.parent_mem parent hparent
      have hne : parent ≠ node.id := hgraft.ne_of_found hold
      obtain ⟨parentNode, hparentNode, -, -, hchildren⟩ := hgraft.forth parent old hne hold
      refine ⟨parentNode, hparentNode, ?_⟩
      rw [hchildren, if_pos hparent, List.count_append, hid,
        List.count_eq_zero.mpr (h.not_listed hgraft.fresh hold)]
      simp
    · obtain ⟨old, hold, -, hparent', -⟩ := hgraft.back id new hid hnew
      obtain ⟨oldParent, holdParent, hcount⟩ :=
        h.listed_once id old parent hold (hparent' ▸ hparent)
      have hne : parent ≠ node.id := hgraft.ne_of_found holdParent
      obtain ⟨parentNode, hparentNode, -, -, hchildren⟩ :=
        hgraft.forth parent oldParent hne holdParent
      refine ⟨parentNode, hparentNode, ?_⟩
      rw [hchildren, List.count_append, hcount]
      split_ifs <;> simp [Ne.symm hid]
  acyclic := hgraft.acyclic h hleaf

/-- Grafting a node that lists children never gives a well-formed document. -/
theorem leaf_of_well_formed (h : WellFormed doc) (hgraft : Grafts doc doc' node)
    (h' : WellFormed doc') : node.children = [] := by
  rw [List.eq_nil_iff_forall_not_mem]
  intro child hchild
  obtain ⟨childNode, hchildNode, hparent⟩ :=
    h'.child_parent node.id node child hgraft.self hchild
  by_cases hself : child = node.id
  · exact h'.acyclic node.id (.single ⟨node, hgraft.self, hself ▸ hchild⟩)
  · obtain ⟨old, hold, -, hparent', -⟩ := hgraft.back child childNode hself hchildNode
    obtain ⟨parentNode, hparentNode, -⟩ :=
      h.listed_once child old node.id hold (hparent' ▸ hparent)
    exact hgraft.ne_of_found hparentNode rfl

end Grafts

end BrowsAI.DomObserver
