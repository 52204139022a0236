import BrowsAI.DomObserver.WellFormed
import BrowsAI.Library.Descendants

/-!
# Removal, and runs of a document

`collect_descendants` unfolds the child links. On an acyclic document it has enough depth from some
bound on, and it gathers the descendants of its node. A removal therefore returns and prunes a
subtree, and a well-formed document stays well-formed.

`runs_well_formed` puts the calls together.
-/

namespace BrowsAI.DomObserver

open Utf8 AgentTree Std Relation Unfold

namespace RawDocument

variable (doc : RawDocument)

/-- The children of a node, none when it does not exist. -/
def childIds (id : EngineNodeId) : List EngineNodeId :=
  ((doc.node id).map RawNode.children).getD []

theorem mem_child_ids {a b : EngineNodeId} : b ∈ doc.childIds a ↔ doc.Links a b := by
  unfold childIds Links
  cases doc.node a <;> simp

/-- The descendants below every child, each list followed by the child itself. -/
def gather (id : EngineNodeId) (lists : List (List EngineNodeId)) : List EngineNodeId :=
  (((doc.childIds id).zip lists).map fun p => p.2 ++ [p.1]).flatten

/-- Collecting the descendants is unfolding the child links. -/
theorem collect_descendants_eq (depth : Nat) (id : EngineNodeId) (acc : List EngineNodeId) :
    doc.collectDescendants depth id acc =
      (unfold doc.childIds doc.gather depth id).map (acc ++ ·) := by
  induction depth generalizing id acc with
  | zero => rfl
  | succ depth ih =>
      rw [collectDescendants, unfold, expand]
      cases hnode : doc.node id with
      | none => simp [childIds, hnode, gather]
      | some node =>
          refine (collect_step ih node.children acc).trans ?_
          simp only [Option.map_map, childIds, hnode, Option.map_some, Option.getD_some, gather,
            Function.comp_def]

/-- What is collected below a node are its proper descendants. -/
theorem mem_unfold_iff {depth : Nat} {id : EngineNodeId} {ids : List EngineNodeId}
    (h : unfold doc.childIds doc.gather depth id = some ids) (x : EngineNodeId) :
    x ∈ ids ↔ TransGen doc.Links id x := by
  have hmem := mem_gather_iff h x
  simp only [mem_child_ids] at hmem
  exact hmem

/-- Only finitely many nodes have children. -/
theorem finite_links : {a | ∃ b, doc.Links a b}.Finite := by
  refine (doc.nodes.keys.finite_toSet).subset ?_
  rintro a ⟨b, node, hnode, -⟩
  simp only [Set.mem_ofPred_eq, ExtTreeMap.mem_keys]
  exact ExtTreeMap.isSome_getElem?_iff_mem.mp (by simp [show doc.nodes[a]? = some node from hnode])

/-- An acyclic document has enough depth below every node. -/
theorem eventually_collect (hacyclic : ∀ id, ¬ TransGen doc.Links id id) (id : EngineNodeId) :
    ∃ bound, ∀ depth ≥ bound, ∃ ids, unfold doc.childIds doc.gather depth id = some ids := by
  have hwf := wellFounded_of_acyclic doc.finite_links hacyclic
  simp only [← mem_child_ids] at hwf
  exact eventually_unfold hwf id

end RawDocument

/-! ## Pruning a subtree -/

/-- `new` is `old` without the removed child. -/
def Drops (target : EngineNodeId) (old new : RawNode) : Prop :=
  new.id = old.id ∧ new.parent = old.parent ∧ new.children = old.children.filter (· ≠ target)

/-- `doc'` is `doc` without the subtree below `target`. -/
structure Prunes (doc doc' : RawDocument) (target : EngineNodeId) : Prop where
  root_eq : doc'.root = if doc.root = some target then none else doc.root
  gone : ∀ id, ReflTransGen doc.Links target id → doc'.node id = none
  back : ∀ id new, doc'.node id = some new →
    ∃ old, doc.node id = some old ∧ Drops target old new
  forth : ∀ id old, ¬ ReflTransGen doc.Links target id → doc.node id = some old →
    ∃ new, doc'.node id = some new ∧ Drops target old new

/-- Only the parent of a node lists it. -/
theorem WellFormed.parent_of_listed {doc : RawDocument} (h : WellFormed doc)
    {id target : EngineNodeId} {node removed : RawNode} (hnode : doc.node id = some node)
    (htarget : doc.node target = some removed) (hmem : target ∈ node.children) :
    removed.parent = some id := by
  obtain ⟨childNode, hchildNode, hparent⟩ := h.child_parent id node target hnode hmem
  rw [htarget] at hchildNode
  exact Option.some.inj hchildNode ▸ hparent

/-- With enough depth a removal returns and prunes. -/
theorem remove_prunes {doc : RawDocument} (h : WellFormed doc) {depth : Nat} {target : EngineNodeId}
    {removed : RawNode} (htarget : doc.node target = some removed) {ids : List EngineNodeId}
    (hids : unfold doc.childIds doc.gather depth target = some ids) :
    ∃ doc', doc.remove depth target = some (.ok (), doc') ∧ Prunes doc doc' target := by
  let erased := (ids ++ [target]).foldl ExtTreeMap.erase doc.nodes
  let drop (node : RawNode) : RawNode :=
    { node with children := node.children.filter (· ≠ target) }
  have hgone : ∀ id, id ∈ ids ++ [target] ↔ ReflTransGen doc.Links target id := by
    intro id
    rw [List.mem_append, doc.mem_unfold_iff hids, List.mem_singleton,
      reflTransGen_iff_eq_or_transGen, or_comm]
  have herased : ∀ id, erased[id]? = if id ∈ ids ++ [target] then none else doc.nodes[id]? :=
    OrdMap.get_foldl_erase doc.nodes (ids ++ [target])
  let nodes := removed.parent.elim erased fun parent => erased.modify parent drop
  have hnodes : ∀ id, nodes[id]? =
      if removed.parent = some id then erased[id]?.map drop else erased[id]? := by
    intro id
    simp only [nodes]
    cases removed.parent with
    | none => simp
    | some parent =>
        show (erased.modify parent drop)[id]? = _
        simp only [OrdMap.get_modify, Option.some.injEq]
        split_ifs with hat
        · rw [hat]
        · rfl
  -- the parent is the only node whose children change
  have hdrop : ∀ id old, doc.node id = some old →
      Drops target old (if removed.parent = some id then drop old else old) := by
    intro id old hold
    split_ifs with hat
    · exact ⟨rfl, rfl, rfl⟩
    · refine ⟨rfl, rfl, (List.filter_eq_self.mpr fun child hchild => ?_).symm⟩
      have hne : child ≠ target := by
        rintro rfl
        exact hat (h.parent_of_listed hold htarget hchild)
      simpa using hne
  refine ⟨{ doc with nodes, root := if doc.root = some target then none else doc.root
    }.bumpGeneration, ?_, rfl, fun id hid => ?_, fun id new hnew => ?_, fun id old hid hold => ?_⟩
  · simp only [RawDocument.remove, htarget, doc.collect_descendants_eq, hids, Option.map_some, bind,
      Option.bind_some, List.nil_append, pure, nodes]
    cases removed.parent <;> rfl
  · simp only [RawDocument.node, RawDocument.bumpGeneration, hnodes, herased,
      if_pos ((hgone id).mpr hid), Option.map_none, ite_self]
  · simp only [RawDocument.node, RawDocument.bumpGeneration, hnodes, herased] at hnew
    by_cases hmem : id ∈ ids ++ [target]
    · simp only [if_pos hmem, Option.map_none, ite_self, reduceCtorEq] at hnew
    · simp only [if_neg hmem] at hnew
      cases hold : doc.node id with
      | none => simp [show doc.nodes[id]? = none from hold] at hnew
      | some old =>
          refine ⟨old, rfl, ?_⟩
          have hnew' : new = if removed.parent = some id then drop old else old := by
            rw [show doc.nodes[id]? = some old from hold] at hnew
            split_ifs at hnew ⊢ <;> exact (Option.some.inj hnew).symm
          exact hnew' ▸ hdrop id old hold
  · refine ⟨if removed.parent = some id then drop old else old, ?_, hdrop id old hold⟩
    simp only [RawDocument.node, RawDocument.bumpGeneration, hnodes, herased,
      if_neg (mt (hgone id).mp hid), show doc.nodes[id]? = some old from hold]
    split_ifs <;> rfl

/-- A node is listed by one other node only. -/
theorem WellFormed.links_unique {doc : RawDocument} (h : WellFormed doc) {a b child : EngineNodeId}
    (ha : doc.Links a child) (hb : doc.Links b child) : a = b := by
  obtain ⟨node, hnode, hmem⟩ := ha
  obtain ⟨node', hnode', hmem'⟩ := hb
  obtain ⟨childNode, hchildNode, hparent⟩ := h.child_parent a node child hnode hmem
  have hparent' := h.parent_of_listed hnode' hchildNode hmem'
  exact Option.some.inj (hparent.symm.trans hparent')

/-- A node lists no node twice. -/
theorem WellFormed.nodup_child_ids {doc : RawDocument} (h : WellFormed doc) (id : EngineNodeId) :
    (doc.childIds id).Nodup := by
  rw [List.nodup_iff_count_le_one]
  intro child
  by_cases hmem : child ∈ doc.childIds id
  · obtain ⟨node, hnode, hchild⟩ := doc.mem_child_ids.mp hmem
    obtain ⟨childNode, hchildNode, hparent⟩ := h.child_parent id node child hnode hchild
    obtain ⟨parentNode, hparentNode, hcount⟩ := h.listed_once child childNode id hchildNode hparent
    rw [RawDocument.childIds, hparentNode]
    exact Nat.le_of_eq hcount
  · rw [List.count_eq_zero.mpr hmem]
    omega

theorem WellFormed.unique_links {doc : RawDocument} (h : WellFormed doc) :
    UniqueLinks doc.childIds where
  predecessor _ _ _ ha hb := h.links_unique (doc.mem_child_ids.mp ha) (doc.mem_child_ids.mp hb)
  once := h.nodup_child_ids

/-- What hangs below a node of a well-formed document is there. -/
theorem WellFormed.is_some_of_reaches {doc : RawDocument} (h : WellFormed doc)
    {a b : EngineNodeId} (ha : (doc.node a).isSome) (hab : ReflTransGen doc.Links a b) :
    (doc.node b).isSome := by
  rcases hab.cases_tail with heq | ⟨c, _, node, hnode, hmem⟩
  · rw [heq]
    exact ha
  · obtain ⟨childNode, hchildNode, -⟩ := h.child_parent c node b hnode hmem
    rw [hchildNode]
    rfl

/-- A node below the target other than the target itself is listed by a node below it. -/
theorem gone_cases {doc : RawDocument} {target id : EngineNodeId}
    (hgone : ReflTransGen doc.Links target id) :
    id = target ∨ ∃ parent, ReflTransGen doc.Links target parent ∧ doc.Links parent id := by
  rcases hgone.cases_tail with heq | hparent
  · exact .inl heq
  · exact .inr hparent

namespace Prunes

variable {doc doc' : RawDocument} {target : EngineNodeId}

theorem links (hprune : Prunes doc doc' target) {a b : EngineNodeId} (hlink : doc'.Links a b) :
    doc.Links a b ∧ b ≠ target := by
  obtain ⟨new, hnew, hmem⟩ := hlink
  obtain ⟨old, hold, -, -, hchildren⟩ := hprune.back a new hnew
  rw [hchildren, List.mem_filter] at hmem
  exact ⟨⟨old, hold, hmem.1⟩, by simpa using hmem.2⟩

theorem survives (hprune : Prunes doc doc' target) {id : EngineNodeId} {new : RawNode}
    (hnew : doc'.node id = some new) : ¬ ReflTransGen doc.Links target id := by
  intro hgone
  rw [hprune.gone id hgone] at hnew
  cases hnew

/-- The keys that survive. -/
theorem is_some_iff (hprune : Prunes doc doc' target) (id : EngineNodeId) :
    (doc'.node id).isSome ↔ (doc.node id).isSome ∧ ¬ ReflTransGen doc.Links target id := by
  constructor
  · intro hsome
    obtain ⟨new, hnew⟩ := Option.isSome_iff_exists.mp hsome
    obtain ⟨old, hold, -⟩ := hprune.back id new hnew
    exact ⟨by simp [hold], hprune.survives hnew⟩
  · rintro ⟨hsome, hsurvives⟩
    obtain ⟨old, hold⟩ := Option.isSome_iff_exists.mp hsome
    obtain ⟨new, hnew, -⟩ := hprune.forth id old hsurvives hold
    simp [hnew]

/-- Pruning keeps a document well-formed. -/
theorem well_formed (h : WellFormed doc) (hprune : Prunes doc doc' target) : WellFormed doc' where
  key_eq_id id new hnew := by
    obtain ⟨old, hold, hid, -, -⟩ := hprune.back id new hnew
    rw [hid, h.key_eq_id id old hold]
  root_mem id hroot := by
    rw [hprune.root_eq] at hroot
    split_ifs at hroot with htarget
    obtain ⟨old, hold⟩ := h.root_mem id hroot
    -- the root goes only as the target: below the target it would have a parent
    have hsurvives : ¬ ReflTransGen doc.Links target id := by
      intro hgone
      rcases gone_cases hgone with rfl | ⟨parent, -, node, hnode, hmem⟩
      · exact htarget hroot
      · have hparent := h.parent_of_listed hnode hold hmem
        rw [(h.root_iff id old hold).mpr hroot] at hparent
        cases hparent
    obtain ⟨new, hnew, -⟩ := hprune.forth id old hsurvives hold
    exact ⟨new, hnew⟩
  root_iff id new hnew := by
    obtain ⟨old, hold, -, hparent, -⟩ := hprune.back id new hnew
    rw [hparent, h.root_iff id old hold, hprune.root_eq]
    have hne : target ≠ id := fun heq => hprune.survives hnew (heq ▸ .refl)
    split_ifs with htarget
    · simp [htarget, hne]
    · rfl
  child_parent id new child hnew hmem := by
    obtain ⟨⟨old, hold, hmem'⟩, hne⟩ := hprune.links ⟨new, hnew, hmem⟩
    obtain ⟨childNode, hchildNode, hparent⟩ := h.child_parent id old child hold hmem'
    -- a child that goes is the target, or goes with its only parent
    have hsurvives : ¬ ReflTransGen doc.Links target child := by
      intro hgone
      rcases gone_cases hgone with heq | ⟨parent, hparentGone, hlink⟩
      · exact hne heq
      · rw [h.links_unique hlink ⟨old, hold, hmem'⟩] at hparentGone
        exact hprune.survives hnew hparentGone
    obtain ⟨childNew, hchildNew, -, hparent', -⟩ :=
      hprune.forth child childNode hsurvives hchildNode
    exact ⟨childNew, hchildNew, hparent'.trans hparent⟩
  listed_once id new parent hnew hparent := by
    obtain ⟨old, hold, -, hparent', -⟩ := hprune.back id new hnew
    obtain ⟨parentOld, hparentOld, hcount⟩ := h.listed_once id old parent hold (hparent' ▸ hparent)
    have hmem : id ∈ parentOld.children := List.count_pos_iff.mp (by omega)
    have hsurvives : ¬ ReflTransGen doc.Links target parent := fun hgone =>
      hprune.survives hnew (hgone.tail ⟨parentOld, hparentOld, hmem⟩)
    obtain ⟨parentNew, hparentNew, -, -, hchildren⟩ :=
      hprune.forth parent parentOld hsurvives hparentOld
    have hne : id ≠ target := fun heq => hprune.survives hnew (heq ▸ .refl)
    refine ⟨parentNew, hparentNew, ?_⟩
    rw [hchildren, List.count_filter (by simpa using hne), hcount]
  acyclic id hcycle :=
    h.acyclic id (TransGen.mono (fun _ _ hlink => (hprune.links hlink).1) _ _ hcycle)

end Prunes

/-! ## Runs -/

/-- A removal of `target` returns, and deletes the target and its descendants when it succeeds. -/
def RemovesExactly (doc : RawDocument) (target : EngineNodeId) : Prop :=
  ∃ bound outcome, (∀ depth ≥ bound, doc.apply depth (.remove target) = some outcome) ∧
    (outcome.1 = .ok () ↔ doc.lifecycle ≠ .destroyed ∧ (doc.node target).isSome) ∧
    ∀ id, (outcome.2.node id).isSome ↔
      (doc.node id).isSome ∧ (outcome.1 = .ok () → ¬ ReflTransGen doc.Links target id)

/-- Enough depth for a removal, and what it leaves behind. -/
theorem WellFormed.eventually_remove {doc : RawDocument} (h : WellFormed doc)
    {target : EngineNodeId} {removed : RawNode} (htarget : doc.node target = some removed) :
    ∃ doc', Prunes doc doc' target ∧
      ∃ bound, ∀ depth ≥ bound, doc.remove depth target = some (.ok (), doc') := by
  obtain ⟨bound, hbound⟩ := doc.eventually_collect h.acyclic target
  obtain ⟨ids, hids⟩ := hbound bound le_rfl
  obtain ⟨doc', hremove, hprune⟩ := remove_prunes h htarget hids
  refine ⟨doc', hprune, bound, fun depth hdepth => ?_⟩
  rw [← hremove, RawDocument.remove, RawDocument.remove, htarget]
  simp only [doc.collect_descendants_eq, hids, unfold_mono hdepth hids]

/-- In a well-formed document a removal takes the node and those below it, and nothing else. -/
theorem WellFormed.removes_exactly {doc : RawDocument} (h : WellFormed doc)
    (target : EngineNodeId) : RemovesExactly doc target := by
  by_cases hdestroyed : doc.lifecycle = .destroyed
  · exact ⟨0, (.error .documentDestroyed, doc), by simp [RawDocument.apply, hdestroyed],
      by simp [hdestroyed], by simp⟩
  cases htarget : doc.node target with
  | none =>
      exact ⟨0, (.error (.missingNode target), doc),
        by simp [RawDocument.apply, hdestroyed, RawDocument.remove, htarget], by simp [htarget],
        by simp⟩
  | some removed =>
      obtain ⟨doc', hprune, bound, hbound⟩ := h.eventually_remove htarget
      refine ⟨bound, (.ok (), doc'), fun depth hdepth => ?_, by simp [hdestroyed, htarget], ?_⟩
      · simp only [RawDocument.apply, if_neg hdestroyed, hbound depth hdepth]
      · simpa using hprune.is_some_iff

/-- The caller inserts nodes without children only. -/
def Call.InsertsLeaf : Call → Prop
  | .apply (.insert node) => node.children = []
  | _ => True

/-- A mutation that changes one node in place keeps a document well-formed. -/
theorem WellFormed.apply_update {doc : RawDocument} (h : WellFormed doc) {depth : Nat}
    {mutation : DomMutation} {outcome : Outcome}
    (happly : doc.apply depth mutation = some outcome)
    (hinsert : ∀ node, mutation ≠ .insert node) (hremove : ∀ target, mutation ≠ .remove target) :
    WellFormed outcome.2 := by
  unfold RawDocument.apply at happly
  split_ifs at happly
  · cases happly
    exact h
  · cases mutation with
    | insert node => exact absurd rfl (hinsert node)
    | remove target => exact absurd rfl (hremove target)
    | _ =>
        cases happly
        exact h.update _ fun _ => ⟨rfl, rfl, rfl⟩

/-- What is left is well formed. -/
theorem WellFormed.apply_remove {doc : RawDocument} (h : WellFormed doc) {depth : Nat}
    {target : EngineNodeId} {outcome : Outcome}
    (happly : doc.apply depth (.remove target) = some outcome) : WellFormed outcome.2 := by
  simp only [RawDocument.apply] at happly
  split_ifs at happly
  · cases happly
    exact h
  · cases htarget : doc.node target with
    | none =>
        simp only [RawDocument.remove, htarget, Option.some.injEq] at happly
        exact happly ▸ h
    | some removed =>
        cases hids : unfold doc.childIds doc.gather depth target with
        | none =>
            simp [RawDocument.remove, htarget, doc.collect_descendants_eq, hids] at happly
        | some ids =>
            obtain ⟨doc', hdoc', hprune⟩ := remove_prunes h htarget hids
            rw [hdoc'] at happly
            cases happly
            exact hprune.well_formed h

/-- An insertion fails and leaves the document, or succeeds. -/
theorem RawDocument.insert_error_or_ok (doc : RawDocument) (node : RawNode) :
    (∃ error, doc.insert node = (.error error, doc)) ∨ (doc.insert node).1 = .ok () := by
  unfold RawDocument.insert
  cases doc.nodes.contains node.id with
  | true => exact .inl ⟨_, rfl⟩
  | false =>
      cases node.parent with
      | some parent =>
          cases hparent : doc.nodes.contains parent with
          | true => simp [hparent]
          | false => simp [hparent]
      | none =>
          cases doc.root.isSome with
          | true => exact .inl ⟨_, rfl⟩
          | false => exact .inr rfl

/-- What an insertion returns: the document itself, or the document with the node grafted. -/
theorem apply_insert_cases {doc : RawDocument} {depth : Nat} {node : RawNode} {outcome : Outcome}
    (happly : doc.apply depth (.insert node) = some outcome) :
    (∃ error, outcome = (.error error, doc)) ∨
      outcome.1 = .ok () ∧ Grafts doc outcome.2 node := by
  simp only [RawDocument.apply] at happly
  split_ifs at happly
  · exact .inl ⟨_, (Option.some.inj happly).symm⟩
  · obtain rfl := Option.some.inj happly
    exact (doc.insert_error_or_ok node).imp_right fun hok => ⟨hok, insert_grafts hok⟩

/-- The step lemma: a call that returns keeps a well-formed document, unless it inserts a node that
lists children. -/
theorem WellFormed.after {doc : RawDocument} (h : WellFormed doc) {call : Call} {outcome : Outcome}
    (hreturns : Returns doc call outcome) (hleaf : call.InsertsLeaf) : WellFormed outcome.2 := by
  cases hreturns with
  | advanceLifecycle lifecycle => exact h.congr rfl rfl
  | beginNavigation url => exact well_formed_empty rfl rfl
  | @apply depth mutation _ happly =>
      cases mutation with
      | insert node =>
          rcases apply_insert_cases happly with ⟨error, rfl⟩ | ⟨-, hgraft⟩
          · exact h
          · exact hgraft.well_formed h hleaf
      | remove target => exact h.apply_remove happly
      | _ => exact h.apply_update happly (by simp) (by simp)

/-- A successful call leaves a well-formed document well-formed exactly when it does not insert a
node that lists children. -/
theorem well_formed_after_iff {doc : RawDocument} (h : WellFormed doc) {call : Call}
    {doc' : RawDocument} (hreturns : Returns doc call (.ok (), doc')) :
    WellFormed doc' ↔ call.InsertsLeaf := by
  refine ⟨fun h' => ?_, fun hleaf => h.after hreturns hleaf⟩
  cases hreturns with
  | advanceLifecycle lifecycle => trivial
  | beginNavigation url => trivial
  | @apply depth mutation _ happly =>
      cases mutation with
      | insert node =>
          rcases apply_insert_cases happly with ⟨error, herror⟩ | ⟨-, hgraft⟩
          · cases herror
          · exact hgraft.leaf_of_well_formed h h'
      | _ => trivial

theorem well_formed_of_runs {url : Text} {doc : RawDocument}
    (hrun : Runs url Call.InsertsLeaf doc) : WellFormed doc := by
  induction hrun with
  | new => exact well_formed_empty rfl rfl
  | call _ _ hleaf hreturns ih => exact ih.after hreturns hleaf

/-- In a run that inserts nodes without children only, every document is a well-formed tree whose
removals return and delete a subtree; the first other insertion that succeeds ends this. -/
theorem runs_well_formed {url : Text} {doc : RawDocument}
    (hrun : Runs url Call.InsertsLeaf doc) :
    WellFormed doc ∧ (∀ target, RemovesExactly doc target) ∧
      ∀ call doc', Returns doc call (.ok (), doc') → (WellFormed doc' ↔ call.InsertsLeaf) :=
  have h := well_formed_of_runs hrun
  ⟨h, h.removes_exactly, fun _ _ hreturns => well_formed_after_iff h hreturns⟩

/-- A new document with a root and a button below it. -/
def buttonPage : RawDocument :=
  ((RawDocument.new "https://example.test/").insert (.document 1)).2.insert
    (.element 2 "button" (some 1)) |>.2

theorem runs_button_page : Runs "https://example.test/" Call.InsertsLeaf buttonPage := by
  have hroot : Runs "https://example.test/" Call.InsertsLeaf _ :=
    .call .new (.apply (.insert (.document 1))) rfl (.apply 0 rfl)
  exact .call hroot (.apply (.insert (.element 2 "button" (some 1)))) rfl (.apply 0 rfl)

/-- The page with a button. -/
theorem button_page_well_formed :
    WellFormed buttonPage ∧ (∀ target, RemovesExactly buttonPage target) ∧
      ∀ call doc', Returns buttonPage call (.ok (), doc') →
        (WellFormed doc' ↔ call.InsertsLeaf) :=
  runs_well_formed runs_button_page

/-- A root that lists itself as a child. -/
def selfListed : RawNode := { RawNode.document 1 with children := [1] }

/-- Inserting a node that lists itself succeeds, and the document has a cycle. -/
theorem insert_not_well_formed :
    ¬ ∀ (url : Text) (doc : RawDocument), Runs url (fun _ => True) doc → WellFormed doc := by
  intro h
  have hrun : Runs "https://example.test/" (fun _ => True)
      ((RawDocument.new "https://example.test/").insert selfListed).2 :=
    .call .new (.apply (.insert selfListed)) trivial (.apply 0 rfl)
  have hlink : (RawDocument.insert (.new "https://example.test/") selfListed).2.Links 1 1 :=
    ⟨selfListed, OrdMap.get_insert_self _ _ _, by simp [selfListed]⟩
  exact (h _ _ hrun).acyclic 1 (.single hlink)

end BrowsAI.DomObserver
