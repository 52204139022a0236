import BrowsAI.Profiles.Fingerprint
import BrowsAI.SemanticIr.Challenges
import BrowsAI.StructuralIr.Compile

/-!
# Enrichment

The two calls of `SemanticIr` that add summary nodes. A node is numbered with the nodes before it,
so the ids that the calls generate differ among themselves, but nothing keeps them apart from the
ids that the tree has: a tree that was enriched and then lost a node can meet an id again.
-/

namespace BrowsAI.Profiles

open Utf8

/-- The `Display` rendering. -/
def FingerprintInconsistency.display : FingerprintInconsistency → Text
  | .userAgentClaimsBrowser claimed declared =>
      "user agent advertises " ++ claimed ++ " but fingerprint declares " ++ declared
  | .platformMismatch uaPlatform declared =>
      "user agent platform " ++ uaPlatform ++ " does not match declared " ++ declared
  | .webglMismatch uaFamily webglVendor =>
      "WebGL vendor " ++ webglVendor ++ " does not match " ++ uaFamily ++ " browser conventions"

end BrowsAI.Profiles

namespace BrowsAI.SemanticIr

open Utf8 AgentTree Network Profiles

/-- A label and a number. -/
def generatedId (label : Text) (number : Nat) : AgentNodeId := label ++ ":" ++ ofNat number

/-- A node for every item, made from the tree before it. -/
def pushNodes {α : Type} (make : AgentRenderTree → α → AgentNode) (tree : AgentRenderTree)
    (items : List α) : AgentRenderTree :=
  items.foldl (fun tree item => { tree with nodes := tree.nodes ++ [make tree item] }) tree

/-- The node that is pushed for an inconsistency. -/
def inconsistencyNode (fingerprintId : Text) (tree : AgentRenderTree)
    (inconsistency : FingerprintInconsistency) : AgentNode where
  id := generatedId ("profile-inconsistency:" ++ fingerprintId) tree.nodes.length
  origin := none
  identityKey := some ("profile-inconsistency:" ++ fingerprintId)
  structuralRole := .region
  semanticRole := some .profileInconsistency
  applicationType := none
  name := some ("profile-inconsistency:" ++ fingerprintId)
  value := some (.text inconsistency.display)
  description := some inconsistency.display
  state := default
  geometry := none
  relationships := []
  actions := []
  children := []
  provenance := [⟨.agentInference, "semantic-ir", none⟩]
  -- the `f32` closest to 0.95
  confidence := ⟨.finite (15938355 / 16777216)⟩
  generation := tree.generation

/-- The tree with a node for each inconsistency at its end. -/
def withProfileInconsistencies (tree : AgentRenderTree) (fingerprintId : Text)
    (inconsistencies : List FingerprintInconsistency) : AgentRenderTree :=
  pushNodes (inconsistencyNode fingerprintId) tree inconsistencies

/-- A call that adds summary nodes. -/
inductive Enrichment (U : Type) where
  | challengeObservations (observations : List (ChallengeObservation U))
  | profileInconsistencies (fingerprintId : Text)
      (inconsistencies : List FingerprintInconsistency)

namespace Enrichment

variable {U : Type}

/-- What a call adds to the tree. -/
def apply [Url U] (tree : AgentRenderTree) : Enrichment U → AgentRenderTree
  | challengeObservations observations => withChallengeObservations tree observations
  | profileInconsistencies fingerprintId inconsistencies =>
      withProfileInconsistencies tree fingerprintId inconsistencies

/-- The tree after a sequence of calls. -/
def applyAll [Url U] (tree : AgentRenderTree) (calls : List (Enrichment U)) : AgentRenderTree :=
  calls.foldl apply tree

/-- What the ids of the added nodes begin with. -/
def labels : Enrichment U → List Text
  | challengeObservations observations =>
      observations.map fun observation => "challenge:" ++ observation.provider
  | profileInconsistencies fingerprintId inconsistencies =>
      inconsistencies.map fun _ => "profile-inconsistency:" ++ fingerprintId

/-- The ids of the nodes that the calls add to a tree of `start` nodes. -/
def generatedIds (start : Nat) (calls : List (Enrichment U)) : List AgentNodeId :=
  ((calls.flatMap labels).zipIdx start).map fun entry => generatedId entry.1 entry.2

end Enrichment

/-! ## The ids -/

/-- The number is what stands behind the last colon. -/
theorem generated_id_number {label label' : Text} {n n' : Nat}
    (h : generatedId label n = generatedId label' n') : n = n' := by
  have hcolon : label ++ ':' :: ofNat n = label' ++ ':' :: ofNat n' := by
    simpa [generatedId] using h
  have hsplit := append_cons_inj_right (not_mem_of_nat (by decide) n)
    (not_mem_of_nat (by decide) n') hcolon
  exact of_nat_inj hsplit.2

theorem nodup_generated (labels : List Text) (start : Nat) :
    ((labels.zipIdx start).map fun entry => generatedId entry.1 entry.2).Nodup := by
  have hnumbers : ((labels.zipIdx start).map Prod.snd).Nodup := by
    rw [List.zipIdx_map_snd]
    exact List.nodup_range'
  rw [List.Nodup, List.pairwise_map] at hnumbers ⊢
  exact hnumbers.imp fun hne heq => hne (generated_id_number heq)

/-- What is pushed stands behind the nodes of the tree, numbered on. -/
theorem ids_push_nodes {α : Type} {make : AgentRenderTree → α → AgentNode} {label : α → Text}
    (hid : ∀ tree item, (make tree item).id = generatedId (label item) tree.nodes.length)
    (tree : AgentRenderTree) (items : List α) :
    (pushNodes make tree items).nodes.map AgentNode.id =
      tree.nodes.map AgentNode.id ++ ((items.map label).zipIdx tree.nodes.length).map
        fun entry => generatedId entry.1 entry.2 := by
  induction items generalizing tree with
  | nil => exact (List.append_nil _).symm
  | cons item items ih =>
      refine (ih { tree with nodes := tree.nodes ++ [make tree item] }).trans ?_
      simp only [List.map_append, List.map_cons, List.map_nil, List.length_append,
        List.length_singleton, List.zipIdx_cons, hid, List.append_assoc, List.singleton_append]

namespace Enrichment

variable {U : Type} [Url U]

omit [Url U] in
/-- The id of a node that is added for an inconsistency. -/
theorem inconsistency_node_id (fingerprintId : Text) (tree : AgentRenderTree)
    (inconsistency : FingerprintInconsistency) :
    (inconsistencyNode fingerprintId tree inconsistency).id =
      generatedId ("profile-inconsistency:" ++ fingerprintId) tree.nodes.length := rfl

theorem challenge_node_id (tree : AgentRenderTree) (observation : ChallengeObservation U) :
    (challengeNode tree observation).id =
      generatedId ("challenge:" ++ observation.provider) tree.nodes.length := rfl

theorem ids_apply (tree : AgentRenderTree) (call : Enrichment U) :
    (call.apply tree).nodes.map AgentNode.id =
      tree.nodes.map AgentNode.id ++ generatedIds tree.nodes.length [call] := by
  rw [generatedIds, List.flatMap_singleton]
  cases call with
  | challengeObservations observations =>
      exact ids_push_nodes challenge_node_id tree observations
  | profileInconsistencies fingerprintId inconsistencies =>
      exact ids_push_nodes (inconsistency_node_id fingerprintId) tree inconsistencies

/-- The ids behind all calls. -/
theorem ids_apply_all (tree : AgentRenderTree) (calls : List (Enrichment U)) :
    (applyAll tree calls).nodes.map AgentNode.id =
      tree.nodes.map AgentNode.id ++ generatedIds tree.nodes.length calls := by
  induction calls generalizing tree with
  | nil => exact (List.append_nil _).symm
  | cons call calls ih =>
      have hlength : (call.apply tree).nodes.length =
          tree.nodes.length + (labels call).length := by
        have hids := congrArg List.length (ids_apply tree call)
        simpa [generatedIds] using hids
      refine (ih (call.apply tree)).trans ?_
      rw [ids_apply, hlength, List.append_assoc]
      simp only [generatedIds, List.flatMap_cons, List.flatMap_nil, List.append_nil,
        List.zipIdx_append, List.map_append]

/-- After every sequence of calls the ids are still unique exactly when no node had one of the ids
that the calls generate from the number of its nodes on. -/
theorem unique_ids_apply_all_iff (tree : AgentRenderTree) (hunique : tree.UniqueIds)
    (calls : List (Enrichment U)) :
    (applyAll tree calls).UniqueIds ↔
      ∀ node ∈ tree.nodes, node.id ∉ generatedIds tree.nodes.length calls := by
  have hgenerated : (generatedIds tree.nodes.length calls).Nodup := nodup_generated _ _
  unfold AgentRenderTree.UniqueIds at hunique ⊢
  rw [ids_apply_all, List.nodup_append, and_iff_right hunique, and_iff_right hgenerated]
  constructor
  · intro h node hnode hid
    exact h node.id (List.mem_map_of_mem hnode) node.id hid rfl
  · intro h id hid id' hid' heq
    obtain ⟨node, hnode, rfl⟩ := List.mem_map.mp hid
    exact h node hnode (heq ▸ hid')

end Enrichment

/-! ## A wall that is observed twice -/

/-- An observation as the observer makes it for a page of one provider. -/
def hcaptchaWall : ChallengeObservation PlainUrl where
  provider := "hcaptcha"
  kind := .captcha
  url := ⟨"https", "a.example", "/"⟩
  confidence := .finite (15938355 / 16777216)
  provenance := [⟨.dom, "test", none⟩]

/-- A page with an invisible note. -/
def notedPage : AgentRenderTree where
  root := "document"
  nodes := [.plain "document" .page none ["note"],
    { AgentNode.plain "note" .paragraph none [] with state := default }]
  generation := 1
  truncated := false

theorem noted_page_enriched_unique :
    (Enrichment.applyAll notedPage [.challengeObservations [hcaptchaWall]]).UniqueIds :=
  (Enrichment.unique_ids_apply_all_iff notedPage
    (by unfold AgentRenderTree.UniqueIds; decide)
    [.challengeObservations [hcaptchaWall]]).mpr (by decide)

/-- The page after one enrichment, with the wall linked and visible. -/
def walledPage : AgentRenderTree where
  root := "document"
  nodes := [.plain "document" .page none ["note", "challenge:hcaptcha:2"],
    { AgentNode.plain "note" .paragraph none [] with state := default },
    { challengeNode notedPage hcaptchaWall with state.visible := true }]
  generation := 1
  truncated := false

/-- What pruning leaves of it. -/
def prunedPage : AgentRenderTree where
  root := "document"
  nodes := [.plain "document" .page none ["challenge:hcaptcha:2"],
    { challengeNode notedPage hcaptchaWall with state.visible := true }]
  generation := 1
  truncated := false

/-- The second observation gets the id that the pruned page has. -/
theorem pruned_page_enriched_not_unique :
    StructuralIr.compile 5 walledPage false = some (.fromTree prunedPage) ∧
      prunedPage.UniqueIds ∧
      ¬ (Enrichment.applyAll prunedPage
        [.challengeObservations [hcaptchaWall]]).UniqueIds := by
  unfold AgentRenderTree.UniqueIds
  decide +kernel

end BrowsAI.SemanticIr
