import BrowsAI.AgentProtocol.Query
import BrowsAI.Library.Groups
import BrowsAI.Library.TextLines
import BrowsAI.Library.Words

/-!
# Normalization

`SemanticIr::normalize` of `crates/semantic-ir`: the names of the nodes with single blanks, and a report
of what a query cannot resolve. `normalize_reports` says that the report is about the queries of
`crates/agent-protocol`: it lists an identity exactly if the query for it is ambiguous, and a node
without a name exactly if no search finds it.
-/

namespace BrowsAI.SemanticIr

open Utf8 AgentTree AgentProtocol

/-- What a report tells of a tree. -/
inductive SemanticIssue where
  | ambiguousIdentity (identityKey : Text) (nodeIds : List AgentNodeId)
  | missingAccessibleName (nodeId : AgentNodeId) (structuralRole : StructuralRole)
  deriving DecidableEq

/-- The nodes that changed, and the issues. -/
structure SemanticNormalization where
  changedNodes : List AgentNodeId
  issues : List SemanticIssue
  deriving DecidableEq

/-- Nodes of the role must have a name. -/
def requiresAccessibleName (role : StructuralRole) : Bool :=
  role = .button || role = .link || role = .textbox || role = .checkbox || role = .radio ||
    role = .select

/-- The first half of the loop over the nodes: the name of a node. -/
def normalizeName (result : SemanticNormalization) (node : AgentNode) :
    AgentNode × SemanticNormalization :=
  match node.name with
  | none => (node, result)
  | some name =>
      let normalized := joinWords (splitWhitespace name)
      if normalized = [] then
        ({ node with name := none }, { result with changedNodes := result.changedNodes ++ [node.id] })
      else if name ≠ normalized then
        ({ node with name := some normalized },
          { result with changedNodes := result.changedNodes ++ [node.id] })
      else (node, result)

/-- The second half: a node that needs a name and has none. -/
def checkName (result : SemanticNormalization) (node : AgentNode) : SemanticNormalization :=
  if node.name = none ∧ requiresAccessibleName node.structuralRole then
    { result with
      issues := result.issues ++ [.missingAccessibleName node.id node.structuralRole] }
  else result

/-- The loop over the nodes. -/
def normalizeNodes (result : SemanticNormalization) :
    List AgentNode → List AgentNode × SemanticNormalization
  | [] => ([], result)
  | node :: nodes =>
      let (node, result) := normalizeName result node
      let (nodes, result) := normalizeNodes (checkName result node) nodes
      (node :: nodes, result)

/-- The nodes of each identity. -/
def identities (nodes : List AgentNode) : OrdMap Text (List AgentNodeId) :=
  OrdMap.group (nodes.filterMap fun node => node.identityKey.map fun key => (key, node.id))

/-- The identities that several nodes have. -/
def ambiguities (nodes : List AgentNode) : List SemanticIssue :=
  (identities nodes).toList.filterMap fun (identityKey, nodeIds) =>
    if 1 < nodeIds.length then some (.ambiguousIdentity identityKey nodeIds) else none

/-- The tree with its names normalized, and the report. -/
def normalize (tree : AgentRenderTree) : AgentRenderTree × SemanticNormalization :=
  let (nodes, result) := normalizeNodes ⟨[], []⟩ tree.nodes
  ({ tree with nodes }, { result with issues := result.issues ++ ambiguities nodes })

/-! ## The loop -/

/-- A name with single blanks, and none for a blank name. -/
def oneSpaced (name : Text) : Option Text :=
  if joinWords (splitWhitespace name) = [] then none else some (joinWords (splitWhitespace name))

/-- A node with its name normalized. -/
def named (node : AgentNode) : AgentNode := { node with name := node.name.bind oneSpaced }

/-- The issue of a node without a name. -/
def missing (node : AgentNode) : Option SemanticIssue :=
  if node.name = none ∧ requiresAccessibleName node.structuralRole then
    some (.missingAccessibleName node.id node.structuralRole)
  else none

theorem one_spaced_one_spaced (name : Text) : (oneSpaced name).bind oneSpaced = oneSpaced name := by
  rw [oneSpaced]
  split_ifs with hblank
  · rfl
  · rw [Option.bind_some, oneSpaced, split_join_split, if_neg hblank]

theorem named_named (node : AgentNode) : named (named node) = named node := by
  have hname : (node.name.bind oneSpaced).bind oneSpaced = node.name.bind oneSpaced := by
    cases node.name with
    | none => rfl
    | some name => exact one_spaced_one_spaced name
  rw [named, named, hname]

/-- A node that gets another name is noted. -/
theorem normalize_name_eq (result : SemanticNormalization) (node : AgentNode) :
    normalizeName result node = (named node, { result with
      changedNodes := result.changedNodes ++ if named node = node then [] else [node.id] }) := by
  have hsame : named node = node ↔ node.name.bind oneSpaced = node.name := by
    constructor
    · exact fun h => congrArg AgentNode.name h
    · intro h
      rw [named, h]
  cases hname : node.name with
  | none =>
      have hunchanged : named node = node := hsame.mpr (by rw [hname]; rfl)
      rw [if_pos hunchanged, List.append_nil, hunchanged, normalizeName, hname]
  | some name =>
      by_cases hblank : joinWords (splitWhitespace name) = []
      · have hnone : named node = { node with name := none } := by
          rw [named, hname, Option.bind_some, oneSpaced, if_pos hblank]
        have hchanged : named node ≠ node := fun h => by
          have hkept := congrArg AgentNode.name h
          rw [hnone, hname] at hkept
          cases hkept
        rw [if_neg hchanged, hnone, normalizeName, hname]
        exact if_pos hblank
      · have hspaced : named node =
            { node with name := some (joinWords (splitWhitespace name)) } := by
          rw [named, hname, Option.bind_some, oneSpaced, if_neg hblank]
        by_cases hlike : name = joinWords (splitWhitespace name)
        · have hunchanged : named node = node :=
            hsame.mpr (by rw [hname, Option.bind_some, oneSpaced, if_neg hblank, ← hlike])
          rw [if_pos hunchanged, List.append_nil, hunchanged, normalizeName, hname]
          exact (if_neg hblank).trans (if_neg (not_not.mpr hlike))
        · have hchanged : named node ≠ node := fun h => by
            have hkept := congrArg AgentNode.name h
            rw [hspaced, hname] at hkept
            exact hlike (Option.some.inj hkept).symm
          rw [if_neg hchanged, hspaced, normalizeName, hname]
          exact (if_neg hblank).trans (if_pos hlike)

theorem check_name_eq (result : SemanticNormalization) (node : AgentNode) :
    checkName result node =
      { result with issues := result.issues ++ (missing node).toList } := by
  rw [checkName, missing]
  split_ifs
  · rfl
  · exact (congrArg (SemanticNormalization.mk result.changedNodes) (List.append_nil _)).symm

/-- The report is that of the nodes in their order. -/
theorem normalize_nodes_eq (result : SemanticNormalization) (nodes : List AgentNode) :
    normalizeNodes result nodes = (nodes.map named,
      ⟨result.changedNodes ++ (nodes.filter fun node => named node ≠ node).map AgentNode.id,
        result.issues ++ (nodes.map named).filterMap missing⟩) := by
  induction nodes generalizing result with
  | nil => rw [normalizeNodes, List.filter_nil, List.map_nil, List.map_nil, List.filterMap_nil,
      List.append_nil, List.append_nil]
  | cons node nodes ih =>
      rw [normalizeNodes, normalize_name_eq]
      simp only
      rw [ih, check_name_eq, List.map_cons, List.filter_cons, List.filterMap_cons]
      by_cases hsame : named node = node
      · cases missing (named node) with
        | none => simp [hsame]
        | some issue => simp [hsame]
      · cases missing (named node) with
        | none => simp [hsame]
        | some issue => simp [hsame]

theorem normalize_eq (tree : AgentRenderTree) :
    normalize tree = ({ tree with nodes := tree.nodes.map named },
      ⟨(tree.nodes.filter fun node => named node ≠ node).map AgentNode.id,
        (tree.nodes.map named).filterMap missing ++ ambiguities (tree.nodes.map named)⟩) := by
  rw [normalize, normalize_nodes_eq]
  rfl

/-! ## The report -/

/-- The nodes with a key are those that the query finds. -/
theorem values_of_identities (nodes : List AgentNode) (key : Text) :
    OrdMap.valuesOf (nodes.filterMap fun node => node.identityKey.map fun key => (key, node.id)) key =
      (nodes.filter (PageQuery.byIdentity key).matches).map AgentNode.id := by
  induction nodes with
  | nil => rfl
  | cons node nodes ih =>
      rw [List.filterMap_cons, List.filter_cons, PageQuery.matches_by_identity]
      cases hidentity : node.identityKey with
      | none => exact ih
      | some other =>
          rw [Option.map_some, OrdMap.values_of_cons, ih]
          by_cases hkey : other = key
          · rw [if_pos hkey, hkey, decide_eq_true rfl, if_pos rfl, List.map_cons]
          · rw [if_neg hkey, decide_eq_false fun h => hkey (Option.some.inj h)]
            rfl

/-- An identity is reported with the nodes that have it, when these are several. -/
theorem mem_ambiguities {nodes : List AgentNode} {key : Text} {ids : List AgentNodeId} :
    .ambiguousIdentity key ids ∈ ambiguities nodes ↔ 1 < ids.length ∧
      (nodes.filter (PageQuery.byIdentity key).matches).map AgentNode.id = ids := by
  have hget : (identities nodes)[key]? = some ids ↔ ids ≠ [] ∧
      (nodes.filter (PageQuery.byIdentity key).matches).map AgentNode.id = ids := by
    rw [identities, OrdMap.get_group, values_of_identities]
    split_ifs with hnone
    · rw [hnone]
      refine ⟨fun h => ?_, fun h => absurd h.2.symm h.1⟩
      cases h
    · exact ⟨fun h => ⟨Option.some.inj h ▸ hnone, Option.some.inj h⟩, fun h => congrArg some h.2⟩
  rw [ambiguities, List.mem_filterMap]
  constructor
  · rintro ⟨⟨other, others⟩, hmem, hissue⟩
    dsimp only at hissue
    split_ifs at hissue with hseveral
    cases hissue
    exact ⟨hseveral, (hget.mp (Std.ExtTreeMap.mem_toList_iff_getElem?_eq_some.mp hmem)).2⟩
  · intro ⟨hseveral, hids⟩
    have hne : ids ≠ [] := fun h => by
      rw [h] at hseveral
      cases hseveral
    exact ⟨(key, ids), Std.ExtTreeMap.mem_toList_iff_getElem?_eq_some.mpr (hget.mpr ⟨hne, hids⟩),
      if_pos hseveral⟩

/-- The nodes without a name that are told. -/
theorem mem_missing {nodes : List AgentNode} {id : AgentNodeId} {role : StructuralRole} :
    .missingAccessibleName id role ∈ nodes.filterMap missing ↔ requiresAccessibleName role = true ∧
      ∃ node ∈ nodes, node.id = id ∧ node.structuralRole = role ∧ node.name = none := by
  rw [List.mem_filterMap]
  constructor
  · rintro ⟨node, hmem, hissue⟩
    rw [missing] at hissue
    split_ifs at hissue with hunnamed
    cases hissue
    exact ⟨hunnamed.2, node, hmem, rfl, rfl, hunnamed.1⟩
  · rintro ⟨hrequired, node, hmem, rfl, rfl, hunnamed⟩
    exact ⟨node, hmem, if_pos ⟨hunnamed, hrequired⟩⟩

theorem not_ambiguous_mem_missing {nodes : List AgentNode} {key : Text}
    {ids : List AgentNodeId} : .ambiguousIdentity key ids ∉ nodes.filterMap missing := by
  intro h
  obtain ⟨node, -, hissue⟩ := List.mem_filterMap.mp h
  rw [missing] at hissue
  split_ifs at hissue
  cases hissue

theorem missing_not_mem_ambiguities {nodes : List AgentNode} {id : AgentNodeId}
    {role : StructuralRole} : .missingAccessibleName id role ∉ ambiguities nodes := by
  intro h
  obtain ⟨⟨key, ids⟩, -, hissue⟩ := List.mem_filterMap.mp h
  dsimp only at hissue
  split_ifs at hissue
  cases hissue

/-- The identities in the report, which has the missing names before them. -/
theorem ambiguous_mem_issues {nodes : List AgentNode} {key : Text} {ids : List AgentNodeId} :
    .ambiguousIdentity key ids ∈ nodes.filterMap missing ++ ambiguities nodes ↔ 1 < ids.length ∧
      (nodes.filter (PageQuery.byIdentity key).matches).map AgentNode.id = ids := by
  rw [List.mem_append, or_iff_right not_ambiguous_mem_missing, mem_ambiguities]

/-- A node without a name is what no search finds. -/
theorem name_eq_none_iff {tree : AgentRenderTree} {node : AgentNode} (hmem : node ∈ tree.nodes) :
    node.name = none ↔ ∀ text, QueryResult.ofNode node ∉ PageQuery.search tree text := by
  constructor
  · intro hnone text hfound
    obtain ⟨other, hother, heq⟩ := List.mem_map.mp hfound
    have hname : other.name = none := (congrArg QueryResult.name heq).trans hnone
    have hmatches := (List.mem_filter.mp hother).2
    rw [PageQuery.matches_search, hname] at hmatches
    cases hmatches
  · intro h
    cases hname : node.name with
    | none => rfl
    | some name =>
        refine absurd (List.mem_map_of_mem (List.mem_filter.mpr ⟨hmem, ?_⟩)) (h [])
        rw [PageQuery.matches_search, hname]
        exact contains_iff.mpr List.nil_infix

/-- The words of the name of a node. -/
def nameWords (node : AgentNode) : List Text := (node.name.map splitWhitespace).getD []

/-- Only the white space in a name changes. -/
theorem named_cases (node : AgentNode) :
    named node = { node with name := (named node).name } ∧ nameWords (named node) = nameWords node ∧
      ∀ name, (named node).name = some name → name ≠ [] ∧ joinWords (splitWhitespace name) = name := by
  refine ⟨rfl, ?_⟩
  rw [named, nameWords, nameWords]
  cases node.name with
  | none => exact ⟨rfl, fun _ h => by cases h⟩
  | some name =>
      rw [Option.bind_some, oneSpaced]
      split_ifs with hblank
      · refine ⟨?_, fun _ h => by cases h⟩
        exact ((join_words_eq_nil_iff fun _ => is_word_of_mem_split).mp hblank).symm
      · refine ⟨split_join_split name, fun other h => ?_⟩
        cases h
        exact ⟨hblank, congrArg joinWords (split_join_split name)⟩

/-- Normalizing changes nothing but the names of the nodes and keeps the words of each, a second time it
changes nothing, and its report is about the queries of the normalized tree: an identity is reported
exactly if the query for it is ambiguous, with the nodes of its rows, and a node that needs a name
exactly if no search finds it. -/
theorem normalize_reports (tree : AgentRenderTree) :
    let normalized := (normalize tree).1
    let report := (normalize tree).2
    normalized = { tree with nodes := normalized.nodes } ∧
    (List.Forall₂ (fun after before => after = { before with name := after.name } ∧
        nameWords after = nameWords before ∧
        ∀ name, after.name = some name → name ≠ [] ∧ joinWords (splitWhitespace name) = name)
      normalized.nodes tree.nodes) ∧
    normalize normalized = (normalized, { report with changedNodes := [] }) ∧
    (∀ key ids, .ambiguousIdentity key ids ∈ report.issues ↔
      PageQuery.resolve normalized (PageQuery.byIdentity key) = .error (.ambiguous ids.length) ∧
        (PageQuery.query normalized (PageQuery.byIdentity key)).map QueryResult.nodeId = ids) ∧
    ∀ id role, .missingAccessibleName id role ∈ report.issues ↔ requiresAccessibleName role = true ∧
      ∃ node ∈ normalized.nodes, node.id = id ∧ node.structuralRole = role ∧
        ∀ text, QueryResult.ofNode node ∉ PageQuery.search normalized text := by
  rw [normalize_eq]
  dsimp only
  have hagain : (tree.nodes.map named).map named = tree.nodes.map named := by
    rw [List.map_map]
    exact List.map_congr_left fun node _ => named_named node
  refine ⟨rfl, ?_, ?_, fun key ids => ?_, fun id role => ?_⟩
  · rw [List.forall₂_map_left_iff]
    exact List.forall₂_same.mpr fun node _ => named_cases node
  · have hunchanged : (tree.nodes.map named).filter (fun node => named node ≠ node) = [] := by
      refine List.filter_eq_nil_iff.mpr fun node hnode => ?_
      obtain ⟨before, -, rfl⟩ := List.mem_map.mp hnode
      rw [named_named]
      exact fun h => of_decide_eq_true h rfl
    rw [normalize_eq]
    dsimp only
    rw [hagain, hunchanged]
    rfl
  · have hrows : ∀ nodes : List AgentNode, (nodes.map QueryResult.ofNode).map QueryResult.nodeId =
        nodes.map AgentNode.id := fun nodes => List.map_map
    rw [ambiguous_mem_issues, PageQuery.resolve_eq, PageQuery.sole_eq_ambiguous_iff, PageQuery.query,
      hrows, List.length_map]
    constructor
    · rintro ⟨hseveral, rfl⟩
      exact ⟨⟨hseveral, (List.length_map _).symm⟩, rfl⟩
    · rintro ⟨⟨hseveral, -⟩, hids⟩
      exact ⟨hseveral, hids⟩
  · rw [List.mem_append, or_iff_left missing_not_mem_ambiguities, mem_missing]
    refine and_congr_right fun _ => exists_congr fun node => and_congr_right fun hnode =>
      and_congr_right fun _ => and_congr_right fun _ => ?_
    have hmem : node ∈ ({ tree with nodes := tree.nodes.map named } : AgentRenderTree).nodes := hnode
    exact name_eq_none_iff hmem

end BrowsAI.SemanticIr
