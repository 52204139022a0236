import BrowsAI.RuntimeEvents.Observer
import BrowsAI.SemanticCompiler.Isomorphism
import BrowsAI.SemanticIr.Normalize

/-!
# Compilation with normalization and runtime evidence

The other ways to compile of `crates/semantic-compiler`. `resolve_compiled` goes from the raw document
to the agent: the query for a stable identity means the one raw node that bears it, and when several do,
the report of the compilation has them. `runtime_told` says which nodes the runtime evidence reaches.
-/

namespace BrowsAI.SemanticCompiler

open Utf8 AgentTree AgentProtocol DomObserver LayoutObserver RuntimeEvents SemanticIr
open Relation

/-- The tree with its names normalized, and the report. -/
def compileNormalized (compiler : SemanticCompiler) (document : RawDocument)
    (layout : LayoutSnapshot) (depth : Nat) :
    Option ((CompileResult × SemanticNormalization) × SemanticCompiler) :=
  (compiler.compile document layout depth).map fun (result, next) =>
    let (tree, normalization) := normalize result.tree
    (({ result with tree }, normalization), next)

/-- A node that runtime evidence is about. -/
def observe (evidence : RuntimeEvidence) (node : AgentNode) : AgentNode :=
  { node with provenance := node.provenance ++ evidence.provenance, confidence := .probable }

/-- One step of the loop over the evidence. -/
def foldEvidence (nodes : List AgentNode) (evidence : RuntimeEvidence) : List AgentNode :=
  match evidence.event with
  | .domMutation nodeId => modifyFirst (fun node => node.id == domId nodeId) (observe evidence) nodes
  | _ => nodes

/-- The tree with what the runtime told. -/
def compileWithRuntime (compiler : SemanticCompiler) (document : RawDocument)
    (layout : LayoutSnapshot) (runtime : List RuntimeEvidence) (depth : Nat) :
    Option (CompileResult × SemanticCompiler) :=
  (compiler.compile document layout depth).map fun (result, next) =>
    ({ result with tree := { result.tree with
        nodes := runtime.foldl foldEvidence result.tree.nodes } }, next)

variable {document : RawDocument} {layout : LayoutSnapshot} {generation : UInt64}

/-! ## From a stable identity to the raw node -/

/-- The raw node bears a stable identity. -/
def bears (document : RawDocument) (key : Text) (id : EngineNodeId) : Bool :=
  (document.node id).any fun raw =>
    stableIdentity raw (classify raw.kind raw.name raw.attributes raw.text).1 = some key

/-- A compiled node has a key exactly if the node of the document bears it. -/
theorem bears_eq {raw : RawNode} {id : EngineNodeId} (hraw : document.node id = some raw)
    (key : Text) (children : List AgentNodeId) :
    (PageQuery.byIdentity key).matches
        (named { compileNode raw layout id generation with children }) = bears document key id := by
  rw [PageQuery.matches_by_identity, bears, hraw]
  rfl

/-- The rows for an identity are those of the raw nodes that bear it. -/
theorem rows_by_identity {order : List EngineNodeId} {nodes : List AgentNode}
    (himage : List.Forall₂ (fun id node => ∃ raw, document.node id = some raw ∧
      node = { compileNode raw layout id generation with children := raw.children.map domId })
      order nodes) (key : Text) :
    ((nodes.map named).filter (PageQuery.byIdentity key).matches).map AgentNode.id =
      (order.filter (bears document key)).map domId := by
  induction himage with
  | nil => rfl
  | cons hfirst hrest ih =>
      obtain ⟨raw, hraw, rfl⟩ := hfirst
      rw [List.map_cons, List.filter_cons, List.filter_cons, bears_eq hraw]
      split_ifs
      · rw [List.map_cons, List.map_cons, ih]
        rfl
      · exact ih

/-- In the normalized tree of a well-formed document a stable identity means the one raw node below the
root that bears it. If none does, it is not found; if several do, it is refused, and reported with
their agent nodes in the order of the document: each node in front of what is below it, and the
children of a node one after the other. -/
theorem resolve_compiled (hdocument : WellFormed document) (compiler : SemanticCompiler)
    (layout : LayoutSnapshot) :
    ∃ bound, ∀ depth ≥ bound, ∃ result report next, ∃ order : List EngineNodeId,
      compiler.compileNormalized document layout depth = some ((result, report), next) ∧
      RootPreorder document order ∧ order.Nodup ∧
      (∀ id, id ∈ order ↔
        ∃ root, document.root = some root ∧ ReflTransGen document.Links root id) ∧
      ∀ key, (PageQuery.resolve result.tree (PageQuery.byIdentity key)).map QueryResult.nodeId =
          (PageQuery.sole (order.filter (bears document key))).map domId ∧
        ∀ ids, .ambiguousIdentity key ids ∈ report.issues ↔
          1 < (order.filter (bears document key)).length ∧
            (order.filter (bears document key)).map domId = ids := by
  obtain ⟨bound, hbound⟩ := compile_isomorphic hdocument compiler layout
  refine ⟨bound, fun depth hdepth => ?_⟩
  obtain ⟨result, next, hcompile, order, hiso⟩ := hbound depth hdepth
  refine ⟨{ result with tree := (normalize result.tree).1 }, (normalize result.tree).2, next, order,
    ?_, hiso.preorder, hiso.once, hiso.reachable, fun key => ?_⟩
  · rw [compileNormalized, hcompile]
    rfl
  · have hrows : (PageQuery.query (normalize result.tree).1 (PageQuery.byIdentity key)).map
        QueryResult.nodeId = (order.filter (bears document key)).map domId := by
      rw [normalize_eq, ← rows_by_identity hiso.image key]
      exact List.map_map
    have hresolve : (PageQuery.resolve (normalize result.tree).1 (PageQuery.byIdentity key)).map
        QueryResult.nodeId = (PageQuery.sole (order.filter (bears document key))).map domId := by
      rw [PageQuery.resolve_eq, PageQuery.map_sole, PageQuery.map_sole, hrows]
    refine ⟨hresolve, fun ids => ?_⟩
    have hissue : .ambiguousIdentity key ids ∈ (normalize result.tree).2.issues ↔
        1 < ids.length ∧ (order.filter (bears document key)).map domId = ids := by
      rw [normalize_eq, ← rows_by_identity hiso.image key]
      exact ambiguous_mem_issues
    rw [hissue]
    refine and_congr_left fun hids => ?_
    rw [← hids, List.length_map]

/-- The page with a button. -/
theorem resolve_button_page :
    ∃ bound, ∀ depth ≥ bound, ∃ result report next, ∃ order : List EngineNodeId,
      compileNormalized ⟨0⟩ buttonPage default depth = some ((result, report), next) ∧
      RootPreorder buttonPage order ∧ order.Nodup ∧
      (∀ id, id ∈ order ↔
        ∃ root, buttonPage.root = some root ∧ ReflTransGen buttonPage.Links root id) ∧
      ∀ key, (PageQuery.resolve result.tree (PageQuery.byIdentity key)).map QueryResult.nodeId =
          (PageQuery.sole (order.filter (bears buttonPage key))).map domId ∧
        ∀ ids, .ambiguousIdentity key ids ∈ report.issues ↔
          1 < (order.filter (bears buttonPage key)).length ∧
            (order.filter (bears buttonPage key)).map domId = ids :=
  resolve_compiled (well_formed_of_runs runs_button_page) ⟨0⟩ default

/-! ## Runtime evidence -/

/-- The evidence is a mutation of the node. -/
def tells (id : AgentNodeId) (evidence : RuntimeEvidence) : Bool :=
  match evidence.event with
  | .domMutation nodeId => id == domId nodeId
  | _ => false

/-- A node with the evidence that is about it. -/
def told (runtime : List RuntimeEvidence) (node : AgentNode) : AgentNode :=
  match runtime.filter (tells node.id) with
  | [] => node
  | evidence => { node with
      provenance := node.provenance ++ evidence.flatMap RuntimeEvidence.provenance
      confidence := .probable }

/-- Where ids are given once, one node is changed. -/
theorem modify_first_eq_map {id : AgentNodeId} {change : AgentNode → AgentNode}
    {nodes : List AgentNode} (hunique : (nodes.map AgentNode.id).Nodup) :
    modifyFirst (fun node => node.id == id) change nodes =
      nodes.map fun node => if node.id == id then change node else node := by
  induction nodes with
  | nil => rfl
  | cons node nodes ih =>
      obtain ⟨hfresh, hrest⟩ := List.nodup_cons.mp hunique
      rw [modifyFirst, List.map_cons]
      split_ifs with hid
      · have hothers : ∀ other ∈ nodes, (if other.id == id then change other else other) = other := by
          intro other hother
          refine if_neg fun hsame => hfresh ?_
          rw [eq_of_beq hid, ← eq_of_beq hsame]
          exact List.mem_map_of_mem hother
        rw [List.map_congr_left hothers, List.map_id']
      · rw [ih hrest]

/-- One step of the loop reaches the node of the evidence, and no other. -/
theorem fold_evidence_eq (evidence : RuntimeEvidence) {nodes : List AgentNode}
    (hunique : (nodes.map AgentNode.id).Nodup) :
    foldEvidence nodes evidence =
      nodes.map fun node => if tells node.id evidence then observe evidence node else node := by
  unfold foldEvidence tells
  cases evidence.event with
  | domMutation nodeId => exact modify_first_eq_map hunique
  | _ => exact (List.map_id' nodes).symm

/-- The pieces of evidence are told in their order. -/
theorem told_cons (evidence : RuntimeEvidence) (runtime : List RuntimeEvidence) (node : AgentNode) :
    told runtime (if tells node.id evidence then observe evidence node else node) =
      told (evidence :: runtime) node := by
  cases htells : tells node.id evidence with
  | false =>
      rw [told, told, List.filter_cons, htells]
      rfl
  | true =>
      have hfilter : (evidence :: runtime).filter (tells node.id) =
          evidence :: runtime.filter (tells node.id) := List.filter_cons_of_pos htells
      have hid : (observe evidence node).id = node.id := rfl
      rw [told, told, if_pos rfl, hid, hfilter]
      cases runtime.filter (tells node.id) with
      | nil =>
          show observe evidence node = { node with
            provenance := node.provenance ++ [evidence].flatMap RuntimeEvidence.provenance
            confidence := .probable }
          rw [List.flatMap_singleton]
          rfl
      | cons next rest =>
          show ({ node with
            provenance := node.provenance ++ evidence.provenance ++
              (next :: rest).flatMap RuntimeEvidence.provenance
            confidence := .probable } : AgentNode) = { node with
              provenance := node.provenance ++
                (evidence :: next :: rest).flatMap RuntimeEvidence.provenance
              confidence := .probable }
          rw [List.flatMap_cons (x := evidence), List.append_assoc]

/-- Every node is told what is about it. -/
theorem foldl_evidence_eq (runtime : List RuntimeEvidence) {nodes : List AgentNode}
    (hunique : (nodes.map AgentNode.id).Nodup) :
    runtime.foldl foldEvidence nodes = nodes.map (told runtime) := by
  induction runtime generalizing nodes with
  | nil => exact (List.map_id' nodes).symm
  | cons evidence runtime ih =>
      have hids : (nodes.map fun node =>
          if tells node.id evidence then observe evidence node else node).map AgentNode.id =
          nodes.map AgentNode.id := by
        rw [List.map_map]
        refine List.map_congr_left fun node _ => ?_
        show (if tells node.id evidence then observe evidence node else node).id = node.id
        split_ifs <;> rfl
      rw [List.foldl_cons, fold_evidence_eq evidence hunique, ih (hids ▸ hunique), List.map_map]
      exact List.map_congr_left fun node _ => told_cons evidence runtime node

/-- Compiling a well-formed document with runtime evidence is compiling it without, and then telling
every node what is observed of it: the evidence of its own mutations in their order, and no other. -/
theorem runtime_told (hdocument : WellFormed document) (compiler : SemanticCompiler)
    (layout : LayoutSnapshot) (runtime : List RuntimeEvidence) :
    ∃ bound, ∀ depth ≥ bound, ∃ plain result next order,
      compiler.compile document layout depth = some (plain, next) ∧
      compiler.compileWithRuntime document layout runtime depth = some (result, next) ∧
      Isomorphic document layout next.generation order plain.tree.nodes ∧
      result = { plain with tree := { plain.tree with
        nodes := plain.tree.nodes.map (told runtime) } } := by
  obtain ⟨bound, hbound⟩ := compile_isomorphic hdocument compiler layout
  refine ⟨bound, fun depth hdepth => ?_⟩
  obtain ⟨plain, next, hcompile, order, hiso⟩ := hbound depth hdepth
  refine ⟨plain, _, next, order, hcompile, ?_, hiso, rfl⟩
  rw [compileWithRuntime, hcompile, ← foldl_evidence_eq runtime hiso.unique_ids]
  rfl

/-- A script that changes the button twice. -/
def buttonMutations : List RuntimeEvidence :=
  [⟨.domMutation 2, [⟨.javaScript, "runtime-observer", none⟩]⟩,
    ⟨.domMutation 2, [⟨.javaScript, "runtime-observer", none⟩]⟩]

/-- The page with a button that changes. -/
theorem button_page_told :
    ∃ bound, ∀ depth ≥ bound, ∃ plain result next order,
      compile ⟨0⟩ buttonPage default depth = some (plain, next) ∧
      compileWithRuntime ⟨0⟩ buttonPage default buttonMutations depth = some (result, next) ∧
      Isomorphic buttonPage default next.generation order plain.tree.nodes ∧
      result = { plain with tree := { plain.tree with
        nodes := plain.tree.nodes.map (told buttonMutations) } } :=
  runtime_told (well_formed_of_runs runs_button_page) ⟨0⟩ default buttonMutations

end BrowsAI.SemanticCompiler
