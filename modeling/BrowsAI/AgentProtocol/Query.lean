import BrowsAI.AgentTree.Equality
import BrowsAI.Library.Pages
import BrowsAI.Library.Saturating
import Mathlib.Tactic.SplitIfs

/-!
# Queries

`PageQuery` of `crates/agent-protocol`: the nodes that match a query in the order of the tree, the
same in pages, and the same under a limit on the rows and an estimate of tokens. `RowJson` is the
library that prints a row; nothing is assumed about it.
-/

namespace BrowsAI.AgentProtocol

open Utf8 AgentTree Saturating

/-- Bounds on the box of a node; each that is missing allows everything. -/
structure GeometryConstraint where
  minX : Option F64
  maxX : Option F64
  minY : Option F64
  maxY : Option F64
  minWidth : Option F64
  minHeight : Option F64
  deriving DecidableEq

/-- What a node must be like; each condition that is missing allows everything. -/
structure Query where
  role : Option StructuralRole
  semanticRole : Option SemanticRole
  applicationType : Option ApplicationType
  name : Option Text
  nameContains : Option Text
  identityKey : Option Text
  origin : Option Text
  visible : Option Bool
  enabled : Option Bool
  focused : Option Bool
  selected : Option Bool
  geometry : Option GeometryConstraint
  relationshipKind : Option Text
  relationshipTarget : Option Text
  deriving DecidableEq

/-- The closure of `matches` on the geometry of a node. -/
def GeometryConstraint.admits (constraint : GeometryConstraint) (geometry : Geometry) : Bool :=
  (constraint.minX.all fun value => value.le geometry.x) &&
    (constraint.maxX.all fun value => geometry.x.le value) &&
    (constraint.minY.all fun value => value.le geometry.y) &&
    (constraint.maxY.all fun value => geometry.y.le value) &&
    (constraint.minWidth.all fun value => value.le geometry.width) &&
    constraint.minHeight.all fun value => value.le geometry.height

/-- The node meets every condition of the query. -/
def Query.matches (query : Query) (node : AgentNode) : Bool :=
  (query.role.all fun role => role == node.structuralRole) &&
    (query.semanticRole.all fun role => node.semanticRole == some role) &&
    (query.applicationType.all fun kind => node.applicationType == some kind) &&
    (query.name.all fun name =>
      node.name.any fun actual => eqIgnoreAsciiCase actual name) &&
    (query.nameContains.all fun needle =>
      node.name.any fun actual => contains (asciiLower needle) (asciiLower actual)) &&
    (query.identityKey.all fun key => node.identityKey == some key) &&
    (query.origin.all fun origin => node.origin == some origin) &&
    (query.visible.all fun visible => node.state.visible == visible) &&
    (query.enabled.all fun enabled => node.state.enabled == enabled) &&
    (query.focused.all fun focused => node.state.focused == focused) &&
    (query.selected.all fun selected => node.state.selected == selected) &&
    (query.geometry.all fun constraint =>
      node.geometry.any fun geometry => constraint.admits geometry) &&
    (query.relationshipKind.all fun kind =>
      node.relationships.any fun relationship => relationship.kind == kind &&
        query.relationshipTarget.all fun target => relationship.target == target) &&
    query.relationshipTarget.all fun target =>
      node.relationships.any fun relationship => relationship.target == target

/-- What is told of a node that was found. -/
structure QueryResult where
  nodeId : AgentNodeId
  name : Option Text
  role : StructuralRole
  semanticRole : Option SemanticRole
  value : Option AgentValue
  confidence : Confidence
  provenance : List ProvenanceSource
  geometry : Option Geometry
  origin : Option Text
  deriving DecidableEq

/-- `QueryResult::from`. -/
def QueryResult.ofNode (node : AgentNode) : QueryResult where
  nodeId := node.id
  name := node.name
  role := node.structuralRole
  semanticRole := node.semanticRole
  value := node.value
  confidence := node.confidence
  provenance := node.provenance
  geometry := node.geometry
  origin := node.origin

/-- How much is asked for: a number of rows, of tokens, and which optional fields. -/
structure QueryShape where
  maxResults : Option UInt64
  maxTokens : Option UInt64
  includeValue : Bool
  includeProvenance : Bool
  includeGeometry : Bool
  deriving DecidableEq

/-- Some of the rows, and where the next ones start. -/
structure QueryPage where
  results : List QueryResult
  cursor : Nat
  limit : Nat
  offset : Nat
  nextOffset : Option Nat
  truncated : Bool
  nextCursor : Option Text
  total : Nat
  deriving DecidableEq

/-- Why a query does not give the one node. -/
inductive QueryResolutionError where
  | notFound
  | ambiguous (found : Nat)
  | staleReference (expected actual : UInt64)
  deriving DecidableEq

/-- `serde_json::to_string` of a row. -/
class RowJson where
  toString : QueryResult → Option Text

/-- The tokens of a row, from its printed text. -/
def estimatedTokens [RowJson] (row : QueryResult) : Nat :=
  match RowJson.toString row with
  | some text => saturatingAddUsize (len text) 3 / 4
  | none => 2 ^ 64 - 1

/-- The row as the shape asks for it. -/
def QueryShape.project (shape : QueryShape) (row : QueryResult) : QueryResult :=
  { row with
    value := if shape.includeValue then row.value else none
    provenance := if shape.includeProvenance then row.provenance else []
    geometry := if shape.includeGeometry then row.geometry else none }

/-! ## The calls -/

/-- The loop of `query_shaped` over the nodes that match, with the tokens and the rows so far. -/
def collectShaped [RowJson] (shape : QueryShape) :
    List AgentNode → Nat → List QueryResult → List QueryResult
  | [], _, results => results
  | node :: rest, used, results =>
      if shape.maxResults.any fun limit => limit.toNat ≤ results.length then results
      else
        let result := shape.project (.ofNode node)
        let tokens := estimatedTokens result
        -- the tokens of texts that were in memory add up to a `usize`
        if shape.maxTokens.any fun limit => !results.isEmpty && limit.toNat < used + tokens then
          results
        else collectShaped shape rest (saturatingAddUsize used tokens) (results ++ [result])

namespace PageQuery

/-- The rows of the whole tree from an offset on. -/
def renderPage (tree : AgentRenderTree) (offset limit : Nat) : QueryPage :=
  let total := tree.nodes.length
  let start := min offset total
  -- the sum saturates above every length
  let stop := min (start + max limit 1) total
  { results := ((tree.nodes.take stop).drop start).map .ofNode
    cursor := start
    limit := max limit 1
    offset := start
    nextOffset := if stop < total then some stop else none
    truncated := stop < total
    nextCursor := if stop < total then some (ofNat stop) else none
    total }

/-- The rows of all nodes that match. -/
def query (tree : AgentRenderTree) (query : Query) : List QueryResult :=
  (tree.nodes.filter query.matches).map .ofNode

/-- The rows of the nodes that match, from an offset on. -/
def queryPage (tree : AgentRenderTree) (query : Query) (offset limit : Nat) : QueryPage :=
  let found := tree.nodes.filter query.matches
  let total := found.length
  let start := min offset total
  -- the sum saturates above every length
  let stop := min (start + max limit 1) total
  { results := ((found.take stop).drop start).map .ofNode
    cursor := start
    limit := max limit 1
    offset := start
    nextOffset := if stop < total then some stop else none
    truncated := stop < total
    nextCursor := if stop < total then some (ofNat stop) else none
    total }

/-- The rows of the nodes that match, up to the first that does not fit any more. -/
def queryShaped [RowJson] (tree : AgentRenderTree) (query : Query) (shape : QueryShape) :
    List QueryResult :=
  collectShaped shape (tree.nodes.filter query.matches) 0 []

end PageQuery

/-! ## Rows under a shape -/

section Shaped

variable [RowJson] {shape : QueryShape} {rows : List QueryResult}

/-- The tokens that rows take together. -/
def totalTokens (rows : List QueryResult) : Nat := (rows.map estimatedTokens).sum

/-- The rows keep to both limits; a single row need not keep to the limit on the tokens. -/
structure QueryShape.Fits (shape : QueryShape) (rows : List QueryResult) : Prop where
  results : ∀ limit, shape.maxResults = some limit → rows.length ≤ limit.toNat
  tokens : ∀ limit, shape.maxTokens = some limit →
    totalTokens rows ≤ limit.toNat ∨ rows.length ≤ 1

theorem total_tokens_concat (rows : List QueryResult) (row : QueryResult) :
    totalTokens (rows ++ [row]) = totalTokens rows + estimatedTokens row := by
  simp [totalTokens]

theorem estimated_tokens_lt (row : QueryResult) : estimatedTokens row < 2 ^ 64 := by
  unfold estimatedTokens saturatingAddUsize
  split <;> omega

theorem fits_nil : shape.Fits [] where
  results := fun _ _ => Nat.zero_le _
  tokens := fun _ _ => .inl (Nat.zero_le _)

/-- The start of a list that fits does too. -/
theorem fits_of_append (xs ys : List QueryResult) (h : shape.Fits (xs ++ ys)) : shape.Fits xs where
  results := by
    intro limit hlimit
    have hlength := h.results limit hlimit
    rw [List.length_append] at hlength
    omega
  tokens := by
    intro limit hlimit
    have htokens := h.tokens limit hlimit
    rw [totalTokens, List.map_append, List.sum_append, List.length_append] at htokens
    unfold totalTokens
    omega

/-- Under a limit the tokens of rows that fit are a `usize`, so they were never saturated. -/
theorem total_tokens_lt (h : shape.Fits rows) {limit : UInt64}
    (hlimit : shape.maxTokens = some limit) : totalTokens rows < 2 ^ 64 := by
  obtain htokens | hlength := h.tokens limit hlimit
  · have hlt := limit.toNat_lt
    omega
  · cases rows with
    | nil => exact Nat.two_pow_pos 64
    | cons row rest =>
        have hrest : rest = [] := List.eq_nil_of_length_eq_zero (by
          rw [List.length_cons] at hlength
          omega)
        have hlt := estimated_tokens_lt row
        simpa [totalTokens, hrest] using hlt

/-- The tokens so far, as the loop counts them. -/
def usedTokens (rows : List QueryResult) : Nat := min (totalTokens rows) (2 ^ 64 - 1)

theorem used_tokens_concat (rows : List QueryResult) (row : QueryResult) :
    saturatingAddUsize (usedTokens rows) (estimatedTokens row) = usedTokens (rows ++ [row]) := by
  simp only [saturatingAddUsize, usedTokens, total_tokens_concat]
  omega

/-- The loop goes on with a row exactly when the row still fits. -/
theorem fits_concat_iff (h : shape.Fits rows) (row : QueryResult) :
    shape.Fits (rows ++ [row]) ↔
      (shape.maxResults.any fun limit => limit.toNat ≤ rows.length) = false ∧
        (shape.maxTokens.any fun limit =>
          !rows.isEmpty && limit.toNat < usedTokens rows + estimatedTokens row) = false := by
  have hresults : (∀ limit, shape.maxResults = some limit →
      (rows ++ [row]).length ≤ limit.toNat) ↔
        (shape.maxResults.any fun limit => limit.toNat ≤ rows.length) = false := by
    cases shape.maxResults with
    | none => exact iff_of_true (fun _ hlimit => by cases hlimit) rfl
    | some limit =>
        rw [Option.any_some, decide_eq_false_iff_not, Nat.not_le, List.length_append]
        constructor
        · intro h
          exact h limit rfl
        · intro h _ hlimit
          cases hlimit
          exact h
  have htokens : (∀ limit, shape.maxTokens = some limit →
      totalTokens (rows ++ [row]) ≤ limit.toNat ∨ (rows ++ [row]).length ≤ 1) ↔
        (shape.maxTokens.any fun limit =>
          !rows.isEmpty && limit.toNat < usedTokens rows + estimatedTokens row) = false := by
    cases hlimit : shape.maxTokens with
    | none => exact iff_of_true (fun _ hlimit => by cases hlimit) rfl
    | some limit =>
        have hlt := total_tokens_lt h hlimit
        have hused : usedTokens rows = totalTokens rows := Nat.min_eq_left (by omega)
        rw [hused, total_tokens_concat]
        cases rows with
        | nil => simp
        | cons first others => simp
  rw [← hresults, ← htokens]
  constructor
  · intro hconcat
    exact ⟨hconcat.results, hconcat.tokens⟩
  · intro hconcat
    exact ⟨hconcat.1, hconcat.2⟩

/-- The loop extends the rows to the longest list that fits. -/
theorem longest_collect_shaped (shape : QueryShape) (nodes : List AgentNode)
    (h : shape.Fits rows) :
    Pages.Longest shape.Fits (rows ++ nodes.map fun node => shape.project (.ofNode node))
      (collectShaped shape nodes (usedTokens rows) rows) := by
  induction nodes generalizing rows with
  | nil =>
      rw [List.map_nil, List.append_nil]
      exact Pages.longest_self h
  | cons node rest ih =>
      have hiff := fits_concat_iff h (shape.project (.ofNode node))
      by_cases hnext : shape.Fits (rows ++ [shape.project (.ofNode node)])
      · obtain ⟨hresults, htokens⟩ := hiff.mp hnext
        have hrest := ih hnext
        simp only [collectShaped, hresults, htokens, Bool.false_eq_true, if_false,
          used_tokens_concat]
        rwa [List.append_assoc, List.singleton_append] at hrest
      · have hstop := mt hiff.mpr hnext
        have hloop : collectShaped shape (node :: rest) (usedTokens rows) rows = rows := by
          unfold collectShaped
          split_ifs with hresults
          · rfl
          · rw [Bool.not_eq_true] at hresults
            rw [and_iff_right hresults, Bool.not_eq_false] at hstop
            exact if_pos hstop
        rw [hloop, List.map_cons]
        exact Pages.longest_of_stop fits_of_append h hnext

end Shaped

/-! ## Pages of rows -/

namespace PageQuery

/-- The pages of a client who follows `next_offset` and may ask for another limit in each call. -/
def follow (tree : AgentRenderTree) (query : Query) (limits : Nat → Nat) :
    Nat → Nat → Nat → Option (List QueryPage) :=
  Pages.follow (fun call offset => some (queryPage tree query offset (limits call)))
    QueryPage.nextOffset

/-- A page is a piece of the rows of the query. -/
theorem query_page_cuts (tree : AgentRenderTree) (query : Query) (limit : Nat) {offset : Nat}
    (hoffset : offset ≤ (PageQuery.query tree query).length) :
    Pages.Cuts QueryPage.results QueryPage.nextOffset (PageQuery.query tree query) offset
      (queryPage tree query offset limit) := by
  have htotal : (tree.nodes.filter query.matches).length = (PageQuery.query tree query).length :=
    (List.length_map _).symm
  have hresults : ∀ stop, (((tree.nodes.filter query.matches).take stop).drop offset).map .ofNode =
      ((PageQuery.query tree query).drop offset).take (stop - offset) := by
    intro stop
    rw [List.drop_take, List.map_take, List.map_drop, PageQuery.query]
  generalize hrows : PageQuery.query tree query = rows at *
  refine ⟨min (offset + max limit 1) rows.length - offset, ?_, ?_, ?_, ?_⟩
  · simp only [queryPage, htotal, Nat.min_eq_left hoffset, hresults]
  · omega
  · omega
  · have hstop : offset + (min (offset + max limit 1) rows.length - offset) =
        min (offset + max limit 1) rows.length := by
      omega
    simp only [queryPage, htotal, Nat.min_eq_left hoffset, hstop]

/-- `Query::default()`, which every node matches. -/
def unconstrained : Query :=
  ⟨none, none, none, none, none, none, none, none, none, none, none, none, none, none⟩

theorem filter_unconstrained (nodes : List AgentNode) :
    nodes.filter unconstrained.matches = nodes :=
  List.filter_eq_self.mpr fun _ _ => rfl

theorem render_page_eq (tree : AgentRenderTree) (offset limit : Nat) :
    renderPage tree offset limit = queryPage tree unconstrained offset limit := by
  rw [queryPage, filter_unconstrained, renderPage]

/-- A shaped query gives the longest start of the projected rows that fits. -/
theorem query_shaped_eq_longest [RowJson] (tree : AgentRenderTree) (query : Query)
    (shape : QueryShape) :
    Pages.Longest shape.Fits ((PageQuery.query tree query).map shape.project)
      (queryShaped tree query shape) := by
  have h := longest_collect_shaped shape (tree.nodes.filter query.matches) fits_nil
  rw [PageQuery.query, List.map_map]
  exact h

/-- The rows under a shape are the longest list of rows from the front, cleared as the shape asks,
that fits the limits of the shape; the pages of a query are its rows, whatever limits they have. -/
theorem query_shaped_and_paged [RowJson] (tree : AgentRenderTree) (query : Query)
    (shape : QueryShape) (limits : Nat → Nat) :
    Pages.Longest shape.Fits ((PageQuery.query tree query).map shape.project)
        (queryShaped tree query shape) ∧
      ∃ pages, follow tree query limits ((PageQuery.query tree query).length + 1) 0 0 =
          some pages ∧
        (pages.map QueryPage.results).flatten = PageQuery.query tree query ∧
        ∀ page ∈ pages, page.total = (PageQuery.query tree query).length := by
  refine ⟨query_shaped_eq_longest tree query shape, ?_⟩
  have hask : ∀ call offset, offset ≤ (PageQuery.query tree query).length →
      ∃ page, some (queryPage tree query offset (limits call)) = some page ∧
        Pages.Cuts QueryPage.results QueryPage.nextOffset (PageQuery.query tree query) offset page ∧
        page.total = (PageQuery.query tree query).length := by
    intro call offset hoffset
    exact ⟨_, rfl, query_page_cuts tree query (limits call) hoffset, (List.length_map _).symm⟩
  obtain ⟨pages, hpages, hflatten, htotal⟩ :=
    Pages.follow_spec (Q := fun _ (page : QueryPage) =>
      page.total = (PageQuery.query tree query).length) hask 0 (Nat.zero_le _) (Nat.lt_succ_self _)
  refine ⟨pages, hpages, hflatten, fun page hpage => ?_⟩
  obtain ⟨i, hi⟩ := List.mem_iff_getElem?.mp hpage
  exact htotal i page hi

/-! ## Resolution -/

/-- The nodes whose name contains a text. -/
def search (tree : AgentRenderTree) (text : Text) : List QueryResult :=
  query tree { unconstrained with nameContains := some text }

/-- The query for a stable identity. -/
def byIdentity (key : Text) : Query := { unconstrained with identityKey := some key }

/-- The one node that a query means. -/
def resolve (tree : AgentRenderTree) (query : Query) : Except QueryResolutionError QueryResult :=
  match tree.nodes.filter query.matches with
  | [] => .error .notFound
  | [node] => .ok (.ofNode node)
  | matching => .error (.ambiguous matching.length)

/-- The one node that matches, in the tree that the caller saw. -/
def resolveAtGeneration (tree : AgentRenderTree) (query : Query) (expectedGeneration : UInt64) :
    Except QueryResolutionError QueryResult :=
  if tree.generation ≠ expectedGeneration then
    .error (.staleReference expectedGeneration tree.generation)
  else resolve tree query

/-- The one item of a list. -/
def sole {α : Type} (items : List α) : Except QueryResolutionError α :=
  match items with
  | [] => .error .notFound
  | [item] => .ok item
  | _ => .error (.ambiguous items.length)

/-- Mapping comes before or behind the choice of the only element. -/
theorem map_sole {α β : Type} (f : α → β) (items : List α) :
    (sole items).map f = sole (items.map f) := by
  cases items with
  | nil => rfl
  | cons first rest =>
      cases rest with
      | nil => rfl
      | cons second rest =>
          show Except.error _ = Except.error _
          rw [List.map_cons, List.map_cons, List.length_cons, List.length_cons, List.length_cons,
            List.length_cons, List.length_map]

/-- More than one element is told with the number. -/
theorem sole_eq_ambiguous_iff {α : Type} {items : List α} {count : Nat} :
    sole items = .error (.ambiguous count) ↔ 1 < count ∧ items.length = count := by
  cases items with
  | nil =>
      simp only [sole, List.length_nil, Except.error.injEq, reduceCtorEq, false_iff, not_and]
      omega
  | cons first rest =>
      cases rest with
      | nil =>
          simp only [sole, List.length_cons, List.length_nil, reduceCtorEq, false_iff, not_and]
          omega
      | cons second rest =>
          simp only [sole, List.length_cons, Except.error.injEq,
            QueryResolutionError.ambiguous.injEq]
          omega

/-- A query means a node if it has one row. -/
theorem resolve_eq (tree : AgentRenderTree) (query : Query) :
    resolve tree query = sole (PageQuery.query tree query) := by
  rw [resolve, PageQuery.query, ← map_sole]
  cases tree.nodes.filter query.matches with
  | nil => rfl
  | cons first rest =>
      cases rest with
      | nil => rfl
      | cons second rest => rfl

/-- A reference is stale exactly if the tree has another generation, whatever it asks for. -/
theorem resolve_at_generation_stale_iff (tree : AgentRenderTree) (query : Query)
    (expectedGeneration : UInt64) :
    (∃ expected actual,
      resolveAtGeneration tree query expectedGeneration = .error (.staleReference expected actual)) ↔
      tree.generation ≠ expectedGeneration := by
  rw [resolveAtGeneration]
  split_ifs with hsame
  · exact iff_of_true ⟨_, _, rfl⟩ hsame
  · refine iff_of_false ?_ hsame
    rintro ⟨expected, actual, hstale⟩
    rw [resolve] at hstale
    cases hmatching : tree.nodes.filter query.matches with
    | nil =>
        rw [hmatching] at hstale
        cases hstale
    | cons first rest =>
        rw [hmatching] at hstale
        cases rest with
        | nil => cases hstale
        | cons second rest => cases hstale

theorem matches_by_identity (key : Text) (node : AgentNode) :
    (byIdentity key).matches node = decide (node.identityKey = some key) := by
  simp only [Query.matches, byIdentity, unconstrained, Option.all_none, Option.all_some,
    Bool.true_and, Bool.and_true]
  rw [Bool.eq_iff_iff, beq_iff_eq, decide_eq_true_eq]

/-- A search finds the nodes with names that it asks for, and no node without a name. -/
theorem matches_search (text : Text) (node : AgentNode) :
    ({ unconstrained with nameContains := some text } : Query).matches node =
      node.name.any fun actual => contains (asciiLower text) (asciiLower actual) := by
  simp only [Query.matches, unconstrained, Option.all_none, Option.all_some, Bool.true_and,
    Bool.and_true]

end PageQuery

end BrowsAI.AgentProtocol
