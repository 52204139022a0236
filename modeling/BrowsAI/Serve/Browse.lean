import BrowsAI.AgentProtocol.Query
import BrowsAI.ApplicationIr.SiteLearning

/-!
# Pages under a role filter

The view of `handle_browse` in the `serve` command of `browsai-cli` that a request with a role
filter gets; the query endpoint answers with it as well. The nodes are cut into pages first and
filtered then, so `browse_counts_iff`: only a tree of which every node matches is counted and cut
as a client expects.
-/

namespace BrowsAI.Serve

open Utf8 AgentTree AgentProtocol ApplicationIr

/-- The fields of the body that the view reads. -/
structure BrowseBody where
  cursor : Option Nat
  limit : Option Nat
  filter : Option Text

/-- The roles that are asked for. -/
def BrowseBody.rolesFilter (body : BrowseBody) : List Text :=
  match body.filter with
  | some value => ((split ',' value).map trim).filter fun role => !role.isEmpty
  | none => []

/-- How many nodes a page has, 100 unless it is said. -/
def BrowseBody.pageLimit (body : BrowseBody) : Nat := max (body.limit.getD 100) 1

/-- The node has one of the roles, or none is asked for. -/
def nodeMatchesRoleStatic (node : AgentNode) (roles : List Text) : Bool :=
  roles.isEmpty || roles.any (· == debugRole node.structuralRole)

/-- The answer with a filter. -/
structure FilteredPage where
  results : List QueryResult
  cursor : Nat
  limit : Nat
  total : Nat
  truncated : Bool
  nextCursor : Option Text
  filter : List Text
  deriving DecidableEq

/-- `handle_browse` from the snapshot on. A request without a role filter gets another view. -/
def handleBrowse (tree : AgentRenderTree) (body : BrowseBody) : Option FilteredPage :=
  let cursor := body.cursor.getD 0
  let limit := body.pageLimit
  let roles := body.rolesFilter
  if roles.isEmpty then none
  else
    let view := PageQuery.renderPage tree cursor limit
    let results := view.results.filter fun row =>
      tree.nodes.any fun node => node.id == row.nodeId && nodeMatchesRoleStatic node roles
    some
      { results
        cursor := view.offset
        limit
        total := view.total
        truncated := view.nextOffset.isSome
        nextCursor := view.nextOffset.map ofNat
        filter := roles }

/-- The cursor of the next request. -/
def FilteredPage.nextIndex (page : FilteredPage) : Option Nat := page.nextCursor.bind parseDigits

/-- The pages of a client who follows `next_cursor` and keeps to the other fields of a request. -/
def followBrowse (tree : AgentRenderTree) (body : BrowseBody) :
    Nat → Nat → Nat → Option (List FilteredPage) :=
  Pages.follow (fun _ cursor => handleBrowse tree { body with cursor := some cursor })
    FilteredPage.nextIndex

/-- The nodes that match are counted, and a page that is not the last one is full of them. -/
structure CountsMatches (tree : AgentRenderTree) (roles : List Text) (limit : Nat)
    (pages : List FilteredPage) : Prop where
  total : ∀ page ∈ pages,
    page.total = (tree.nodes.filter fun node => nodeMatchesRoleStatic node roles).length
  full : ∀ page ∈ pages.dropLast, page.results.length = limit
  matching : ∀ page ∈ pages.dropLast, ∀ row ∈ page.results,
    ∃ node ∈ tree.nodes, nodeMatchesRoleStatic node roles ∧ row = .ofNode node

theorem length_results_render_page {tree : AgentRenderTree} {offset limit : Nat}
    (h : (PageQuery.renderPage tree offset limit).nextOffset.isSome) :
    (PageQuery.renderPage tree offset limit).results.length = max limit 1 := by
  simp only [PageQuery.renderPage, List.length_map, List.length_drop, List.length_take] at h ⊢
  split_ifs at h with hmore
  · omega
  · cases h

theorem mem_results_render_page {tree : AgentRenderTree} {offset limit : Nat} {row : QueryResult}
    (h : row ∈ (PageQuery.renderPage tree offset limit).results) :
    ∃ node ∈ tree.nodes, row = .ofNode node := by
  obtain ⟨node, hnode, rfl⟩ := List.mem_map.mp h
  exact ⟨node, List.mem_of_mem_take (List.mem_of_mem_drop hnode), rfl⟩

theorem next_index_eq (view : QueryPage) :
    (view.nextOffset.map ofNat).bind parseDigits = view.nextOffset := by
  cases view.nextOffset with
  | none => rfl
  | some offset => exact parse_digits_of_nat offset

section Follow

variable {tree : AgentRenderTree} {body : BrowseBody}

/-- The page without what the filter does to it, which is nothing if every node matches. -/
def wholePage (tree : AgentRenderTree) (body : BrowseBody) (cursor : Nat) : FilteredPage :=
  let view := PageQuery.renderPage tree cursor body.pageLimit
  { results := view.results
    cursor := view.offset
    limit := body.pageLimit
    total := view.total
    truncated := view.nextOffset.isSome
    nextCursor := view.nextOffset.map ofNat
    filter := body.rolesFilter }

theorem handle_browse_eq (hroles : body.rolesFilter ≠ []) (cursor : Nat) :
    handleBrowse tree { body with cursor := some cursor } =
      some { wholePage tree body cursor with
        results := (wholePage tree body cursor).results.filter fun row =>
          tree.nodes.any fun node => node.id == row.nodeId &&
            nodeMatchesRoleStatic node body.rolesFilter } := by
  rw [handleBrowse]
  exact if_neg fun h => hroles (List.isEmpty_iff.mp h)

/-- Where all nodes have a role that is asked for, the whole page is told. -/
theorem handle_browse_of_all (hroles : body.rolesFilter ≠ [])
    (hall : ∀ node ∈ tree.nodes, nodeMatchesRoleStatic node body.rolesFilter) (cursor : Nat) :
    handleBrowse tree { body with cursor := some cursor } = some (wholePage tree body cursor) := by
  have hkept : ∀ row ∈ (wholePage tree body cursor).results,
      (tree.nodes.any fun node => node.id == row.nodeId &&
        nodeMatchesRoleStatic node body.rolesFilter) = true := by
    intro row hrow
    obtain ⟨node, hnode, rfl⟩ := mem_results_render_page hrow
    refine List.any_eq_true.mpr ⟨node, hnode, ?_⟩
    rw [hall node hnode, Bool.and_true]
    exact beq_self_eq_true node.id
  rw [handle_browse_eq hroles, List.filter_eq_self.mpr hkept]

/-- Such pages cut the tree. -/
theorem whole_page_cuts {cursor : Nat} (hcursor : cursor ≤ tree.nodes.length) :
    Pages.Cuts FilteredPage.results FilteredPage.nextIndex (tree.nodes.map .ofNode) cursor
      (wholePage tree body cursor) := by
  have hrows : PageQuery.query tree PageQuery.unconstrained = tree.nodes.map .ofNode := by
    rw [PageQuery.query, PageQuery.filter_unconstrained]
  have hoffset : cursor ≤ (PageQuery.query tree PageQuery.unconstrained).length := by
    rw [hrows, List.length_map]
    exact hcursor
  have hcuts := PageQuery.query_page_cuts tree PageQuery.unconstrained body.pageLimit hoffset
  rw [← PageQuery.render_page_eq, hrows] at hcuts
  obtain ⟨n, hitems, hpos, hend, hnext⟩ := hcuts
  exact ⟨n, hitems, hpos, hend, (next_index_eq _).trans hnext⟩

end Follow

/-- The role-filtered pages of a tree count and cut the nodes that match exactly if every node of
the tree matches. -/
theorem browse_counts_iff (tree : AgentRenderTree) (body : BrowseBody)
    (hroles : body.rolesFilter ≠ []) :
    (∃ pages, followBrowse tree body (tree.nodes.length + 1) 0 0 = some pages ∧
        CountsMatches tree body.rolesFilter body.pageLimit pages) ↔
      ∀ node ∈ tree.nodes, nodeMatchesRoleStatic node body.rolesFilter := by
  constructor
  · rintro ⟨pages, hpages, hcounts⟩
    obtain ⟨first, rest, hfirst, rfl⟩ := Pages.exists_cons_of_follow hpages
    rw [handle_browse_eq hroles] at hfirst
    have htotal := hcounts.total first (List.mem_cons_self ..)
    cases hfirst
    exact List.length_filter_eq_length_iff.mp htotal.symm
  · intro hall
    have hask : ∀ (call cursor : Nat), cursor ≤ (tree.nodes.map QueryResult.ofNode).length →
        ∃ page, handleBrowse tree { body with cursor := some cursor } = some page ∧
          Pages.Cuts FilteredPage.results FilteredPage.nextIndex (tree.nodes.map .ofNode) cursor
            page ∧
          page = wholePage tree body page.cursor := by
      intro _ cursor hcursor
      rw [List.length_map] at hcursor
      refine ⟨_, handle_browse_of_all hroles hall cursor, whole_page_cuts hcursor, ?_⟩
      have hself : (wholePage tree body cursor).cursor = cursor := Nat.min_eq_left hcursor
      rw [hself]
    obtain ⟨pages, hpages, -, hwhole⟩ :=
      Pages.follow_spec (Q := fun _ page => page = wholePage tree body page.cursor) hask 0
        (Nat.zero_le _) (Nat.lt_succ_self _)
    rw [List.length_map] at hpages
    have hpage : ∀ page ∈ pages, page = wholePage tree body page.cursor := by
      intro page hpage
      obtain ⟨i, hi⟩ := List.mem_iff_getElem?.mp hpage
      exact hwhole i page hi
    refine ⟨pages, hpages, ?_, ?_, ?_⟩
    · intro page hmem
      rw [List.filter_eq_self.mpr hall, hpage page hmem]
      rfl
    · intro page hmem
      have hnext := Pages.next_is_some_of_follow hpages page hmem
      rw [hpage page (List.mem_of_mem_dropLast hmem)] at hnext ⊢
      rw [FilteredPage.nextIndex, wholePage, next_index_eq] at hnext
      rw [wholePage, length_results_render_page hnext]
      exact Nat.max_eq_left (Nat.le_max_right _ 1)
    · intro page hmem row hrow
      rw [hpage page (List.mem_of_mem_dropLast hmem)] at hrow
      obtain ⟨node, hnode, rfl⟩ := mem_results_render_page hrow
      exact ⟨node, hnode, hall node hnode, rfl⟩

/-- A button before a link. -/
def buttonAndLink : AgentRenderTree :=
  ⟨"page", [.plain "button" .button none [], .plain "link" .link none []], 0, false⟩

/-- The first page of links has no link, and each of the two pages counts the button. -/
theorem browse_counts_button :
    ¬ ∃ pages, followBrowse buttonAndLink ⟨none, some 1, some "Link"⟩ 3 0 0 = some pages ∧
      CountsMatches buttonAndLink ["Link"] 1 pages := by
  rintro ⟨pages, hpages, hcounts⟩
  obtain ⟨first, rest, hfirst, rfl⟩ := Pages.exists_cons_of_follow hpages
  have htotal := hcounts.total first (List.mem_cons_self ..)
  cases hfirst
  exact absurd htotal (by decide)

/-- Two links with a button between them. -/
def linksAndButton : AgentRenderTree :=
  ⟨"page", [.plain "first" .link none [], .plain "button" .button none [],
    .plain "last" .link none []], 0, false⟩

/-- The two pages of this tree are counted and cut right for links and buttons, but not for links. -/
theorem browse_counts_iff_links :
    (∃ pages, followBrowse linksAndButton ⟨none, some 2, some "Link, Button"⟩ 4 0 0 = some pages ∧
        CountsMatches linksAndButton ["Link", "Button"] 2 pages) ∧
      ¬ ∃ pages, followBrowse linksAndButton ⟨none, some 2, some "Link"⟩ 4 0 0 = some pages ∧
        CountsMatches linksAndButton ["Link"] 2 pages :=
  ⟨(browse_counts_iff linksAndButton ⟨none, some 2, some "Link, Button"⟩ (by decide)).mpr
      (by decide),
    (browse_counts_iff linksAndButton ⟨none, some 2, some "Link"⟩ (by decide)).not.mpr (by decide)⟩

end BrowsAI.Serve
