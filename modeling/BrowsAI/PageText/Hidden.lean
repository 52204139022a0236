import BrowsAI.PageText.Spans

/-!
# What hidden nodes reveal

Two trees are twins when they have the same shape and differ only in what their hidden nodes hold:
nodes that are invisible, or below an invisible node. An agent should not be able to tell twins
apart. The filters of `emit_child` see to this where they are applied, but rows and cells are
printed without them. `emit_twins` says that twins give the same view when their walks come to no
hidden node.
-/

namespace BrowsAI.PageText

open Utf8 AgentTree Fragment Relation Unfold

/-! ## Twins -/

/-- A node below the root that is invisible, or below an invisible node. -/
def Hidden (tree : AgentRenderTree) (id : AgentNodeId) : Prop :=
  id ≠ tree.root ∧ ∃ above node, ReflTransGen tree.Links above id ∧
    tree.find above = some node ∧ node.state.visible = false

/-- The same id, role, children, and visibility. -/
structure SameShape (a b : AgentNode) : Prop where
  id_eq : a.id = b.id
  role_eq : a.structuralRole = b.structuralRole
  children_eq : a.children = b.children
  visible_eq : a.state.visible = b.state.visible

/-- The trees have the same shape, and differ only in their hidden nodes. -/
structure Twins (tree tree' : AgentRenderTree) : Prop where
  root_eq : tree.root = tree'.root
  nodes : List.Forall₂ (fun a b => SameShape a b ∧ (¬ Hidden tree a.id → a = b))
    tree.nodes tree'.nodes

variable {tree tree' : AgentRenderTree}

/-- Related lists of nodes are searched in step. -/
theorem find_forall₂ {R : AgentNode → AgentNode → Prop} (hR : ∀ a b, R a b → a.id = b.id)
    {nodes nodes' : List AgentNode} (h : List.Forall₂ R nodes nodes') (id : AgentNodeId) :
    (nodes.find? (fun node => node.id == id) = none ∧
        nodes'.find? (fun node => node.id == id) = none) ∨
      ∃ a b, nodes.find? (fun node => node.id == id) = some a ∧
        nodes'.find? (fun node => node.id == id) = some b ∧ R a b := by
  induction h with
  | nil => exact .inl ⟨rfl, rfl⟩
  | @cons a b nodes nodes' hab _ ih =>
      rw [List.find?_cons, List.find?_cons, ← hR a b hab]
      split
      · exact .inr ⟨a, b, rfl, rfl, hab⟩
      · exact ih

namespace Twins

/-- Looking an id up in twins. -/
theorem find_cases (h : Twins tree tree') (id : AgentNodeId) :
    (tree.find id = none ∧ tree'.find id = none) ∨
      ∃ a b, tree.find id = some a ∧ tree'.find id = some b ∧ SameShape a b ∧
        (¬ Hidden tree id → a = b) := by
  rcases find_forall₂ (fun a b hab => hab.1.id_eq) h.nodes id with hnone | ⟨a, b, ha, hb, hab⟩
  · exact .inl hnone
  · have hid : a.id = id := (AgentRenderTree.find_eq_some ha).2
    rw [hid] at hab
    exact .inr ⟨a, b, ha, hb, hab⟩

theorem links_iff (h : Twins tree tree') (a b : AgentNodeId) :
    tree.Links a b ↔ tree'.Links a b := by
  unfold AgentRenderTree.Links
  rcases h.find_cases a with ⟨hnone, hnone'⟩ | ⟨node, node', hfind, hfind', hshape, -⟩
  · simp [hnone, hnone']
  · simp [hfind, hfind', hshape.children_eq]

/-- Twins hide the same nodes. -/
theorem hidden_iff (h : Twins tree tree') (id : AgentNodeId) :
    Hidden tree id ↔ Hidden tree' id := by
  have hlinks : tree.Links = tree'.Links := by
    funext a b
    exact propext (h.links_iff a b)
  unfold Hidden
  rw [hlinks, h.root_eq]
  refine and_congr_right fun _ => exists_congr fun above => ?_
  rcases h.find_cases above with ⟨hnone, hnone'⟩ | ⟨node, node', hfind, hfind', hshape, -⟩
  · simp [hnone, hnone']
  · simp [hfind, hfind', hshape.visible_eq]

end Twins

/-! ## Walks that come to no hidden node -/

section Walk

variable (tree : AgentRenderTree) (opts : MarkdownOptions)

/-- The walk comes to no hidden node, and no select shows a hidden option. -/
structure Discreet : Prop where
  visits : ∀ place ctx node, Visited tree opts (.node place ctx node) → ¬ Hidden tree node.id
  options : ∀ ctx node, Visited tree opts (.node .block ctx node) →
    node.structuralRole = .select → ∀ child ∈ shownOptions tree opts node, ¬ Hidden tree child.id

end Walk

section Step

variable {opts : MarkdownOptions} (htwins : Twins tree tree')

include htwins

/-- A child that twins come to in the same way is the same in both. -/
theorem child_visit_twins (ctx : Context) (id : AgentNodeId)
    (hleft : ∀ node, childVisit tree opts ctx id = .node .block ctx node → ¬ Hidden tree node.id)
    (hright : ∀ node, childVisit tree' opts ctx id = .node .block ctx node →
      ¬ Hidden tree node.id) :
    childVisit tree opts ctx id = childVisit tree' opts ctx id := by
  unfold childVisit at hleft hright ⊢
  rcases htwins.find_cases id with ⟨hnone, hnone'⟩ | ⟨a, b, ha, hb, hshape, hsame⟩
  · simp [hnone, hnone']
  · have hid : a.id = id := (AgentRenderTree.find_eq_some ha).2
    have hid' : b.id = id := (AgentRenderTree.find_eq_some hb).2
    simp only [ha, hb] at hleft hright ⊢
    by_cases hpass : passes opts a
    · simp only [hpass, if_true] at hleft ⊢
      obtain rfl := hsame (hid ▸ hleft a rfl)
      simp [hpass]
    · by_cases hpass' : passes opts b
      · simp only [hpass', if_true] at hright
        obtain rfl := hsame (hid' ▸ hright b rfl)
        exact absurd hpass' hpass
      · simp [hpass, hpass']

/-- Picked nodes are the same in twins when none of them is hidden. -/
theorem filter_map_find_twins {p : AgentNode → Bool}
    (hp : ∀ a b, SameShape a b → p a = p b) {ids : List AgentNodeId}
    (h : ∀ node ∈ (ids.filterMap tree.find).filter p, ¬ Hidden tree node.id) :
    (ids.filterMap tree.find).filter p = (ids.filterMap tree'.find).filter p := by
  induction ids with
  | nil => rfl
  | cons id ids ih =>
      rcases htwins.find_cases id with ⟨hnone, hnone'⟩ | ⟨a, b, ha, hb, hshape, hsame⟩
      · rw [List.filterMap_cons_none hnone] at h ⊢
        rw [List.filterMap_cons_none hnone']
        exact ih h
      · rw [List.filterMap_cons_some ha] at h ⊢
        rw [List.filterMap_cons_some hb]
        have hid : a.id = id := (AgentRenderTree.find_eq_some ha).2
        by_cases hpa : p a
        · rw [List.filter_cons_of_pos hpa] at h ⊢
          rw [List.filter_cons_of_pos (hp a b hshape ▸ hpa),
            ih fun node hn => h node (by simp [hn]), hsame (hid ▸ h a (by simp))]
        · rw [List.filter_cons_of_neg hpa] at h ⊢
          rw [List.filter_cons_of_neg (hp a b hshape ▸ hpa)]
          exact ih h

variable (hleft : Discreet tree opts) (hright : Discreet tree' opts)

include hleft hright

/-- Children that the walks of both trees come to from a visit are the same. -/
theorem map_children_twins {v : Visit} (hv : Visited tree opts v) (hv' : Visited tree' opts v)
    {ctx : Context} {ids : List AgentNodeId}
    (hnext : next tree opts v = ids.map (childVisit tree opts ctx))
    (hnext' : next tree' opts v = ids.map (childVisit tree' opts ctx)) :
    next tree opts v = next tree' opts v := by
  rw [hnext, hnext']
  refine List.map_congr_left fun id hid => ?_
  apply child_visit_twins htwins
  · intro node hnode
    refine hleft.visits .block ctx node (hv.next ?_)
    rw [hnext, ← hnode]
    exact List.mem_map_of_mem hid
  · intro node hnode
    rw [htwins.hidden_iff]
    refine hright.visits .block ctx node (hv'.next ?_)
    rw [hnext', ← hnode]
    exact List.mem_map_of_mem hid

omit hright in
theorem shown_options_twins {ctx : Context} {node : AgentNode}
    (hv : Visited tree opts (.node .block ctx node)) (hrole : node.structuralRole = .select) :
    shownOptions tree opts node = shownOptions tree' opts node := by
  refine filter_map_find_twins htwins (fun a b hshape => ?_) ?_
  · rw [hshape.visible_eq]
  · exact hleft.options ctx node hv hrole

omit hright in
theorem table_rows_twins {ctx : Context} {node : AgentNode}
    (hv : Visited tree opts (.node .block ctx node)) (hrole : node.structuralRole = .table) :
    tableRows tree node = tableRows tree' node := by
  refine filter_map_find_twins htwins (fun a b hshape => ?_) ?_
  · rw [hshape.role_eq]
  · intro row (hrow : row ∈ tableRows tree node)
    obtain ⟨first, hfirst⟩ :=
      exists_mem_flag_first (fun first row => Visit.node (.row first) ctx row) hrow
    refine hleft.visits (.row first) ctx row (hv.next ?_)
    simpa only [next, blockNext, hrole] using hfirst

omit hright in
/-- They have the same cells. -/
theorem cell_visit_twins {header : Bool} {ctx : Context} {row : AgentNode}
    (hv : Visited tree opts (.node (.row header) ctx row)) {id : AgentNodeId}
    (hid : id ∈ row.children) (first : Bool) :
    cellVisit tree ctx first id = cellVisit tree' ctx first id := by
  obtain ⟨first', hfirst⟩ := exists_mem_flag_first (cellVisit tree ctx) hid
  unfold cellVisit at hfirst ⊢
  rcases htwins.find_cases id with ⟨hnone, hnone'⟩ | ⟨a, b, ha, hb, -, hsame⟩
  · simp [hnone, hnone']
  · have haId : a.id = id := (AgentRenderTree.find_eq_some ha).2
    simp only [ha] at hfirst
    have hvisible := hleft.visits _ _ a (hv.next hfirst)
    rw [haId] at hvisible
    obtain rfl := hsame hvisible
    simp [ha, hb]

/-- A visit of both trees leads to the same visits in both. -/
theorem next_twins {v : Visit} (hv : Visited tree opts v) (hv' : Visited tree' opts v) :
    next tree opts v = next tree' opts v := by
  -- children are looked up in either tree: those that are shown are the same nodes
  have hchildren := @map_children_twins _ _ _ htwins hleft hright v hv hv'
  cases v with
  | skipped | missing => rfl
  | node place ctx node =>
      cases place with
      | page => exact hchildren rfl rfl
      | option => rfl
      | row header =>
          exact flag_first_congr fun first id hid => cell_visit_twins htwins hleft hv hid first
      | cell first =>
          by_cases hcell : node.structuralRole = .cell
          · exact hchildren (by simp only [next, hcell]; rfl) (by simp only [next, hcell]; rfl)
          · simp [next, hcell]
      | block =>
          cases hrole : node.structuralRole with
          | list | listItem =>
              exact hchildren (by simp only [next, blockNext, hrole]; rfl)
                (by simp only [next, blockNext, hrole])
          | page | row | cell | region | dialog | menu | tab | form | frame | shadowRoot
          | unknown =>
              exact hchildren (by simp only [next, blockNext, hrole]; rfl)
                (by simp only [next, blockNext, hrole]; rfl)
          | table =>
              simp only [next, blockNext, hrole, table_rows_twins htwins hleft hv hrole]
          | select =>
              simp only [next, blockNext, hrole, shown_options_twins htwins hleft hv hrole]
          | heading | paragraph | text | link | button | textbox | checkbox | radio | image | canvas
          | video => simp [next, blockNext, hrole, isFlow]

omit hright in
/-- A visit of both trees prints the same around the visits below it. -/
theorem frame_twins [F64Display] {v : Visit} (hv : Visited tree opts v) :
    frame tree opts v = frame tree' opts v := by
  cases v with
  | skipped | missing => rfl
  | node place ctx node =>
      cases place with
      | page | option | row | cell => rfl
      | block =>
          simp only [frame, blockFrame]
          cases hrole : node.structuralRole with
          | table => simp only [tableFrame, table_rows_twins htwins hleft hv hrole]
          | select =>
              simp only [selectFrame, selectPlainFrame, shown_options_twins htwins hleft hv hrole]
          | _ => rfl

variable [F64Display]

/-- They are laid out alike. -/
theorem lay_visit_twins {sub sub' : Visit → Option Fragment}
    (hsub : ∀ w, Visited tree opts w → Visited tree' opts w → sub w = sub' w) {v : Visit}
    (hv : Visited tree opts v) (hv' : Visited tree' opts v) :
    layVisit tree opts sub v = layVisit tree' opts sub' v := by
  have hnext := next_twins htwins hleft hright hv hv'
  refine expand_congr hnext ?_ fun w hw => hsub w (hv.next hw) (hv'.next (hnext ▸ hw))
  rw [frame_twins htwins hleft hv]

/-- They are planned alike. -/
theorem plan_twins (depth : Nat) {v : Visit} (hv : Visited tree opts v)
    (hv' : Visited tree' opts v) : plan tree opts depth v = plan tree' opts depth v := by
  induction depth generalizing v with
  | zero => rfl
  | succ depth ih =>
      have hblock {v : Visit} (hv : Visited tree opts v) (hv' : Visited tree' opts v) :=
        lay_visit_twins htwins hleft hright (fun w hw hw' => ih hw hw') hv hv'
      have hcell {v : Visit} (hv : Visited tree opts v) (hv' : Visited tree' opts v) :=
        lay_visit_twins htwins hleft hright (fun w hw hw' => hblock hw hw') hv hv'
      have hrow {v : Visit} (hv : Visited tree opts v) (hv' : Visited tree' opts v) :=
        lay_visit_twins htwins hleft hright (fun w hw hw' => hcell hw hw') hv hv'
      rw [plan, plan]
      unfold planVisit
      split
      · split_ifs
        exacts [hrow hv hv', hcell hv hv', hblock hv hv']
      · exact hblock hv hv'

/-- Twins give the same view, at every call depth, when their walks come to no hidden node. -/
theorem emit_twins (depth : Nat) : emit tree opts depth = emit tree' opts depth := by
  have hpage : pagePlan tree opts depth = pagePlan tree' opts depth := by
    unfold pagePlan
    rw [← htwins.root_eq]
    rcases htwins.find_cases tree.root with ⟨hnone, hnone'⟩ | ⟨a, b, ha, hb, -, hsame⟩
    · simp [hnone, hnone']
    · obtain rfl := hsame fun hhidden => hhidden.1 rfl
      simp only [ha, hb]
      exact lay_visit_twins htwins hleft hright
        (fun w hw hw' => plan_twins htwins hleft hright depth hw hw')
        ⟨a, ha, .refl⟩ ⟨a, htwins.root_eq ▸ hb, .refl⟩
  rw [emit_eq, emit_eq, hpage]

end Step

/-! ## An invisible paragraph and an invisible cell -/

/-- Visible nodes that have no parents but each other are not hidden. -/
theorem not_hidden (ids : List AgentNodeId)
    (hparents : ∀ node ∈ tree.nodes, ∀ child ∈ node.children, child ∈ ids → node.id ∈ ids)
    (hvisible : ∀ node ∈ tree.nodes, node.id ∈ ids → node.state.visible) {id : AgentNodeId}
    (hid : id ∈ ids) : ¬ Hidden tree id := by
  rintro ⟨-, above, node, hpath, hfind, hinvisible⟩
  have habove : above ∈ ids := by
    clear hfind
    induction hpath using ReflTransGen.head_induction_on with
    | refl => exact hid
    | head hlink _ ih =>
        obtain ⟨parent, hparent, hchild⟩ := hlink
        obtain ⟨hmem, rfl⟩ := AgentRenderTree.find_eq_some hparent
        exact hparents parent hmem _ hchild ih
  obtain ⟨hmem, rfl⟩ := AgentRenderTree.find_eq_some hfind
  rw [hvisible node hmem habove] at hinvisible
  cases hinvisible

/-- An invisible node with a name. -/
def secretNode (role : StructuralRole) (name : Text) : AgentNode :=
  { AgentNode.plain "secret" role (some name) [] with state := ⟨false, true, false, false, none⟩ }

/-- A page with an invisible paragraph. -/
def secretPage (name : Text) : AgentRenderTree where
  root := "page"
  nodes := [.plain "page" .page none ["text", "secret"], .plain "text" .text (some "Hello") [],
    secretNode .paragraph name]
  generation := 0
  truncated := false

/-- The visits of `secretPage`. -/
def secretVisits : List Visit :=
  [rootVisit (.plain "page" .page none ["text", "secret"]),
    .node .block ⟨0, false, false⟩ (.plain "text" .text (some "Hello") []), .skipped]

/-- A page with a secret that is hidden. -/
theorem secret_page_discreet (name : Text) : Discreet (secretPage name) default := by
  have hroot : next (secretPage name) default
      (rootVisit (.plain "page" .page none ["text", "secret"])) =
        [.node .block ⟨0, false, false⟩ (.plain "text" .text (some "Hello") []), .skipped] := rfl
  have hvisits : ∀ v, Visited (secretPage name) default v → v ∈ secretVisits := by
    intro v hv
    have hfind : (secretPage name).find (secretPage name).root =
        some (.plain "page" .page none ["text", "secret"]) := rfl
    refine mem_of_visited hfind List.mem_cons_self ?_ hv
    intro v hv w hw
    simp only [List.mem_cons, List.not_mem_nil, or_false] at hv
    rcases hv with rfl | rfl | rfl
    · rw [hroot] at hw
      exact List.mem_cons_of_mem _ hw
    · cases hw
    · cases hw
  have hshown : ∀ id ∈ (["page", "text"] : List Text), ¬ Hidden (secretPage name) id := by
    intro id hid
    refine not_hidden ["page", "text"] ?_ ?_ hid
    · simp [secretPage, AgentNode.plain, secretNode]
    · simp [secretPage, AgentNode.plain, secretNode]
  constructor
  · intro place ctx node hv
    have hmem := hvisits _ hv
    simp only [secretVisits, rootVisit, List.mem_cons, List.not_mem_nil, or_false] at hmem
    rcases hmem with h | h | h
    · cases h
      exact hshown _ (by simp [AgentNode.plain])
    · cases h
      exact hshown _ (by simp [AgentNode.plain])
    · cases h
  · intro ctx node hv hrole
    have hmem := hvisits _ hv
    simp only [secretVisits, rootVisit, List.mem_cons, List.not_mem_nil, or_false] at hmem
    rcases hmem with h | h | h <;> cases h
    cases hrole

theorem secret_page_twins (name name' : Text) : Twins (secretPage name) (secretPage name') := by
  have hhidden : Hidden (secretPage name) "secret" :=
    ⟨by simp [secretPage], "secret", secretNode .paragraph name, .refl, rfl, rfl⟩
  exact ⟨rfl, .cons ⟨⟨rfl, rfl, rfl, rfl⟩, fun _ => rfl⟩ (.cons ⟨⟨rfl, rfl, rfl, rfl⟩, fun _ => rfl⟩
    (.cons ⟨⟨rfl, rfl, rfl, rfl⟩, fun h => absurd hhidden h⟩ .nil))⟩

/-- The name of the invisible paragraph is not printed. -/
theorem secret_page_emit :
    @emit F64Display.ofWhole (secretPage "alpha") default =
      @emit F64Display.ofWhole (secretPage "beta") default :=
  funext fun depth => @emit_twins (secretPage "alpha") (secretPage "beta") default
    (secret_page_twins "alpha" "beta") (secret_page_discreet "alpha") (secret_page_discreet "beta")
    F64Display.ofWhole depth

/-- A page with an invisible table cell. -/
def secretTable (name : Text) : AgentRenderTree where
  root := "page"
  nodes := [.plain "page" .page none ["table"], .plain "table" .table none ["row"],
    .plain "row" .row none ["secret"], secretNode .cell name]
  generation := 0
  truncated := false

/-- Cells are printed without a look at their visibility. -/
theorem secret_table_revealed :
    Twins (secretTable "alpha") (secretTable "beta") ∧
      (default : MarkdownOptions).includeInvisible = false ∧
      ∃ view view', @emit F64Display.ofWhole (secretTable "alpha") default 2 = some view ∧
        @emit F64Display.ofWhole (secretTable "beta") default 2 = some view' ∧
        view.content ≠ view'.content := by
  let display := F64Display.ofWhole
  have hhidden : Hidden (secretTable "alpha") "secret" :=
    ⟨by simp [secretTable], "secret", secretNode .cell "alpha", .refl, rfl, rfl⟩
  have hreturns : (emit (secretTable "alpha") default 2).isSome := by decide
  have hreturns' : (emit (secretTable "beta") default 2).isSome := by decide
  obtain ⟨view, hview⟩ := Option.isSome_iff_exists.mp hreturns
  obtain ⟨view', hview'⟩ := Option.isSome_iff_exists.mp hreturns'
  have hdiffer : ∀ view ∈ emit (secretTable "alpha") default 2,
      ∀ view' ∈ emit (secretTable "beta") default 2, view.content ≠ view'.content := by
    decide
  refine ⟨⟨rfl, ?_⟩, rfl, view, view', hview, hview', hdiffer view hview view' hview'⟩
  exact .cons ⟨⟨rfl, rfl, rfl, rfl⟩, fun _ => rfl⟩ (.cons ⟨⟨rfl, rfl, rfl, rfl⟩, fun _ => rfl⟩
    (.cons ⟨⟨rfl, rfl, rfl, rfl⟩, fun _ => rfl⟩
      (.cons ⟨⟨rfl, rfl, rfl, rfl⟩, fun h => absurd hhidden h⟩ .nil)))

end BrowsAI.PageText
