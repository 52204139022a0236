import BrowsAI.Frames.WellFormed

/-!
# Access between frames

The tree keeps the origin of a frame as text, and compares the texts. A tuple origin has a text of
its own, and all opaque origins share one. Access stays within one frame or one tuple origin all
along exactly when no second frame with an opaque origin is made.
-/

namespace BrowsAI.Frames

open Std Utf8 Network Profiles Relation

namespace FrameTree

variable {U : Type} {tree tree' : FrameTree U} {depth : Nat} {id : FrameId}

/-- One of the three checks lets a frame at another one. -/
def Grants (tree : FrameTree U) (a b : FrameId) : Prop :=
  tree.canAccess a b = .ok true ∨ tree.canQuery a b = .ok () ∨ tree.canAction a b = .ok ()

theorem require_access_eq_ok_iff {a b : FrameId} :
    tree.requireAccess a b = .ok () ↔ tree.canAccess a b = .ok true := by
  rw [requireAccess]
  cases tree.canAccess a b with
  | error error => exact iff_of_false (fun h => by cases h) fun h => by cases h
  | ok access => cases access <;> simp

/-- The three calls agree, and compare the recorded texts. -/
theorem grants_iff {a b : FrameId} : tree.Grants a b ↔ ∃ source target,
    tree.frames[a]? = some source ∧ tree.frames[b]? = some target ∧
      source.origin = target.origin := by
  rw [Grants, canQuery, canAction, require_access_eq_ok_iff, or_self, or_self, canAccess]
  cases tree.frames[a]? with
  | none => exact iff_of_false (fun h => by cases h) fun ⟨_, _, h, _⟩ => by cases h
  | some source =>
      cases tree.frames[b]? with
      | none => exact iff_of_false (fun h => by cases h) fun ⟨_, _, _, h, _⟩ => by cases h
      | some target => simp

section Origins

variable [OriginUrl U]

/-- Access stays within one frame, or within one tuple origin. -/
def Isolated (tree : FrameTree U) : Prop :=
  ∀ a b, tree.Grants a b → a = b ∨ ∃ source target origin,
    tree.frames[a]? = some source ∧ tree.frames[b]? = some target ∧
      OriginUrl.origin source.url = some origin ∧ OriginUrl.origin target.url = some origin

/-- The recorded text of a frame is that of the origin of its URL. -/
def OriginsCurrent (tree : FrameTree U) : Prop :=
  ∀ (id : FrameId) (frame : Frame U), tree.frames[id]? = some frame →
    frame.origin = originText frame.url

/-- At most one frame has an opaque origin. -/
def OneOpaque (tree : FrameTree U) : Prop :=
  ∀ (a b : FrameId) (first second : Frame U), tree.frames[a]? = some first →
    tree.frames[b]? = some second → OriginUrl.origin first.url = none →
      OriginUrl.origin second.url = none → a = b

/-- Frames are isolated exactly if one of them at most has an opaque origin. -/
theorem OriginsCurrent.isolated_iff (h : tree.OriginsCurrent) (hlaws : OriginUrl.Lawful U) :
    tree.Isolated ↔ tree.OneOpaque := by
  constructor
  · intro hisolated a b first second hfirst hsecond hopaque hopaque'
    have hgrants : tree.Grants a b := by
      refine grants_iff.mpr ⟨first, second, hfirst, hsecond, ?_⟩
      rw [h a first hfirst, h b second hsecond, originText, originText, hopaque, hopaque']
    rcases hisolated a b hgrants with heq | ⟨source, _, origin, hsource, _, horigin, _⟩
    · exact heq
    · rw [← Option.some.inj (hfirst.symm.trans hsource), hopaque] at horigin
      cases horigin
  · intro hone a b hgrants
    obtain ⟨source, target, hsource, htarget, htext⟩ := grants_iff.mp hgrants
    rw [h a source hsource, h b target htarget, originText, originText] at htext
    cases horigin : OriginUrl.origin source.url with
    | none =>
        cases horigin' : OriginUrl.origin target.url with
        | none => exact Or.inl (hone a b source target hsource htarget horigin horigin')
        | some o =>
            rw [horigin, horigin', hlaws.opaque_eq] at htext
            exact absurd htext.symm (hlaws.tuple_ne target.url o horigin')
    | some o =>
        cases horigin' : OriginUrl.origin target.url with
        | none =>
            rw [horigin, horigin', hlaws.opaque_eq] at htext
            exact absurd htext (hlaws.tuple_ne source.url o horigin)
        | some o' =>
            rw [horigin, horigin'] at htext
            obtain rfl := hlaws.tuple_injective source.url target.url o o' horigin horigin' htext
            exact Or.inr ⟨source, target, o, hsource, htarget, horigin, horigin'⟩

/-! ## The calls -/

/-- A call gives no URL with an opaque origin to a frame while another one keeps such a URL. -/
def KeepsOneOpaque (tree : FrameTree U) : Op U → Prop
  | .addChild _ parent url => tree.frames.contains parent = true → OriginUrl.origin url = none →
      ∀ (j : FrameId) (frame : Frame U), tree.frames[j]? = some frame →
        OriginUrl.origin frame.url ≠ none
  | .navigate id url => tree.frames.contains id = true → OriginUrl.origin url = none →
      ∀ (j : FrameId) (frame : Frame U), tree.frames[j]? = some frame → j ≠ id →
        ¬ TransGen tree.Links id j → OriginUrl.origin frame.url ≠ none

/-- The frames after a call: one with the new URL, and others with their old ones. -/
structure Places (tree : FrameTree U) (id : FrameId) (url : U) (kept : FrameId → Prop)
    (tree' : FrameTree U) : Prop where
  placed : ∃ frame, tree'.frames[id]? = some frame ∧ frame.url = url ∧ frame.origin = originText url
  back : ∀ (j : FrameId) (frame' : Frame U), tree'.frames[j]? = some frame' → j ≠ id →
    kept j ∧ ∃ frame, tree.frames[j]? = some frame ∧ frame'.url = frame.url ∧
      frame'.origin = frame.origin
  forth : ∀ (j : FrameId) (frame : Frame U), tree.frames[j]? = some frame → kept j →
    ∃ frame', tree'.frames[j]? = some frame' ∧ frame'.url = frame.url ∧
      frame'.origin = frame.origin

theorem Places.origins_current {kept : FrameId → Prop} {url : U}
    (hplaces : tree.Places id url kept tree') (h : tree.OriginsCurrent) :
    tree'.OriginsCurrent := by
  intro j frame' hframe'
  by_cases hj : j = id
  · obtain ⟨frame, hframe, hurl, horigin⟩ := hplaces.placed
    rw [hj, hframe] at hframe'
    rw [← Option.some.inj hframe', horigin, hurl]
  · obtain ⟨_, frame, hframe, hurl, horigin⟩ := hplaces.back j frame' hframe' hj
    rw [horigin, hurl, h j frame hframe]

/-- When a frame is placed beside others, this asks that it or they have none. -/
theorem Places.one_opaque_iff {kept : FrameId → Prop} {url : U}
    (hplaces : tree.Places id url kept tree') (hkept : ∀ j, kept j → j ≠ id) (h : tree.OneOpaque) :
    tree'.OneOpaque ↔ (OriginUrl.origin url = none → ∀ (j : FrameId) (frame : Frame U),
      tree.frames[j]? = some frame → kept j → OriginUrl.origin frame.url ≠ none) := by
  obtain ⟨placed, hplaced, hurl, _⟩ := hplaces.placed
  constructor
  · intro hone hopaque j frame hframe hj hopaque'
    obtain ⟨frame', hframe', hurl', _⟩ := hplaces.forth j frame hframe hj
    exact hkept j hj (hone j id frame' placed hframe' hplaced (hurl' ▸ hopaque') (hurl ▸ hopaque))
  · intro hnew a b first second hfirst hsecond hopaque hopaque'
    -- no kept frame is opaque beside an opaque placed one
    have hother : ∀ (j : FrameId) (frame' : Frame U), tree'.frames[j]? = some frame' → j ≠ id →
        OriginUrl.origin frame'.url = none → OriginUrl.origin url ≠ none := by
      intro j frame' hframe' hj hnone hurlnone
      obtain ⟨hkeptj, frame, hframe, hurl', _⟩ := hplaces.back j frame' hframe' hj
      exact hnew hurlnone j frame hframe hkeptj (hurl' ▸ hnone)
    have hat : ∀ frame' : Frame U, tree'.frames[id]? = some frame' → frame'.url = url :=
      fun frame' hframe' => by rw [← Option.some.inj (hplaced.symm.trans hframe'), hurl]
    by_cases ha : a = id
    · by_cases hb : b = id
      · rw [ha, hb]
      · rw [ha] at hfirst
        exact absurd (hat first hfirst ▸ hopaque) (hother b second hsecond hb hopaque')
    · by_cases hb : b = id
      · rw [hb] at hsecond
        exact absurd (hat second hsecond ▸ hopaque') (hother a first hfirst ha hopaque)
      · obtain ⟨_, first', hfirst', hurl₁, _⟩ := hplaces.back a first hfirst ha
        obtain ⟨_, second', hsecond', hurl₂, _⟩ := hplaces.back b second hsecond hb
        exact h a b first' second' hfirst' hsecond' (hurl₁ ▸ hopaque) (hurl₂ ▸ hopaque')

theorem Grows.places {parent : FrameId} {url : U} (hgrow : tree.Grows id parent url tree') :
    tree.Places id url (· ≠ id) tree' where
  placed := ⟨_, hgrow.self, rfl, rfl⟩
  back j frame' hframe' hj := by
    rcases hgrow.back hframe' with ⟨hid, _⟩ | ⟨frame, hframe, rfl⟩
    · exact absurd hid hj
    · exact ⟨hj, frame, hframe, rfl, rfl⟩
  forth j frame hframe _ := ⟨_, hgrow.forth hframe, rfl, rfl⟩

theorem Navigates.places {url : U} (hnav : tree.Navigates id url tree') :
    tree.Places id url (fun j => j ≠ id ∧ ¬ TransGen tree.Links id j) tree' where
  placed := by
    obtain ⟨frame, _, hself⟩ := hnav.self
    exact ⟨_, hself, rfl, rfl⟩
  back j frame' hframe' hj := by
    have hleft := (hnav.back hframe').1
    rw [hnav.others j hj hleft] at hframe'
    exact ⟨⟨hj, hleft⟩, frame', hframe', rfl, rfl⟩
  forth j frame hframe hj := ⟨frame, (hnav.others j hj.1 hj.2).trans hframe, rfl, rfl⟩

theorem OriginsCurrent.new (id : FrameId) (url : U) : (FrameTree.new id url).OriginsCurrent := by
  intro j frame hframe
  rw [(eq_root_of_new hframe).2]

theorem OneOpaque.new (id : FrameId) (url : U) : (FrameTree.new id url).OneOpaque := by
  intro a b first second hfirst hsecond _ _
  exact (eq_root_of_new hfirst).1.trans (eq_root_of_new hsecond).1.symm

/-- What a call does: nothing, or it places one URL. -/
theorem WellFormed.step_cases (h : tree.WellFormed) (op : Op U)
    (hallowed : (machine depth).Allowed tree op) :
    (machine depth).step tree op = tree ∧ tree.KeepsOneOpaque op ∨
      ∃ id url kept, tree.Places id url kept ((machine depth).step tree op) ∧
        (∀ j, kept j → j ≠ id) ∧
        (tree.KeepsOneOpaque op ↔ (OriginUrl.origin url = none →
          ∀ (j : FrameId) (frame : Frame U), tree.frames[j]? = some frame → kept j →
            OriginUrl.origin frame.url ≠ none)) := by
  cases op with
  | addChild id parent url =>
      by_cases hparent : tree.frames.contains parent = true
      · have hgrow := add_child_grows hparent hallowed url
        refine Or.inr ⟨id, url, (· ≠ id), hgrow.places, fun _ hj => hj, ?_⟩
        constructor
        · exact fun hkeeps hopaque j frame hframe _ => hkeeps hparent hopaque j frame hframe
        · exact fun hkeeps _ hopaque j frame hframe =>
            hkeeps hopaque j frame hframe (hgrow.ne_of_get hframe).symm
      · refine Or.inl ⟨?_, fun hcontains => absurd hcontains hparent⟩
        show (tree.addChild id parent url).2 = tree
        rw [addChild, if_neg hparent]
  | navigate id url =>
      obtain ⟨result, hresult⟩ := Option.isSome_iff_exists.mp hallowed
      have hstep : (machine depth).step tree (.navigate id url) = result.2 := by
        show ((tree.navigate depth id url).map Prod.snd).getD tree = result.2
        rw [hresult]
        rfl
      rw [hstep]
      rcases h.navigate_cases hresult with ⟨hnone, rfl⟩ | ⟨_, hnav⟩
      · refine Or.inl ⟨rfl, fun hcontains => ?_⟩
        rw [ExtTreeMap.contains_eq_isSome_getElem?, hnone] at hcontains
        cases hcontains
      · refine Or.inr ⟨id, url, _, hnav.places, fun _ hj => hj.1, ?_⟩
        have hcontains : tree.frames.contains id = true := by
          obtain ⟨frame, hframe, _⟩ := hnav.self
          rw [ExtTreeMap.contains_eq_isSome_getElem?, hframe]
          rfl
        constructor
        · exact fun hkeeps hopaque j frame hframe hj =>
            hkeeps hcontains hopaque j frame hframe hj.1 hj.2
        · exact fun hkeeps _ hopaque j frame hframe hne hleft =>
            hkeeps hopaque j frame hframe ⟨hne, hleft⟩

/-- In a run access stays within one frame or one tuple origin exactly when no call makes a second
frame with an opaque origin. -/
theorem always_isolated_iff (hlaws : OriginUrl.Lawful U) (depth : Nat) (root : FrameId) (url : U)
    (ops : List (Op U)) (hallowed : (machine depth).AllowedRun (new root url) ops) :
    (machine depth).Always Isolated (new root url) ops ↔
      (machine depth).Throughout KeepsOneOpaque (new root url) ops := by
  have hstep : ∀ (tree : FrameTree U) (op : Op U), tree.WellFormed ∧ tree.OriginsCurrent →
      (machine depth).Allowed tree op → ((machine depth).step tree op).OriginsCurrent ∧
        (tree.OneOpaque → (((machine depth).step tree op).OneOpaque ↔ tree.KeepsOneOpaque op)) := by
    intro tree op ⟨hwell, hcurrent⟩ hop
    rcases hwell.step_cases op hop with ⟨hsame, hkeeps⟩ | ⟨id, url, kept, hplaces, hkept, hiff⟩
    · rw [hsame]
      exact ⟨hcurrent, fun hone => iff_of_true hone hkeeps⟩
    · exact ⟨hplaces.origins_current hcurrent, fun hone =>
        (hplaces.one_opaque_iff hkept hone).trans hiff.symm⟩
  refine Machine.always_iff
    (I := fun tree : FrameTree U => tree.WellFormed ∧ tree.OriginsCurrent)
    (fun tree op hsound hisolated hop => ?_)
    (fun tree op hsound hop => ⟨hsound.1.step op hop, (hstep tree op hsound hop).1⟩)
    ⟨.new root url, .new root url⟩
    (((OriginsCurrent.new root url).isolated_iff hlaws).mpr (.new root url)) hallowed
  obtain ⟨hcurrent, hone⟩ := hstep tree op hsound hop
  rw [hcurrent.isolated_iff hlaws]
  exact hone ((hsound.2.isolated_iff hlaws).mp hisolated)

end Origins

/-! ## A page with a data frame -/

/-- A page with an opaque origin. -/
def dataPage : WebUrl := ⟨"data", [], none, "text/plain,a", none, none⟩

/-- A page with a data frame, which navigates to another page. -/
def dataOps : List (Op WebUrl) := [.addChild 2 1 dataPage, .navigate 2 page]

theorem data_ops_isolated : (machine 9).Always Isolated (new 1 page) dataOps := by
  refine (always_isolated_iff WebUrl.origin_lawful 9 1 page dataOps ⟨rfl, rfl, trivial⟩).mpr ?_
  refine And.intro (fun _ _ j frame hframe hopaque => ?_)
    (And.intro (fun _ hopaque => by cases hopaque) trivial)
  rw [(eq_root_of_new hframe).2] at hopaque
  cases hopaque

/-- Two data frames. -/
theorem two_data_not_isolated :
    (((new 1 page).addChild 2 1 dataPage).2.addChild 3 1 dataPage).2.canAccess 2 3 = .ok true ∧
      ¬ ∀ (depth : Nat) (root : FrameId) (url : WebUrl) (ops : List (Op WebUrl)),
        (machine depth).AllowedRun (new root url) ops →
          (machine depth).Always Isolated (new root url) ops := by
  refine ⟨rfl, fun h => ?_⟩
  have hisolated := (h 9 1 page [.addChild 2 1 dataPage, .addChild 3 1 dataPage]
    ⟨rfl, rfl, trivial⟩).2.2
  rcases hisolated 2 3 (Or.inl rfl) with heq | ⟨source, _, origin, hsource, _, horigin, _⟩
  · exact absurd heq (by decide)
  · cases hsource
    cases horigin

end FrameTree

end BrowsAI.Frames
