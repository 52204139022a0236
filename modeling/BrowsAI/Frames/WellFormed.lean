import BrowsAI.Frames.Tree

/-!
# Frames form a tree

`WellFormed` says that the links of the frames form one tree under the root. Both calls keep it. On
such a tree a navigation returns: it deletes the proper descendants of its frame, gives the frame
its new URL, and leaves the others as they are.
-/

namespace BrowsAI.Frames

open Std Utf8 Network Profiles Relation Unfold

namespace FrameTree

variable {U : Type} {tree tree' : FrameTree U} {depth : Nat} {id : FrameId} {frame : Frame U}

/-- The frames that a frame lists, none when it does not exist. -/
def childFrames (tree : FrameTree U) (id : FrameId) : List FrameId :=
  (tree.frames[id]?.map Frame.childFrames).getD []

/-- `tree.Links a b`: frame `a` lists `b` as a child. -/
def Links (tree : FrameTree U) (a b : FrameId) : Prop := b ∈ tree.childFrames a

theorem child_frames_eq (hframe : tree.frames[id]? = some frame) :
    tree.childFrames id = frame.childFrames := by
  rw [childFrames, hframe]
  rfl

theorem links_iff {a b : FrameId} :
    tree.Links a b ↔ ∃ frame, tree.frames[a]? = some frame ∧ b ∈ frame.childFrames := by
  rw [Links, childFrames]
  cases tree.frames[a]? <;> simp

/-- The frames are stored under their ids and form one tree from the root. -/
structure WellFormed (tree : FrameTree U) : Prop where
  key_eq_id : ∀ (id : FrameId) (frame : Frame U), tree.frames[id]? = some frame → frame.id = id
  root_mem : ∃ frame, tree.frames[tree.root]? = some frame
  root_iff : ∀ (id : FrameId) (frame : Frame U), tree.frames[id]? = some frame →
    (frame.parent = none ↔ id = tree.root)
  child_parent : ∀ (id : FrameId) (frame : Frame U) (child : FrameId),
    tree.frames[id]? = some frame → child ∈ frame.childFrames →
      ∃ childFrame, tree.frames[child]? = some childFrame ∧ childFrame.parent = some id
  listed_once : ∀ (id : FrameId) (frame : Frame U) (parent : FrameId),
    tree.frames[id]? = some frame → frame.parent = some parent →
      ∃ parentFrame, tree.frames[parent]? = some parentFrame ∧
        parentFrame.childFrames.count id = 1
  reachable : ∀ (id : FrameId) (frame : Frame U), tree.frames[id]? = some frame →
    ReflTransGen tree.Links tree.root id

namespace WellFormed

/-- A frame is listed by one frame only. -/
theorem links_unique (h : tree.WellFormed) {a b child : FrameId} (ha : tree.Links a child)
    (hb : tree.Links b child) : a = b := by
  obtain ⟨frame, hframe, hmem⟩ := links_iff.mp ha
  obtain ⟨frame', hframe', hmem'⟩ := links_iff.mp hb
  obtain ⟨childFrame, hchild, hparent⟩ := h.child_parent a frame child hframe hmem
  obtain ⟨childFrame', hchild', hparent'⟩ := h.child_parent b frame' child hframe' hmem'
  rw [hchild] at hchild'
  rw [← Option.some.inj hchild', hparent] at hparent'
  exact Option.some.inj hparent'

/-- No frame lists the root. -/
theorem not_links_root (h : tree.WellFormed) (a : FrameId) : ¬ tree.Links a tree.root := by
  intro hlink
  obtain ⟨frame, hframe, hmem⟩ := links_iff.mp hlink
  obtain ⟨rootFrame, hroot, hparent⟩ := h.child_parent a frame tree.root hframe hmem
  rw [(h.root_iff tree.root rootFrame hroot).mpr rfl] at hparent
  cases hparent

/-- A navigation leaves the root. -/
theorem root_left (h : tree.WellFormed) : ¬ TransGen tree.Links id tree.root := by
  intro hgone
  obtain ⟨a, _, hlink⟩ := TransGen.tail'_iff.mp hgone
  exact h.not_links_root a hlink

/-- A frame whose descendants include itself would have a parent that does, up to the root. -/
theorem acyclic (h : tree.WellFormed) (id : FrameId) : ¬ TransGen tree.Links id id := by
  intro hcycle
  have hreach : ReflTransGen tree.Links tree.root id := by
    obtain ⟨b, hlink, _⟩ := TransGen.head'_iff.mp hcycle
    obtain ⟨frame, hframe, _⟩ := links_iff.mp hlink
    exact h.reachable id frame hframe
  induction hreach with
  | refl =>
      obtain ⟨a, _, hlink⟩ := TransGen.tail'_iff.mp hcycle
      exact h.not_links_root a hlink
  | @tail a b _ hlink ih =>
      obtain ⟨c, hback, hlink'⟩ := TransGen.tail'_iff.mp hcycle
      obtain rfl := h.links_unique hlink hlink'
      exact ih (TransGen.head' hlink hback)

end WellFormed

/-- The parent of a frame that a navigation leaves is left, and did not navigate. -/
theorem parent_left {a j : FrameId} (hlink : tree.Links a j) (hleft : ¬ TransGen tree.Links id j) :
    a ≠ id ∧ ¬ TransGen tree.Links id a := by
  constructor
  · rintro rfl
    exact hleft (.single hlink)
  · exact fun hgone => hleft (hgone.tail hlink)

/-! ## The traversal -/

/-- The traversal collects along the child links. -/
theorem collect_descendants_eq (tree : FrameTree U) (depth : Nat) (id : FrameId)
    (descendants : List FrameId) :
    tree.collectDescendants depth id descendants =
      collect tree.childFrames depth id descendants := by
  induction depth generalizing id descendants with
  | zero => rfl
  | succ depth ih =>
      rw [collectDescendants, collect]
      cases hframe : tree.frames[id]? with
      | none =>
          rw [childFrames, hframe]
          rfl
      | some frame =>
          rw [child_frames_eq hframe]
          simp only [ih]

/-- Only finitely many frames list any. -/
theorem finite_links (tree : FrameTree U) : {a | ∃ b, b ∈ tree.childFrames a}.Finite := by
  refine (tree.frames.keys.finite_toSet).subset ?_
  intro a ⟨b, hb⟩
  obtain ⟨frame, hframe, _⟩ := links_iff.mp hb
  rw [Set.mem_ofPred_eq, ExtTreeMap.mem_keys, ← ExtTreeMap.isSome_getElem?_iff_mem, hframe]
  rfl

section Origins

variable [OriginUrl U]

/-- The frame after its own navigation. -/
def arrived (frame : Frame U) (url : U) : Frame U :=
  { frame with url, origin := originText url, childFrames := [] }

/-- What `navigate` does to the map of the frames. -/
structure Navigates (tree : FrameTree U) (id : FrameId) (url : U) (tree' : FrameTree U) : Prop where
  root : tree'.root = tree.root
  self : ∃ frame, tree.frames[id]? = some frame ∧ tree'.frames[id]? = some (arrived frame url)
  gone : ∀ j : FrameId, TransGen tree.Links id j → tree'.frames[j]? = none
  others : ∀ j : FrameId, j ≠ id → ¬ TransGen tree.Links id j →
    tree'.frames[j]? = tree.frames[j]?

/-- The loop of `navigate` is one more call of the traversal. -/
theorem navigate_eq (hframe : tree.frames[id]? = some frame) (url : U) :
    tree.navigate depth id url =
      (unfold tree.childFrames (gather tree.childFrames) (depth + 1) id).map fun descendants =>
        let frames := descendants.foldl ExtTreeMap.erase tree.frames
        if frames.contains id then
          (.ok (), { tree with frames := frames.modify id fun frame => arrived frame url })
        else (.error .missingFrame, { tree with frames }) := by
  have hloop : (frame.childFrames.foldlM (fun descendants child => do
      let descendants ← tree.collectDescendants depth child descendants
      pure (descendants ++ [child])) [] : Option (List FrameId)) =
        unfold tree.childFrames (gather tree.childFrames) (depth + 1) id := by
    have hcollect : collect tree.childFrames (depth + 1) id [] = _ := collect_eq (depth + 1) id []
    simp only [List.nil_append, Option.map_id'] at hcollect
    rw [← hcollect, collect, child_frames_eq hframe]
    simp only [collect_descendants_eq]
  rw [navigate, hframe]
  dsimp only
  rw [hloop, Option.map_eq_bind]
  refine congrArg (Option.bind _) (funext fun descendants => ?_)
  show (if _ then some _ else some _) = some (if _ then _ else _)
  split_ifs <;> rfl

/-- With enough depth a navigation returns. -/
theorem WellFormed.navigate_of_unfold (h : tree.WellFormed) (hframe : tree.frames[id]? = some frame)
    {descendants : List FrameId} (hdescendants :
      unfold tree.childFrames (gather tree.childFrames) (depth + 1) id = some descendants)
    (url : U) :
    ∃ tree', tree.navigate depth id url = some (.ok (), tree') ∧ tree.Navigates id url tree' := by
  have hgone : ∀ j, j ∈ descendants ↔ TransGen tree.Links id j := mem_gather_iff hdescendants
  have herased : ∀ j : FrameId, (descendants.foldl ExtTreeMap.erase tree.frames)[j]? =
      if j ∈ descendants then none else tree.frames[j]? := OrdMap.get_foldl_erase _ _
  have hself : (descendants.foldl ExtTreeMap.erase tree.frames)[id]? = some frame := by
    rw [herased, if_neg fun hmem => h.acyclic id ((hgone id).mp hmem), hframe]
  have hcontains : (descendants.foldl ExtTreeMap.erase tree.frames).contains id = true := by
    rw [ExtTreeMap.contains_eq_isSome_getElem?, hself]
    rfl
  have hget : ∀ j : FrameId, ((descendants.foldl ExtTreeMap.erase tree.frames).modify id
      fun frame => arrived frame url)[j]? = if id = j then some (arrived frame url)
        else if j ∈ descendants then none else tree.frames[j]? := by
    intro j
    rw [OrdMap.get_modify, hself, herased]
    rfl
  refine ⟨⟨(descendants.foldl ExtTreeMap.erase tree.frames).modify id (arrived · url), tree.root⟩,
    ?_, rfl, ⟨frame, hframe, (hget id).trans (if_pos rfl)⟩, fun j hj => ?_, fun j hne hj => ?_⟩
  · rw [navigate_eq hframe, hdescendants, Option.map_some]
    dsimp only
    rw [if_pos hcontains]
  · have hne : id ≠ j := by
      rintro rfl
      exact h.acyclic id hj
    exact (hget j).trans ((if_neg hne).trans (if_pos ((hgone j).mpr hj)))
  · exact (hget j).trans ((if_neg hne.symm).trans (if_neg fun hmem => hj ((hgone j).mp hmem)))

namespace Navigates

variable {url : U}

/-- A frame that is left has its old id and parent, and lists its old children unless it is the one
that navigated. -/
theorem back (hnav : tree.Navigates id url tree') {j : FrameId} {frame' : Frame U}
    (hframe' : tree'.frames[j]? = some frame') :
    ¬ TransGen tree.Links id j ∧ ∃ frame, tree.frames[j]? = some frame ∧ frame'.id = frame.id ∧
      frame'.parent = frame.parent ∧
      frame'.childFrames = if j = id then [] else frame.childFrames := by
  have hleft : ¬ TransGen tree.Links id j := by
    intro hgone
    rw [hnav.gone j hgone] at hframe'
    cases hframe'
  refine ⟨hleft, ?_⟩
  by_cases hj : j = id
  · obtain ⟨frame, hframe, hself⟩ := hnav.self
    rw [hj, hself] at hframe'
    obtain rfl := Option.some.inj hframe'
    exact ⟨frame, hj ▸ hframe, rfl, rfl, (if_pos hj).symm⟩
  · rw [hnav.others j hj hleft] at hframe'
    exact ⟨frame', hframe', rfl, rfl, (if_neg hj).symm⟩

/-- Frames that are not below stay, and the one that navigates loses its children. -/
theorem forth (hnav : tree.Navigates id url tree') {j : FrameId} {frame : Frame U}
    (hframe : tree.frames[j]? = some frame) (hleft : ¬ TransGen tree.Links id j) :
    ∃ frame', tree'.frames[j]? = some frame' ∧ frame'.id = frame.id ∧
      frame'.parent = frame.parent ∧
      frame'.childFrames = if j = id then [] else frame.childFrames := by
  by_cases hj : j = id
  · obtain ⟨old, hold, hself⟩ := hnav.self
    rw [hj, hold] at hframe
    rw [if_pos hj, hj, ← Option.some.inj hframe]
    exact ⟨_, hself, rfl, rfl, rfl⟩
  · rw [if_neg hj, hnav.others j hj hleft]
    exact ⟨frame, hframe, rfl, rfl, rfl⟩

/-- A navigation keeps the tree well formed. -/
theorem well_formed (h : tree.WellFormed) (hnav : tree.Navigates id url tree') :
    tree'.WellFormed where
  key_eq_id j frame' hframe' := by
    obtain ⟨_, frame, hframe, hid, _⟩ := hnav.back hframe'
    rw [hid, h.key_eq_id j frame hframe]
  root_mem := by
    obtain ⟨frame, hframe⟩ := h.root_mem
    obtain ⟨frame', hframe', _⟩ := hnav.forth hframe h.root_left
    rw [hnav.root]
    exact ⟨frame', hframe'⟩
  root_iff j frame' hframe' := by
    obtain ⟨_, frame, hframe, _, hparent, _⟩ := hnav.back hframe'
    rw [hparent, hnav.root, h.root_iff j frame hframe]
  child_parent j frame' child hframe' hmem := by
    obtain ⟨hleft, frame, hframe, _, _, hchildren⟩ := hnav.back hframe'
    rw [hchildren] at hmem
    split_ifs at hmem with hj
    · exact absurd hmem List.not_mem_nil
    · obtain ⟨childFrame, hchild, hparent⟩ := h.child_parent j frame child hframe hmem
      -- a child that goes is listed by the frame that navigated, or by one that goes
      have hchildleft : ¬ TransGen tree.Links id child := by
        intro hgone
        obtain ⟨a, hreach, hlink⟩ := TransGen.tail'_iff.mp hgone
        obtain rfl := h.links_unique hlink (links_iff.mpr ⟨frame, hframe, hmem⟩)
        rcases reflTransGen_iff_eq_or_transGen.mp hreach with heq | hbelow
        · exact hj heq
        · exact hleft hbelow
      obtain ⟨childFrame', hchild', _, hparent', _⟩ := hnav.forth hchild hchildleft
      exact ⟨childFrame', hchild', hparent'.trans hparent⟩
  listed_once j frame' parent hframe' hparent := by
    obtain ⟨hleft, frame, hframe, _, hparent', _⟩ := hnav.back hframe'
    obtain ⟨parentFrame, hparentFrame, hcount⟩ :=
      h.listed_once j frame parent hframe (hparent' ▸ hparent)
    have hlink : tree.Links parent j :=
      links_iff.mpr ⟨parentFrame, hparentFrame, List.count_pos_iff.mp (by omega)⟩
    obtain ⟨hne, hparentleft⟩ := parent_left hlink hleft
    obtain ⟨parentFrame', hparentFrame', _, _, hchildren⟩ := hnav.forth hparentFrame hparentleft
    rw [if_neg hne] at hchildren
    exact ⟨parentFrame', hparentFrame', by rw [hchildren, hcount]⟩
  reachable j frame' hframe' := by
    obtain ⟨hleft, frame, hframe, -⟩ := hnav.back hframe'
    have hreach := h.reachable j frame hframe
    rw [hnav.root]
    clear hframe hframe'
    induction hreach with
    | refl => exact .refl
    | @tail a b _ hlink ih =>
        obtain ⟨hne, haleft⟩ := parent_left hlink hleft
        obtain ⟨parentFrame, hparentFrame, hmem⟩ := links_iff.mp hlink
        obtain ⟨parentFrame', hparentFrame', _, _, hchildren⟩ := hnav.forth hparentFrame haleft
        rw [if_neg hne] at hchildren
        exact (ih haleft).tail (links_iff.mpr ⟨parentFrame', hparentFrame', hchildren ▸ hmem⟩)

end Navigates

/-! ## New frames -/

/-- A frame at `j` after `id` is added below `parent`. -/
def grown (parent id j : FrameId) (frame : Frame U) : Frame U :=
  { frame with childFrames := frame.childFrames ++ if parent = j then [id] else [] }

/-- The frames behind an addition. -/
theorem get_add_child {parent : FrameId} (hparent : tree.frames.contains parent = true)
    (url : U) (j : FrameId) :
    (tree.addChild id parent url).2.frames[j]? =
      if id = j then some
        { id, parent := some parent, url, origin := originText url, childFrames := [] }
      else tree.frames[j]?.map (grown parent id j) := by
  rw [addChild, if_pos hparent]
  dsimp only
  rw [OrdMap.get_insert, OrdMap.get_modify]
  split_ifs with hid hj
  · rfl
  · rw [← hj]
    refine Option.map_congr fun frame _ => ?_
    rw [grown, if_pos rfl]
  · cases tree.frames[j]? with
    | none => rfl
    | some frame =>
        rw [Option.map_some, grown, if_neg hj, List.append_nil]

theorem root_add_child (tree : FrameTree U) (id parent : FrameId) (url : U) :
    (tree.addChild id parent url).2.root = tree.root := by
  rw [addChild]
  split_ifs <;> rfl

omit [OriginUrl U] in
/-- No frame lists a frame that is not there. -/
theorem WellFormed.not_listed (h : tree.WellFormed) (hfresh : tree.frames[id]? = none)
    (a : FrameId) : ¬ tree.Links a id := by
  intro hlink
  obtain ⟨frame, hframe, hmem⟩ := links_iff.mp hlink
  obtain ⟨childFrame, hchild, _⟩ := h.child_parent a frame id hframe hmem
  exact Option.some_ne_none _ (hchild.symm.trans hfresh)

/-- A new tree has its root only. -/
theorem eq_root_of_new {id j : FrameId} {url : U} {frame : Frame U}
    (hframe : (FrameTree.new id url).frames[j]? = some frame) :
    j = id ∧ frame = ⟨id, none, url, originText url, []⟩ := by
  rw [FrameTree.new, OrdMap.get_insert] at hframe
  split_ifs at hframe with hj
  · exact ⟨hj.symm, (Option.some.inj hframe).symm⟩
  · rw [ExtTreeMap.getElem?_empty] at hframe
    cases hframe

theorem WellFormed.new (id : FrameId) (url : U) : (FrameTree.new id url).WellFormed := by
  refine ⟨fun j frame hframe => ?_, ⟨_, OrdMap.get_insert_self _ _ _⟩, fun j frame hframe => ?_,
    fun j frame child hframe hmem => ?_, fun j frame parent hframe hparent => ?_,
    fun j frame hframe => ?_⟩ <;> obtain ⟨rfl, rfl⟩ := eq_root_of_new hframe
  · rfl
  · exact iff_of_true rfl rfl
  · exact absurd hmem List.not_mem_nil
  · cases hparent
  · exact .refl

/-- What `add_child` does to the map of the frames, when the parent is there. -/
structure Grows (tree : FrameTree U) (id parent : FrameId) (url : U) (tree' : FrameTree U) :
    Prop where
  root : tree'.root = tree.root
  fresh : tree.frames[id]? = none
  parent_mem : ∃ frame, tree.frames[parent]? = some frame
  get : ∀ j : FrameId, tree'.frames[j]? =
    if id = j then some ⟨id, some parent, url, originText url, []⟩
    else tree.frames[j]?.map (grown parent id j)

/-- An addition adds a leaf. -/
theorem add_child_grows {parent : FrameId} (hparent : tree.frames.contains parent = true)
    (hfresh : tree.frames[id]? = none) (url : U) :
    tree.Grows id parent url (tree.addChild id parent url).2 where
  root := root_add_child tree id parent url
  fresh := hfresh
  parent_mem := by
    rw [ExtTreeMap.contains_eq_isSome_getElem?] at hparent
    exact Option.isSome_iff_exists.mp hparent
  get := get_add_child hparent url

namespace Grows

variable {parent : FrameId} {url : U}

theorem ne_of_get (hgrow : tree.Grows id parent url tree') {j : FrameId} {frame : Frame U}
    (hframe : tree.frames[j]? = some frame) : id ≠ j := by
  rintro rfl
  exact Option.some_ne_none _ (hframe.symm.trans hgrow.fresh)

theorem self (hgrow : tree.Grows id parent url tree') :
    tree'.frames[id]? = some ⟨id, some parent, url, originText url, []⟩ :=
  (hgrow.get id).trans (if_pos rfl)

theorem forth (hgrow : tree.Grows id parent url tree') {j : FrameId} {frame : Frame U}
    (hframe : tree.frames[j]? = some frame) :
    tree'.frames[j]? = some (grown parent id j frame) := by
  rw [hgrow.get, if_neg (hgrow.ne_of_get hframe), hframe, Option.map_some]

/-- A frame afterwards is the new one or one from before. -/
theorem back (hgrow : tree.Grows id parent url tree') {j : FrameId} {frame' : Frame U}
    (hframe' : tree'.frames[j]? = some frame') :
    (j = id ∧ frame' = ⟨id, some parent, url, originText url, []⟩) ∨
      ∃ frame, tree.frames[j]? = some frame ∧ frame' = grown parent id j frame := by
  rw [hgrow.get] at hframe'
  split_ifs at hframe' with hj
  · exact Or.inl ⟨hj.symm, (Option.some.inj hframe').symm⟩
  · obtain ⟨frame, hframe, rfl⟩ := Option.map_eq_some_iff.mp hframe'
    exact Or.inr ⟨frame, hframe, rfl⟩

theorem links (hgrow : tree.Grows id parent url tree') {a b : FrameId} (hlink : tree.Links a b) :
    tree'.Links a b := by
  obtain ⟨frame, hframe, hmem⟩ := links_iff.mp hlink
  exact links_iff.mpr ⟨_, hgrow.forth hframe, List.mem_append_left _ hmem⟩

theorem links_self (hgrow : tree.Grows id parent url tree') : tree'.Links parent id := by
  obtain ⟨parentFrame, hparentFrame⟩ := hgrow.parent_mem
  refine links_iff.mpr ⟨_, hgrow.forth hparentFrame, ?_⟩
  rw [grown, if_pos rfl]
  exact List.mem_append_right _ (List.mem_singleton_self _)

/-- A new leaf keeps the tree well formed. -/
theorem well_formed (h : tree.WellFormed) (hgrow : tree.Grows id parent url tree') :
    tree'.WellFormed where
  key_eq_id j frame' hframe' := by
    rcases hgrow.back hframe' with ⟨rfl, rfl⟩ | ⟨frame, hframe, rfl⟩
    · rfl
    · exact h.key_eq_id j frame hframe
  root_mem := by
    obtain ⟨frame, hframe⟩ := h.root_mem
    rw [hgrow.root]
    exact ⟨_, hgrow.forth hframe⟩
  root_iff j frame' hframe' := by
    rw [hgrow.root]
    rcases hgrow.back hframe' with ⟨rfl, rfl⟩ | ⟨frame, hframe, rfl⟩
    · obtain ⟨rootFrame, hroot⟩ := h.root_mem
      exact iff_of_false (fun hnone => by cases hnone) (hgrow.ne_of_get hroot)
    · exact h.root_iff j frame hframe
  child_parent j frame' child hframe' hmem := by
    rcases hgrow.back hframe' with ⟨rfl, rfl⟩ | ⟨frame, hframe, rfl⟩
    · exact absurd hmem List.not_mem_nil
    rcases List.mem_append.mp hmem with hin | hnew
    · obtain ⟨childFrame, hchild, hchildparent⟩ := h.child_parent j frame child hframe hin
      exact ⟨_, hgrow.forth hchild, hchildparent⟩
    · split_ifs at hnew with hj
      · rw [List.mem_singleton.mp hnew, ← hj]
        exact ⟨_, hgrow.self, rfl⟩
      · exact absurd hnew List.not_mem_nil
  listed_once j frame' p hframe' hp := by
    rcases hgrow.back hframe' with ⟨rfl, rfl⟩ | ⟨frame, hframe, rfl⟩
    · obtain rfl : parent = p := Option.some.inj hp
      obtain ⟨parentFrame, hparentFrame⟩ := hgrow.parent_mem
      refine ⟨_, hgrow.forth hparentFrame, ?_⟩
      have hzero : parentFrame.childFrames.count j = 0 := List.count_eq_zero.mpr fun hmem =>
        h.not_listed hgrow.fresh parent (links_iff.mpr ⟨parentFrame, hparentFrame, hmem⟩)
      rw [grown, if_pos rfl, List.count_append, hzero, List.count_singleton_self]
    · obtain ⟨oldParent, holdParent, hcount⟩ := h.listed_once j frame p hframe hp
      refine ⟨_, hgrow.forth holdParent, ?_⟩
      rw [grown, List.count_append, hcount]
      split_ifs
      · rw [List.count_singleton, if_neg (by simpa using hgrow.ne_of_get hframe)]
      · rfl
  reachable j frame' hframe' := by
    have hmono : ∀ b, ReflTransGen tree.Links tree.root b →
        ReflTransGen tree'.Links tree.root b := fun b hb =>
      ReflTransGen.mono (fun _ _ => hgrow.links) _ _ hb
    rw [hgrow.root]
    rcases hgrow.back hframe' with ⟨rfl, rfl⟩ | ⟨frame, hframe, rfl⟩
    · obtain ⟨parentFrame, hparentFrame⟩ := hgrow.parent_mem
      exact (hmono parent (h.reachable parent parentFrame hparentFrame)).tail hgrow.links_self
    · exact hmono j (h.reachable j frame hframe)

end Grows

theorem WellFormed.add_child (h : tree.WellFormed) (hfresh : tree.frames[id]? = none)
    (parent : FrameId) (url : U) : (tree.addChild id parent url).2.WellFormed := by
  by_cases hparent : tree.frames.contains parent = true
  · exact (add_child_grows hparent hfresh url).well_formed h
  · rw [addChild, if_neg hparent]
    exact h

/-! ## Runs -/

/-- A navigation that returns found no frame, or did its work. -/
theorem WellFormed.navigate_cases (h : tree.WellFormed) {url : U}
    {result : Except FrameError Unit × FrameTree U}
    (hresult : tree.navigate depth id url = some result) :
    tree.frames[id]? = none ∧ result = (.error .missingFrame, tree) ∨
      result.1 = .ok () ∧ tree.Navigates id url result.2 := by
  cases hframe : tree.frames[id]? with
  | none =>
      rw [navigate, hframe] at hresult
      exact Or.inl ⟨rfl, (Option.some.inj hresult).symm⟩
  | some frame =>
      have hmap : tree.navigate depth id url = _ := navigate_eq hframe url
      rw [hresult] at hmap
      obtain ⟨descendants, hdescendants, _⟩ := Option.map_eq_some_iff.mp hmap.symm
      obtain ⟨tree', hreturned, hnav⟩ := h.navigate_of_unfold hframe hdescendants url
      obtain rfl := Option.some.inj (hresult.symm.trans hreturned)
      exact Or.inr ⟨rfl, hnav⟩

/-- Every navigation of a frame has enough depth. -/
theorem WellFormed.eventually_navigate (h : tree.WellFormed)
    (hframe : tree.frames[id]? = some frame) (url : U) : ∃ tree', tree.Navigates id url tree' ∧
      ∃ bound, ∀ depth ≥ bound, tree.navigate depth id url = some (.ok (), tree') := by
  obtain ⟨bound, hbound⟩ := eventually_collect tree.finite_links h.acyclic id
  obtain ⟨descendants, hdescendants⟩ := hbound (bound + 1) (by omega)
  obtain ⟨tree', hreturned, hnav⟩ := h.navigate_of_unfold hframe hdescendants url
  refine ⟨tree', hnav, bound, fun depth hdepth => ?_⟩
  have hdeeper := unfold_mono (show bound + 1 ≤ depth + 1 by omega) hdescendants
  rw [← hreturned, navigate_eq hframe, navigate_eq hframe, hdeeper, hdescendants]

/-- Every step keeps the tree well formed. -/
theorem WellFormed.step (h : tree.WellFormed) (op : Op U)
    (hallowed : (machine depth).Allowed tree op) : ((machine depth).step tree op).WellFormed := by
  cases op with
  | addChild id parent url => exact h.add_child hallowed parent url
  | navigate id url =>
      obtain ⟨result, hresult⟩ := Option.isSome_iff_exists.mp hallowed
      have hstep : (machine depth).step tree (.navigate id url) = result.2 := by
        show ((tree.navigate depth id url).map Prod.snd).getD tree = result.2
        rw [hresult]
        rfl
      rw [hstep]
      rcases h.navigate_cases hresult with ⟨_, rfl⟩ | ⟨_, hnav⟩
      · exact h
      · exact hnav.well_formed h

theorem well_formed_of_reaches {root : FrameId} {url : U}
    (hrun : (machine depth).Reaches (new root url) tree) : tree.WellFormed :=
  hrun.invariant (P := WellFormed) (.new root url) fun _ op h hallowed => h.step op hallowed

/-- The frames of every reachable tree form a tree, and every navigation of one of them returns,
deletes its proper descendants, and changes its URL, its origin and its children only. -/
theorem reachable_well_formed {root : FrameId} {url : U}
    (hrun : (machine depth).Reaches (new root url) tree) :
    tree.WellFormed ∧ ∀ (id : FrameId) (frame : Frame U) (url' : U),
      tree.frames[id]? = some frame → ∃ tree', tree.Navigates id url' tree' ∧
        ∃ bound, ∀ depth ≥ bound, tree.navigate depth id url' = some (.ok (), tree') := by
  have h := well_formed_of_reaches hrun
  exact ⟨h, fun _ _ url' hframe => h.eventually_navigate hframe url'⟩

end Origins

/-! ## A page -/

/-- A page. -/
def page : WebUrl := ⟨"https", [], some "a.example", "/", none, none⟩

/-- A page with a frame and a frame inside it. -/
def nested : FrameTree WebUrl :=
  (((new 1 page).addChild 2 1 page).2.addChild 3 2 page).2

theorem nested_reached : (machine 9).Reaches (new 1 page) nested :=
  .step (Op.addChild 3 2 page) (.step (Op.addChild 2 1 page) .refl rfl) rfl

/-- A frame within a frame that navigates. -/
theorem nested_well_formed :
    nested.WellFormed ∧ ∀ (id : FrameId) (frame : Frame WebUrl) (url' : WebUrl),
      nested.frames[id]? = some frame → ∃ tree', nested.Navigates id url' tree' ∧
        ∃ bound, ∀ depth ≥ bound, nested.navigate depth id url' = some (.ok (), tree') :=
  reachable_well_formed nested_reached

end FrameTree

end BrowsAI.Frames
