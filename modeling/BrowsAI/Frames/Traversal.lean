import BrowsAI.Frames.WellFormed
import BrowsAI.Library.Json

/-!
# Traversing a loaded tree

`from_json` checks that every link leads to a frame, and nothing else about the links. The
traversals of a loaded tree return, with distinct ids, exactly when the document has at most one
path of child links between any two frames. Trees that the calls have built are like that.
-/

namespace BrowsAI.Frames

open Std Utf8 Network Profiles Relation Unfold

namespace FrameTree

variable {U : Type} {tree : FrameTree U} {depth : Nat} {id : FrameId} {frame : Frame U}

/-! ## Trees that the calls build -/

namespace WellFormed

/-- A frame lists no frame twice. -/
theorem nodup_child_frames (h : tree.WellFormed) (id : FrameId) : (tree.childFrames id).Nodup := by
  rw [List.nodup_iff_count_le_one]
  intro child
  by_cases hmem : child ∈ tree.childFrames id
  · obtain ⟨frame, hframe, hchild⟩ := links_iff.mp hmem
    obtain ⟨childFrame, hget, hparent⟩ := h.child_parent id frame child hframe hchild
    obtain ⟨frame', hframe', hcount⟩ := h.listed_once child childFrame id hget hparent
    rw [child_frames_eq hframe', hcount]
  · rw [List.count_eq_zero.mpr hmem]
    omega

theorem unique_paths (h : tree.WellFormed) : UniquePaths tree.childFrames :=
  UniqueLinks.unique_paths ⟨fun _ _ _ ha hb => h.links_unique ha hb, h.nodup_child_frames⟩
    h.acyclic

end WellFormed

/-! ## Loading -/

/-- The checks of `from_json`: the root and every linked frame are there. -/
structure Linked (tree : FrameTree U) : Prop where
  root : tree.frames.contains tree.root = true
  parent : ∀ (id : FrameId) (frame : Frame U) (parent : FrameId), tree.frames[id]? = some frame →
    frame.parent = some parent → tree.frames.contains parent = true
  child : ∀ (id : FrameId) (frame : Frame U) (child : FrameId), tree.frames[id]? = some frame →
    child ∈ frame.childFrames → tree.frames.contains child = true

/-- The test of `from_json`: the root, a parent or a child is not there. -/
def dangles (tree : FrameTree U) : Bool :=
  !tree.frames.contains tree.root || tree.frames.toList.any fun entry =>
    (entry.2.parent.any fun parent => !tree.frames.contains parent) ||
      entry.2.childFrames.any fun child => !tree.frames.contains child

/-- The check of a tree that is read. -/
theorem dangles_eq_false_iff : tree.dangles = false ↔ tree.Linked := by
  have hlink : ∀ id : FrameId, (!tree.frames.contains id) = false ↔
      tree.frames.contains id = true := fun id => by rw [Bool.not_eq_false']
  unfold dangles
  simp only [Bool.or_eq_false_iff, List.any_eq_false, Bool.not_eq_true, Option.any_eq_false, hlink]
  constructor
  · rintro ⟨hroot, hframes⟩
    have hframe : ∀ (id : FrameId) (frame : Frame U), tree.frames[id]? = some frame → _ :=
      fun id frame hget =>
        hframes (id, frame) (ExtTreeMap.mem_toList_iff_getElem?_eq_some.mpr hget)
    exact ⟨hroot, fun id frame parent hget hparent => (hframe id frame hget).1 parent hparent,
      fun id frame child hget hchild => (hframe id frame hget).2 child hchild⟩
  · intro h
    refine ⟨h.root, fun entry hentry => ?_⟩
    have hget := ExtTreeMap.mem_toList_iff_getElem?_eq_some.mp hentry
    exact ⟨fun parent hparent => h.parent entry.1 entry.2 parent hget hparent,
      fun child hchild => h.child entry.1 entry.2 child hget hchild⟩

/-- A tree is read exactly if all its ids are those of frames. -/
theorem from_json_eq_ok_iff {json : Json U} {text : Text} :
    fromJson json text = .ok tree ↔ json.fromStr text = some tree ∧ tree.Linked := by
  rw [fromJson]
  cases hdocument : json.fromStr text with
  | none => exact iff_of_false (fun h => by cases h) fun h => by cases h.1
  | some document =>
      show (if document.dangles then _ else _) = _ ↔ _
      cases hdangles : document.dangles with
      | false =>
          rw [if_neg Bool.false_ne_true]
          constructor
          · intro h
            cases h
            exact ⟨rfl, dangles_eq_false_iff.mp hdangles⟩
          · intro h
            cases h.1
            rfl
      | true =>
          rw [if_pos rfl]
          refine iff_of_false (fun h => by cases h) fun h => ?_
          cases h.1
          rw [dangles_eq_false_iff.mpr h.2] at hdangles
          cases hdangles

/-! ## The traversals -/

/-- The ids below a frame are those of the traversal. -/
theorem scoped_ids_eq (hframe : tree.frames[id]? = some frame) :
    tree.scopedIds depth id =
      (unfold tree.childFrames (gather tree.childFrames) depth id).map fun ids =>
        .ok (id :: ids) := by
  have hcontains : tree.frames.contains id = true := by
    rw [ExtTreeMap.contains_eq_isSome_getElem?, hframe]
    rfl
  rw [scopedIds, hcontains, Bool.not_true, if_neg Bool.false_ne_true, collect_descendants_eq,
    collect_eq, Option.map_map]
  rfl

/-- With enough depth the traversals from every frame return, and none lists a frame twice. -/
def TraversesOnce [OriginUrl U] (tree : FrameTree U) : Prop :=
  ∀ (id : FrameId) (frame : Frame U), tree.frames[id]? = some frame →
    ∃ bound, ∀ depth ≥ bound,
      (∃ ids, tree.scopedIds depth id = some (.ok ids) ∧ ids.Nodup) ∧
      (∃ scope, tree.agentScope depth id = some (.ok scope)) ∧
      ∀ url, (tree.navigate depth id url).isSome = true

/-- Every frame is met once exactly if every frame has one path. -/
theorem traverses_once_iff [OriginUrl U] :
    tree.TraversesOnce ↔ UniquePaths tree.childFrames := by
  constructor
  · intro h a b is js his hjs
    cases hframe : tree.frames[a]? with
    | none =>
        -- there is no way on from a frame that is not there
        have hempty : tree.childFrames a = [] := by
          rw [childFrames, hframe]
          rfl
        have hstay : ∀ {c : FrameId} {ks : List Nat}, Path tree.childFrames a ks c → ks = [] := by
          intro c ks hks
          cases hks with
          | nil => rfl
          | cons here _ =>
              rw [hempty] at here
              cases here
        rw [hstay his, hstay hjs]
    | some frame =>
        obtain ⟨bound, hbound⟩ := h a frame hframe
        obtain ⟨⟨ids, hids, hnodup⟩, _⟩ := hbound bound (Nat.le_refl _)
        rw [scoped_ids_eq hframe] at hids
        obtain ⟨descendants, hdescendants, hok⟩ := Option.map_eq_some_iff.mp hids
        cases hok
        exact (nodup_iff_unique_path hdescendants).mp hnodup b is js his hjs
  · intro h id frame hframe
    obtain ⟨bound, hbound⟩ := eventually_collect tree.finite_links h.acyclic id
    refine ⟨bound, fun depth hdepth => ?_⟩
    obtain ⟨descendants, hdescendants⟩ := hbound depth hdepth
    have hscoped : tree.scopedIds depth id = some (.ok (id :: descendants)) := by
      rw [scoped_ids_eq hframe, hdescendants, Option.map_some]
    refine ⟨⟨_, hscoped, ?_⟩, ?_, fun url => ?_⟩
    · exact (nodup_iff_unique_path hdescendants).mpr fun b is js his hjs => h id b is js his hjs
    · rw [agentScope, hframe]
      dsimp only
      rw [hscoped, Option.map_some]
      exact ⟨_, rfl⟩
    · rw [navigate_eq hframe, unfold_mono (Nat.le_succ depth) hdescendants]
      rfl

/-- A tree that the calls have built is traversed once from every frame. -/
theorem WellFormed.traverses_once [OriginUrl U] (h : tree.WellFormed) : tree.TraversesOnce :=
  traverses_once_iff.mpr h.unique_paths

/-- The traversals of a loaded tree return, with distinct ids, exactly when the document has at most
one path between two frames. -/
theorem loaded_traverses_iff [OriginUrl U] (json : Json U) (text : Text) :
    (∀ tree, fromJson json text = .ok tree → tree.TraversesOnce) ↔
      ∀ document, json.fromStr text = some document → document.Linked →
        UniquePaths document.childFrames := by
  simp only [from_json_eq_ok_iff, traverses_once_iff, and_imp]

end FrameTree

/-! ## JSON text -/

namespace Json

open JsonPrint (quote object array orNull)

/-- An id, or null. -/
def optionalId (id : Option FrameId) : Text :=
  orNull (id.map fun id => quote (hyphenated id))

/-- The JSON of a frame. -/
def frame [Url U] (frame : Frame U) : Text :=
  object [("id", quote (hyphenated frame.id)), ("parent", optionalId frame.parent),
    ("url", quote (Url.asStr frame.url)), ("origin", quote frame.origin),
    ("child_frames", array (frame.childFrames.map fun id => quote (hyphenated id)))]

/-- The JSON of a tree. -/
def tree [Url U] (tree : FrameTree U) : Text :=
  object [("frames", object (tree.frames.toList.map fun (id, f) => (hyphenated id, frame f))),
    ("root", quote (hyphenated tree.root))]

/-- A reader of the text of one tree. -/
def printed [Url U] (value : FrameTree U) : Json U where
  fromStr text := if text = tree value then some value else none

end Json

namespace FrameTree

/-- A root that is its own child. -/
def selfListed : FrameTree WebUrl where
  frames := (∅ : OrdMap FrameId (Frame WebUrl)).insert 1
    { id := 1, parent := none, url := page, origin := originText page, childFrames := [1] }
  root := 1

/-- The document is accepted, and no depth is enough for its traversal. -/
theorem self_listed_not_traversed :
    (∀ depth, selfListed.scopedIds depth 1 = none) ∧
      ¬ ∀ tree, fromJson (.printed selfListed) (Json.tree selfListed) = .ok tree →
        tree.TraversesOnce := by
  have hscoped : ∀ depth, selfListed.scopedIds depth 1 = none := by
    have hcollect : ∀ depth descendants,
        selfListed.collectDescendants depth 1 descendants = none := by
      intro depth
      induction depth with
      | zero => exact fun _ => rfl
      | succ depth ih =>
          intro descendants
          show ((selfListed.collectDescendants depth 1 descendants).bind _).bind _ = none
          rw [ih]
          rfl
    intro depth
    show (selfListed.collectDescendants depth 1 [1]).map Except.ok = none
    rw [hcollect]
    rfl
  refine ⟨hscoped, fun h => ?_⟩
  have hloaded : fromJson (.printed selfListed) (Json.tree selfListed) = .ok selfListed := by
    rw [fromJson, Json.printed]
    dsimp only
    rw [if_pos rfl]
    rfl
  obtain ⟨bound, hbound⟩ := h selfListed hloaded 1 _ (OrdMap.get_insert_self _ _ _)
  obtain ⟨⟨ids, hids, _⟩, _⟩ := hbound bound (Nat.le_refl _)
  rw [hscoped] at hids
  cases hids

end FrameTree

end BrowsAI.Frames
