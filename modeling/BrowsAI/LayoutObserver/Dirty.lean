import BrowsAI.LayoutObserver.HitTest
import BrowsAI.Library.Runs

/-!
# Dirty regions

The calls that change a layout, and the regions that they report. A box reports its old and its new
rectangle, so no point outside changes its hit; the hit regions of a node decide the test as well,
but `set_facts` reports nothing. `always_reported_iff` says in which histories every changed point
lies in a reported region all the same.
-/

namespace BrowsAI.LayoutObserver.HitTest

open AgentTree DomObserver

namespace LayoutSnapshot

/-- Stores a box; where it was and where it is become dirty. -/
def insert (layout : LayoutSnapshot) (box : LayoutBox) : LayoutSnapshot :=
  let previous := (layout.boxes[box.nodeId]?.map (·.rect)).toList
  { layout with
    dirtyRegions := layout.dirtyRegions ++ previous ++ [box.rect]
    boxes := layout.boxes.insert box.nodeId box
    generation := layout.generation + 1 }

/-- Stores facts about a box. Nothing becomes dirty. -/
def setFacts (layout : LayoutSnapshot) (nodeId : EngineNodeId) (facts : LayoutFacts) :
    LayoutSnapshot :=
  { layout with
    facts := layout.facts.insert nodeId facts
    generation := layout.generation + 1 }

/-- Drops a box, and makes its place dirty. -/
def remove (layout : LayoutSnapshot) (nodeId : EngineNodeId) : Option LayoutBox × LayoutSnapshot :=
  match layout.boxes[nodeId]? with
  | none => (none, layout)
  | some removed =>
      (some removed,
        { layout with
          boxes := layout.boxes.erase nodeId
          dirtyRegions := layout.dirtyRegions ++ [removed.rect]
          generation := layout.generation + 1 })

/-- Makes the place of a box dirty. -/
def invalidate (layout : LayoutSnapshot) (nodeId : EngineNodeId) : Bool × LayoutSnapshot :=
  match layout.boxes[nodeId]? with
  | none => (false, layout)
  | some box => (true, { layout with dirtyRegions := layout.dirtyRegions ++ [box.rect] })

/-- The dirty places, which are then forgotten. -/
def drainDirtyRegions (layout : LayoutSnapshot) : List Rect × LayoutSnapshot :=
  (layout.dirtyRegions, { layout with dirtyRegions := [] })

/-- A call that changes the layout. -/
inductive Call where
  | insert (box : LayoutBox)
  | setFacts (nodeId : EngineNodeId) (facts : LayoutFacts)
  | remove (nodeId : EngineNodeId)
  | invalidate (nodeId : EngineNodeId)

/-- The system whose steps change the layout. -/
def changes : Machine LayoutSnapshot Call where
  step layout
    | .insert box => layout.insert box
    | .setFacts nodeId facts => layout.setFacts nodeId facts
    | .remove nodeId => (layout.remove nodeId).2
    | .invalidate nodeId => (layout.invalidate nodeId).2
  Allowed _ _ := True

variable [Add F64] {layout : LayoutSnapshot} {x y : F64}

/-- The point lies in a region that is to be drained. -/
def Reported (layout : LayoutSnapshot) (x y : F64) : Prop :=
  ∃ region ∈ layout.dirtyRegions, covers region x y

/-- Every point whose hit is not the one that it was lies in a region that is to be drained. -/
def ChangesReported (first layout : LayoutSnapshot) : Prop :=
  ∀ x y, layout.hitTest x y ≠ first.hitTest x y → layout.Reported x y

/-! ## Boxes -/

/-- Boxes that do not cover the point can be exchanged for one another. -/
theorem hit_test_eq_of_boxes {layout' : LayoutSnapshot} (id : EngineNodeId)
    (hviewport : layout'.viewport = layout.viewport) (hfacts : layout'.facts = layout.facts)
    (hother : ∀ other ≠ id, layout'.boxes[other]? = layout.boxes[other]?)
    (hold : ∀ box, layout.boxes[id]? = some box → covers box.rect x y = false)
    (hnew : ∀ box, layout'.boxes[id]? = some box → covers box.rect x y = false) :
    layout'.hitTest x y = layout.hitTest x y := by
  have hcovers : ∀ box, layout.accepts x y box = true → covers box.rect x y = true := by
    intro box hbox
    simp only [accepts, LayoutBox.actionable, Bool.and_eq_true] at hbox
    exact hbox.1.2
  have haccepts : layout'.accepts x y = layout.accepts x y := by
    funext box
    rw [accepts, accepts, hfacts]
  refine hit_test_congr hviewport fun box => ?_
  rw [Accepted, Accepted, haccepts]
  refine and_congr_left fun hbox => ?_
  constructor
  · intro h
    obtain ⟨key, hkey⟩ := h
    by_cases heq : key = id
    · rw [heq] at hkey
      cases (hnew box hkey).symm.trans (hcovers box hbox)
    · exact ⟨key, (hother key heq).symm.trans hkey⟩
  · intro h
    obtain ⟨key, hkey⟩ := h
    by_cases heq : key = id
    · rw [heq] at hkey
      cases (hold box hkey).symm.trans (hcovers box hbox)
    · exact ⟨key, (hother key heq).trans hkey⟩

/-- A point whose hit an insertion changes lies in the old or in the new rectangle. -/
theorem reported_insert (box : LayoutBox)
    (h : (layout.insert box).hitTest x y ≠ layout.hitTest x y) :
    (layout.insert box).Reported x y := by
  by_contra hnot
  simp only [Reported, not_exists, not_and] at hnot
  refine h (hit_test_eq_of_boxes box.nodeId rfl rfl ?_ ?_ ?_)
  · intro other hother
    exact OrdMap.get_insert_ne _ hother.symm _
  · intro previous hprevious
    refine Bool.not_eq_true _ ▸ hnot previous.rect ?_
    simp [insert, hprevious]
  · intro inserted hinserted
    rw [show (layout.insert box).boxes = layout.boxes.insert box.nodeId box from rfl,
      OrdMap.get_insert_self] at hinserted
    cases hinserted
    refine Bool.not_eq_true _ ▸ hnot box.rect ?_
    simp [insert]

/-- A point whose hit changes with a removal is in a dirty place. -/
theorem reported_remove (nodeId : EngineNodeId)
    (h : (layout.remove nodeId).2.hitTest x y ≠ layout.hitTest x y) :
    (layout.remove nodeId).2.Reported x y := by
  unfold remove at h ⊢
  cases hbox : layout.boxes[nodeId]? with
  | none =>
      rw [hbox] at h
      exact absurd rfl h
  | some removed =>
      rw [hbox] at h
      dsimp only at h ⊢
      by_contra hnot
      simp only [Reported, not_exists, not_and] at hnot
      refine h (hit_test_eq_of_boxes nodeId rfl rfl ?_ ?_ ?_)
      · intro other hother
        rw [OrdMap.get_erase, if_neg hother.symm]
      · intro previous hprevious
        rw [hbox] at hprevious
        cases hprevious
        exact Bool.not_eq_true _ ▸ hnot removed.rect (by simp)
      · intro left hleft
        rw [OrdMap.get_erase, if_pos rfl] at hleft
        cases hleft

theorem hit_test_invalidate (nodeId : EngineNodeId) :
    (layout.invalidate nodeId).2.hitTest x y = layout.hitTest x y := by
  unfold invalidate
  cases layout.boxes[nodeId]? with
  | none => rfl
  | some box => exact hit_test_congr rfl fun _ => .rfl

/-! ## Hit regions -/

/-- A box of the layout that can be hit at the point where the hit regions of its node admit it, and
that lies above the boxes of all other nodes there. -/
structure OnTop (layout : LayoutSnapshot) (nodeId : EngineNodeId) (x y : F64) (box : LayoutBox) :
    Prop where
  present : ∃ id : EngineNodeId, layout.boxes[id]? = some box
  node : box.nodeId = nodeId
  actionable : box.actionable x y
  above : ∀ other, layout.Accepted x y other → other.nodeId ≠ nodeId → other.level < box.level

variable {nodeId : EngineNodeId} {facts : LayoutFacts}

theorem outside_set_facts : (layout.setFacts nodeId facts).outside x y = layout.outside x y := rfl

theorem accepted_set_facts_of_ne {box : LayoutBox} (h : box.nodeId ≠ nodeId) :
    (layout.setFacts nodeId facts).Accepted x y box ↔ layout.Accepted x y box := by
  show _ ∧ (_ && admits (layout.facts.insert nodeId facts)[box.nodeId]? x y) = true ↔ _
  rw [OrdMap.get_insert_ne _ (Ne.symm h)]
  rfl

omit [Add F64] in
theorem facts_set_facts : (layout.setFacts nodeId facts).facts[nodeId]? = some facts :=
  OrdMap.get_insert_self _ _ _

/-- A node with a box on top is hit exactly where its hit regions admit it. -/
theorem hit_test_of_on_top (houtside : layout.outside x y = false) {box : LayoutBox}
    (htop : layout.OnTop nodeId x y box) :
    layout.hitTest x y = some nodeId ↔ admits layout.facts[nodeId]? x y := by
  constructor
  · intro h
    obtain ⟨found, hfound, hid, _⟩ := (hit_test_eq_some_iff houtside).mp h
    have haccepts := hfound.2
    rw [accepts, hid, Bool.and_eq_true] at haccepts
    exact haccepts.2
  · intro h
    have haccepted : layout.Accepted x y box :=
      ⟨htop.present, by rw [accepts, htop.node, htop.actionable, h]; rfl⟩
    cases hhit : layout.hitTest x y with
    | none => exact absurd haccepted ((hit_test_eq_none_iff houtside).mp hhit box)
    | some id =>
        obtain ⟨found, hfound, hid, hmax⟩ := (hit_test_eq_some_iff houtside).mp hhit
        by_contra hne
        have hlt := htop.above found hfound fun heq => hne (by rw [← hid, heq])
        exact absurd (hmax box haccepted) hlt.not_ge

/-- Where no box of a node is on top, the other boxes decide. -/
theorem hit_test_eq_some_iff_of_covered (houtside : layout.outside x y = false)
    (hcovered : ∀ box, ¬ layout.OnTop nodeId x y box) {id : EngineNodeId} :
    layout.hitTest x y = some id ↔
      ∃ box, (layout.Accepted x y box ∧ box.nodeId ≠ nodeId) ∧ box.nodeId = id ∧
        ∀ other, layout.Accepted x y other ∧ other.nodeId ≠ nodeId → other.level ≤ box.level := by
  -- above every accepting box of the node there is one of another node
  have hunder : ∀ box, layout.Accepted x y box → box.nodeId = nodeId →
      ∃ other, layout.Accepted x y other ∧ other.nodeId ≠ nodeId ∧ box.level ≤ other.level := by
    intro box hbox hnode
    by_contra hnone
    have hactionable := hbox.2
    rw [accepts, Bool.and_eq_true] at hactionable
    refine hcovered box ⟨hbox.1, hnode, hactionable.1, fun other hother hne => ?_⟩
    by_contra hle
    exact hnone ⟨other, hother, hne, le_of_not_gt hle⟩
  rw [hit_test_eq_some_iff houtside]
  constructor
  · intro h
    obtain ⟨box, hbox, hid, hmax⟩ := h
    refine ⟨box, ⟨hbox, fun hnode => ?_⟩, hid, fun other hother => hmax other hother.1⟩
    obtain ⟨other, hother, hne, hle⟩ := hunder box hbox hnode
    exact hne ((node_eq_of_level_eq ((hmax other hother).antisymm hle)).trans hnode)
  · intro h
    obtain ⟨box, ⟨hbox, _⟩, hid, hmax⟩ := h
    refine ⟨box, hbox, hid, fun other hother => ?_⟩
    by_cases hnode : other.nodeId = nodeId
    · obtain ⟨cover, hcover, hne, hle⟩ := hunder other hother hnode
      exact hle.trans (hmax cover ⟨hcover, hne⟩)
    · exact hmax other ⟨hother, hnode⟩

theorem on_top_set_facts_iff {box : LayoutBox} :
    (layout.setFacts nodeId facts).OnTop nodeId x y box ↔ layout.OnTop nodeId x y box := by
  constructor
  · intro h
    exact ⟨h.present, h.node, h.actionable, fun other hother hne =>
      h.above other ((accepted_set_facts_of_ne hne).mpr hother) hne⟩
  · intro h
    exact ⟨h.present, h.node, h.actionable, fun other hother hne =>
      h.above other ((accepted_set_facts_of_ne hne).mp hother) hne⟩

/-- New facts change the hit where the hit regions decide differently about a node with a box on
top. -/
theorem hit_test_set_facts_ne_iff :
    (layout.setFacts nodeId facts).hitTest x y ≠ layout.hitTest x y ↔
      layout.outside x y = false ∧
        admits (some facts) x y ≠ admits layout.facts[nodeId]? x y ∧
        ∃ box, layout.OnTop nodeId x y box := by
  constructor
  · intro h
    have houtside : layout.outside x y = false := by
      by_contra hout
      rw [Bool.not_eq_false] at hout
      exact h ((hit_test_of_outside (outside_set_facts.trans hout)).trans
        (hit_test_of_outside hout).symm)
    refine ⟨houtside, fun hsame => ?_, ?_⟩
    · -- with the same decision the same boxes accept the point
      refine h (hit_test_congr rfl fun box => ?_)
      by_cases hnode : box.nodeId = nodeId
      · show _ ∧ (_ && admits (layout.facts.insert nodeId facts)[box.nodeId]? x y) = true ↔
          _ ∧ (_ && admits layout.facts[box.nodeId]? x y) = true
        rw [hnode, OrdMap.get_insert_self, hsame]
        rfl
      · exact accepted_set_facts_of_ne hnode
    · by_contra hnone
      rw [not_exists] at hnone
      refine h (Option.ext fun id => ?_)
      rw [hit_test_eq_some_iff_of_covered houtside hnone,
        hit_test_eq_some_iff_of_covered (outside_set_facts.trans houtside)
          fun box (hbox : OnTop _ nodeId x y box) => hnone box (on_top_set_facts_iff.mp hbox)]
      simp only [and_congr_left fun hne => accepted_set_facts_of_ne hne]
  · intro h
    obtain ⟨houtside, hdiffer, box, htop⟩ := h
    intro heq
    have htop' : (layout.setFacts nodeId facts).OnTop nodeId x y box :=
      on_top_set_facts_iff.mpr htop
    have hnew := hit_test_of_on_top (outside_set_facts.trans houtside) htop'
    rw [heq, hit_test_of_on_top houtside htop, facts_set_facts] at hnew
    exact hdiffer (Bool.eq_iff_iff.mpr hnew.symm)

/-! ## Histories -/

/-- New facts decide differently only about points that are reported already, that the viewport
excludes, or where the node has no box on top. -/
def KeepsHits (layout : LayoutSnapshot) : Call → Prop
  | .setFacts nodeId facts => ∀ x y, layout.outside x y = false →
      admits (some facts) x y ≠ admits layout.facts[nodeId]? x y →
      (∃ box, layout.OnTop nodeId x y box) → layout.Reported x y
  | _ => True

/-- Regions are only added between two drains. -/
theorem Reported.step (h : layout.Reported x y) (call : Call) :
    (changes.step layout call).Reported x y := by
  obtain ⟨region, hmem, hcovers⟩ := h
  refine ⟨region, ?_, hcovers⟩
  cases call with
  | insert box =>
      show region ∈ layout.dirtyRegions ++ _ ++ _
      simp [hmem]
  | setFacts nodeId facts => exact hmem
  | remove nodeId =>
      show region ∈ (layout.remove nodeId).2.dirtyRegions
      unfold remove
      cases layout.boxes[nodeId]? with
      | none => exact hmem
      | some removed => exact List.mem_append_left _ hmem
  | invalidate nodeId =>
      show region ∈ (layout.invalidate nodeId).2.dirtyRegions
      unfold invalidate
      cases layout.boxes[nodeId]? with
      | none => exact hmem
      | some box => exact List.mem_append_left _ hmem

/-- The points whose hit one call changes are reported exactly when it keeps the other hits. -/
theorem step_reported_iff (call : Call) :
    (∀ x y, (changes.step layout call).hitTest x y ≠ layout.hitTest x y →
      (changes.step layout call).Reported x y) ↔ layout.KeepsHits call := by
  cases call with
  | insert box => exact iff_of_true (fun _ _ => reported_insert box) trivial
  | setFacts nodeId facts =>
      refine forall_congr' fun x => forall_congr' fun y => ?_
      show ((layout.setFacts nodeId facts).hitTest x y ≠ layout.hitTest x y →
        layout.Reported x y) ↔ _
      rw [hit_test_set_facts_ne_iff, and_imp, and_imp]
  | remove nodeId => exact iff_of_true (fun _ _ => reported_remove nodeId) trivial
  | invalidate nodeId =>
      exact iff_of_true (fun _ _ hne => absurd (hit_test_invalidate nodeId) hne) trivial

/-- Where the changes so far are reported, those after a call are exactly when the call reports
its own. -/
theorem changes_reported_step_iff {first : LayoutSnapshot} (h : first.ChangesReported layout)
    (call : Call) : first.ChangesReported (changes.step layout call) ↔ layout.KeepsHits call := by
  rw [← step_reported_iff]
  constructor
  · intro hnext x y hne
    by_cases hback : (changes.step layout call).hitTest x y = first.hitTest x y
    · -- a hit that is back to what it was had been changed before
      exact (h x y fun hsame => hne (hback.trans hsame.symm)).step call
    · exact hnext x y hback
  · intro hstep x y hne
    by_cases hsame : (changes.step layout call).hitTest x y = layout.hitTest x y
    · exact (h x y (hsame ▸ hne)).step call
    · exact hstep x y hsame

/-- After a drain, at every moment of a history of calls, every point whose hit is not what it was
at the drain lies in a region that the next drain gives, exactly when every call of `set_facts`
keeps the hits of the points that are not reported yet. -/
theorem always_reported_iff (layout : LayoutSnapshot) (calls : List Call) :
    changes.Always (ChangesReported layout.drainDirtyRegions.2) layout.drainDirtyRegions.2 calls ↔
      changes.Throughout KeepsHits layout.drainDirtyRegions.2 calls :=
  Machine.always_iff_of_step (P := ChangesReported layout.drainDirtyRegions.2) (fun _ _ => trivial)
    (fun _ call hreported => changes_reported_step_iff hreported call)
    (fun _ _ hne => absurd rfl hne) calls

end LayoutSnapshot

/-! ## A box that loses its middle -/

/-- A square of ten by ten pixels in the corner of the page. -/
def cornerBox : LayoutBox where
  nodeId := 1
  rect := ⟨.finite 0, .finite 0, .finite 10, .finite 10⟩
  visible := true
  clipped := false
  disabled := false
  zIndex := 0
  pointerEvents := true
  provenance := []

/-- A layout with one box. -/
def cornerLayout : LayoutSnapshot where
  generation := 1
  viewport := ⟨.finite 0, .finite 0, .finite 100, .finite 100⟩
  boxes := (∅ : OrdMap EngineNodeId LayoutBox).insert 1 cornerBox
  dirtyRegions := []
  facts := ∅

/-- One hit region of one pixel. -/
def cornerPixel : LayoutFacts where
  scrollOffsetX := .finite 0
  scrollOffsetY := .finite 0
  transform := (.finite 1, .finite 0, .finite 0, .finite 1, .finite 0, .finite 0)
  overlap := []
  hitRegions := [⟨.finite 0, .finite 0, .finite 1, .finite 1⟩]

/-- The middle of the box is no longer hit, and no region is reported. -/
theorem corner_pixel_not_reported :
    let _ : Add F64 := ⟨F64.exactAdd⟩
    cornerLayout.hitTest (.finite 5) (.finite 5) = some 1 ∧
      (cornerLayout.setFacts 1 cornerPixel).hitTest (.finite 5) (.finite 5) = none ∧
      (cornerLayout.setFacts 1 cornerPixel).drainDirtyRegions.1 = [] ∧
      ¬ LayoutSnapshot.changes.Always
        (LayoutSnapshot.ChangesReported cornerLayout.drainDirtyRegions.2)
        cornerLayout.drainDirtyRegions.2 [.setFacts 1 cornerPixel] := by
  intro _
  refine ⟨by decide +kernel, by decide +kernel, rfl, fun h => ?_⟩
  obtain ⟨region, hregion, _⟩ := h.2 (.finite 5) (.finite 5) (by decide +kernel)
  cases hregion

end BrowsAI.LayoutObserver.HitTest
