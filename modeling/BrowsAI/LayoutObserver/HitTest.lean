import BrowsAI.AgentTree.Equality
import BrowsAI.DomObserver.RawDocument
import Mathlib.Data.List.MinMax
import Mathlib.Data.Prod.Lex

/-!
# Layout facts

The boxes of `crates/layout-observer`, keyed by engine node, as far as the semantic compiler
reads them.
-/

namespace BrowsAI.LayoutObserver

open AgentTree DomObserver

/-- A box of numbers. -/
structure Rect where
  x : F64
  y : F64
  width : F64
  height : F64
  deriving DecidableEq

/-- Where a node is, and whether it can be hit. -/
structure LayoutBox where
  nodeId : EngineNodeId
  rect : Rect
  visible : Bool
  clipped : Bool
  disabled : Bool
  deriving DecidableEq

/-- The boxes by node. -/
structure LayoutSnapshot where
  boxes : OrdMap EngineNodeId LayoutBox

/-- `LayoutSnapshot::default()`. -/
instance : Inhabited LayoutSnapshot := ⟨⟨∅⟩⟩

/-- The box of a node. -/
def LayoutSnapshot.get (layout : LayoutSnapshot) (nodeId : EngineNodeId) : Option LayoutBox :=
  layout.boxes[nodeId]?

end BrowsAI.LayoutObserver

/-!
## Hit tests

`LayoutSnapshot` of `crates/layout-observer` with all its fields, and `hit_test`: of the boxes that
accept a point, the one on top. `hit_test_eq_some_iff` and `hit_test_congr` say what the result
depends on. The sums of coordinates are a parameter; nothing is assumed about them.
-/

namespace BrowsAI.LayoutObserver.HitTest

open Std AgentTree DomObserver

/-- With its place above the others, and where that is known from. -/
structure LayoutBox extends LayoutObserver.LayoutBox where
  zIndex : Int
  pointerEvents : Bool
  provenance : List ProvenanceSource
  deriving DecidableEq

/-- What else is known of a box. -/
structure LayoutFacts where
  scrollOffsetX : F64
  scrollOffsetY : F64
  /-- The six coefficients. -/
  transform : F64 × F64 × F64 × F64 × F64 × F64
  overlap : List EngineNodeId
  hitRegions : List Rect
  deriving DecidableEq

/-- The boxes of a page with the facts about them. -/
structure LayoutSnapshot where
  generation : UInt64
  viewport : Rect
  boxes : OrdMap EngineNodeId LayoutBox
  dirtyRegions : List Rect
  facts : OrdMap EngineNodeId LayoutFacts

/-- The keys that `max_by_key` compares: an index and the id of a node, one after the other. -/
def Level : Type := ℤ ×ₗ ℕ

instance : LinearOrder Level :=
  @Prod.Lex.instLinearOrder ℤ ℕ Int.instLinearOrder Nat.instLinearOrder

/-- What boxes are compared by. -/
def LayoutBox.level (box : LayoutBox) : Level := toLex (box.zIndex, box.nodeId.toNat)

theorem node_eq_of_level_eq {box other : LayoutBox} (h : box.level = other.level) :
    box.nodeId = other.nodeId := by
  have hid := congrArg (fun level => (ofLex level).2) h
  exact UInt64.toNat_inj.mp hid

section Arithmetic

variable [Add F64]

/-- `contains`. -/
def covers (rect : Rect) (x y : F64) : Bool :=
  rect.x.le x && rect.y.le y && x.lt (rect.x + rect.width) && y.lt (rect.y + rect.height)

/-- The box can be hit where its rectangle covers the point. -/
def LayoutBox.actionable (box : LayoutBox) (x y : F64) : Bool :=
  box.visible && !box.clipped && box.pointerEvents && !box.disabled && covers box.rect x y

/-- The hit regions of a node, if it has any, cover the point. -/
def admits (facts : Option LayoutFacts) (x y : F64) : Bool :=
  facts.all fun facts => facts.hitRegions.isEmpty || facts.hitRegions.any (covers · x y)

namespace LayoutSnapshot

/-- The viewport is limited and does not cover the point. -/
def outside (layout : LayoutSnapshot) (x y : F64) : Bool :=
  F64.lt (.finite 0) layout.viewport.width && F64.lt (.finite 0) layout.viewport.height &&
    !covers layout.viewport x y

/-- The box is hit at a point if no other one is above it. -/
def accepts (layout : LayoutSnapshot) (x y : F64) (box : LayoutBox) : Bool :=
  box.actionable x y && admits layout.facts[box.nodeId]? x y

/-- The highest box at a point. -/
def hitTest (layout : LayoutSnapshot) (x y : F64) : Option EngineNodeId :=
  if layout.outside x y then none
  else
    -- boxes with one key have one node, so it does not matter which of them is taken
    ((layout.boxes.values.filter (layout.accepts x y)).argmax LayoutBox.level).map (·.nodeId)

/-- The box is one of the layout and accepts the point. -/
def Accepted (layout : LayoutSnapshot) (x y : F64) (box : LayoutBox) : Prop :=
  (∃ id : EngineNodeId, layout.boxes[id]? = some box) ∧ layout.accepts x y box

variable {layout layout' : LayoutSnapshot} {x y : F64}

theorem mem_filter_accepts {box : LayoutBox} :
    box ∈ layout.boxes.values.filter (layout.accepts x y) ↔ layout.Accepted x y box := by
  rw [List.mem_filter, OrdMap.values_eq, OrdMap.mem_values, Accepted]

theorem hit_test_of_outside (h : layout.outside x y) : layout.hitTest x y = none := if_pos h

theorem hit_test_eq_none_iff (h : layout.outside x y = false) :
    layout.hitTest x y = none ↔ ∀ box, ¬ layout.Accepted x y box := by
  rw [hitTest, h, if_neg Bool.false_ne_true, Option.map_eq_none_iff, List.argmax_eq_none,
    List.eq_nil_iff_forall_not_mem]
  exact forall_congr' fun box => not_congr mem_filter_accepts

/-- The node that is hit is that of an accepting box with no accepting box above it. -/
theorem hit_test_eq_some_iff (h : layout.outside x y = false) {id : EngineNodeId} :
    layout.hitTest x y = some id ↔ ∃ box, layout.Accepted x y box ∧ box.nodeId = id ∧
      ∀ other, layout.Accepted x y other → other.level ≤ box.level := by
  rw [hitTest, h, if_neg Bool.false_ne_true, Option.map_eq_some_iff]
  constructor
  · intro hmax
    obtain ⟨box, hbox, hid⟩ := hmax
    refine ⟨box, mem_filter_accepts.mp (List.argmax_mem hbox), hid, fun other hother => ?_⟩
    exact List.le_of_mem_argmax (mem_filter_accepts.mpr hother) hbox
  · intro htop
    obtain ⟨box, hbox, hid, habove⟩ := htop
    have hmem := mem_filter_accepts.mpr hbox
    cases hmax : (layout.boxes.values.filter (layout.accepts x y)).argmax LayoutBox.level with
    | none =>
        rw [List.argmax_eq_none.mp hmax] at hmem
        cases hmem
    | some found =>
        have hle := habove found (mem_filter_accepts.mp (List.argmax_mem hmax))
        have hge : box.level ≤ found.level := List.le_of_mem_argmax hmem hmax
        exact ⟨found, rfl, (node_eq_of_level_eq (hle.antisymm hge)).trans hid⟩

/-- The result depends on the viewport and on the boxes that accept the point. -/
theorem hit_test_congr (hviewport : layout.viewport = layout'.viewport)
    (haccepted : ∀ box, layout.Accepted x y box ↔ layout'.Accepted x y box) :
    layout.hitTest x y = layout'.hitTest x y := by
  have houtside : layout'.outside x y = layout.outside x y := by
    rw [outside, outside, hviewport]
  cases h : layout.outside x y with
  | true => rw [hit_test_of_outside h, hit_test_of_outside (houtside.trans h)]
  | false =>
      refine Option.ext fun id => ?_
      rw [hit_test_eq_some_iff h, hit_test_eq_some_iff (houtside.trans h)]
      simp only [haccepted]

end LayoutSnapshot

end Arithmetic

end BrowsAI.LayoutObserver.HitTest
