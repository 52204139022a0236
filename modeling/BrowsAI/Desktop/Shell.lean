import BrowsAI.LayoutObserver.HitTest
import BrowsAI.Library.Json
import BrowsAI.Library.Runs
import BrowsAI.Library.Saturating
import BrowsAI.Library.Stacking
import BrowsAI.Profiles.Identity

/-!
# The desktop shell

`DesktopShell` of `browsai-desktop`: surfaces with their layouts, one of which has the focus.
`shell_run` says for every run that the focus is somewhere as long as there is a surface, that a click
reaches the topmost surface at its point, that a new surface is above all others, and that a shell is
restored from its JSON text, unless a download has a progress that is no finite number.

The reader of JSON text and the text of a finite `f32` are the parameter `ShellJson`, and an `i32` is an
integer.
-/

namespace BrowsAI.Desktop

open Utf8 Std Profiles AgentTree Stacking Saturating

/-- The id of a surface, drawn at random. -/
abbrev SurfaceId := Uuid

/-- What a surface shows. The progress of a download is an `f32`. -/
inductive Surface where
  | window (width height : UInt32)
  | tab (title url : Text)
  | navigationControls (backEnabled forwardEnabled reloadEnabled : Bool)
  | dialog (title message : Text)
  | permissionPrompt (origin permission : Text)
  | confirmation (requestId summary : Text)
  | download (filename : Text) (progress : F64)
  | takeover (reason : Text)
  | diagnostics (message level : Text)
  | accessibilityNotice (role label : Text)
  deriving DecidableEq

/-- Where a surface is, and how high in the stack. -/
structure SurfaceLayout where
  x : Int
  y : Int
  width : UInt32
  height : UInt32
  zIndex : UInt32
  visible : Bool
  deriving DecidableEq

/-- A surface with its layout, for the compositor. -/
structure RenderSurface where
  id : SurfaceId
  surface : Surface
  layout : SurfaceLayout
  deriving DecidableEq

/-- The surfaces with their layouts, and the one that has the focus. -/
structure DesktopShell where
  surfaces : OrdMap SurfaceId Surface
  layouts : OrdMap SurfaceId SurfaceLayout
  focusedId : Option SurfaceId
  locale : Text

/-- What is written of a shell. -/
structure DesktopShellWire where
  surfaces : List (SurfaceId × Surface)
  layouts : List (SurfaceId × SurfaceLayout)
  focused : Option SurfaceId
  locale : Text
  deriving DecidableEq

/-- `as i32`. -/
def asI32 (n : UInt32) : Int := if n.toNat < 2 ^ 31 then n.toNat else n.toNat - 2 ^ 32

/-- The size that a new surface gets. -/
def Surface.size : Surface → UInt32 × UInt32
  | .window width height => (width, height)
  | .tab .. => (1024, 640)
  | .navigationControls .. => (640, 48)
  | .dialog .. | .permissionPrompt .. | .confirmation .. | .takeover .. | .diagnostics ..
  | .accessibilityNotice .. => (480, 240)
  | .download .. => (420, 120)

/-- The point is within the layout. -/
def SurfaceLayout.covers (layout : SurfaceLayout) (x y : Int) : Bool :=
  decide (layout.x ≤ x) && decide (layout.y ≤ y) &&
    decide (x < saturatingAddSigned 31 layout.x (asI32 layout.width)) &&
    decide (y < saturatingAddSigned 31 layout.y (asI32 layout.height))

/-- The order of the compositor. -/
def RenderSurface.level (rendered : RenderSurface) : ℕ ×ₗ ℕ :=
  toLex (rendered.layout.zIndex.toNat, rendered.id.toNat)

namespace DesktopShell

/-- No surface. -/
def default : DesktopShell := ⟨∅, ∅, none, []⟩

/-- The greatest index of a layout, or 0. -/
def topIndex (s : DesktopShell) : Nat :=
  (s.layouts.values.map fun layout => layout.zIndex.toNat).max?.getD 0

/-- The layout of a new surface. -/
def openLayout (s : DesktopShell) (surface : Surface) : SurfaceLayout where
  x := 0
  y := 0
  width := surface.size.1
  height := surface.size.2
  zIndex := UInt32.ofNat (min (s.topIndex + 1) (2 ^ 32 - 1))
  visible := true

/-- `open`, with the UUID of the surface. -/
def openSurface (s : DesktopShell) (id : SurfaceId) (surface : Surface) : DesktopShell :=
  { s with
    surfaces := s.surfaces.insert id surface
    layouts := s.layouts.insert id (s.openLayout surface)
    focusedId := some id }

/-- Sets the locale. -/
def setLocale (s : DesktopShell) (locale : Text) : DesktopShell := { s with locale }

/-- Closes a surface; the focus goes to the first one left if it was there. -/
def close (s : DesktopShell) (id : SurfaceId) : Option Surface × DesktopShell :=
  let surfaces := s.surfaces.erase id
  (s.surfaces[id]?,
    { s with
      surfaces
      layouts := s.layouts.erase id
      focusedId := if s.focusedId = some id then surfaces.minKey? else s.focusedId })

/-- Moves the focus to a surface that is open. -/
def focus (s : DesktopShell) (id : SurfaceId) : Bool × DesktopShell :=
  if (s.surfaces[id]?).isSome then (true, { s with focusedId := some id }) else (false, s)

/-- The surface with the focus. -/
def focused (s : DesktopShell) : Option (SurfaceId × Surface) :=
  s.focusedId.bind fun id => (s.surfaces[id]?).map fun surface => (id, surface)

/-- Places a surface that is open. -/
def setLayout (s : DesktopShell) (id : SurfaceId) (layout : SurfaceLayout) : Bool × DesktopShell :=
  if (s.surfaces[id]?).isSome then (true, { s with layouts := s.layouts.insert id layout })
  else (false, s)

/-- The surface of an entry, if it is to be rendered. -/
def rendered (s : DesktopShell) (entry : SurfaceId × Surface) : Option RenderSurface :=
  (s.layouts[entry.1]?).bind fun layout =>
    if layout.visible then some ⟨entry.1, entry.2, layout⟩ else none

/-- The visible surfaces, from the lowest to the highest. -/
def renderPlan (s : DesktopShell) : List RenderSurface :=
  sortByKey RenderSurface.level (s.surfaces.toList.filterMap s.rendered)

/-- The highest surface at a point. -/
def hitTest (s : DesktopShell) (x y : Int) : Option SurfaceId :=
  (topmost (fun surface => surface.layout.covers x y) s.renderPlan).map RenderSurface.id

/-- The wire of `to_json`. -/
def toWire (s : DesktopShell) : DesktopShellWire :=
  ⟨s.surfaces.toList, s.layouts.toList, s.focusedId, s.locale⟩

/-- The shell of a wire in `from_json`. -/
def fromWire (wire : DesktopShellWire) : DesktopShell :=
  let surfaces : OrdMap SurfaceId Surface :=
    wire.surfaces.foldl (fun surfaces entry => surfaces.insert entry.1 entry.2) ∅
  { surfaces
    layouts := (wire.layouts.filter fun entry => (surfaces[entry.1]?).isSome).foldl
      (fun layouts entry => layouts.insert entry.1 entry.2) ∅
    focusedId := wire.focused.filter fun id => (surfaces[id]?).isSome
    locale := wire.locale }

end DesktopShell

/-! ## JSON -/

/-- `serde_json`: the text of a finite `f32`, and the reader of a shell. -/
structure ShellJson where
  floatText : ℚ → Text
  fromStr : Text → Option DesktopShellWire

namespace ShellJson

open JsonPrint (quote object array bool ofInt orNull)

variable (json : ShellJson)

/-- An `f32`, which is `null` when it is not finite. -/
def float : F64 → Text
  | .finite value => json.floatText value
  | .negativeZero => "-0.0"
  | .nan | .infinity _ => "null"

/-- A surface under the name of its kind. -/
def surface : Surface → Text
  | .window width height =>
      object [("Window", object [("width", ofNat width.toNat), ("height", ofNat height.toNat)])]
  | .tab title url => object [("Tab", object [("title", quote title), ("url", quote url)])]
  | .navigationControls backEnabled forwardEnabled reloadEnabled =>
      object [("NavigationControls", object [("back_enabled", bool backEnabled),
        ("forward_enabled", bool forwardEnabled), ("reload_enabled", bool reloadEnabled)])]
  | .dialog title message =>
      object [("Dialog", object [("title", quote title), ("message", quote message)])]
  | .permissionPrompt origin permission =>
      object [("PermissionPrompt", object [("origin", quote origin),
        ("permission", quote permission)])]
  | .confirmation requestId summary =>
      object [("Confirmation", object [("request_id", quote requestId),
        ("summary", quote summary)])]
  | .download filename progress =>
      object [("Download", object [("filename", quote filename),
        ("progress", json.float progress)])]
  | .takeover reason => object [("Takeover", object [("reason", quote reason)])]
  | .diagnostics message level =>
      object [("Diagnostics", object [("message", quote message), ("level", quote level)])]
  | .accessibilityNotice role label =>
      object [("AccessibilityNotice", object [("role", quote role), ("label", quote label)])]

/-- The layout of a surface. -/
def layout (layout : SurfaceLayout) : Text :=
  object [("x", ofInt layout.x), ("y", ofInt layout.y), ("width", ofNat layout.width.toNat),
    ("height", ofNat layout.height.toNat), ("z_index", ofNat layout.zIndex.toNat),
    ("visible", bool layout.visible)]

/-- The entries of a map are written as pairs. -/
def wire (wire : DesktopShellWire) : Text :=
  object [
    ("surfaces", array (wire.surfaces.map fun (id, s) =>
      array [quote (hyphenated id), json.surface s])),
    ("layouts", array (wire.layouts.map fun (id, l) => array [quote (hyphenated id), layout l])),
    ("focused", orNull (wire.focused.map fun id => quote (hyphenated id))),
    ("locale", quote wire.locale)]

end ShellJson

/-- The progress of a download is finite. -/
def Surface.isFinite : Surface → Bool
  | .download _ (.finite _) | .download _ .negativeZero => true
  | .download _ .nan | .download _ (.infinity _) => false
  | _ => true

/-- A wire is read back from its text, but for one with a `null` in the place of a number. -/
def DesktopShellWire.ReadBy (wire : DesktopShellWire) (json : ShellJson) : Prop :=
  json.fromStr (json.wire wire) =
    if wire.surfaces.all fun entry => entry.2.isFinite then some wire else none

namespace DesktopShell

/-- The JSON of the shell. -/
def toJson (json : ShellJson) (s : DesktopShell) : Text := json.wire s.toWire

/-- The shell of a text. -/
def fromJson (json : ShellJson) (text : Text) : Option DesktopShell :=
  (json.fromStr text).map fromWire

/-- The progress of every download of the shell is finite. -/
def isFinite (s : DesktopShell) : Bool := s.toWire.surfaces.all fun entry => entry.2.isFinite

end DesktopShell

/-! ## The frame of a page -/

section Frame

open LayoutObserver.HitTest

/-- A box of the page with its place in the paint order. -/
structure PaintCommand where
  nodeId : DomObserver.EngineNodeId
  x : F64
  y : F64
  width : F64
  height : F64
  zIndex : Int
  deriving DecidableEq

/-- The boxes of a page in the order in which they are painted. -/
structure CompositorFrame where
  generation : UInt64
  viewportWidth : F64
  viewportHeight : F64
  commands : List PaintCommand

/-- What commands are sorted by. -/
def PaintCommand.level (command : PaintCommand) : Level :=
  toLex (command.zIndex, command.nodeId.toNat)

/-- The command for a box. -/
def paint (box : LayoutBox) : PaintCommand :=
  ⟨box.nodeId, box.rect.x, box.rect.y, box.rect.width, box.rect.height, box.zIndex⟩

/-- The boxes of a page that are visible and not clipped, from the lowest to the highest. -/
def composeLayout (layout : LayoutSnapshot) : CompositorFrame where
  generation := layout.generation
  viewportWidth := layout.viewport.width
  viewportHeight := layout.viewport.height
  commands := sortByKey PaintCommand.level
    ((layout.boxes.values.filter fun box => box.visible && !box.clipped).map paint)

theorem level_paint (box : LayoutBox) : (paint box).level = box.level := rfl

variable [Add F64] {layout : LayoutSnapshot} {x y : F64}

/-- A box that can be hit is painted. -/
theorem mem_commands_of_accepted {box : LayoutBox} (h : layout.Accepted x y box) :
    paint box ∈ (composeLayout layout).commands := by
  obtain ⟨hbox, haccepts⟩ := h
  refine mem_sort_by_key.mpr (List.mem_map_of_mem (List.mem_filter.mpr ⟨?_, ?_⟩))
  · rw [OrdMap.values_eq, OrdMap.mem_values]
    exact hbox
  · rw [LayoutSnapshot.accepts, LayoutBox.actionable] at haccepts
    simp only [Bool.and_eq_true] at haccepts ⊢
    exact haccepts.1.1.1.1

/-- A click reaches the node that is painted last of those that accept the point. -/
theorem hit_test_eq_last_painted (layout : LayoutSnapshot) (x y : F64)
    (id : DomObserver.EngineNodeId) :
    layout.hitTest x y = some id ↔ layout.outside x y = false ∧
      ∃ box before after, layout.Accepted x y box ∧ box.nodeId = id ∧
        (composeLayout layout).commands = before ++ paint box :: after ∧
        ∀ other, layout.Accepted x y other → paint other ∉ after := by
  have hsorted : (composeLayout layout).commands.Pairwise fun a b => a.level ≤ b.level :=
    pairwise_sort_by_key _ _
  constructor
  · intro hhit
    cases houtside : layout.outside x y with
    | true =>
        rw [LayoutSnapshot.hit_test_of_outside houtside] at hhit
        cases hhit
    | false =>
        obtain ⟨top, htop, hid, hmax⟩ := (LayoutSnapshot.hit_test_eq_some_iff houtside).mp hhit
        obtain ⟨before, command, after, heq, ⟨box, hbox, rfl⟩, hafter⟩ :=
          exists_last (P := fun command => ∃ box, layout.Accepted x y box ∧ paint box = command)
            (mem_commands_of_accepted htop) ⟨top, htop, rfl⟩
        refine ⟨rfl, box, before, after, hbox, ?_, heq, fun other hother hmem =>
          hafter _ hmem ⟨other, hother, rfl⟩⟩
        -- nothing that accepts the point is painted behind this box, so it is as high as the top
        have hle : top.level ≤ box.level := by
          have hmem := heq ▸ mem_commands_of_accepted htop
          rw [heq] at hsorted
          rcases List.mem_append.mp hmem with hmem | hmem
          · exact (List.pairwise_append.mp hsorted).2.2 _ hmem _ List.mem_cons_self
          · rcases List.mem_cons.mp hmem with hsame | hmem
            · rw [← level_paint, ← level_paint, hsame]
            · exact absurd ⟨top, htop, rfl⟩ (hafter _ hmem)
        exact (node_eq_of_level_eq ((hmax box hbox).antisymm hle)).trans hid
  · rintro ⟨houtside, box, before, after, hbox, hid, heq, hafter⟩
    refine (LayoutSnapshot.hit_test_eq_some_iff houtside).mpr ⟨box, hbox, hid, fun other hother => ?_⟩
    have hmem := heq ▸ mem_commands_of_accepted hother
    rw [heq] at hsorted
    rcases List.mem_append.mp hmem with hmem | hmem
    · exact (List.pairwise_append.mp hsorted).2.2 _ hmem _ List.mem_cons_self
    · rcases List.mem_cons.mp hmem with hsame | hmem
      · rw [← level_paint, ← level_paint, hsame]
      · exact absurd hmem (hafter other hother)

end Frame

/-! ## Runs -/

/-- A call that changes a shell, or a restart that writes it and reads it back if that can be done. -/
inductive Op where
  | openSurface (id : SurfaceId) (surface : Surface)
  | setLocale (locale : Text)
  | close (id : SurfaceId)
  | focus (id : SurfaceId)
  | setLayout (id : SurfaceId) (layout : SurfaceLayout)
  | restart

namespace DesktopShell

/-- A shell that cannot be read back is kept as it is. -/
def step (json : ShellJson) (s : DesktopShell) : Op → DesktopShell
  | .openSurface id surface => s.openSurface id surface
  | .setLocale locale => s.setLocale locale
  | .close id => (s.close id).2
  | .focus id => (s.focus id).2
  | .setLayout id layout => (s.setLayout id layout).2
  | .restart => (fromJson json (s.toJson json)).getD s

/-- The UUID of a new surface is new, and the reader reads what it is documented to read of the text of
a shell that is written. -/
def machine (json : ShellJson) : Machine DesktopShell Op where
  step := step json
  Allowed s
    | .openSurface id _ => s.surfaces[id]? = none
    | .restart => s.toWire.ReadBy json
    | _ => True

/-- Every surface has a layout, and the focus is somewhere as long as there is a surface. -/
structure Sound (s : DesktopShell) : Prop where
  layouts : ∀ id : SurfaceId, (s.layouts[id]?).isSome = (s.surfaces[id]?).isSome
  focused : ∀ id : SurfaceId, s.focusedId = some id → (s.surfaces[id]?).isSome
  somewhere : s.focusedId = none → ∀ id : SurfaceId, s.surfaces[id]? = none

theorem sound_default : default.Sound := ⟨fun _ => rfl, nofun, fun _ _ => rfl⟩

variable {s : DesktopShell}

/-- What a sound shell is written as is read back as the shell. -/
theorem Sound.from_wire_to_wire (h : s.Sound) : fromWire s.toWire = s := by
  have hsurfaces : s.surfaces.toList.foldl (fun surfaces entry => surfaces.insert entry.1 entry.2)
      ∅ = s.surfaces := OrdMap.foldl_insert_to_list _
  have hlayouts : (s.layouts.toList.filter fun entry => (s.surfaces[entry.1]?).isSome) =
      s.layouts.toList := by
    refine List.filter_eq_self.mpr fun entry hmem => ?_
    rw [← h.layouts, ExtTreeMap.mem_toList_iff_getElem?_eq_some.mp hmem]
    rfl
  have hfocused : (s.focusedId.filter fun id => (s.surfaces[id]?).isSome) = s.focusedId := by
    cases hid : s.focusedId with
    | none => rfl
    | some id => exact (Option.filter_some ..).trans (if_pos (h.focused id hid))
  rw [fromWire, toWire]
  dsimp only
  rw [hsurfaces, hlayouts, hfocused, OrdMap.foldl_insert_to_list]

/-- A surface that opens keeps the invariant. -/
theorem Sound.openSurface (h : s.Sound) (id : SurfaceId) (surface : Surface) :
    (s.openSurface id surface).Sound where
  layouts other := by
    show ((s.layouts.insert id _)[other]?).isSome = ((s.surfaces.insert id surface)[other]?).isSome
    rw [OrdMap.get_insert, OrdMap.get_insert]
    split_ifs
    · rfl
    · exact h.layouts other
  focused other hother := by
    cases hother
    show ((s.surfaces.insert id surface)[id]?).isSome
    rw [OrdMap.get_insert_self]
    rfl
  somewhere := nofun

/-- So does one that closes. -/
theorem Sound.close (h : s.Sound) (id : SurfaceId) : (s.close id).2.Sound where
  layouts other := by
    show ((s.layouts.erase id)[other]?).isSome = ((s.surfaces.erase id)[other]?).isSome
    rw [OrdMap.get_erase, OrdMap.get_erase]
    split_ifs
    · rfl
    · exact h.layouts other
  focused other hother := by
    change (if s.focusedId = some id then (s.surfaces.erase id).minKey? else s.focusedId) =
      some other at hother
    show ((s.surfaces.erase id)[other]?).isSome
    split_ifs at hother with hfocused
    · rw [ExtTreeMap.isSome_getElem?_iff_mem]
      exact ExtTreeMap.minKey?_mem hother
    · have hne : id ≠ other := by
        rintro rfl
        exact hfocused hother
      rw [OrdMap.get_erase, if_neg hne]
      exact h.focused other hother
  somewhere hnone other := by
    change (if s.focusedId = some id then (s.surfaces.erase id).minKey? else s.focusedId) =
      none at hnone
    show (s.surfaces.erase id)[other]? = none
    split_ifs at hnone with hfocused
    · rw [ExtTreeMap.minKey?_eq_none_iff.mp hnone]
      rfl
    · rw [OrdMap.get_erase, h.somewhere hnone other, ite_self]

theorem Sound.focus (h : s.Sound) (id : SurfaceId) : (s.focus id).2.Sound := by
  rw [DesktopShell.focus]
  split_ifs with hsome
  · exact ⟨h.layouts, fun other hother => Option.some.inj hother ▸ hsome, nofun⟩
  · exact h

/-- So does one that is placed. -/
theorem Sound.setLayout (h : s.Sound) (id : SurfaceId) (layout : SurfaceLayout) :
    (s.setLayout id layout).2.Sound := by
  rw [DesktopShell.setLayout]
  split_ifs with hsome
  · refine ⟨fun other => ?_, h.focused, h.somewhere⟩
    show ((s.layouts.insert id layout)[other]?).isSome = (s.surfaces[other]?).isSome
    rw [OrdMap.get_insert]
    split_ifs with hsame
    · exact (hsame ▸ hsome).symm
    · exact h.layouts other
  · exact h

/-- A sound shell is read back from its text exactly if the progress of its downloads is finite. -/
theorem Sound.from_json_to_json (h : s.Sound) {json : ShellJson} (hread : s.toWire.ReadBy json) :
    fromJson json (s.toJson json) = if s.isFinite then some s else none := by
  rw [fromJson, toJson, hread, isFinite]
  split_ifs
  · exact congrArg some h.from_wire_to_wire
  · rfl

/-- A call keeps a shell sound. -/
theorem Sound.step {json : ShellJson} (h : s.Sound) (op : Op) (hallowed : (machine json).Allowed s op) :
    (s.step json op).Sound := by
  cases op with
  | openSurface id surface => exact h.openSurface id surface
  | setLocale locale => exact ⟨h.layouts, h.focused, h.somewhere⟩
  | close id => exact h.close id
  | focus id => exact h.focus id
  | setLayout id layout => exact h.setLayout id layout
  | restart =>
      rw [DesktopShell.step, h.from_json_to_json hallowed]
      split_ifs
      · exact h
      · exact h

/-! ## The topmost surface -/

/-- A surface is visible at a point. -/
def ShowsAt (s : DesktopShell) (x y : Int) (id : SurfaceId) (layout : SurfaceLayout) : Prop :=
  s.layouts[id]? = some layout ∧ layout.visible = true ∧ layout.covers x y = true

/-- A layout is not above another. -/
def Beneath (id : SurfaceId) (layout : SurfaceLayout) (id' : SurfaceId) (layout' : SurfaceLayout) :
    Prop :=
  layout.zIndex < layout'.zIndex ∨ layout.zIndex = layout'.zIndex ∧ id ≤ id'

theorem level_le_iff {a b : RenderSurface} :
    a.level ≤ b.level ↔ Beneath a.id a.layout b.id b.layout := by
  rw [RenderSurface.level, RenderSurface.level, Prod.Lex.toLex_le_toLex, Beneath,
    UInt32.lt_iff_toNat_lt, ← UInt32.toNat_inj, BitVec.le_def]

/-- The surfaces of the plan are those that are open, placed and visible. -/
theorem mem_render_plan {surface : RenderSurface} :
    surface ∈ s.renderPlan ↔ s.surfaces[surface.id]? = some surface.surface ∧
      s.layouts[surface.id]? = some surface.layout ∧ surface.layout.visible = true := by
  rw [renderPlan, mem_sort_by_key, List.mem_filterMap]
  constructor
  · rintro ⟨⟨id, found⟩, hmem, hrendered⟩
    obtain ⟨layout, hlayout, hvisible⟩ := Option.bind_eq_some_iff.mp hrendered
    split_ifs at hvisible with hshown
    cases hvisible
    exact ⟨ExtTreeMap.mem_toList_iff_getElem?_eq_some.mp hmem, hlayout, hshown⟩
  · rintro ⟨hsurface, hlayout, hvisible⟩
    refine ⟨(surface.id, surface.surface),
      ExtTreeMap.mem_toList_iff_getElem?_eq_some.mpr hsurface, ?_⟩
    rw [rendered, hlayout]
    exact if_pos hvisible

/-- No two of them are at one level. -/
theorem render_plan_distinct {a b : RenderSurface} (ha : a ∈ s.renderPlan) (hb : b ∈ s.renderPlan)
    (hlevel : a.level = b.level) : a = b := by
  have hid : a.id = b.id := BitVec.eq_of_toNat_eq (congrArg (fun level => (ofLex level).2) hlevel)
  obtain ⟨hsurface, hlayout, -⟩ := mem_render_plan.mp ha
  obtain ⟨hsurface', hlayout', -⟩ := mem_render_plan.mp hb
  obtain ⟨id, surface, layout⟩ := a
  obtain ⟨id', surface', layout'⟩ := b
  cases hid
  cases hsurface.symm.trans hsurface'
  cases hlayout.symm.trans hlayout'
  rfl

/-- A click reaches the surface that is visible at the point and above all others that are. -/
theorem Sound.hit_test_eq_some_iff (h : s.Sound) {x y : Int} {id : SurfaceId} :
    s.hitTest x y = some id ↔ ∃ layout, s.ShowsAt x y id layout ∧
      ∀ id' layout', s.ShowsAt x y id' layout' → Beneath id' layout' id layout := by
  have htop := fun a => topmost_eq_some_iff
    (p := fun surface : RenderSurface => surface.layout.covers x y) (a := a)
    (pairwise_sort_by_key RenderSurface.level (s.surfaces.toList.filterMap s.rendered))
    fun _ ha _ hb => render_plan_distinct ha hb
  have hplan : ∀ {id layout}, s.ShowsAt x y id layout →
      ∃ surface, (⟨id, surface, layout⟩ : RenderSurface) ∈ s.renderPlan := by
    rintro id layout ⟨hlayout, hvisible, -⟩
    have hsome := h.layouts id
    rw [hlayout] at hsome
    obtain ⟨surface, hsurface⟩ := Option.isSome_iff_exists.mp hsome.symm
    exact ⟨surface, mem_render_plan.mpr ⟨hsurface, hlayout, hvisible⟩⟩
  rw [hitTest, Option.map_eq_some_iff]
  constructor
  · rintro ⟨top, hfound, rfl⟩
    obtain ⟨hmem, hcovers, hle⟩ := (htop top).mp hfound
    obtain ⟨-, hlayout, hvisible⟩ := mem_render_plan.mp hmem
    refine ⟨top.layout, ⟨hlayout, hvisible, hcovers⟩, fun id' layout' hshows => ?_⟩
    obtain ⟨surface, hsurface⟩ := hplan hshows
    exact level_le_iff.mp (hle _ hsurface hshows.2.2)
  · rintro ⟨layout, hshows, habove⟩
    obtain ⟨surface, hsurface⟩ := hplan hshows
    refine ⟨⟨id, surface, layout⟩, (htop _).mpr ⟨hsurface, hshows.2.2, fun b hb hcovers => ?_⟩, rfl⟩
    obtain ⟨-, hlayout, hvisible⟩ := mem_render_plan.mp hb
    exact level_le_iff.mpr (habove _ _ ⟨hlayout, hvisible, hcovers⟩)

/-! ## A new surface -/

/-- The levels that are taken. -/
theorem mem_indices {n : Nat} :
    n ∈ (s.layouts.values.map fun layout => layout.zIndex.toNat) ↔
      ∃ (id : SurfaceId) (layout : SurfaceLayout),
        s.layouts[id]? = some layout ∧ layout.zIndex.toNat = n := by
  rw [List.mem_map]
  simp only [OrdMap.values_eq, OrdMap.mem_values]
  constructor
  · rintro ⟨layout, ⟨id, hlayout⟩, hn⟩
    exact ⟨id, layout, hlayout, hn⟩
  · rintro ⟨id, layout, hlayout, hn⟩
    exact ⟨layout, ⟨id, hlayout⟩, hn⟩

theorem le_top_index {id : SurfaceId} {layout : SurfaceLayout} (h : s.layouts[id]? = some layout) :
    layout.zIndex.toNat ≤ s.topIndex :=
  List.le_max?_getD_of_mem (mem_indices.mpr ⟨id, layout, h, rfl⟩)

/-- Some index is left above all that are given. -/
def HasRoom (s : DesktopShell) : Prop :=
  ∀ (id : SurfaceId) (layout : SurfaceLayout), s.layouts[id]? = some layout →
    layout.zIndex.toNat < 2 ^ 32 - 1

theorem top_index_lt (h : s.HasRoom) : s.topIndex < 2 ^ 32 - 1 := by
  rw [topIndex]
  cases hmax : (s.layouts.values.map fun layout => layout.zIndex.toNat).max? with
  | none => decide
  | some n =>
      obtain ⟨id, layout, hlayout, hn⟩ := mem_indices.mp (List.max?_mem hmax)
      exact hn ▸ h id layout hlayout

/-- A new surface is above all others. -/
theorem Beneath.of_open (h : s.HasRoom) {id other : SurfaceId} {layout : SurfaceLayout}
    (hlayout : s.layouts[other]? = some layout) (surface : Surface) :
    Beneath other layout id (s.openLayout surface) := by
  have hle := le_top_index hlayout
  have hlt := top_index_lt h
  have hindex : (s.openLayout surface).zIndex.toNat = s.topIndex + 1 := by
    show (UInt32.ofNat (min (s.topIndex + 1) (2 ^ 32 - 1))).toNat = s.topIndex + 1
    rw [UInt32.toNat_ofNat']
    omega
  refine .inl (UInt32.lt_iff_toNat_lt.mpr ?_)
  omega

/-- A surface that opens is above all others. -/
theorem Sound.hit_test_open (h : s.Sound) (hroom : s.HasRoom) (id : SurfaceId) (surface : Surface)
    {x y : Int} (hcovers : (s.openLayout surface).covers x y = true) :
    (s.openSurface id surface).hitTest x y = some id := by
  refine (h.openSurface id surface).hit_test_eq_some_iff.mpr
    ⟨s.openLayout surface, ⟨OrdMap.get_insert_self _ _ _, rfl, hcovers⟩, fun other layout hshows => ?_⟩
  have hlayout : (s.layouts.insert id (s.openLayout surface))[other]? = some layout := hshows.1
  rw [OrdMap.get_insert] at hlayout
  split_ifs at hlayout with hsame
  · cases hlayout
    exact .inr ⟨rfl, hsame ▸ BitVec.le_refl _⟩
  · exact .of_open hroom hlayout surface

/-- Nothing has the focus exactly if nothing is open. -/
theorem Sound.focused_eq_none_iff (h : s.Sound) :
    s.focused = none ↔ ∀ id : SurfaceId, s.surfaces[id]? = none := by
  rw [DesktopShell.focused]
  cases hid : s.focusedId with
  | none => exact ⟨fun _ => h.somewhere hid, fun _ => rfl⟩
  | some id =>
      obtain ⟨surface, hsurface⟩ := Option.isSome_iff_exists.mp (h.focused id hid)
      rw [Option.bind_some, hsurface]
      refine ⟨nofun, fun hnone => ?_⟩
      rw [hnone id] at hsurface
      cases hsurface

/-- In every run: the focus is on a surface as long as there is one; a shell whose downloads have a
finite progress is read back from its JSON text, and no other one is; a click reaches the surface that
is visible at the point and above all others that are; and a new surface is reached wherever it shows,
while an index is left above those given. -/
theorem shell_run (json : ShellJson) (hrun : (machine json).Reaches default s) :
    (s.focused = none ↔ ∀ id : SurfaceId, s.surfaces[id]? = none) ∧
      (s.toWire.ReadBy json →
        fromJson json (s.toJson json) = if s.isFinite then some s else none) ∧
      (∀ x y id, s.hitTest x y = some id ↔ ∃ layout, s.ShowsAt x y id layout ∧
        ∀ id' layout', s.ShowsAt x y id' layout' → Beneath id' layout' id layout) ∧
      ∀ id surface, s.HasRoom → ∀ x y, (s.openLayout surface).covers x y = true →
        (s.openSurface id surface).hitTest x y = some id := by
  have h : s.Sound := hrun.invariant sound_default fun t op ht hallowed => ht.step op hallowed
  exact ⟨h.focused_eq_none_iff, h.from_json_to_json, fun _ _ _ => h.hit_test_eq_some_iff,
    fun id surface hroom _ _ => h.hit_test_open hroom id surface⟩

/-- A reader of the text of one shell. -/
def readerOf (wire : DesktopShellWire) : ShellJson where
  floatText _ := "0.5"
  fromStr text :=
    if text = ShellJson.wire ⟨fun _ => "0.5", fun _ => none⟩ wire ∧
        wire.surfaces.all fun entry => entry.2.isFinite then some wire else none

theorem read_by_reader_of (wire : DesktopShellWire) : wire.ReadBy (readerOf wire) := by
  have htext : (readerOf wire).wire wire = ShellJson.wire ⟨fun _ => "0.5", fun _ => none⟩ wire :=
    rfl
  rw [DesktopShellWire.ReadBy, htext, readerOf]
  simp only [true_and]

/-- A restart belongs to a run if the text is read as it is documented to be. -/
theorem reaches_restart {json : ShellJson} (hrun : (machine json).Reaches default s)
    (hread : s.toWire.ReadBy json) : (machine json).Reaches default (s.step json .restart) :=
  hrun.step Op.restart hread

/-- A shell with a window. -/
def windowShell : DesktopShell := default.openSurface 1 (.window 800 600)

/-- A dialog over a window, which was written and read back. -/
theorem shell_run_dialog :
    let json := readerOf windowShell.toWire
    ((windowShell.step json .restart).openSurface 2 (.dialog "Notice" "Hello")).hitTest
      10 10 = some 2 := by
  intro json
  have hopen : (machine json).Reaches default windowShell :=
    .step (Op.openSurface 1 (.window 800 600)) .refl rfl
  have hread : windowShell.toWire.ReadBy json := read_by_reader_of _
  have hrun := reaches_restart hopen hread
  have hsame : windowShell.step json .restart = windowShell := by
    rw [step, (shell_run json hopen).2.1 hread]
    exact congrArg (Option.getD · windowShell) (if_pos (by decide))
  refine (shell_run json hrun).2.2.2 2 (.dialog "Notice" "Hello") ?_ 10 10 ?_
  · rw [hsame]
    intro id layout hlayout
    have hinsert : ((∅ : OrdMap SurfaceId SurfaceLayout).insert 1
        (default.openLayout (.window 800 600)))[id]? = some layout := hlayout
    rw [OrdMap.get_insert] at hinsert
    split_ifs at hinsert
    · cases hinsert
      decide
    · cases hinsert
  · rw [hsame]
    decide

end DesktopShell

end BrowsAI.Desktop
