import BrowsAI.Tabs.Focus
import Std.Data.ExtTreeSet.Lemmas

/-!
# Workspaces

`Workspace` of `crates/workspace`: the tabs of a profile, and the windows that list them. The ids of
new windows and tabs are arguments. `checkpoint` copies a workspace and `fromCheckpoint` checks the
copy.
-/

namespace BrowsAI.Workspaces

open Std Utf8 Network Profiles Tabs

/-- The id of a workspace, drawn at random. -/
abbrev WorkspaceId := Uuid

/-- The id of a window, drawn at random. -/
abbrev WindowId := Uuid

/-- A window and its tabs by id. -/
structure Window where
  id : WindowId
  tabs : List TabId
  width : UInt32
  height : UInt32
  focused : Bool

/-- The tabs of a profile in windows. -/
structure Workspace (U : Type) where
  id : WorkspaceId
  profile : ProfileId
  tabs : TabManager U
  windows : OrdMap WindowId Window
  locks : ExtTreeSet Text
  permissions : ExtTreeSet Text

/-- A workspace as it is saved. -/
structure WorkspaceCheckpoint (U : Type) where
  id : WorkspaceId
  profile : ProfileId
  tabs : TabManager U
  windows : OrdMap WindowId Window
  locks : ExtTreeSet Text
  permissions : ExtTreeSet Text

/-- Why a checkpoint is refused. -/
inductive WorkspaceError where
  | profileMismatch | tabProfileMismatch | invalidCheckpoint | duplicateTab
  deriving DecidableEq

namespace Workspace

variable {U : Type}

/-- No window and no tab. -/
def new (id : WorkspaceId) (profile : ProfileId) : Workspace U where
  id
  profile
  tabs := ⟨∅, none⟩
  windows := ∅
  locks := ∅
  permissions := ∅

/-- A new window, in focus if it is the first. -/
def createWindow (w : Workspace U) (id : WindowId) (width height : UInt32) : Workspace U :=
  { w with
    windows := w.windows.insert id
      { id, tabs := [], width, height, focused := w.windows.isEmpty } }

/-- Lists a tab in a window, if it is of the profile and not listed. -/
def attachTab (w : Workspace U) (window : WindowId) (tab : TabId) : Bool × Workspace U :=
  match w.tabs.tabs[tab]? with
  | none => (false, w)
  | some tabRecord =>
      if tabRecord.profile ≠ w.profile then (false, w)
      else if w.windows.toList.any fun (_, existing) => existing.tabs.contains tab then (false, w)
      else
        (w.windows.contains window,
          { w with windows := w.windows.modify window fun window =>
              { window with tabs := window.tabs ++ [tab] } })

/-- Moves the focus. -/
def focusWindow (w : Workspace U) (id : WindowId) : Bool × Workspace U :=
  if w.windows.contains id then
    let windows := w.windows.map fun _ window => { window with focused := false }
    (true,
      { w with windows := windows.modify id fun window => { window with focused := true } })
  else (false, w)

/-- Closes a window; the focus goes to the first one left if it was there. -/
def closeWindow (w : Workspace U) (id : WindowId) : Option Window × Workspace U :=
  let removed := w.windows[id]?
  let w := { w with windows := w.windows.erase id }
  if removed.any Window.focused then
    match w.windows.keys.head? with
    | some next => (removed, (w.focusWindow next).2)
    | none => (removed, w)
  else (removed, w)

/-- Notes a lock, and tells whether it was free. -/
def acquireLock (w : Workspace U) (resource : Text) : Bool × Workspace U :=
  (!w.locks.contains resource, { w with locks := w.locks.insert resource })

/-- Drops a lock, and tells whether it was held. -/
def releaseLock (w : Workspace U) (resource : Text) : Bool × Workspace U :=
  (w.locks.contains resource, { w with locks := w.locks.erase resource })

/-- Notes a permission, and tells whether it is new. -/
def grantPermission (w : Workspace U) (permission : Text) : Bool × Workspace U :=
  (!w.permissions.contains permission, { w with permissions := w.permissions.insert permission })

/-- Drops a permission, and tells whether there was one. -/
def revokePermission (w : Workspace U) (permission : Text) : Bool × Workspace U :=
  (w.permissions.contains permission, { w with permissions := w.permissions.erase permission })

/-- The workspace as it is. -/
def checkpoint (w : Workspace U) : WorkspaceCheckpoint U where
  id := w.id
  profile := w.profile
  tabs := w.tabs
  windows := w.windows
  locks := w.locks
  permissions := w.permissions

/-- The loop of `from_checkpoint` over the listed tabs, with those listed before. -/
def attach (tabIds : ExtTreeSet TabId) : ExtTreeSet TabId → List TabId → Bool
  | _, [] => true
  | attached, tab :: tabs =>
      if tab ∉ tabIds ∨ tab ∈ attached then false
      else attach tabIds (attached.insert tab) tabs

/-- The workspace of a checkpoint, if it is of the profile and lists its tabs once. -/
def fromCheckpoint (checkpoint : WorkspaceCheckpoint U) (expectedProfile : ProfileId) :
    Except WorkspaceError (Workspace U) :=
  if checkpoint.profile ≠ expectedProfile then .error .profileMismatch
  else if checkpoint.tabs.tabs.toList.any fun (_, tab) => tab.profile ≠ expectedProfile then
    .error .tabProfileMismatch
  else
    let tabIds := ExtTreeSet.ofList (checkpoint.tabs.tabs.toList.map fun (_, tab) => tab.id)
    let listed := checkpoint.windows.toList.flatMap fun (_, window) => window.tabs
    if !attach tabIds ∅ listed then .error .invalidCheckpoint
    else
      let focused := (checkpoint.windows.toList.filter fun (_, window) => window.focused).length
      if 1 < focused ∨ focused = 0 ∧ ¬ checkpoint.windows.isEmpty then .error .invalidCheckpoint
      else
        .ok
          { id := checkpoint.id
            profile := checkpoint.profile
            tabs := checkpoint.tabs
            windows := checkpoint.windows
            locks := checkpoint.locks
            permissions := checkpoint.permissions }

/-- The calls on a workspace, and those on its tabs. -/
inductive Op (U : Type) where
  | createWindow (id : WindowId) (width height : UInt32)
  | attachTab (window : WindowId) (tab : TabId)
  | focusWindow (id : WindowId)
  | closeWindow (id : WindowId)
  | acquireLock (resource : Text)
  | releaseLock (resource : Text)
  | grantPermission (permission : Text)
  | revokePermission (permission : Text)
  | openTab (id : TabId) (url : U)
  | activateTab (id : TabId)
  | closeTab (id : TabId)

/-- What a call does. -/
def perform (w : Workspace U) : Op U → Workspace U
  | .createWindow id width height => w.createWindow id width height
  | .attachTab window tab => (w.attachTab window tab).2
  | .focusWindow id => (w.focusWindow id).2
  | .closeWindow id => (w.closeWindow id).2
  | .acquireLock resource => (w.acquireLock resource).2
  | .releaseLock resource => (w.releaseLock resource).2
  | .grantPermission permission => (w.grantPermission permission).2
  | .revokePermission permission => (w.revokePermission permission).2
  | .openTab id url => { w with tabs := w.tabs.openTab id w.profile url }
  | .activateTab id => { w with tabs := (w.tabs.activate id).2 }
  | .closeTab id => { w with tabs := (w.tabs.close id).2 }

/-- New windows and tabs get new ids. -/
def machine : Machine (Workspace U) (Op U) where
  step := perform
  Allowed w op := match op with
    | .createWindow id _ _ => w.windows[id]? = none
    | .openTab id _ => w.tabs.tabs[id]? = none
    | _ => True

end Workspace

end BrowsAI.Workspaces
