import BrowsAI.Library.OrdMap
import BrowsAI.Library.Runs
import BrowsAI.Navigation.State
import BrowsAI.Profiles.Identity

/-!
# Tabs

`TabManager` of `crates/tabs`. The id of a new tab is an argument of `openTab`, and a call that
panics gives `none`. `Json` is the library that reads the text of a manager; what `from_json` adds
to it is `normalizeActive`.
-/

namespace BrowsAI.Tabs

open Std Utf8 Network Navigation Profiles

/-- The id of a tab, drawn at random. -/
abbrev TabId := Uuid

/-- How much a tab may run. -/
structure TabExecutionPolicy where
  maxTasksPerTick : UInt32
  minimumTimerIntervalMillis : UInt32
  deriving DecidableEq

namespace TabExecutionPolicy

/-- The policy of the tab in focus. -/
def foreground : TabExecutionPolicy := ⟨1000, 16⟩

/-- The policy of the others. -/
def background : TabExecutionPolicy := ⟨50, 1000⟩

end TabExecutionPolicy

/-- A tab. -/
structure Tab (U : Type) where
  id : TabId
  profile : ProfileId
  navigation : NavigationState U
  active : Bool
  background : Bool
  generation : UInt64
  execution : TabExecutionPolicy
  deriving DecidableEq

/-- The tabs by id, and the one in focus. -/
structure TabManager (U : Type) where
  tabs : OrdMap TabId (Tab U)
  active : Option TabId

variable {U : Type}

/-- The three fields that follow from whether the tab is active. -/
def Tab.setActive (tab : Tab U) (active : Bool) : Tab U :=
  { tab with
    active
    background := !active
    execution := if active then .foreground else .background }

namespace TabManager

/-- A new tab, in focus if there is none. -/
def openTab (m : TabManager U) (id : TabId) (profile : ProfileId) (url : U) : TabManager U :=
  let active := m.active.isNone
  { active := if active then some id else m.active
    tabs := m.tabs.insert id
      { id
        profile
        navigation := .new url
        active
        background := !active
        generation := 0
        execution := if active then .foreground else .background } }

/-- The tab after its navigation has moved. -/
def arrive (m : TabManager U) (id : TabId) (tab : Tab U) (navigation : NavigationState U) :
    TabManager U :=
  { m with
    tabs := m.tabs.insert id
      { tab with navigation := navigation.complete, generation := tab.generation + 1 } }

/-- Goes to an address. -/
def navigate [PageUrl U] [DecidableEq U] (m : TabManager U) (id : TabId) (url : U) :
    Option (Option U × TabManager U) :=
  match m.tabs[id]? with
  | none => some (none, m)
  | some tab => (tab.navigation.start url).map fun navigation =>
      (some url, m.arrive id tab navigation)

/-- `back` and `forward`, which differ in the move. -/
def travel (move : NavigationState U → Option (Option U × NavigationState U)) (m : TabManager U)
    (id : TabId) : Option (Option U × TabManager U) :=
  match m.tabs[id]? with
  | none => some (none, m)
  | some tab => (move tab.navigation).map fun
      | (none, _) => (none, m)
      | (some url, navigation) => (some url, m.arrive id tab navigation)

/-- Goes back. -/
def back (m : TabManager U) (id : TabId) : Option (Option U × TabManager U) :=
  m.travel NavigationState.back id

/-- Goes forward. -/
def forward (m : TabManager U) (id : TabId) : Option (Option U × TabManager U) :=
  m.travel NavigationState.forward id

/-- Moves the focus. -/
def activate (m : TabManager U) (id : TabId) : Bool × TabManager U :=
  if m.tabs.contains id then
    (true,
      { tabs := (m.tabs.map fun _ tab => tab.setActive false).modify id fun tab =>
          tab.setActive true
        active := some id })
  else (false, m)

/-- Closes a tab; the focus goes to the first one left if it was there. -/
def close (m : TabManager U) (id : TabId) : Option (Tab U) × TabManager U :=
  let removed := m.tabs[id]?
  let tabs := m.tabs.erase id
  if m.active = some id then
    let m : TabManager U := ⟨tabs, tabs.keys.head?⟩
    (removed, match m.active with
      | some active => (m.activate active).2
      | none => m)
  else (removed, ⟨tabs, m.active⟩)

/-- Chooses a tab, and flags those with its id. -/
def normalizeActive (m : TabManager U) : TabManager U :=
  let active := (m.active.filter m.tabs.contains).or m.tabs.keys.head?
  { active
    tabs := m.tabs.map fun _ tab => tab.setActive (active = some tab.id) }

end TabManager

/-- `serde_json::from_str` at `TabManager`. -/
structure Json (U : Type) where
  fromStr : Text → Option (TabManager U)

namespace TabManager

/-- The tabs of a text, normalized. -/
def fromJson (json : Json U) (text : Text) : Option (TabManager U) :=
  (json.fromStr text).map normalizeActive

/-- A call. -/
inductive Op (U : Type) where
  | openTab (id : TabId) (profile : ProfileId) (url : U)
  | navigate (id : TabId) (url : U)
  | back (id : TabId)
  | forward (id : TabId)
  | activate (id : TabId)
  | close (id : TabId)

section Runs

variable [PageUrl U] [DecidableEq U]

/-- What a call does; `none` is a panic. -/
def perform (m : TabManager U) : Op U → Option (TabManager U)
  | .openTab id profile url => some (m.openTab id profile url)
  | .navigate id url => (m.navigate id url).map Prod.snd
  | .back id => (m.back id).map Prod.snd
  | .forward id => (m.forward id).map Prod.snd
  | .activate id => some (m.activate id).2
  | .close id => some (m.close id).2

/-- A new tab gets a new id, and a run goes on after a call that returns. -/
def machine : Machine (TabManager U) (Op U) where
  step m op := (m.perform op).getD m
  Allowed m op :=
    (m.perform op).isSome ∧ ∀ id profile url, op = .openTab id profile url → m.tabs[id]? = none

end Runs

end TabManager

end BrowsAI.Tabs
