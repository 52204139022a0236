import BrowsAI.Library.Runs
import BrowsAI.Network.Url

/-!
# Navigation

`NavigationState` of `crates/navigation`: the history of a tab and a position in it. A method that
indexes the history panics when the position is outside, and gives `none` then. Positions and
generations wrap around, as in a release build.
-/

namespace BrowsAI.Navigation

open Utf8 Network

/-- How a navigation goes. -/
inductive NavigationStatus where
  | idle | loading | stopped
  | failed (reason : Text)
  deriving DecidableEq

/-- A page that was visited. -/
structure HistoryEntry (U : Type) where
  url : U
  title : Option Text
  deriving DecidableEq

/-- The page, and the history with the place in it. -/
structure NavigationState (U : Type) where
  current : U
  history : List (HistoryEntry U)
  index : UInt64
  status : NavigationStatus
  generation : UInt64
  deriving DecidableEq

namespace NavigationState

variable {U : Type}

/-- The history of one page. -/
def new (url : U) : NavigationState U := ⟨url, [⟨url, none⟩], 0, .idle, 0⟩

/-- `self.history[self.index].url = url`. -/
def setUrl (s : NavigationState U) (url : U) : Option (NavigationState U) :=
  s.history[s.index.toNat]?.map fun entry =>
    { s with history := s.history.set s.index.toNat { entry with url } }

/-- Goes to another address. Within the document its entry gets the new address; else the entries
behind it are dropped, and a new one is appended. -/
def start [PageUrl U] [DecidableEq U] (s : NavigationState U) (url : U) :
    Option (NavigationState U) := do
  let s := { s with status := .loading }
  let sameDocument := PageUrl.sameOrigin s.current url && Url.path s.current = Url.path url &&
    PageUrl.query s.current = PageUrl.query url &&
    PageUrl.fragment s.current ≠ PageUrl.fragment url
  let s ←
    if s.current = url then s.setUrl url
    else if !sameDocument then
      some { s with
        history := s.history.take (s.index + 1).toNat ++ [⟨url, none⟩]
        index := s.index + 1 }
    else s.setUrl url
  pure { s with current := url, generation := s.generation + 1 }

/-- The page is there. -/
def complete (s : NavigationState U) : NavigationState U := { s with status := .idle }

/-- It cannot be had. -/
def fail (s : NavigationState U) (reason : Text) : NavigationState U :=
  { s with status := .failed reason }

/-- Asks for the page again. -/
def reload (s : NavigationState U) : U × NavigationState U :=
  (s.current, { s with status := .loading, generation := s.generation + 1 })

/-- Stops the loading. -/
def stop (s : NavigationState U) : NavigationState U :=
  match s.status with
  | .loading => { s with status := .stopped }
  | _ => s

/-- The common end of `back` and `forward`. -/
def moveTo (s : NavigationState U) (index : UInt64) : Option (Option U × NavigationState U) :=
  s.history[index.toNat]?.map fun entry =>
    (some entry.url,
      { s with
        index
        current := entry.url
        status := .loading
        generation := s.generation + 1 })

/-- Goes to the entry before. -/
def back (s : NavigationState U) : Option (Option U × NavigationState U) :=
  if s.index = 0 then some (none, s) else s.moveTo (s.index - 1)

/-- Goes to the entry behind. -/
def forward (s : NavigationState U) : Option (Option U × NavigationState U) :=
  if s.history.length ≤ (s.index + 1).toNat then some (none, s) else s.moveTo (s.index + 1)

/-- A call. -/
inductive Op (U : Type) where
  | start (url : U)
  | complete
  | fail (reason : Text)
  | reload
  | stop
  | back
  | forward

section Runs

variable [PageUrl U] [DecidableEq U]

/-- What a call does; `none` is a panic. -/
def perform (s : NavigationState U) : Op U → Option (NavigationState U)
  | .start url => s.start url
  | .complete => some s.complete
  | .fail reason => some (s.fail reason)
  | .reload => some s.reload.2
  | .stop => some s.stop
  | .back => s.back.map Prod.snd
  | .forward => s.forward.map Prod.snd

/-- A vector holds less than `2 ^ 63` entries, which bounds the history after a call. -/
def machine : Machine (NavigationState U) (Op U) where
  step s op := (s.perform op).getD s
  Allowed s op := ∀ s', s.perform op = some s' → s'.history.length < 2 ^ 63

end Runs

end NavigationState

end BrowsAI.Navigation
