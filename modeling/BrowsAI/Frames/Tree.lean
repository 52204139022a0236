import BrowsAI.Library.Descendants
import BrowsAI.Library.OrdMap
import BrowsAI.Library.Runs
import BrowsAI.Network.WebUrl
import BrowsAI.Profiles.Identity

/-!
# Frame trees

`FrameTree` of `crates/frames`: the frames of a page, with parent and child links. The id of a new
frame is an argument, and a call that changes the tree returns its result with the new tree.

`collect_descendants` follows child links without looking where they lead, so it need not return.
Here it takes a bound on the depth of its calls, and gives `none` at the bound.
-/

namespace BrowsAI.Frames

open Std Utf8 Network Profiles

/-- The id of a frame, drawn at random. -/
abbrev FrameId := Uuid

/-- A frame, with its parent and its children by id. -/
structure Frame (U : Type) where
  id : FrameId
  parent : Option FrameId
  url : U
  origin : Text
  childFrames : List FrameId
  deriving DecidableEq

/-- What an agent is told of a frame. -/
structure AgentFrameScope where
  frame : FrameId
  origin : Text
  parent : Option FrameId
  descendants : List FrameId
  deriving DecidableEq

/-- Why a call is refused. -/
inductive FrameError where
  | missingFrame | crossOriginDenied | duplicateFrame | invalidSnapshot
  deriving DecidableEq

/-- The frames by id. -/
structure FrameTree (U : Type) where
  frames : OrdMap FrameId (Frame U)
  root : FrameId

/-- `serde_json::from_str` at `FrameTree`. -/
structure Json (U : Type) where
  fromStr : Text → Option (FrameTree U)

namespace FrameTree

variable {U : Type}

/-- The tree of a text, if all ids in it are those of frames. -/
def fromJson (json : Json U) (text : Text) : Except FrameError (FrameTree U) :=
  match json.fromStr text with
  | none => .error .invalidSnapshot
  | some tree =>
      if !tree.frames.contains tree.root || tree.frames.toList.any fun (_, frame) =>
          (frame.parent.any fun parent => !tree.frames.contains parent) ||
            frame.childFrames.any fun child => !tree.frames.contains child then
        .error .invalidSnapshot
      else .ok tree

/-- `collect_descendants` with at most `depth` nested calls. -/
def collectDescendants (tree : FrameTree U) :
    Nat → FrameId → List FrameId → Option (List FrameId)
  | 0, _, _ => none
  | depth + 1, id, descendants =>
      match tree.frames[id]? with
      | none => some descendants
      | some frame =>
          frame.childFrames.foldlM (fun descendants child => do
            let descendants ← tree.collectDescendants depth child descendants
            pure (descendants ++ [child])) descendants

/-- The ids of a frame and of those below it. -/
def scopedIds (tree : FrameTree U) (depth : Nat) (root : FrameId) :
    Option (Except FrameError (List FrameId)) :=
  if !tree.frames.contains root then some (.error .missingFrame)
  else (tree.collectDescendants depth root [root]).map .ok

/-- What an agent is told of a frame; the ids below do not have its own. -/
def agentScope (tree : FrameTree U) (depth : Nat) (root : FrameId) :
    Option (Except FrameError AgentFrameScope) :=
  match tree.frames[root]? with
  | none => some (.error .missingFrame)
  | some frame => (tree.scopedIds depth root).map fun ids => do
      pure
        { frame := frame.id
          origin := frame.origin
          parent := frame.parent
          descendants := (← ids).drop 1 }

/-- Frames with the same origin text may access each other. -/
def canAccess (tree : FrameTree U) (source target : FrameId) : Except FrameError Bool :=
  match tree.frames[source]? with
  | none => .error .missingFrame
  | some source =>
      match tree.frames[target]? with
      | none => .error .missingFrame
      | some target => .ok (source.origin = target.origin)

/-- An error instead of a refusal. -/
def requireAccess (tree : FrameTree U) (source target : FrameId) : Except FrameError Unit :=
  match tree.canAccess source target with
  | .error error => .error error
  | .ok true => .ok ()
  | .ok false => .error .crossOriginDenied

/-- Whether a frame may query another one. -/
def canQuery (tree : FrameTree U) (source target : FrameId) : Except FrameError Unit :=
  tree.requireAccess source target

/-- Whether it may act in it. -/
def canAction (tree : FrameTree U) (source target : FrameId) : Except FrameError Unit :=
  tree.requireAccess source target

section Origins

variable [OriginUrl U]

/-- `url.origin().ascii_serialization()`. -/
def originText (url : U) : Text := OriginUrl.asciiSerialization U (OriginUrl.origin url)

/-- A tree of one frame. -/
def new (id : FrameId) (url : U) : FrameTree U where
  frames := (∅ : OrdMap FrameId (Frame U)).insert id
    { id, parent := none, url, origin := originText url, childFrames := [] }
  root := id

/-- Adds a frame as the last child of another one. -/
def addChild (tree : FrameTree U) (id parent : FrameId) (url : U) :
    Except FrameError FrameId × FrameTree U :=
  if tree.frames.contains parent then
    let frame : Frame U :=
      { id, parent := some parent, url, origin := originText url, childFrames := [] }
    let frames := tree.frames.modify parent fun parentFrame =>
      { parentFrame with childFrames := parentFrame.childFrames ++ [id] }
    (if frames.contains id then .error .duplicateFrame else .ok id,
      { tree with frames := frames.insert id frame })
  else (.error .missingFrame, tree)

/-- Removes everything below a frame, and sets its address. -/
def navigate (tree : FrameTree U) (depth : Nat) (id : FrameId) (url : U) :
    Option (Except FrameError Unit × FrameTree U) :=
  match tree.frames[id]? with
  | none => some (.error .missingFrame, tree)
  | some frame => do
      let descendants ← frame.childFrames.foldlM (fun descendants child => do
        let descendants ← tree.collectDescendants depth child descendants
        pure (descendants ++ [child])) []
      let frames := descendants.foldl ExtTreeMap.erase tree.frames
      if frames.contains id then
        pure (.ok (), { tree with frames := frames.modify id fun frame =>
          { frame with url, origin := originText url, childFrames := [] } })
      else pure (.error .missingFrame, { tree with frames })

/-- A call that changes the tree. -/
inductive Op (U : Type) where
  | addChild (id parent : FrameId) (url : U)
  | navigate (id : FrameId) (url : U)

/-- What a call does; `none` means that the depth does not suffice. -/
def perform (depth : Nat) (tree : FrameTree U) : Op U → Option (FrameTree U)
  | .addChild id parent url => some (tree.addChild id parent url).2
  | .navigate id url => (tree.navigate depth id url).map Prod.snd

/-- A new frame gets a new id, and a run goes on after a call that returns. -/
def machine (depth : Nat) : Machine (FrameTree U) (Op U) where
  step tree op := (tree.perform depth op).getD tree
  Allowed tree op := match op with
    | .addChild id _ _ => tree.frames[id]? = none
    | .navigate id url => (tree.navigate depth id url).isSome

end Origins

end FrameTree

end BrowsAI.Frames
