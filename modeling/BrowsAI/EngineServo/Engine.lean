import BrowsAI.Diff.Tree
import BrowsAI.Library.Runs
import BrowsAI.Library.Saturating
import BrowsAI.Profiles.Identity

/-!
# The deterministic engine

`ServoEngine` of `crates/engine-servo` as it is built without the `servo-runtime` feature: contexts and
pages under ids that are counted up, and a record of each page. With the feature, `create_context` and
`create_page` start a browser as well, which is not modelled. `pages_independent`: the calls are
answered as by a book of pages each of which looks at the calls for itself only.

The type of URLs, of the identities that a context is made with, and of input events are parameters.
-/

namespace BrowsAI.EngineServo

open Utf8 Std AgentTree Diff Profiles Saturating

/-- A `u64` of the source that is counted up by one call at a time; here it has no bound. -/
abbrev ContextId := Nat

/-- A `u64` of the source that is counted up by one call at a time; here it has no bound. -/
abbrev PageId := Nat

/-- What the engine does with a URL. -/
class Address (U : Type) where
  aboutBlank : U
  asStr : U → Text

/-- The options of a context, as far as the engine and the server read them. -/
structure ContextOptions (Identity : Type) where
  profileIdentity : Option Identity
  useRealBrowserRuntime : Bool
  deterministicClockMillis : Option UInt64

/-- The errors of the calls that are modelled. -/
inductive EngineError where
  | contextNotFound (context : ContextId)
  | pageNotFound (page : PageId)
  | unsupported (message : Text)
  | evaluationTimeout
  | other (message : Text)
  deriving DecidableEq

/-- What the engine keeps of a page. -/
structure PageRecord (U Event : Type) where
  state : PageState U
  snapshotId : UInt64
  inputEvents : List Event

/-- The last ids that were given out, and what is under them. -/
structure ServoEngine (Identity U Event : Type) where
  nextContext : ContextId
  nextPage : PageId
  nextSnapshot : UInt64
  contexts : OrdMap ContextId (ContextOptions Identity)
  pages : OrdMap PageId (PageRecord U Event)

/-- `AgentRenderTree::new_page`, with the UUID that it generates. -/
def newPage (uuid : Uuid) (name : Text) : AgentRenderTree :=
  let id := "page:" ++ hyphenated uuid
  { root := id
    nodes := [{ AgentNode.plain id .page (some name) [] with identityKey := some "page" }]
    generation := 0
    truncated := false }

namespace ServoEngine

variable {Identity U Event : Type}

/-- The engine without contexts and pages. -/
def new : ServoEngine Identity U Event := ⟨0, 0, 0, ∅, ∅⟩

/-- `create_context` of a build without the `servo-runtime` feature. -/
def createContext (e : ServoEngine Identity U Event) (options : ContextOptions Identity) :
    Except EngineError ContextId × ServoEngine Identity U Event :=
  if options.useRealBrowserRuntime then
    (.error (.unsupported "real Servo runtime requires the servo-runtime feature"), e)
  else
    let nextContext := e.nextContext + 1
    (.ok nextContext, { e with nextContext, contexts := e.contexts.insert nextContext options })

section Pages

variable [Address U]

/-- `create_page`, with the UUID of its tree. -/
def createPage (e : ServoEngine Identity U Event) (uuid : Uuid) (context : ContextId) :
    Except EngineError PageId × ServoEngine Identity U Event :=
  match e.contexts[context]? with
  | none => (.error (.contextNotFound context), e)
  | some _ =>
      let nextPage := e.nextPage + 1
      let record : PageRecord U Event :=
        ⟨⟨Address.aboutBlank, newPage uuid "about:blank", 0⟩, 0, []⟩
      (.ok nextPage, { e with nextPage, pages := e.pages.insert nextPage record })

/-- `navigate`, with the UUID of the new tree. A snapshot id is spent on a missing page as well. -/
def navigate (e : ServoEngine Identity U Event) (uuid : Uuid) (page : PageId) (url : U) :
    Except EngineError Unit × ServoEngine Identity U Event :=
  let nextSnapshot := e.nextSnapshot + 1
  match e.pages[page]? with
  | none => (.error (.pageNotFound page), { e with nextSnapshot })
  | some record =>
      let record : PageRecord U Event :=
        { record with
          snapshotId := nextSnapshot
          state := ⟨url, newPage uuid (Address.asStr url), record.state.generation + 1⟩ }
      (.ok (), { e with nextSnapshot, pages := e.pages.insert page record })

end Pages

/-- The focused node of a snapshot is the first one that says so. -/
def snapshot (e : ServoEngine Identity U Event) (page : PageId) :
    Except EngineError (PageSnapshot U) :=
  match e.pages[page]? with
  | none => .error (.pageNotFound page)
  | some record =>
      let snapshot := record.state.snapshot record.snapshotId
      .ok { snapshot with
        focusedNode := (snapshot.tree.nodes.find? fun node => node.state.focused).map AgentNode.id }

/-- The state of a page. -/
def pageState (e : ServoEngine Identity U Event) (page : PageId) :
    Except EngineError (PageState U) :=
  match e.pages[page]? with
  | none => .error (.pageNotFound page)
  | some record => .ok record.state

/-- The input that a page got. -/
def inputEvents (e : ServoEngine Identity U Event) (page : PageId) :
    Except EngineError (List Event) :=
  match e.pages[page]? with
  | none => .error (.pageNotFound page)
  | some record => .ok record.inputEvents

/-- Gives input to a page. -/
def dispatchInput (e : ServoEngine Identity U Event) (page : PageId) (event : Event) :
    Except EngineError Unit × ServoEngine Identity U Event :=
  match e.pages[page]? with
  | none => (.error (.pageNotFound page), e)
  | some record =>
      (.ok (), { e with
        pages := e.pages.insert page { record with inputEvents := record.inputEvents ++ [event] } })

/-- `advance_time` on the clock of a context that has one. -/
def advanceTime (e : ServoEngine Identity U Event) (context : ContextId) (millis : UInt64) :
    Except EngineError UInt64 × ServoEngine Identity U Event :=
  match e.contexts[context]? with
  | none => (.error (.contextNotFound context), e)
  | some options =>
      match options.deterministicClockMillis with
      | none =>
          (.error (.unsupported "deterministic clock is unavailable for this context"), e)
      | some clock =>
          let clock := saturatingAdd clock millis
          (.ok clock, { e with
            contexts := e.contexts.insert context
              { options with deterministicClockMillis := some clock } })

end ServoEngine

/-! ## A book of pages -/

/-- A call with its arguments, and the UUID that it generates. -/
inductive Op (Identity U Event : Type) where
  | createContext (options : ContextOptions Identity)
  | createPage (uuid : Uuid) (context : ContextId)
  | navigate (uuid : Uuid) (page : PageId) (url : U)
  | dispatchInput (page : PageId) (event : Event)
  | advanceTime (context : ContextId) (millis : UInt64)

/-- What a call answers. -/
inductive Outcome where
  | context (result : Except EngineError ContextId)
  | page (result : Except EngineError PageId)
  | done (result : Except EngineError Unit)
  | clock (result : Except EngineError UInt64)

/-- The item with a number, where the first one has the number 1. -/
def numbered {α : Type} (items : List α) : Nat → Option α
  | 0 => none
  | n + 1 => items[n]?

/-- A new item has the next number. -/
theorem numbered_concat {α : Type} (items : List α) (a : α) (n : Nat) :
    numbered (items ++ [a]) n = if items.length + 1 = n then some a else numbered items n := by
  cases n with
  | zero => rfl
  | succ n =>
      rw [numbered, numbered, List.getElem?_append]
      split_ifs with hlt heq heq
      · omega
      · rfl
      · obtain rfl := Nat.succ.inj heq
        rw [Nat.sub_self]
        rfl
      · rw [List.getElem?_eq_none (by rw [List.length_singleton]; omega),
          List.getElem?_eq_none (by omega)]

/-- Another item with a number that is given out changes no other item. -/
theorem numbered_set {α : Type} {items : List α} {n : Nat} (h : (numbered items n).isSome) (a : α)
    (m : Nat) : numbered (items.set (n - 1) a) m = if n = m then some a else numbered items m := by
  cases n with
  | zero => cases h
  | succ n =>
      have hlt : n < items.length := by
        rw [numbered, isSome_getElem?] at h
        exact h
      cases m with
      | zero => rfl
      | succ m =>
          rw [numbered, numbered, Nat.add_sub_cancel, List.getElem?_set]
          split_ifs with heq hsucc hsucc
          · rfl
          · exact absurd (congrArg Nat.succ heq) hsucc
          · exact absurd (Nat.succ.inj hsucc) heq
          · rfl

section Book

variable {Identity U Event : Type} [Address U]

/-- A call of the engine with its answer. -/
def ServoEngine.perform (e : ServoEngine Identity U Event) :
    Op Identity U Event → Outcome × ServoEngine Identity U Event
  | .createContext options => ((e.createContext options).map .context id)
  | .createPage uuid context => ((e.createPage uuid context).map .page id)
  | .navigate uuid page url => ((e.navigate uuid page url).map .done id)
  | .dispatchInput page event => ((e.dispatchInput page event).map .done id)
  | .advanceTime context millis => ((e.advanceTime context millis).map .clock id)

/-- A page as an agent knows it: where it is, and the inputs that it got. -/
structure PageView (U Event : Type) where
  state : PageState U
  inputs : List Event

namespace PageView

/-- A new page. -/
def blank (uuid : Uuid) : PageView U Event :=
  ⟨⟨Address.aboutBlank, newPage uuid "about:blank", 0⟩, []⟩

/-- What a page makes of a call: it looks at the navigations and inputs under its own id. -/
def perform (page : PageId) (view : PageView U Event) : Op Identity U Event → PageView U Event
  | .navigate uuid other url =>
      if page = other then
        { view with state := ⟨url, newPage uuid (Address.asStr url), view.state.generation + 1⟩ }
      else view
  | .dispatchInput other event =>
      if page = other then { view with inputs := view.inputs ++ [event] } else view
  | .createContext _ | .createPage _ _ | .advanceTime _ _ => view

end PageView

/-- The clocks of the contexts, and the pages, each in the order of their creation. -/
structure Book (U Event : Type) where
  clocks : List (Option UInt64)
  pages : List (PageView U Event)

namespace Book

/-- Nothing was created yet. -/
def empty : Book U Event := ⟨[], []⟩

/-- Every page gets the call. -/
def pagesAfter (b : Book U Event) (op : Op Identity U Event) : List (PageView U Event) :=
  b.pages.mapIdx fun i view => view.perform (i + 1) op

/-- A call on a page succeeds exactly if the page is there. -/
def onPage (b : Book U Event) (page : PageId) : Outcome :=
  .done (if (numbered b.pages page).isSome then .ok () else .error (.pageNotFound page))

/-- A call with its answer. -/
def perform (b : Book U Event) (op : Op Identity U Event) : Outcome × Book U Event :=
  match op with
  | .createContext options =>
      if options.useRealBrowserRuntime then
        (.context (.error
          (.unsupported "real Servo runtime requires the servo-runtime feature")), b)
      else
        (.context (.ok (b.clocks.length + 1)),
          { b with clocks := b.clocks ++ [options.deterministicClockMillis] })
  | .createPage uuid context =>
      match numbered b.clocks context with
      | none => (.page (.error (.contextNotFound context)), b)
      | some _ => (.page (.ok (b.pages.length + 1)), { b with pages := b.pages ++ [.blank uuid] })
  | .navigate _ page _ | .dispatchInput page _ => (b.onPage page, { b with pages := b.pagesAfter op })
  | .advanceTime context millis =>
      match numbered b.clocks context with
      | none => (.clock (.error (.contextNotFound context)), b)
      | some none =>
          (.clock (.error
            (.unsupported "deterministic clock is unavailable for this context")), b)
      | some (some clock) =>
          (.clock (.ok (saturatingAdd clock millis)),
            { b with clocks := b.clocks.set (context - 1) (some (saturatingAdd clock millis)) })

/-- Every call may be made at any time. -/
def machine : Machine (Book U Event) (Op Identity U Event) where
  step b op := (b.perform op).2
  Allowed _ _ := True

theorem numbered_pages_after (b : Book U Event) (op : Op Identity U Event) (page : PageId) :
    numbered (b.pagesAfter op) page =
      (numbered b.pages page).map fun view => view.perform page op := by
  cases page with
  | zero => rfl
  | succ n => exact List.getElem?_mapIdx

/-- A page that is there makes of a call what it makes of it alone. -/
theorem numbered_perform {b : Book U Event} {page : PageId} {view : PageView U Event}
    (h : numbered b.pages page = some view) (op : Op Identity U Event) :
    numbered (b.perform op).2.pages page = some (view.perform page op) := by
  cases op with
  | createContext options =>
      rw [perform]
      split_ifs <;> exact h
  | createPage uuid context =>
      rw [perform]
      cases numbered b.clocks context with
      | none => exact h
      | some clock =>
          dsimp only
          rw [numbered_concat, h]
          refine if_neg fun heq => ?_
          subst heq
          rw [numbered, List.getElem?_eq_none (Nat.le_refl _)] at h
          cases h
  | navigate uuid other url =>
      exact (b.numbered_pages_after (.navigate uuid other url) page).trans (by rw [h]; rfl)
  | dispatchInput other event =>
      exact (b.numbered_pages_after (.dispatchInput other event : Op Identity U Event) page).trans
        (by rw [h]; rfl)
  | advanceTime context millis =>
      rw [perform]
      cases numbered b.clocks context with
      | none => exact h
      | some clock =>
          cases clock with
          | none => exact h
          | some clock => exact h

/-- In a run, a page makes of all calls what it makes of them alone. -/
theorem numbered_run {b : Book U Event} {page : PageId} {view : PageView U Event}
    (h : numbered b.pages page = some view) (ops : List (Op Identity U Event)) :
    numbered (machine.run b ops).pages page = some (ops.foldl (PageView.perform page) view) := by
  induction ops generalizing b view with
  | nil => exact h
  | cons op ops ih => exact ih (numbered_perform h op)

end Book

/-! ## The engine keeps the book -/

/-- The page in a record. -/
def PageRecord.view (record : PageRecord U Event) : PageView U Event :=
  ⟨record.state, record.inputEvents⟩

/-- The engine has the contexts and the pages of the book, under their numbers. -/
structure Keeps (e : ServoEngine Identity U Event) (b : Book U Event) : Prop where
  nextContext : e.nextContext = b.clocks.length
  nextPage : e.nextPage = b.pages.length
  contexts : ∀ context : ContextId,
    (e.contexts[context]?).map ContextOptions.deterministicClockMillis = numbered b.clocks context
  pages : ∀ page : PageId, (e.pages[page]?).map PageRecord.view = numbered b.pages page

/-- A call of the engine and the entry that the book makes of it. -/
structure Agrees (call : Outcome × ServoEngine Identity U Event) (entry : Outcome × Book U Event) :
    Prop where
  answer : call.1 = entry.1
  keeps : Keeps call.2 entry.2

omit [Address U] in
theorem keeps_new : Keeps (.new : ServoEngine Identity U Event) .empty where
  nextContext := rfl
  nextPage := rfl
  contexts context := by
    cases context <;> simp [ServoEngine.new, numbered, Book.empty]
  pages page := by
    cases page <;> simp [ServoEngine.new, numbered, Book.empty]

namespace Keeps

variable {e : ServoEngine Identity U Event} {b : Book U Event}

/-- A new record of one page, for a call that is for this page, is what the book makes of it. -/
theorem on_page (h : Keeps e b) {page : PageId} {record : PageRecord U Event}
    (hrecord : e.pages[page]? = some record) (op : Op Identity U Event)
    (hothers : ∀ other (view : PageView U Event), page ≠ other → view.perform other op = view)
    {after : PageRecord U Event} (hafter : after.view = record.view.perform page op)
    (nextSnapshot : UInt64) :
    Keeps { e with nextSnapshot, pages := e.pages.insert page after }
      { b with pages := b.pagesAfter op } where
  nextContext := h.nextContext
  nextPage := h.nextPage.trans List.length_mapIdx.symm
  contexts := h.contexts
  pages other := by
    show ((e.pages.insert page after)[other]?).map PageRecord.view = _
    rw [Book.numbered_pages_after, ← h.pages, OrdMap.get_insert]
    split_ifs with hsame
    · subst hsame
      rw [hrecord, Option.map_some, Option.map_some, Option.map_some, hafter]
    · rw [Option.map_map]
      refine Option.map_congr fun found _ => ?_
      exact (hothers other found.view hsame).symm

/-- A call on a page that is not there is refused by both, and changes nothing in the book. -/
theorem off_page (h : Keeps e b) {page : PageId} (hnone : e.pages[page]? = none)
    (op : Op Identity U Event)
    (hothers : ∀ other (view : PageView U Event), page ≠ other → view.perform other op = view) :
    numbered b.pages page = none ∧ b.pagesAfter op = b.pages := by
  have hmissing : numbered b.pages page = none := by rw [← h.pages, hnone]; rfl
  refine ⟨hmissing, List.ext_getElem? fun i => ?_⟩
  have hsame := b.numbered_pages_after op (i + 1)
  rw [numbered, numbered] at hsame
  rw [hsame]
  cases hview : b.pages[i]? with
  | none => rfl
  | some view =>
      refine congrArg some (hothers (i + 1) view fun heq => ?_)
      rw [heq, numbered, hview] at hmissing
      cases hmissing

theorem create_context (h : Keeps e b) (options : ContextOptions Identity) :
    Agrees (e.perform (.createContext options))
      (b.perform (.createContext options : Op Identity U Event)) := by
  rw [ServoEngine.perform, ServoEngine.createContext, Book.perform]
  split_ifs with hlive
  · exact ⟨rfl, h⟩
  · refine ⟨congrArg (fun n => Outcome.context (.ok (n + 1))) h.nextContext, ?_⟩
    refine ⟨?_, h.nextPage, fun context => ?_, h.pages⟩
    · show e.nextContext + 1 = (b.clocks ++ [_]).length
      rw [List.length_append, h.nextContext]
      rfl
    · show ((e.contexts.insert (e.nextContext + 1) options)[context]?).map _ = _
      rw [numbered_concat, OrdMap.get_insert, h.nextContext]
      split_ifs
      · rfl
      · exact h.contexts context

theorem create_page (h : Keeps e b) (uuid : Uuid) (context : ContextId) :
    Agrees (e.perform (.createPage uuid context))
      (b.perform (.createPage uuid context : Op Identity U Event)) := by
  rw [ServoEngine.perform, ServoEngine.createPage, Book.perform, ← h.contexts]
  cases e.contexts[context]? with
  | none => exact ⟨rfl, h⟩
  | some options =>
      refine ⟨congrArg (fun n => Outcome.page (.ok (n + 1))) h.nextPage, ?_⟩
      refine ⟨h.nextContext, ?_, h.contexts, fun page => ?_⟩
      · show e.nextPage + 1 = (b.pages ++ [_]).length
        rw [List.length_append, h.nextPage]
        rfl
      · show ((e.pages.insert (e.nextPage + 1) _)[page]?).map PageRecord.view =
          numbered (b.pages ++ [PageView.blank uuid]) page
        rw [numbered_concat, OrdMap.get_insert, h.nextPage]
        split_ifs
        · rfl
        · exact h.pages page

theorem navigate (h : Keeps e b) (uuid : Uuid) (page : PageId) (url : U) :
    Agrees (e.perform (.navigate uuid page url))
      (b.perform (.navigate uuid page url : Op Identity U Event)) := by
  have hothers : ∀ other (view : PageView U Event), page ≠ other →
      view.perform other (.navigate uuid page url : Op Identity U Event) = view :=
    fun other view hne => if_neg hne.symm
  rw [ServoEngine.perform, ServoEngine.navigate, Book.perform, Book.onPage, ← h.pages]
  cases hrecord : e.pages[page]? with
  | none =>
      rw [(h.off_page hrecord _ hothers).2]
      exact ⟨rfl, h.nextContext, h.nextPage, h.contexts, h.pages⟩
  | some record =>
      exact ⟨rfl, h.on_page hrecord _ hothers (if_pos rfl).symm _⟩

theorem dispatch_input (h : Keeps e b) (page : PageId) (event : Event) :
    Agrees (e.perform (.dispatchInput page event))
      (b.perform (.dispatchInput page event : Op Identity U Event)) := by
  have hothers : ∀ other (view : PageView U Event), page ≠ other →
      view.perform other (.dispatchInput page event : Op Identity U Event) = view :=
    fun other view hne => if_neg hne.symm
  rw [ServoEngine.perform, ServoEngine.dispatchInput, Book.perform, Book.onPage, ← h.pages]
  cases hrecord : e.pages[page]? with
  | none =>
      rw [(h.off_page hrecord _ hothers).2]
      exact ⟨rfl, h⟩
  | some record =>
      exact ⟨rfl, h.on_page hrecord _ hothers (if_pos rfl).symm _⟩

theorem advance_time (h : Keeps e b) (context : ContextId) (millis : UInt64) :
    Agrees (e.perform (.advanceTime context millis))
      (b.perform (.advanceTime context millis : Op Identity U Event)) := by
  rw [ServoEngine.perform, ServoEngine.advanceTime, Book.perform, ← h.contexts]
  cases hcontext : e.contexts[context]? with
  | none => exact ⟨rfl, h⟩
  | some options =>
      rw [Option.map_some]
      dsimp only
      cases hclock : options.deterministicClockMillis with
      | none => exact ⟨rfl, h⟩
      | some clock =>
          have hthere : (numbered b.clocks context).isSome := by
            rw [← h.contexts, hcontext]
            rfl
          refine ⟨rfl, h.nextContext.trans List.length_set.symm, h.nextPage, fun other => ?_,
            h.pages⟩
          show ((e.contexts.insert context _)[other]?).map _ = _
          rw [numbered_set hthere, OrdMap.get_insert]
          split_ifs
          · rfl
          · exact h.contexts other

/-- A call is answered as by the book, and the engine keeps the book after it. -/
theorem perform (h : Keeps e b) (op : Op Identity U Event) :
    Agrees (e.perform op) (b.perform op) := by
  cases op with
  | createContext options => exact h.create_context options
  | createPage uuid context => exact h.create_page uuid context
  | navigate uuid page url => exact h.navigate uuid page url
  | dispatchInput page event => exact h.dispatch_input page event
  | advanceTime context millis => exact h.advance_time context millis

end Keeps

namespace ServoEngine

/-- Every call may be made at any time. -/
def machine : Machine (ServoEngine Identity U Event) (Op Identity U Event) where
  step e op := (e.perform op).2
  Allowed _ _ := True

/-- What the engine says of a page is what is in the book, but for the number of a snapshot. -/
def Answers (e : ServoEngine Identity U Event) (page : PageId) : Option (PageView U Event) → Prop
  | none =>
      e.snapshot page = .error (.pageNotFound page) ∧
        e.pageState page = .error (.pageNotFound page) ∧
        e.inputEvents page = .error (.pageNotFound page)
  | some view =>
      (∃ number, e.snapshot page = .ok { view.state.snapshot number with
        focusedNode :=
          (view.state.tree.nodes.find? fun node => node.state.focused).map AgentNode.id }) ∧
        e.pageState page = .ok view.state ∧ e.inputEvents page = .ok view.inputs

end ServoEngine

namespace Keeps

variable {e : ServoEngine Identity U Event} {b : Book U Event}

omit [Address U] in
/-- An engine that keeps the book answers with what is in it. -/
theorem answers (h : Keeps e b) (page : PageId) : e.Answers page (numbered b.pages page) := by
  rw [← h.pages]
  cases hrecord : e.pages[page]? with
  | none =>
      rw [Option.map_none, ServoEngine.Answers, ServoEngine.snapshot, ServoEngine.pageState,
        ServoEngine.inputEvents, hrecord]
      exact ⟨rfl, rfl, rfl⟩
  | some record =>
      rw [Option.map_some, ServoEngine.Answers, ServoEngine.snapshot, ServoEngine.pageState,
        ServoEngine.inputEvents, hrecord]
      exact ⟨⟨_, rfl⟩, rfl, rfl⟩

/-- The engine keeps the book in every run. -/
theorem run (h : Keeps e b) (ops : List (Op Identity U Event)) :
    Keeps (ServoEngine.machine.run e ops) (Book.machine.run b ops) := by
  induction ops generalizing e b with
  | nil => exact h
  | cons op ops ih => exact ih (h.perform op).keeps

end Keeps

namespace ServoEngine

/-- In every run: each call is answered as by the book, where a call on a page succeeds exactly if the
page is there; every query for a page is answered with what is in the book; and a page that is there
comes out of any further calls as it makes of them alone, of which it looks at those under its own id. -/
theorem pages_independent (ops : List (Op Identity U Event)) :
    (machine.trace (fun e op => some (e.perform op).1) .new ops : List Outcome) =
        Book.machine.trace (fun b op => some (b.perform op).1) (.empty : Book U Event) ops ∧
      ∀ page : PageId,
        (machine.run (.new : ServoEngine Identity U Event) ops).Answers page
            (numbered (Book.machine.run .empty ops).pages page) ∧
          ∀ view, numbered (Book.machine.run .empty ops).pages page = some view →
            ∀ more : List (Op Identity U Event),
              (machine.run (machine.run (.new : ServoEngine Identity U Event) ops) more).Answers page
                (some (more.foldl (PageView.perform page) view)) := by
  refine ⟨?_, fun page => ?_⟩
  · have htrace : machine.trace (fun e op => some (e.perform op).1)
        (.new : ServoEngine Identity U Event) ops =
          Book.machine.trace (fun b op => some (b.perform op).1) .empty (ops.map id) := by
      refine Machine.trace_simulates (R := Keeps) (fun e b op h => ?_) keeps_new ops
      exact ⟨congrArg some (h.perform op).answer, (h.perform op).keeps⟩
    rwa [List.map_id] at htrace
  · have hkeeps : Keeps (machine.run .new ops) (Book.machine.run .empty ops) := keeps_new.run ops
    refine ⟨hkeeps.answers page, fun view hview more => ?_⟩
    have hmore := (hkeeps.run more).answers page
    rwa [Book.numbered_run hview] at hmore

end ServoEngine

end Book

end BrowsAI.EngineServo
