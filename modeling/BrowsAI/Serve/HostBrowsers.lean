import BrowsAI.Serve.Handlers

/-!
# A browser for each host

All hosts share the engine and the sessions of the server. `hosts_isolated` says that a client cannot
tell: for each host the server is a browser of its own with one page, and apart from the numbers of
pages and snapshots its answers are those it would give if no other host was ever asked for.
-/

namespace BrowsAI.Serve.Handlers

open Utf8 Std Profiles AgentTree Diff EngineServo Domains

/-- The page of a host, with the inputs that it got and the time when it was asked for last. -/
structure Visit (Identity U Event : Type) where
  lastUsed : Instant
  fingerprint : Option Identity
  state : PageState U
  inputs : List Event

variable {Identity U Event : Type} {fingerprint : Option Identity} {s : ServerState Identity U Event}
  {host : Text}

/-! ## Pages of sessions -/

/-- The page in a session. -/
def visitOf (session : DomainSession Identity) (record : PageRecord U Event) :
    Visit Identity U Event :=
  ⟨session.lastUsed, session.fingerprint, record.state, record.inputEvents⟩

/-- The page that a host has in the server. -/
def view (s : ServerState Identity U Event) (host : Text) : Option (Visit Identity U Event) :=
  (s.sessions[host]?).bind fun session =>
    (s.engine.pages[session.pageId]?).map (visitOf session)

/-- Every session has a page that no other session has. -/
structure Sound (fingerprint : Option Identity) (s : ServerState Identity U Event) : Prop where
  config : s.config = ⟨fingerprint, false⟩
  there : ∀ (host : Text) session, s.sessions[host]? = some session →
    session.pageId ≤ s.engine.nextPage ∧ (s.engine.pages[session.pageId]?).isSome
  distinct : ∀ (host host' : Text) session session', s.sessions[host]? = some session →
    s.sessions[host']? = some session' → session.pageId = session'.pageId → host = host'

theorem sound_new (fingerprint : Option Identity) :
    Sound fingerprint (.new ⟨fingerprint, false⟩ : ServerState Identity U Event) where
  config := rfl
  there host session hsession := by
    rw [ServerState.new, ExtTreeMap.getElem?_empty] at hsession
    cases hsession
  distinct host host' session session' hsession := by
    rw [ServerState.new, ExtTreeMap.getElem?_empty] at hsession
    cases hsession

theorem view_new (fingerprint : Option Identity) (host : Text) :
    view (.new ⟨fingerprint, false⟩ : ServerState Identity U Event) host = none := by
  rw [view, ServerState.new, ExtTreeMap.getElem?_empty]
  rfl

/-- A page was not idle for a minute. -/
def Visit.recent (visit : Visit Identity U Event) (now : Instant) : Bool :=
  decide (now - visit.lastUsed ≤ fromSecs maxIdlePerDomainSeconds)

/-- A sweep keeps the invariant, and drops the visits that are not recent. -/
theorem Sound.idle_sweep (h : Sound fingerprint s) (now : Instant) :
    Sound fingerprint (s.idleSweep now) ∧
      ∀ host, view (s.idleSweep now) host = (view s host).filter fun visit => visit.recent now := by
  have hget : ∀ host : Text, (s.idleSweep now).sessions[host]? =
      (s.sessions[host]?).filter fun session =>
        decide (now - session.lastUsed ≤ fromSecs maxIdlePerDomainSeconds) :=
    fun host => ExtTreeMap.getElem?_filter'
  have hsub : ∀ (host : Text) session, (s.idleSweep now).sessions[host]? = some session →
      s.sessions[host]? = some session := by
    intro host session hsession
    rw [hget] at hsession
    exact (Option.filter_eq_some_iff.mp hsession).1
  refine ⟨⟨h.config, fun host session hsession => h.there host session (hsub _ _ hsession),
    fun host host' session session' hsession hsession' =>
      h.distinct host host' session session' (hsub _ _ hsession) (hsub _ _ hsession')⟩,
    fun host => ?_⟩
  rw [view, hget, view]
  cases hsession : s.sessions[host]? with
  | none => rfl
  | some session =>
      obtain ⟨record, hrecord⟩ := Option.isSome_iff_exists.mp (h.there host session hsession).2
      by_cases hrecent : now - session.lastUsed ≤ fromSecs maxIdlePerDomainSeconds
      · simp [Option.filter, hrecent, hrecord, Visit.recent, visitOf, ServerState.idleSweep]
      · simp [Option.filter, hrecent, hrecord, Visit.recent, visitOf]

/-- A host has a session with a page of its own, and nothing else is changed. -/
structure Opened (s s' : ServerState Identity U Event) (host : Text)
    (session : DomainSession Identity) (record : PageRecord U Event) : Prop where
  config : s'.config = s.config
  found : s'.sessions[host]? = some session
  others : ∀ other : Text, host ≠ other → s'.sessions[other]? = s.sessions[other]?
  shown : s'.engine.pages[session.pageId]? = some record
  pages : ∀ page : PageId, session.pageId ≠ page → s'.engine.pages[page]? = s.engine.pages[page]?
  nextPage : s.engine.nextPage ≤ s'.engine.nextPage
  le : session.pageId ≤ s'.engine.nextPage
  apart : ∀ (other : Text) session', host ≠ other → s.sessions[other]? = some session' →
    session.pageId ≠ session'.pageId

namespace Opened

variable {s' : ServerState Identity U Event} {session : DomainSession Identity}
  {record : PageRecord U Event}

/-- A session that is opened keeps the invariant. -/
theorem sound (ho : Opened s s' host session record) (h : Sound fingerprint s) :
    Sound fingerprint s' where
  config := ho.config.trans h.config
  there other found hfound := by
    by_cases hsame : host = other
    · subst hsame
      cases ho.found.symm.trans hfound
      exact ⟨ho.le, Option.isSome_iff_exists.mpr ⟨_, ho.shown⟩⟩
    · rw [ho.others other hsame] at hfound
      obtain ⟨hle, hsome⟩ := h.there other found hfound
      refine ⟨hle.trans ho.nextPage, ?_⟩
      rw [ho.pages _ (ho.apart other found hsame hfound)]
      exact hsome
  distinct a b found found' hfound hfound' hpage := by
    by_cases ha : host = a
    · by_cases hb : host = b
      · exact ha.symm.trans hb
      · subst ha
        cases ho.found.symm.trans hfound
        rw [ho.others b hb] at hfound'
        exact absurd hpage (ho.apart b found' hb hfound')
    · rw [ho.others a ha] at hfound
      by_cases hb : host = b
      · subst hb
        cases ho.found.symm.trans hfound'
        exact absurd hpage.symm (ho.apart a found ha hfound)
      · rw [ho.others b hb] at hfound'
        exact h.distinct a b found found' hfound hfound' hpage

theorem view_self (ho : Opened s s' host session record) :
    view s' host = some (visitOf session record) := by
  rw [view, ho.found, Option.bind_some, ho.shown]
  rfl

theorem view_other (ho : Opened s s' host session record) {other : Text} (hne : host ≠ other) :
    view s' other = view s other := by
  rw [view, view, ho.others other hne]
  cases hfound : s.sessions[other]? with
  | none => rfl
  | some found =>
      rw [Option.bind_some, Option.bind_some, ho.pages _ (ho.apart other found hne hfound)]

/-- A call of the engine that changes the page only. -/
theorem engine (ho : Opened s s' host session record) {engine : ServoEngine Identity U Event}
    {record' : PageRecord U Event} (hpage : engine.pages[session.pageId]? = some record')
    (hothers : ∀ page : PageId, session.pageId ≠ page → engine.pages[page]? = s'.engine.pages[page]?)
    (hnext : engine.nextPage = s'.engine.nextPage) :
    Opened s { s' with engine } host session record' where
  config := ho.config
  found := ho.found
  others := ho.others
  shown := hpage
  pages page hne := (hothers page hne).trans (ho.pages page hne)
  nextPage := ho.nextPage.trans_eq hnext.symm
  le := ho.le.trans_eq hnext.symm
  apart := ho.apart

end Opened

section Sessions

variable [Address U] [DecidableEq Identity]

namespace Visit

/-- The page if it has the identity of a request, and otherwise a blank one. -/
def reopened (visit : Option (Visit Identity U Event)) (m : Moment) (fingerprint : Option Identity) :
    Visit Identity U Event :=
  match visit.filter fun visit => visit.fingerprint = fingerprint with
  | some visit => { visit with lastUsed := m.now }
  | none => ⟨m.now, fingerprint, ⟨Address.aboutBlank, newPage m.pageUuid "about:blank", 0⟩, []⟩

end Visit

omit [DecidableEq Identity] in
/-- A new page for a host, whose session is gone if there was one. -/
theorem Sound.create_domain (h : Sound fingerprint s) (cleared : ServerState Identity U Event)
    (hconfig : cleared.config = s.config) (hengine : cleared.engine = s.engine)
    (hothers : ∀ other : Text, host ≠ other → cleared.sessions[other]? = s.sessions[other]?)
    (m : Moment) (identity : Option Identity) :
    ∃ session record s',
      cleared.createDomain m.now m.pageUuid host identity =
        (.ok (session.contextId, session.pageId), s') ∧ Opened s s' host session record ∧
      visitOf session record =
        ⟨m.now, identity, ⟨Address.aboutBlank, newPage m.pageUuid "about:blank", 0⟩, []⟩ := by
  have hlive : cleared.config.liveBrowser = false := by rw [hconfig, h.config]
  rw [ServerState.createDomain, ServoEngine.createContext, hlive, if_neg Bool.false_ne_true]
  dsimp only
  rw [ServoEngine.createPage, OrdMap.get_insert_self]
  refine ⟨⟨_, _, m.now, identity⟩, ⟨_, 0, []⟩, _, rfl, ?_, rfl⟩
  exact
    { config := hconfig
      found := OrdMap.get_insert_self _ _ _
      others := fun other hne => (OrdMap.get_insert_ne _ hne _).trans (hothers other hne)
      shown := OrdMap.get_insert_self _ _ _
      pages := fun page hne => (OrdMap.get_insert_ne _ hne _).trans (by rw [hengine])
      nextPage := by
        rw [hengine]
        exact Nat.le_succ _
      le := Nat.le_refl _
      apart := fun other session' _ hsession' heq => by
        have hle := (h.there other session' hsession').1
        rw [← hengine, ← heq] at hle
        exact Nat.not_succ_le_self _ hle }

/-- A request gets the page of its host, or a blank one. -/
theorem Sound.get_or_create_domain (h : Sound fingerprint s) (m : Moment) (host : Text)
    (fingerprintOverride : Option Identity) :
    ∃ session record s',
      s.getOrCreateDomain m.now m.pageUuid host fingerprintOverride =
        (.ok (session.contextId, session.pageId), s') ∧ Opened s s' host session record ∧
      visitOf session record =
        Visit.reopened (view s host) m (fingerprintOverride.or fingerprint) := by
  have hdefault : s.config.fingerprint = fingerprint := by rw [h.config]
  rw [ServerState.getOrCreateDomain, hdefault, view]
  cases hsession : s.sessions[host]? with
  | none => exact h.create_domain s rfl rfl (fun _ _ => rfl) m _
  | some session =>
      obtain ⟨hle, hsome⟩ := h.there host session hsession
      obtain ⟨record, hrecord⟩ := Option.isSome_iff_exists.mp hsome
      dsimp only
      rw [Option.bind_some, hrecord, Option.map_some, Visit.reopened, Option.filter_some]
      have hidentity : (visitOf session record).fingerprint = session.fingerprint := rfl
      rw [hidentity]
      by_cases hsame : session.fingerprint = fingerprintOverride.or fingerprint
      · rw [if_pos hsame, if_pos (decide_eq_true hsame)]
        refine ⟨{ session with lastUsed := m.now }, record, _, rfl, ?_, rfl⟩
        exact
          { config := rfl
            found := OrdMap.get_insert_self _ _ _
            others := fun other hne => OrdMap.get_insert_ne _ hne _
            shown := hrecord
            pages := fun _ _ => rfl
            nextPage := Nat.le_refl _
            le := hle
            apart := fun other session' hne hsession' hpage =>
              hne (h.distinct host other session session' hsession hsession' hpage) }
      · rw [if_neg hsame, if_neg (by simpa using hsame)]
        exact h.create_domain
          { s with sessions := s.sessions.erase host, activeDomains := s.activeDomains - 1 }
          rfl rfl (fun other hne => (OrdMap.get_erase _ _ _).trans (if_neg hne)) m _

/-! ## The calls on a page -/

omit [DecidableEq Identity] in
/-- A navigation of a page that is there changes this page. -/
theorem navigate_eq {e : ServoEngine Identity U Event} {page : PageId} {record : PageRecord U Event}
    (hrecord : e.pages[page]? = some record) (uuid : Uuid) (url : U) :
    ∃ engine record', e.navigate uuid page url = (.ok (), engine) ∧
      engine.pages[page]? = some record' ∧
      (∀ other : PageId, page ≠ other → engine.pages[other]? = e.pages[other]?) ∧
      engine.nextPage = e.nextPage ∧
      record'.state = ⟨url, newPage uuid (Address.asStr url), record.state.generation + 1⟩ ∧
      record'.inputEvents = record.inputEvents := by
  rw [ServoEngine.navigate, hrecord]
  exact ⟨_, _, rfl, OrdMap.get_insert_self _ _ _, fun _ hne => OrdMap.get_insert_ne _ hne _, rfl, rfl,
    rfl⟩

omit [Address U] [DecidableEq Identity] in
/-- Events that are dispatched to a page that is there are added to its inputs. -/
theorem dispatch_all_eq {e : ServoEngine Identity U Event} {page : PageId}
    {record : PageRecord U Event} (hrecord : e.pages[page]? = some record) (total dispatched : Nat)
    (events : List Event) :
    ∃ engine record', dispatchAll page total dispatched events e =
        (.ok (dispatched + events.length), engine) ∧
      engine.pages[page]? = some record' ∧
      (∀ other : PageId, page ≠ other → engine.pages[other]? = e.pages[other]?) ∧
      engine.nextPage = e.nextPage ∧ record'.state = record.state ∧
      record'.inputEvents = record.inputEvents ++ events := by
  induction events generalizing e record dispatched with
  | nil =>
      exact ⟨e, record, rfl, hrecord, fun _ _ => rfl, rfl, rfl, (List.append_nil _).symm⟩
  | cons event events ih =>
      rw [dispatchAll, ServoEngine.dispatchInput, hrecord]
      dsimp only
      let added : PageRecord U Event := { record with inputEvents := record.inputEvents ++ [event] }
      obtain ⟨engine, record', hall, hpage, hothers, hnext, hstate, hinputs⟩ :=
        ih (e := { e with pages := e.pages.insert page added }) (OrdMap.get_insert_self _ _ _)
          (dispatched + 1)
      refine ⟨engine, record', ?_, hpage,
        fun other hne => (hothers other hne).trans (OrdMap.get_insert_ne _ hne _), hnext, hstate, ?_⟩
      · rw [hall, List.length_cons, Nat.add_assoc, Nat.add_comm 1]
      · rw [hinputs, List.append_assoc]
        rfl

omit [Address U] [DecidableEq Identity] in
/-- The runtime of a page that is there has nothing to do. -/
theorem pump_if_eq {e : ServoEngine Identity U Event} {page : PageId} {record : PageRecord U Event}
    (hrecord : e.pages[page]? = some record) (millis : Nat) :
    (if 0 < millis then pumpRuntime e page else .ok ()) = .ok () := by
  rw [pumpRuntime, hrecord]
  exact ite_self _

end Sessions

/-! ## A browser for one host -/

section Browsers

variable [ParsedUrl U] [DecidableEq Identity] [F64Display]

namespace Visit

omit [ParsedUrl U] [F64Display] [DecidableEq Identity] in
/-- The snapshot of the page, without its number. -/
def snapshot (visit : Visit Identity U Event) : PageSnapshot U :=
  { visit.state.snapshot 0 with
    focusedNode := (visit.state.tree.nodes.find? fun node => node.state.focused).map AgentNode.id }

/-- What a request makes of the page, and the answer to it. -/
def perform (fingerprint : Option Identity) (visit : Option (Visit Identity U Event)) (m : Moment) :
    Job Identity U Event → Answer U Event × Visit Identity U Event
  | .browse url _ body =>
      let visit := reopened visit m fingerprint
      let tree := newPage m.treeUuid (Address.asStr url)
      (if bodyFlag body "snapshot_only" = some true then .visited 0 url
        else browseView 0 url tree body,
        { visit with state := ⟨url, tree, visit.state.generation + 1⟩ })
  | .nativeInput input body =>
      let visit := reopened visit m (input.fingerprintOverride.or fingerprint)
      let snapshot :=
        if (bodyFlag body "snapshot_only").getD false then none else some (.ok visit.snapshot)
      (.dispatched input.events.length input.host input.url input.events snapshot,
        { visit with inputs := visit.inputs ++ input.events })

end Visit

omit [ParsedUrl U] in
theorem without_ids_browse_view (page : PageId) (url : U) (tree : AgentRenderTree) (body : Ipc.Value) :
    (browseView page url tree body : Answer U Event).withoutIds = browseView 0 url tree body := by
  rw [browseView, browseView]
  cases Serve.handleBrowse (queriedTree tree body) (BrowseBody.ofJson body) with
  | some view => rfl
  | none =>
      dsimp only
      split_ifs <;> rfl

/-- A request changes the page of its host only, and is answered from it. -/
theorem Sound.perform (h : Sound fingerprint s) (m : Moment) (job : Job Identity U Event) :
    let done := Visit.perform fingerprint (view s job.host) m job
    Sound fingerprint (perform s m job).2 ∧ (perform s m job).1.withoutIds = done.1 ∧
      view (perform s m job).2 job.host = some done.2 ∧
      ∀ other, job.host ≠ other → view (perform s m job).2 other = view s other := by
  cases job with
  | browse url host body =>
      obtain ⟨session, record, s', hsame, hopened, hvisit⟩ := h.get_or_create_domain m host none
      obtain ⟨engine, record', hnavigate, hpage, hothers, hnext, hstate, hinputs⟩ :=
        navigate_eq hopened.shown m.treeUuid url
      have hdone := hopened.engine hpage hothers hnext
      have hperform : Handlers.perform s m (.browse url host body) =
          (browseAnswer engine session.pageId url body, { s' with engine }) := by
        rw [Handlers.perform, handleBrowse, hsame]
        dsimp only
        rw [hnavigate]
      rw [hperform]
      refine ⟨hdone.sound h, ?_, hdone.view_self.trans (congrArg some ?_),
        fun other hne => hdone.view_other hne⟩
      · show (browseAnswer engine session.pageId url body).withoutIds =
          if bodyFlag body "snapshot_only" = some true then .visited 0 url
          else browseView 0 url (newPage m.treeUuid (Address.asStr url)) body
        rw [browseAnswer, pump_if_eq hpage, ServoEngine.snapshot, hpage]
        dsimp only
        split_ifs
        · rfl
        · rw [without_ids_browse_view, hstate]
          rfl
      · rw [Option.none_or] at hvisit
        show visitOf session record' = { Visit.reopened (view s host) m fingerprint with
          state := ⟨url, newPage m.treeUuid (Address.asStr url),
            (Visit.reopened (view s host) m fingerprint).state.generation + 1⟩ }
        rw [← hvisit, visitOf, hstate, hinputs]
        rfl
  | nativeInput input body =>
      obtain ⟨session, record, s', hsame, hopened, hvisit⟩ :=
        h.get_or_create_domain m input.host input.fingerprintOverride
      obtain ⟨engine, record', hall, hpage, hothers, hnext, hstate, hinputs⟩ :=
        dispatch_all_eq hopened.shown input.events.length 0 input.events
      have hdone := hopened.engine hpage hothers hnext
      have hperform : Handlers.perform s m (.nativeInput input body) =
          (inputAnswer engine session.pageId (0 + input.events.length) input body,
            { s' with engine }) := by
        rw [Handlers.perform, handleNativeInput, hsame]
        dsimp only
        rw [hall]
      rw [hperform]
      refine ⟨hdone.sound h, ?_, hdone.view_self.trans (congrArg some ?_),
        fun other hne => hdone.view_other hne⟩
      · show (inputAnswer engine session.pageId (0 + input.events.length) input body).withoutIds =
          .dispatched input.events.length input.host input.url input.events
            (if (bodyFlag body "snapshot_only").getD false then none
              else some (.ok (Visit.reopened (view s input.host) m
                (input.fingerprintOverride.or fingerprint)).snapshot))
        rw [inputAnswer, pump_if_eq hpage, ServoEngine.snapshot, hpage, Nat.zero_add, ← hvisit,
          Visit.snapshot, visitOf]
        dsimp only
        split_ifs
        · rfl
        · rw [hstate]
          rfl
      · show visitOf session record' =
          { Visit.reopened (view s input.host) m (input.fingerprintOverride.or fingerprint) with
            inputs := (Visit.reopened (view s input.host) m
              (input.fingerprintOverride.or fingerprint)).inputs ++ input.events }
        rw [← hvisit, visitOf, hstate, hinputs]
        rfl

variable [JsonText] [FingerprintCatalog Identity] [InputJson Event]

omit [DecidableEq Identity] [F64Display] in
/-- What a request needs a session for does not depend on the state of the server. -/
theorem to_option_checked (activeDomains : UInt64) (request : HttpRequest) :
    (checked activeDomains request : Except (Answer U Event) (Job Identity U Event)).toOption =
      asked request := by
  rw [asked, checked, checked]
  cases endpoint request <;> rfl

/-- A turn that needs a session performs its job, and another one is just a sweep. -/
theorem turn_eq (d : Daemon Identity U Event) (turn : Turn) :
    match (turn.job : Option (Job Identity U Event)) with
    | none => (d.turn turn).2 =
        ⟨d.server.idleSweep (d.now + turn.wait), (turn.moment d.now).now⟩
    | some job =>
        let performed := perform (d.server.idleSweep (d.now + turn.wait)) (turn.moment d.now) job
        d.turn turn = (some performed.1, ⟨performed.2, (turn.moment d.now).now⟩) := by
  rw [Turn.job, Daemon.turn]
  cases turn.request with
  | none => rfl
  | some request =>
      have hasked : (checked (d.server.idleSweep (d.now + turn.wait)).activeDomains request :
          Except (Answer U Event) (Job Identity U Event)).toOption = asked request :=
        to_option_checked _ request
      rw [Option.bind_some, ← hasked]
      dsimp only
      rw [route]
      cases (checked (d.server.idleSweep (d.now + turn.wait)).activeDomains request :
        Except (Answer U Event) (Job Identity U Event)) with
      | error answer => rfl
      | ok job => rfl

/-- A browser for one host: the page that is open, and the clock. -/
structure HostBrowser (Identity U Event : Type) where
  visit : Option (Visit Identity U Event)
  now : Instant

namespace HostBrowser

/-- The page is closed after it was idle for a minute. A turn for another host takes its time. -/
def turn (fingerprint : Option Identity) (host : Text) (b : HostBrowser Identity U Event)
    (turn : Turn) : Option (Answer U Event) × HostBrowser Identity U Event :=
  let visit := b.visit.filter fun visit => visit.recent (b.now + turn.wait)
  let m := turn.moment b.now
  match turn.job.filter fun job => decide (Job.host job = host) with
  | none => (none, ⟨visit, m.now⟩)
  | some job =>
      let (answer, visit) := Visit.perform fingerprint visit m job
      (some answer, ⟨some visit, m.now⟩)

/-- The system of one host's browser. -/
def machine (fingerprint : Option Identity) (host : Text) :
    Machine (HostBrowser Identity U Event) Turn where
  step b turn := (b.turn fingerprint host turn).2
  Allowed _ _ := True

end HostBrowser

/-- The server and the browser of a host have the same page open. -/
structure Shows (fingerprint : Option Identity) (host : Text) (d : Daemon Identity U Event)
    (b : HostBrowser Identity U Event) : Prop where
  sound : Sound fingerprint d.server
  now : d.now = b.now
  view : view d.server host = b.visit

/-- A turn shows the clients of a host what the browser of the host would show them. -/
theorem Shows.turn {d : Daemon Identity U Event} {b : HostBrowser Identity U Event}
    (h : Shows fingerprint host d b) (turn : Turn) :
    observe host d turn = (b.turn fingerprint host turn).1 ∧
      Shows fingerprint host (d.turn turn).2 (b.turn fingerprint host turn).2 := by
  obtain ⟨server, now⟩ := d
  obtain ⟨visit, time⟩ := b
  obtain ⟨hsound, rfl, rfl⟩ := h
  obtain ⟨hswept, hview⟩ := hsound.idle_sweep (now + turn.wait)
  have hturn := turn_eq ⟨server, now⟩ turn
  rw [observe, Turn.host, HostBrowser.turn]
  cases hjob : (turn.job : Option (Job Identity U Event)) with
  | none =>
      rw [hjob] at hturn
      exact ⟨rfl, hturn ▸ hswept, hturn ▸ rfl, hturn ▸ hview host⟩
  | some job =>
      rw [hjob] at hturn
      obtain ⟨hafter, hanswer, hself, hothers⟩ := hswept.perform (turn.moment now) job
      rw [hturn, Option.filter_some, Option.map_some]
      dsimp only
      by_cases hhost : job.host = host
      · rw [hhost, hview] at hanswer hself
        rw [if_pos (congrArg some hhost), if_pos (decide_eq_true hhost), Option.map_some, hanswer]
        exact ⟨rfl, hafter, rfl, hself⟩
      · rw [if_neg fun heq => hhost (Option.some.inj heq), if_neg (by simpa using hhost)]
        exact ⟨rfl, hafter, rfl, (hothers host hhost).trans (hview host)⟩

/-- What is asked of other hosts makes no difference to the browser of a host. -/
theorem turn_only (fingerprint : Option Identity) (b : HostBrowser Identity U Event) (turn : Turn) :
    b.turn fingerprint host (turn.only Identity U Event host) = b.turn fingerprint host turn := by
  rw [Turn.only]
  split_ifs with hhost
  · rfl
  · rw [HostBrowser.turn, HostBrowser.turn]
    have hnone : (turn.job : Option (Job Identity U Event)).filter
        (fun job => decide (job.host = host)) = none := by
      rw [Turn.host] at hhost
      cases hjob : (turn.job : Option (Job Identity U Event)) with
      | none => rfl
      | some job =>
          rw [hjob] at hhost
          exact if_neg fun hsame => hhost (congrArg some (of_decide_eq_true hsame))
    rw [hnone]
    rfl

/-- In every run, the clients of a host see what a browser for this host alone would show them, apart
from the numbers of pages and snapshots; so they see the same when nothing is asked of other hosts. -/
theorem hosts_isolated (fingerprint : Option Identity) (now : Instant) (turns : List Turn)
    (host : Text) :
    let start : Daemon Identity U Event := .start fingerprint now
    machine.trace (observe host) start turns =
        (HostBrowser.machine fingerprint host).trace
          (fun b turn => (b.turn fingerprint host turn).1) ⟨none, now⟩ turns ∧
      machine.trace (observe host) start (turns.map (Turn.only Identity U Event host)) =
        machine.trace (observe host) start turns := by
  intro start
  have hstart : Shows fingerprint host start ⟨none, now⟩ :=
    ⟨sound_new fingerprint, rfl, view_new fingerprint host⟩
  have hshown : ∀ turns : List Turn, machine.trace (observe host) start turns =
      (HostBrowser.machine fingerprint host).trace
        (fun b turn => (b.turn fingerprint host turn).1) ⟨none, now⟩ (turns.map id) :=
    fun turns => Machine.trace_simulates (R := Shows fingerprint host)
      (fun _ _ turn h => h.turn turn) hstart turns
  have honly : (HostBrowser.machine fingerprint host).trace
      (fun b turn => (b.turn fingerprint host turn).1)
      (⟨none, now⟩ : HostBrowser Identity U Event) turns =
      (HostBrowser.machine fingerprint host).trace (fun b turn => (b.turn fingerprint host turn).1)
        ⟨none, now⟩ (turns.map (Turn.only Identity U Event host)) := by
    refine Machine.trace_simulates (R := Eq) (fun b other turn heq => ?_) rfl turns
    rw [heq]
    have hturn : other.turn fingerprint host (turn.only Identity U Event host) =
        other.turn fingerprint host turn := turn_only fingerprint other turn
    exact ⟨congrArg Prod.fst hturn.symm, congrArg Prod.snd hturn.symm⟩
  simp only [List.map_id] at hshown
  exact ⟨hshown turns, by rw [hshown, hshown, honly]⟩

end Browsers

end BrowsAI.Serve.Handlers
