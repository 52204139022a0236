import BrowsAI.EngineServo.Engine
import BrowsAI.Library.OrdMap
import BrowsAI.Serve.IdleShutdown

/-!
# Sessions of the server

`ServerState` of the `serve` command of `browsai-cli`: one engine, and a session with its own page for
each host. A session is dropped when it was idle for a minute, or when a request for its host comes
with another identity. `pages_isolated` says which page a request gets: the one that its host had last,
if that was at most a minute ago with the same identity, and otherwise one that no request ever had.
-/

namespace BrowsAI.Serve.Domains

open Utf8 Std Profiles EngineServo

/-- `MAX_IDLE_PER_DOMAIN_SECONDS`. -/
def maxIdlePerDomainSeconds : UInt64 := 60

/-- The page of a host, and when it was last used. -/
structure DomainSession (Identity : Type) where
  contextId : ContextId
  pageId : PageId
  lastUsed : Instant
  fingerprint : Option Identity

/-- The fields of `ServerConfig` that the sessions depend on. -/
structure ServerConfig (Identity : Type) where
  fingerprint : Option Identity
  liveBrowser : Bool

/-- The engine, and the sessions by host. -/
structure ServerState (Identity U Event : Type) where
  config : ServerConfig Identity
  activeDomains : UInt64
  engine : ServoEngine Identity U Event
  sessions : OrdMap Text (DomainSession Identity)

/-- The error of `get_or_create_domain`: what failed for which host. -/
inductive DomainError where
  | createContext (host : Text) (error : EngineError)
  | createPage (host : Text) (error : EngineError)

section Server

variable {Identity U Event : Type} [DecidableEq Identity] [Address U]

namespace ServerState

/-- No session yet. -/
def new (config : ServerConfig Identity) : ServerState Identity U Event := ⟨config, 0, .new, ∅⟩

/-- A context and a page for a host without a session. -/
def createDomain (s : ServerState Identity U Event) (now : Instant) (uuid : Uuid) (host : Text)
    (fingerprint : Option Identity) :
    Except DomainError (ContextId × PageId) × ServerState Identity U Event :=
  let options : ContextOptions Identity :=
    { profileIdentity := fingerprint
      useRealBrowserRuntime := s.config.liveBrowser
      deterministicClockMillis := if s.config.liveBrowser then none else some 0 }
  match s.engine.createContext options with
  | (.error error, engine) => (.error (.createContext host error), { s with engine })
  | (.ok context, engine) =>
      match engine.createPage uuid context with
      | (.error error, engine) => (.error (.createPage host error), { s with engine })
      | (.ok page, engine) =>
          (.ok (context, page),
            { s with
              engine
              sessions := s.sessions.insert host ⟨context, page, now, fingerprint⟩
              activeDomains := s.activeDomains + 1 })

/-- `get_or_create_domain` at a time, with the UUID for a new page. -/
def getOrCreateDomain (s : ServerState Identity U Event) (now : Instant) (uuid : Uuid) (host : Text)
    (fingerprintOverride : Option Identity) :
    Except DomainError (ContextId × PageId) × ServerState Identity U Event :=
  let effectiveFingerprint := fingerprintOverride.or s.config.fingerprint
  match s.sessions[host]? with
  | none => s.createDomain now uuid host effectiveFingerprint
  | some session =>
      if session.fingerprint = effectiveFingerprint then
        (.ok (session.contextId, session.pageId),
          { s with sessions := s.sessions.insert host { session with lastUsed := now } })
      else
        -- the stale session goes before the new context is made, which may fail
        let s := { s with
          sessions := s.sessions.erase host
          activeDomains := s.activeDomains - 1 }
        s.createDomain now uuid host effectiveFingerprint

/-- Drops the sessions that were not used for too long. -/
def idleSweep (s : ServerState Identity U Event) (now : Instant) : ServerState Identity U Event :=
  let sessions := s.sessions.filter fun _ session =>
    now - session.lastUsed ≤ fromSecs maxIdlePerDomainSeconds
  { s with sessions, activeDomains := UInt64.ofNat sessions.size }

end ServerState

/-! ## Histories -/

/-- A page that a request for a host got. -/
structure Handed (Identity : Type) where
  host : Text
  fingerprint : Option Identity
  contextId : ContextId
  pageId : PageId
  handedAt : Instant

/-- The session that a page was handed out in. -/
def Handed.session (handed : Handed Identity) : DomainSession Identity :=
  ⟨handed.contextId, handed.pageId, handed.handedAt, handed.fingerprint⟩

/-- The page was not idle for too long at a time. -/
def Handed.Fresh (handed : Handed Identity) (time : Instant) : Prop :=
  time - handed.handedAt ≤ fromSecs maxIdlePerDomainSeconds

instance (handed : Handed Identity) (time : Instant) : Decidable (handed.Fresh time) :=
  inferInstanceAs <| Decidable (_ ≤ _)

/-- A request that needs a session: its host and identity, the UUID for a new page, and the time
between the sweep and the call. -/
structure Request (Identity : Type) where
  host : Text
  fingerprintOverride : Option Identity
  uuid : Uuid
  delay : Nat

/-- A turn of the accept loop: the time that it waited, and what the connection asked for. -/
structure Accept (Identity : Type) where
  wait : Nat
  request : Option (Request Identity)

/-- The server with the pages that it handed out, the last one first, the clock, and the time of the
last sweep. -/
structure History (Identity U Event : Type) where
  server : ServerState Identity U Event
  handed : List (Handed Identity)
  now : Instant
  swept : Instant

namespace History

/-- Nothing was handed out. -/
def start (config : ServerConfig Identity) (now : Instant) : History Identity U Event :=
  ⟨.new config, [], now, now⟩

/-- The sweep of a turn. -/
def sweep (h : History Identity U Event) (wait : Nat) : History Identity U Event :=
  { h with server := h.server.idleSweep (h.now + wait), now := h.now + wait, swept := h.now + wait }

/-- The identity that a request is served under. -/
def effective (h : History Identity U Event) (request : Request Identity) : Option Identity :=
  request.fingerprintOverride.or h.server.config.fingerprint

/-- A request for a host, and the page that is handed out. -/
def ask (h : History Identity U Event) (request : Request Identity) : History Identity U Event :=
  let now := h.now + request.delay
  match h.server.getOrCreateDomain now request.uuid request.host request.fingerprintOverride with
  | (.ok (contextId, pageId), server) =>
      { h with
        server
        handed := ⟨request.host, h.effective request, contextId, pageId, now⟩ :: h.handed
        now }
  | (.error _, server) => { h with server, now }

/-- A sweep, and the request behind it. -/
def step (h : History Identity U Event) (accept : Accept Identity) : History Identity U Event :=
  match accept.request with
  | none => h.sweep accept.wait
  | some request => (h.sweep accept.wait).ask request

/-- Every connection may come at any time. -/
def machine : Machine (History Identity U Event) (Accept Identity) where
  step := step
  Allowed _ _ := True

/-- The page that a host got last. -/
def lastHanded (h : History Identity U Event) (host : Text) : Option (Handed Identity) :=
  h.handed.find? fun handed => handed.host = host

/-- The sessions are the last pages of their hosts that were not idle for too long, and a page is
handed out for one host and one identity only. -/
structure Sound (h : History Identity U Event) : Prop where
  swept_le : h.swept ≤ h.now
  sessions : ∀ host, h.server.sessions[host]? =
    ((h.lastHanded host).filter fun handed => handed.Fresh h.swept).map Handed.session
  active : h.server.activeDomains = UInt64.ofNat h.server.sessions.size
  old : ∀ handed ∈ h.handed, handed.pageId ≤ h.server.engine.nextPage
  identity : ∀ handed ∈ h.handed, handed.contextId ≤ h.server.engine.nextContext ∧
    ∃ options, h.server.engine.contexts[handed.contextId]? = some options ∧
      options.profileIdentity = handed.fingerprint
  isolated : ∀ a ∈ h.handed, ∀ b ∈ h.handed, a.pageId = b.pageId →
    a.host = b.host ∧ a.fingerprint = b.fingerprint
  live : h.server.config.liveBrowser = true → h.handed = []

omit [DecidableEq Identity] [Address U] in
theorem sound_start (config : ServerConfig Identity) (now : Instant) :
    (start config now : History Identity U Event).Sound where
  swept_le := Nat.le_refl now
  sessions host := by simp [start, ServerState.new, lastHanded]
  active := rfl
  old handed hmem := by cases hmem
  identity handed hmem := by cases hmem
  isolated a ha := by cases ha
  live _ := rfl

/-! ## The sweep -/

omit [DecidableEq Identity] [Address U] in
/-- A sweep keeps the invariant. -/
theorem Sound.sweep {h : History Identity U Event} (hs : h.Sound) (wait : Nat) :
    (h.sweep wait).Sound where
  swept_le := Nat.le_refl _
  sessions host := by
    show (h.server.sessions.filter fun _ session =>
      h.now + wait - session.lastUsed ≤ fromSecs maxIdlePerDomainSeconds)[host]? =
        ((h.lastHanded host).filter fun handed => handed.Fresh (h.now + wait)).map Handed.session
    rw [ExtTreeMap.getElem?_filter', hs.sessions]
    cases h.lastHanded host with
    | none => rfl
    | some handed =>
        by_cases hfresh : handed.Fresh (h.now + wait)
        · -- what is not idle for too long now was not so at the last sweep
          have hle : h.swept ≤ h.now + wait := hs.swept_le.trans (Nat.le_add_right _ _)
          have hbefore : handed.Fresh h.swept := (Nat.sub_le_sub_right hle _).trans hfresh
          have hkept : decide (h.now + wait - handed.session.lastUsed ≤
              fromSecs maxIdlePerDomainSeconds) = true := decide_eq_true hfresh
          simp only [Option.filter, decide_eq_true hfresh, decide_eq_true hbefore, if_true,
            Option.map_some, hkept]
        · have hgone : decide (h.now + wait - handed.session.lastUsed ≤
              fromSecs maxIdlePerDomainSeconds) = false := decide_eq_false hfresh
          by_cases hbefore : handed.Fresh h.swept
          · simp only [Option.filter, decide_eq_false hfresh, decide_eq_true hbefore, if_true,
              Option.map_some, hgone, Bool.false_eq_true, if_false, Option.map_none]
          · simp only [Option.filter, decide_eq_false hfresh, decide_eq_false hbefore,
              Bool.false_eq_true, if_false, Option.map_none]
  active := rfl
  old := hs.old
  identity := hs.identity
  isolated := hs.isolated
  live := hs.live

/-! ## A request -/

omit [DecidableEq Identity] in
/-- Without the live browser a context and a page are made under new ids, and with it none is. -/
theorem create_domain_eq (s : ServerState Identity U Event) (now : Instant) (uuid : Uuid)
    (host : Text) (fingerprint : Option Identity) :
    if s.config.liveBrowser then
      ∃ error, s.createDomain now uuid host fingerprint = (.error (.createContext host error), s)
    else
      ∃ options pages, options.profileIdentity = fingerprint ∧
        s.createDomain now uuid host fingerprint =
          (.ok (s.engine.nextContext + 1, s.engine.nextPage + 1),
            { s with
              engine := { s.engine with
                nextContext := s.engine.nextContext + 1
                nextPage := s.engine.nextPage + 1
                contexts := s.engine.contexts.insert (s.engine.nextContext + 1) options
                pages }
              sessions := s.sessions.insert host
                ⟨s.engine.nextContext + 1, s.engine.nextPage + 1, now, fingerprint⟩
              activeDomains := s.activeDomains + 1 }) := by
  rw [ServerState.createDomain, ServoEngine.createContext]
  split_ifs with hlive
  · exact ⟨_, rfl⟩
  · dsimp only
    rw [ServoEngine.createPage, OrdMap.get_insert_self]
    exact ⟨_, _, rfl, rfl⟩

/-- The page that a request gets when its host has a session with its identity. -/
def kept (h : History Identity U Event) (request : Request Identity) : Option (Handed Identity) :=
  (h.lastHanded request.host).filter fun handed =>
    handed.Fresh h.swept ∧ handed.fingerprint = h.effective request

omit [Address U] in
/-- A host has a session with the identity of a request exactly if a page is kept for it. -/
theorem Sound.session_eq {h : History Identity U Event} (hs : h.Sound) (request : Request Identity) :
    (h.server.sessions[request.host]?).filter (fun session =>
      session.fingerprint = h.effective request) = (h.kept request).map Handed.session := by
  rw [hs.sessions, kept]
  cases h.lastHanded request.host with
  | none => rfl
  | some handed =>
      by_cases hfresh : handed.Fresh h.swept
      · by_cases hsame : handed.fingerprint = h.effective request
        · simp [Option.filter, hfresh, hsame, Handed.session]
        · simp [Option.filter, hfresh, hsame, Handed.session]
      · simp [Option.filter, hfresh]

/-- The state in which a page is made: without a session of the host. -/
def cleared (s : ServerState Identity U Event) (host : Text) : ServerState Identity U Event :=
  match s.sessions[host]? with
  | none => s
  | some _ => { s with sessions := s.sessions.erase host, activeDomains := s.activeDomains - 1 }

/-- A request gets the page that is kept for it, or a page is made. -/
theorem Sound.get_or_create_domain_eq {h : History Identity U Event} (hs : h.Sound) (now : Instant)
    (request : Request Identity) :
    h.server.getOrCreateDomain now request.uuid request.host request.fingerprintOverride =
      match h.kept request with
      | some handed =>
          (.ok (handed.contextId, handed.pageId),
            { h.server with
              sessions := h.server.sessions.insert request.host
                { handed.session with lastUsed := now } })
      | none =>
          (cleared h.server request.host).createDomain now request.uuid request.host
            (h.effective request) := by
  have hsession := hs.session_eq request
  rw [ServerState.getOrCreateDomain, cleared]
  cases hfound : h.server.sessions[request.host]? with
  | none =>
      rw [hfound] at hsession
      have hkept : h.kept request = none := Option.map_eq_none_iff.mp hsession.symm
      rw [hkept]
      rfl
  | some session =>
      rw [hfound] at hsession
      dsimp only
      by_cases hsame : session.fingerprint = h.effective request
      · rw [Option.filter_some, if_pos (decide_eq_true hsame)] at hsession
        obtain ⟨handed, hkept, rfl⟩ := Option.map_eq_some_iff.mp hsession.symm
        rw [hkept]
        exact if_pos hsame
      · rw [Option.filter_some, if_neg (by simpa using hsame)] at hsession
        have hkept : h.kept request = none := Option.map_eq_none_iff.mp hsession.symm
        rw [hkept]
        exact if_neg hsame

omit [DecidableEq Identity] [Address U] in
theorem of_nat_succ_sub_one (n : Nat) : UInt64.ofNat (n + 1) - 1 = UInt64.ofNat n := by
  rw [UInt64.ofNat_add]
  exact UInt64.add_sub_cancel _ _

omit [DecidableEq Identity] [Address U] in
/-- Without the session of the host the sessions are counted as before, and the others are there. -/
theorem cleared_spec (s : ServerState Identity U Event) (host : Text)
    (hactive : s.activeDomains = UInt64.ofNat s.sessions.size) :
    (cleared s host).sessions[host]? = none ∧
      (∀ other, host ≠ other → (cleared s host).sessions[other]? = s.sessions[other]?) ∧
      (cleared s host).activeDomains = UInt64.ofNat (cleared s host).sessions.size ∧
      (cleared s host).engine = s.engine ∧ (cleared s host).config = s.config := by
  rw [cleared]
  cases hsession : s.sessions[host]? with
  | none => exact ⟨hsession, fun _ _ => rfl, hactive, rfl, rfl⟩
  | some session =>
      refine ⟨?_, fun other hne => ?_, ?_, rfl, rfl⟩
      · exact (OrdMap.get_erase _ _ _).trans (if_pos rfl)
      · exact (OrdMap.get_erase _ _ _).trans (if_neg hne)
      · show s.activeDomains - 1 = UInt64.ofNat (s.sessions.erase host).size
        rw [hactive, ← OrdMap.size_erase_of_some hsession, of_nat_succ_sub_one]

omit [DecidableEq Identity] [Address U] in
/-- The page that a host was last handed. -/
theorem last_handed_cons (server : ServerState Identity U Event) (handed : Handed Identity)
    (all : List (Handed Identity)) (now swept : Instant) (host : Text) :
    lastHanded ⟨server, handed :: all, now, swept⟩ host =
      if handed.host = host then some handed else all.find? fun handed => handed.host = host := by
  rw [lastHanded, List.find?_cons]
  split_ifs with h
  · rw [decide_eq_true h]
  · rw [decide_eq_false h]

omit [DecidableEq Identity] [Address U] in
/-- A page for a host in a session of its own, which was handed out just now. -/
theorem Sound.hand {h : History Identity U Event} (hs : h.Sound) (request : Request Identity)
    {handed : Handed Identity} {server : ServerState Identity U Event} {now : Instant}
    (hnow : h.now ≤ now) (hhost : handed.host = request.host) (hat : handed.handedAt = now)
    (hsession : server.sessions[request.host]? = some handed.session)
    (hothers : ∀ other, request.host ≠ other → server.sessions[other]? = h.server.sessions[other]?)
    (hactive : server.activeDomains = UInt64.ofNat server.sessions.size)
    (hold : ∀ a ∈ handed :: h.handed, a.pageId ≤ server.engine.nextPage)
    (hidentity : ∀ a ∈ handed :: h.handed, a.contextId ≤ server.engine.nextContext ∧
      ∃ options, server.engine.contexts[a.contextId]? = some options ∧
        options.profileIdentity = a.fingerprint)
    (hisolated : ∀ a ∈ h.handed, handed.pageId = a.pageId →
      handed.host = a.host ∧ handed.fingerprint = a.fingerprint)
    (hlive : server.config.liveBrowser = false) :
    Sound ⟨server, handed :: h.handed, now, h.swept⟩ where
  swept_le := hs.swept_le.trans hnow
  sessions host := by
    rw [last_handed_cons]
    split_ifs with hsame
    · have hfresh : handed.Fresh h.swept := by
        rw [Handed.Fresh, hat, Nat.sub_eq_zero_of_le (hs.swept_le.trans hnow)]
        exact Nat.zero_le _
      rw [← hsame, hhost, hsession, Option.filter_some, if_pos (decide_eq_true hfresh)]
      rfl
    · rw [hothers host (hhost ▸ hsame), hs.sessions]
      rfl
  active := hactive
  old := hold
  identity := hidentity
  isolated a ha b hb hpage := by
    rcases List.mem_cons.mp ha with heq | ha
    · rcases List.mem_cons.mp hb with heq' | hb
      · rw [heq, heq']
        exact ⟨rfl, rfl⟩
      · rw [heq] at hpage ⊢
        exact hisolated b hb hpage
    · rcases List.mem_cons.mp hb with heq | hb
      · rw [heq] at hpage ⊢
        exact (hisolated a ha hpage.symm).imp Eq.symm Eq.symm
      · exact hs.isolated a ha b hb hpage
  live hlive' := by
    rw [hlive] at hlive'
    cases hlive'

/-- A request keeps the invariant. -/
theorem Sound.ask {h : History Identity U Event} (hs : h.Sound) (request : Request Identity) :
    (h.ask request).Sound := by
  rw [History.ask, hs.get_or_create_domain_eq]
  cases hkept : h.kept request with
  | some handed =>
      obtain ⟨hlast, hcondition⟩ := Option.filter_eq_some_iff.mp hkept
      obtain ⟨hfresh, hsame⟩ := of_decide_eq_true hcondition
      have hmem := List.mem_of_find?_eq_some hlast
      have hhost : handed.host = request.host := of_decide_eq_true
        (List.find?_some (p := fun handed : Handed Identity => handed.host = request.host) hlast)
      have hthere : h.server.sessions[request.host]? = some handed.session := by
        rw [hs.sessions, hlast, Option.filter_some, if_pos (decide_eq_true hfresh)]
        rfl
      refine hs.hand request (Nat.le_add_right _ _) rfl rfl ?_ ?_ ?_ ?_ ?_ ?_ ?_
      · rw [← hsame]
        exact OrdMap.get_insert_self _ _ _
      · exact fun other hne => OrdMap.get_insert_ne _ hne _
      · exact hs.active.trans (congrArg UInt64.ofNat (OrdMap.size_insert_of_some hthere _).symm)
      · exact List.forall_mem_cons.mpr ⟨hs.old handed hmem, hs.old⟩
      · refine List.forall_mem_cons.mpr ⟨?_, hs.identity⟩
        rw [← hsame]
        exact hs.identity handed hmem
      · intro a ha hpage
        obtain ⟨hhosts, hidentities⟩ := hs.isolated handed hmem a ha hpage
        exact ⟨hhost.symm.trans hhosts, hsame.symm.trans hidentities⟩
      · show h.server.config.liveBrowser = false
        refine Bool.not_eq_true _ |>.mp fun hlive => ?_
        rw [hs.live hlive] at hmem
        cases hmem
  | none =>
      obtain ⟨hnone, hothers, hactive, hengine, hconfig⟩ :=
        cleared_spec h.server request.host hs.active
      have hcreate := create_domain_eq (cleared h.server request.host) (h.now + request.delay)
        request.uuid request.host (h.effective request)
      rw [hconfig, hengine] at hcreate
      dsimp only
      cases hlive : h.server.config.liveBrowser with
      | true =>
          -- there was never a session that could have been dropped
          rw [hlive, if_pos rfl] at hcreate
          obtain ⟨error, hcreate⟩ := hcreate
          rw [hcreate]
          have hempty : h.server.sessions[request.host]? = none := by
            rw [hs.sessions, lastHanded, hs.live hlive]
            rfl
          have hsame : cleared h.server request.host = h.server := by rw [cleared, hempty]
          rw [hsame]
          exact ⟨hs.swept_le.trans (Nat.le_add_right _ _), hs.sessions, hs.active, hs.old,
            hs.identity, hs.isolated, hs.live⟩
      | false =>
          rw [hlive, if_neg Bool.false_ne_true] at hcreate
          obtain ⟨options, pages, hoptions, hcreate⟩ := hcreate
          rw [hcreate]
          refine hs.hand request (Nat.le_add_right _ _) rfl rfl ?_ ?_ ?_ ?_ ?_ ?_ ?_
          · exact OrdMap.get_insert_self _ _ _
          · exact fun other hne => (OrdMap.get_insert_ne _ hne _).trans (hothers other hne)
          · refine Eq.trans ?_ (congrArg UInt64.ofNat (OrdMap.size_insert_of_none hnone _).symm)
            rw [UInt64.ofNat_add, ← hactive]
            rfl
          · exact List.forall_mem_cons.mpr ⟨Nat.le_refl _,
              fun a ha => (hs.old a ha).trans (Nat.le_succ _)⟩
          · refine List.forall_mem_cons.mpr ⟨⟨Nat.le_refl _, options,
              OrdMap.get_insert_self _ _ _, hoptions⟩, fun a ha => ?_⟩
            obtain ⟨hle, found, hfound, hprofile⟩ := hs.identity a ha
            have hne : h.server.engine.nextContext + 1 ≠ a.contextId :=
              fun heq => Nat.not_succ_le_self _ (heq ▸ hle)
            exact ⟨hle.trans (Nat.le_succ _), found, (OrdMap.get_insert_ne _ hne _).trans hfound,
              hprofile⟩
          · exact fun a ha hpage => absurd (hpage ▸ hs.old a ha) (Nat.not_succ_le_self _)
          · exact hconfig ▸ hlive

/-! ## Runs -/

/-- A request leaves the configuration alone. -/
theorem Sound.ask_config {h : History Identity U Event} (hs : h.Sound) (request : Request Identity) :
    (h.ask request).server.config = h.server.config := by
  rw [History.ask, hs.get_or_create_domain_eq]
  cases h.kept request with
  | some handed => rfl
  | none =>
      obtain ⟨-, -, -, -, hconfig⟩ := cleared_spec h.server request.host hs.active
      have hcreate := create_domain_eq (cleared h.server request.host) (h.now + request.delay)
        request.uuid request.host (h.effective request)
      dsimp only
      split_ifs at hcreate with hlive
      · obtain ⟨error, hcreate⟩ := hcreate
        rw [hcreate]
        exact hconfig
      · obtain ⟨options, pages, -, hcreate⟩ := hcreate
        rw [hcreate]
        exact hconfig

theorem Sound.step {h : History Identity U Event} (hs : h.Sound) (accept : Accept Identity) :
    (step h accept).Sound ∧ (step h accept).server.config = h.server.config := by
  obtain ⟨wait, request⟩ := accept
  cases request with
  | none => exact ⟨hs.sweep wait, rfl⟩
  | some request => exact ⟨(hs.sweep wait).ask request, (hs.sweep wait).ask_config request⟩

theorem sound_run (config : ServerConfig Identity) (now : Instant) (turns : List (Accept Identity)) :
    (machine.run (start config now) turns : History Identity U Event).Sound ∧
      (machine.run (start config now) turns : History Identity U Event).server.config = config :=
  Machine.run_invariant (m := machine) (P := fun h => h.Sound ∧ h.server.config = config)
    (fun _ accept hs => ⟨(hs.1.step accept).1, (hs.1.step accept).2.trans hs.2⟩)
    ⟨sound_start config now, rfl⟩ turns

/-- In every run, a request gets the page that its host had last, if that was handed out at most a
minute before the sweep and under the same identity. Otherwise the live browser, which this build does
not have, fails, and without it the request gets a context and a page that no request ever had. No page
is handed out for two hosts or two identities, and the count of the active domains is the number of
sessions. -/
theorem pages_isolated (config : ServerConfig Identity) (now : Instant)
    (turns : List (Accept Identity)) (wait : Nat) (request : Request Identity) :
    let h := (machine.run (start config now) turns : History Identity U Event).sweep wait
    let result := (h.server.getOrCreateDomain (h.now + request.delay) request.uuid request.host
      request.fingerprintOverride).1
    (match h.kept request with
      | some handed => result = .ok (handed.contextId, handed.pageId)
      | none =>
          if config.liveBrowser then ∃ error, result = .error (.createContext request.host error)
          else ∃ context page, result = .ok (context, page) ∧
            ∀ handed ∈ h.handed, handed.contextId ≠ context ∧ handed.pageId ≠ page) ∧
      (∀ a ∈ h.handed, ∀ b ∈ h.handed, a.pageId = b.pageId →
        a.host = b.host ∧ a.fingerprint = b.fingerprint) ∧
      h.server.activeDomains = UInt64.ofNat h.server.sessions.size := by
  intro h result
  have hrun : (machine.run (start config now) turns : History Identity U Event).Sound ∧
      (machine.run (start config now) turns : History Identity U Event).server.config = config :=
    sound_run config now turns
  have hs : h.Sound := hrun.1.sweep wait
  have hsame : h.server.config = config := hrun.2
  refine ⟨?_, hs.isolated, hs.active⟩
  have hresult := congrArg Prod.fst (hs.get_or_create_domain_eq (h.now + request.delay) request)
  cases hkept : h.kept request with
  | some handed =>
      rw [hkept] at hresult
      exact hresult
  | none =>
      obtain ⟨-, -, -, hengine, hconfig⟩ := cleared_spec h.server request.host hs.active
      have hcreate := create_domain_eq (cleared h.server request.host) (h.now + request.delay)
        request.uuid request.host (h.effective request)
      rw [hconfig, hsame, hengine] at hcreate
      rw [hkept] at hresult
      dsimp only
      split_ifs at hcreate ⊢ with hlive
      · obtain ⟨error, hcreate⟩ := hcreate
        exact ⟨error, hresult.trans (congrArg Prod.fst hcreate)⟩
      · obtain ⟨options, pages, -, hcreate⟩ := hcreate
        refine ⟨_, _, hresult.trans (congrArg Prod.fst hcreate), fun handed hmem => ⟨fun heq => ?_, fun heq => ?_⟩⟩
        · exact Nat.not_succ_le_self _ (heq ▸ (hs.identity handed hmem).1)
        · exact Nat.not_succ_le_self _ (heq ▸ hs.old handed hmem)

end History

end Server

end BrowsAI.Serve.Domains
