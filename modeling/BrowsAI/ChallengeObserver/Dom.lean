import BrowsAI.ChallengeObserver.Network
import BrowsAI.DomObserver.RawDocument

/-!
# Challenges in a document

`detect_from_document` of `crates/challenge-observer`: the signals of the element nodes, one
observation for each provider. A phrase is looked for in the text of an element only, and not behind
a phrase that an earlier test finds: `phrases_told_iff` says in which documents every phrase is
reported all the same.
-/

namespace BrowsAI.ChallengeObserver

open Utf8 AgentTree Network DomObserver
open SemanticIr (ChallengeKind)

/-- With `about:blank`. -/
class BlankUrl (U : Type) extends Url U where
  aboutBlank : U

/-- What a node tells of a challenge. -/
structure ProviderSignal where
  provider : Text
  kind : ChallengeKind
  evidence : List ChallengeEvidence
  confidence : F64

/-! ## The signals of a node -/

section Node

variable (node : RawNode)

/-- The value of an attribute, which is empty if there is none. -/
def attributeOf (name : Text) : Text := (node.attributes[name]?).getD []

/-- The name of the node in small letters. -/
def lowerName : Text := asciiLower (node.name.getD [])

/-- The text of the node in small letters. -/
def lowerText : Text := asciiLower (node.text.getD [])

/-- The classes and ids of Cloudflare's pages. -/
def cfMarkerClasses : List Text :=
  ["cf-browser-verification", "cf-challenge-running", "cf-error-code", "cf-wrapper"]

/-- What a class or an id tells. -/
def markerSignals : List ProviderSignal :=
  if cfMarkerClasses.any fun marker =>
      contains marker (attributeOf node "class") || contains marker (attributeOf node "id") then
    [⟨"cloudflare", .browserChallenge, [⟨"marker", attributeOf node "class"⟩],
      .finite (15938355 / 16777216)⟩]
  else []

/-- The signal of an `iframe` of this provider. -/
def frameSignal (provider : Text) : ProviderSignal :=
  ⟨provider, .captcha, [⟨"iframe-src", attributeOf node "src"⟩], .finite (15938355 / 16777216)⟩

/-- What the address of a frame tells. -/
def frameSignals : List ProviderSignal :=
  if lowerName node = ("iframe" : Text) then
    let src := asciiLower (attributeOf node "src")
    if contains "hcaptcha.com" src then [frameSignal node "hcaptcha"]
    else if contains "recaptcha" src then [frameSignal node "recaptcha"]
    else if contains "challenges.cloudflare.com" src then [frameSignal node "cloudflare-turnstile"]
    else []
  else []

/-- What a class or an id of Incapsula tells. -/
def incapsulaSignals : List ProviderSignal :=
  if contains "_Incapsula_Resource" (attributeOf node "class") ∨
      contains "incapsula" (attributeOf node "id") then
    [⟨"akamai", .browserChallenge, [⟨"class-or-id", attributeOf node "class"⟩],
      .finite (7549747 / 8388608)⟩]
  else []

/-- The signal of a phrase in the text. -/
def textSignal (provider : Text) (kind : ChallengeKind) (confidence : F64) : ProviderSignal :=
  ⟨provider, kind, [⟨"text", (lowerText node).take 120⟩], confidence⟩

/-- What the text tells, by the first phrase that it has. -/
def textSignals : List ProviderSignal :=
  let text := lowerText node
  if text = [] then []
  else if contains "verify you are human" text ∨ contains "are you a robot" text then
    [textSignal node "generic" .captcha (.finite (11744051 / 16777216))]
  else if contains "two-factor" text ∨ contains "verification code" text then
    [textSignal node "totp" .twoFactorPrompt (.finite (5452595 / 8388608))]
  else if contains "account locked" text ∨ contains "account suspended" text then
    [textSignal node "site-policy" .accountLocked (.finite (11744051 / 16777216))]
  else []

/-- What the address of a form tells. -/
def formSignals : List ProviderSignal :=
  if lowerName node = ("form" : Text) ∧
      contains "/interstitial/" (asciiLower (attributeOf node "action")) then
    [⟨"datadome", .browserChallenge, [⟨"form-action", attributeOf node "action"⟩],
      .finite (7130317 / 8388608)⟩]
  else []

/-- What a node tells, one sign after the other. -/
def detectProviderInNode : List ProviderSignal :=
  markerSignals node ++ frameSignals node ++ incapsulaSignals node ++ textSignals node ++
    formSignals node

end Node

/-! ## The observations of a document -/

variable {U : Type}

/-- A signal of a provider that was seen already is dropped. -/
def recordSignal (url : U) (state : List Text × List (ChallengeObservation U))
    (signal : ProviderSignal) : List Text × List (ChallengeObservation U) :=
  if state.1.contains signal.provider then state
  else
    (state.1 ++ [signal.provider], state.2 ++
      [{ provider := signal.provider
         kind := signal.kind
         url
         evidence := signal.evidence
         confidence := signal.confidence
         provenance := [⟨.dom, "challenge-observer", none⟩] }])

/-- The signals of the element nodes, in the order of the ids. -/
def documentSignals (document : RawDocument) : List ProviderSignal :=
  (document.nodes.values.filter fun node => node.kind = .element).flatMap detectProviderInNode

/-- The challenges of a document, each provider and kind once. -/
def detectFromDocument [BlankUrl U] (document : RawDocument) : List (ChallengeObservation U) :=
  let url := (Url.parse document.url).getD BlankUrl.aboutBlank
  ((documentSignals document).foldl (recordSignal url) ([], [])).2

/-! ## The kinds of the signals -/

section Kinds

variable {node : RawNode} {signal : ProviderSignal}

theorem mem_detect_provider_in_node : signal ∈ detectProviderInNode node ↔
    signal ∈ markerSignals node ∨ signal ∈ frameSignals node ∨ signal ∈ incapsulaSignals node ∨
      signal ∈ textSignals node ∨ signal ∈ formSignals node := by
  simp only [detectProviderInNode, List.mem_append, or_assoc]

/-- An `iframe` of one of the captcha providers. -/
def IsCaptchaFrame (node : RawNode) : Prop :=
  lowerName node = ("iframe" : Text) ∧
    (contains "hcaptcha.com" (asciiLower (attributeOf node "src")) ∨
      contains "recaptcha" (asciiLower (attributeOf node "src")) ∨
      contains "challenges.cloudflare.com" (asciiLower (attributeOf node "src")))

/-- What the text of a node shows, if no earlier test finds a phrase of its own. -/
def TextShows (node : RawNode) (kind : ChallengeKind) : Prop :=
  let text := lowerText node
  if contains "verify you are human" text ∨ contains "are you a robot" text then kind = .captcha
  else if contains "two-factor" text ∨ contains "verification code" text then
    kind = .twoFactorPrompt
  else (contains "account locked" text ∨ contains "account suspended" text) ∧
    kind = .accountLocked

/-- A frame gives a signal exactly if it is that of a captcha. -/
theorem exists_mem_frame_signals :
    (∃ signal, signal ∈ frameSignals node) ↔ IsCaptchaFrame node := by
  rw [frameSignals, IsCaptchaFrame]
  dsimp only
  split_ifs with hname hhcaptcha hrecaptcha hturnstile
  · exact iff_of_true ⟨_, List.mem_singleton_self _⟩ ⟨hname, .inl hhcaptcha⟩
  · exact iff_of_true ⟨_, List.mem_singleton_self _⟩ ⟨hname, .inr (.inl hrecaptcha)⟩
  · exact iff_of_true ⟨_, List.mem_singleton_self _⟩ ⟨hname, .inr (.inr hturnstile)⟩
  · refine iff_of_false (by simp) fun h => ?_
    rcases h.2 with h | h | h
    · exact hhcaptcha h
    · exact hrecaptcha h
    · exact hturnstile h
  · exact iff_of_false (by simp) fun h => hname h.1

/-- The signal is a captcha. -/
theorem kind_of_mem_frame_signals (h : signal ∈ frameSignals node) : signal.kind = .captcha := by
  rw [frameSignals] at h
  dsimp only at h
  split_ifs at h
  · obtain rfl := List.mem_singleton.mp h
    rfl
  · obtain rfl := List.mem_singleton.mp h
    rfl
  · obtain rfl := List.mem_singleton.mp h
    rfl
  · cases h
  · cases h

theorem eq_of_mem_marker_signals (h : signal ∈ markerSignals node) :
    (signal.provider, signal.kind) = (("cloudflare" : Text), ChallengeKind.browserChallenge) := by
  rw [markerSignals, List.mem_ite_nil_right] at h
  obtain rfl := List.mem_singleton.mp h.2
  rfl

theorem eq_of_mem_incapsula_signals (h : signal ∈ incapsulaSignals node) :
    (signal.provider, signal.kind) = (("akamai" : Text), ChallengeKind.browserChallenge) := by
  rw [incapsulaSignals, List.mem_ite_nil_right] at h
  obtain rfl := List.mem_singleton.mp h.2
  rfl

theorem eq_of_mem_form_signals (h : signal ∈ formSignals node) :
    (signal.provider, signal.kind) = (("datadome" : Text), ChallengeKind.browserChallenge) := by
  rw [formSignals, List.mem_ite_nil_right] at h
  obtain rfl := List.mem_singleton.mp h.2
  rfl

theorem exists_mem_singleton_kind {kind : ChallengeKind} :
    (∃ signal' ∈ [signal], signal'.kind = kind) ↔ signal.kind = kind := by
  simp only [List.mem_singleton, exists_eq_left]

/-- A text gives a signal of a kind exactly if its first phrase is of that kind. -/
theorem exists_mem_text_signals {kind : ChallengeKind} :
    (∃ signal ∈ textSignals node, signal.kind = kind) ↔ TextShows node kind := by
  rw [textSignals, TextShows]
  by_cases htext : lowerText node = []
  · rw [if_pos htext, htext, if_neg (by decide), if_neg (by decide)]
    refine iff_of_false (by simp) fun h => ?_
    exact absurd h.1 (by decide)
  · rw [if_neg htext]
    split_ifs with hcaptcha htwo haccount
    · exact exists_mem_singleton_kind.trans eq_comm
    · exact exists_mem_singleton_kind.trans eq_comm
    · rw [and_iff_right haccount]
      exact exists_mem_singleton_kind.trans eq_comm
    · exact iff_of_false (fun ⟨_, h, _⟩ => nomatch h) fun h => haccount h.1

/-- The providers, and the kind that the signals of each have. -/
def providerKinds : List (Text × ChallengeKind) :=
  [("cloudflare", .browserChallenge), ("hcaptcha", .captcha), ("recaptcha", .captcha),
    ("cloudflare-turnstile", .captcha), ("akamai", .browserChallenge), ("generic", .captcha),
    ("totp", .twoFactorPrompt), ("site-policy", .accountLocked), ("datadome", .browserChallenge)]

theorem provider_kinds_functional : ∀ a ∈ providerKinds, ∀ b ∈ providerKinds,
    a.1 = b.1 → a.2 = b.2 := by decide

/-- There are only so many providers and kinds. -/
theorem mem_provider_kinds (h : signal ∈ detectProviderInNode node) :
    (signal.provider, signal.kind) ∈ providerKinds := by
  rcases mem_detect_provider_in_node.mp h with h | h | h | h | h
  · rw [eq_of_mem_marker_signals h]
    exact List.mem_of_elem_eq_true rfl
  · rw [frameSignals] at h
    dsimp only at h
    split_ifs at h
    · obtain rfl := List.mem_singleton.mp h
      exact List.mem_of_elem_eq_true rfl
    · obtain rfl := List.mem_singleton.mp h
      exact List.mem_of_elem_eq_true rfl
    · obtain rfl := List.mem_singleton.mp h
      exact List.mem_of_elem_eq_true rfl
    · cases h
    · cases h
  · rw [eq_of_mem_incapsula_signals h]
    exact List.mem_of_elem_eq_true rfl
  · rw [textSignals] at h
    split_ifs at h
    · cases h
    · obtain rfl := List.mem_singleton.mp h
      exact List.mem_of_elem_eq_true rfl
    · obtain rfl := List.mem_singleton.mp h
      exact List.mem_of_elem_eq_true rfl
    · obtain rfl := List.mem_singleton.mp h
      exact List.mem_of_elem_eq_true rfl
    · cases h
  · rw [eq_of_mem_form_signals h]
    exact List.mem_of_elem_eq_true rfl

/-- The node shows a challenge of this kind, one of those that a phrase can tell. -/
def Shows (node : RawNode) (kind : ChallengeKind) : Prop :=
  TextShows node kind ∨ kind = .captcha ∧ IsCaptchaFrame node

/-- A node gives a signal of a kind exactly if it shows one. -/
theorem exists_signal_iff {kind : ChallengeKind} (hkind : kind ≠ .browserChallenge) :
    (∃ signal ∈ detectProviderInNode node, signal.kind = kind) ↔ Shows node kind := by
  rw [Shows, ← exists_mem_text_signals, ← exists_mem_frame_signals]
  constructor
  · intro ⟨signal, h, hsignal⟩
    rcases mem_detect_provider_in_node.mp h with h | h | h | h | h
    · exact absurd (hsignal.symm.trans (congrArg Prod.snd (eq_of_mem_marker_signals h))) hkind
    · exact .inr ⟨hsignal ▸ kind_of_mem_frame_signals h, signal, h⟩
    · exact absurd (hsignal.symm.trans (congrArg Prod.snd (eq_of_mem_incapsula_signals h))) hkind
    · exact .inl ⟨signal, h, hsignal⟩
    · exact absurd (hsignal.symm.trans (congrArg Prod.snd (eq_of_mem_form_signals h))) hkind
  · intro h
    rcases h with ⟨signal, h, hsignal⟩ | ⟨rfl, signal, h⟩
    · exact ⟨signal, mem_detect_provider_in_node.mpr (.inr (.inr (.inr (.inl h)))), hsignal⟩
    · exact ⟨signal, mem_detect_provider_in_node.mpr (.inr (.inl h)), kind_of_mem_frame_signals h⟩

end Kinds

/-! ## One observation for each provider -/

section Record

variable (url : U) {state : List Text × List (ChallengeObservation U)}

/-- The providers seen are those of the observations. -/
def Seen (state : List Text × List (ChallengeObservation U)) : Prop :=
  state.1 = state.2.map fun observation => observation.provider

/-- A signal is recorded if its provider is new. -/
theorem record_signal_spec (h : Seen state) (signal : ProviderSignal) :
    Seen (recordSignal url state signal) ∧
      (∀ observation ∈ (recordSignal url state signal).2, observation ∈ state.2 ∨
        observation.provider = signal.provider ∧ observation.kind = signal.kind) ∧
      (∀ observation ∈ state.2, observation ∈ (recordSignal url state signal).2) ∧
      ∃ observation ∈ (recordSignal url state signal).2,
        observation.provider = signal.provider := by
  rw [recordSignal]
  split_ifs with hseen
  · refine ⟨h, fun _ => .inl, fun _ => id, ?_⟩
    rw [h, List.contains_iff_mem] at hseen
    exact List.mem_map.mp hseen
  · refine ⟨?_, ?_, fun _ => List.mem_append_left _, _, List.mem_append_right _
      (List.mem_singleton_self _), rfl⟩
    · rw [Seen, h, List.map_append]
      rfl
    · intro observation hobservation
      rcases List.mem_append.mp hobservation with hold | hnew
      · exact .inl hold
      · obtain rfl := List.mem_singleton.mp hnew
        exact .inr ⟨rfl, rfl⟩

/-- Every observation comes from a signal, and every provider of a signal has an observation. -/
theorem fold_record_signal (h : Seen state) (signals : List ProviderSignal) :
    (∀ observation ∈ (signals.foldl (recordSignal url) state).2, observation ∈ state.2 ∨
        ∃ signal ∈ signals,
          observation.provider = signal.provider ∧ observation.kind = signal.kind) ∧
      (∀ observation ∈ state.2, observation ∈ (signals.foldl (recordSignal url) state).2) ∧
      ∀ signal ∈ signals, ∃ observation ∈ (signals.foldl (recordSignal url) state).2,
        observation.provider = signal.provider := by
  induction signals generalizing state with
  | nil => exact ⟨fun _ => .inl, fun _ => id, fun _ hsignal => nomatch hsignal⟩
  | cons signal signals ih =>
      obtain ⟨hseen, hfrom, hkept, hfirst⟩ := record_signal_spec url h signal
      obtain ⟨hlater, hstays, hrest⟩ := ih hseen
      rw [List.foldl_cons]
      refine ⟨?_, fun observation hold => hstays observation (hkept observation hold), ?_⟩
      · intro observation hobservation
        rcases hlater observation hobservation with hearlier | ⟨signal', hmem, hsame⟩
        · rcases hfrom observation hearlier with hold | hnew
          · exact .inl hold
          · exact .inr ⟨signal, List.mem_cons_self .., hnew⟩
        · exact .inr ⟨signal', List.mem_cons_of_mem _ hmem, hsame⟩
      · intro signal' hsignal
        rcases List.mem_cons.mp hsignal with rfl | hmem
        · obtain ⟨observation, hobservation, hprovider⟩ := hfirst
          exact ⟨observation, hstays observation hobservation, hprovider⟩
        · exact hrest signal' hmem

end Record

/-- No kind of a signal is lost with the signals that are dropped. -/
theorem exists_observation_iff [BlankUrl U] (document : RawDocument) (kind : ChallengeKind) :
    (∃ observation ∈ (detectFromDocument document : List (ChallengeObservation U)),
        observation.kind = kind) ↔
      ∃ signal ∈ documentSignals document, signal.kind = kind := by
  have hstart : Seen (([] : List Text), ([] : List (ChallengeObservation U))) := rfl
  obtain ⟨hfrom, -, hall⟩ := fold_record_signal
    ((Url.parse document.url).getD BlankUrl.aboutBlank) hstart (documentSignals document)
  have hpair : ∀ signal ∈ documentSignals document,
      (signal.provider, signal.kind) ∈ providerKinds := by
    intro signal hsignal
    obtain ⟨node, -, hnode⟩ := List.mem_flatMap.mp hsignal
    exact mem_provider_kinds hnode
  constructor
  · intro ⟨observation, hobservation, hkind⟩
    rcases hfrom observation hobservation with h | ⟨signal, hsignal, -, hsame⟩
    · cases h
    · exact ⟨signal, hsignal, hsame.symm.trans hkind⟩
  · intro ⟨signal, hsignal, hkind⟩
    obtain ⟨observation, hobservation, hprovider⟩ := hall signal hsignal
    refine ⟨observation, hobservation, ?_⟩
    rcases hfrom observation hobservation with h | ⟨signal', hsignal', hprovider', hkind'⟩
    · cases h
    · rw [hkind', ← hkind]
      exact provider_kinds_functional _ (hpair signal' hsignal') _ (hpair signal hsignal)
        (hprovider'.symm.trans hprovider)

/-! ## Phrases -/

/-- The phrases of the table of DOM-side signals. -/
inductive Phrase where
  | verifyYouAreHuman | twoFactor | verificationCode | accountLocked | accountSuspended
  deriving DecidableEq

/-- What the page must say. -/
def Phrase.text : Phrase → Text
  | .verifyYouAreHuman => "verify you are human"
  | .twoFactor => "two-factor"
  | .verificationCode => "verification code"
  | .accountLocked => "account locked"
  | .accountSuspended => "account suspended"

/-- What it then is taken for. -/
def Phrase.kind : Phrase → ChallengeKind
  | .verifyYouAreHuman => .captcha
  | .twoFactor | .verificationCode => .twoFactorPrompt
  | .accountLocked | .accountSuspended => .accountLocked

/-- The phrase stands, in any letter case, in the text of a text node or an element. -/
def Phrase.OccursIn (phrase : Phrase) (document : RawDocument) : Prop :=
  ∃ node ∈ document.nodes.values, (node.kind = .text ∨ node.kind = .element) ∧
    contains phrase.text (lowerText node)

/-- Every phrase in the document is reported with its kind exactly if, for each of them, some
element shows a challenge of this kind. -/
theorem phrases_told_iff [BlankUrl U] (document : RawDocument) :
    (∀ phrase : Phrase, phrase.OccursIn document →
        ∃ observation ∈ (detectFromDocument document : List (ChallengeObservation U)),
          observation.kind = phrase.kind) ↔
      ∀ phrase : Phrase, phrase.OccursIn document →
        ∃ node ∈ document.nodes.values, node.kind = .element ∧ Shows node phrase.kind := by
  refine forall_congr' fun phrase => imp_congr_right fun _ => ?_
  have hkind : phrase.kind ≠ .browserChallenge := by
    cases phrase <;> decide
  rw [exists_observation_iff]
  constructor
  · intro ⟨signal, hsignal, hsame⟩
    obtain ⟨node, hnode, hmem⟩ := List.mem_flatMap.mp hsignal
    rw [List.mem_filter, decide_eq_true_eq] at hnode
    exact ⟨node, hnode.1, hnode.2, (exists_signal_iff hkind).mp ⟨signal, hmem, hsame⟩⟩
  · intro ⟨node, hnode, helement, hshows⟩
    obtain ⟨signal, hmem, hsame⟩ := (exists_signal_iff hkind).mpr hshows
    refine ⟨signal, List.mem_flatMap.mpr ⟨node, List.mem_filter.mpr ⟨hnode, ?_⟩, hmem⟩, hsame⟩
    exact decide_eq_true helement

instance : BlankUrl PlainUrl where
  aboutBlank := ⟨"about", [], "blank"⟩

/-- A paragraph with its text in a text node. -/
def wallPage : RawDocument where
  url := "https://example.test/"
  generation := 0
  lifecycle := .complete
  root := some 1
  nodes := (∅ : OrdMap EngineNodeId RawNode)
    |>.insert 1 { RawNode.element 1 "p" none with children := [2] }
    |>.insert 2 { RawNode.document 2 with
      kind := .text, text := some "Please verify you are human", parent := some 1 }

/-- The phrase is in a text node, and nothing is reported. -/
theorem text_node_missed :
    ¬ ∀ phrase : Phrase, phrase.OccursIn wallPage →
      ∃ observation ∈ (detectFromDocument wallPage : List (ChallengeObservation PlainUrl)),
        observation.kind = phrase.kind := by
  intro h
  have hphrase : Phrase.OccursIn .verifyYouAreHuman wallPage := by
    refine ⟨{ RawNode.document 2 with
      kind := .text, text := some "Please verify you are human", parent := some 1 }, ?_, ?_⟩
    · exact List.mem_cons_of_mem _ (List.mem_cons_self ..)
    · exact ⟨.inl rfl, by decide⟩
  obtain ⟨observation, hobservation, -⟩ := h .verifyYouAreHuman hphrase
  have hnone : (detectFromDocument wallPage : List (ChallengeObservation PlainUrl)) = [] := by rfl
  rw [hnone] at hobservation
  cases hobservation

end BrowsAI.ChallengeObserver
