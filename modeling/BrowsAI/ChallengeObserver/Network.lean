import BrowsAI.Library.Utf8Lossy
import BrowsAI.Network.Stack
import BrowsAI.SemanticIr.Challenges
import Mathlib.Tactic.SplitIfs

/-!
# Challenges in a response

`detect_from_response` of `crates/challenge-observer`, and the rows of the table in
`docs/challenge-handling.md` that it implements. The rows are tried in a chain whose first tests
return nothing if the status and the body do not fit: `detects_row_iff` says when a response that
satisfies a row is reported under one of its rows all the same.
-/

namespace BrowsAI.ChallengeObserver

open Utf8 AgentTree Network
open SemanticIr (ChallengeKind)

/-- A sign of a challenge, and the text that it was read from. -/
structure ChallengeEvidence where
  signal : Text
  value : Text
  deriving DecidableEq

/-- With the evidence, which the agent tree does not show. -/
structure ChallengeObservation (U : Type) extends SemanticIr.ChallengeObservation U where
  evidence : List ChallengeEvidence

/-- The value of the first header with this name in the order of the map. -/
def headerValue (headers : OrdMap Text Text) (name : Text) : Option Text :=
  (headers.toList.find? fun entry => eqIgnoreAsciiCase entry.1 name).map Prod.snd

/-! ## What is read of a response -/

section Parts

variable (response : NetworkResponse)

/-- The server header in small letters. -/
def serverOf : Text := asciiLower ((headerValue response.headers "server").getD [])

/-- The body in small letters. -/
def lowerBody : Text := asciiLower (fromUtf8Lossy response.body)

/-- The value of `x-cdn` in lower case, which `detect_from_response` calls `incapsula`. -/
def incapsulaOf : Option Text := (headerValue response.headers "x-cdn").map asciiLower

end Parts

/-- Provider, kind, and confidence of a challenge, and the signals that gave it away. -/
structure Detected where
  provider : Text
  kind : ChallengeKind
  confidence : F64
  signals : List (Text × Text)

/-- The chain of `detect_from_response`. The confidences are the closest `f32`. -/
def detectSignals (response : NetworkResponse) : Option Detected :=
  let headers := response.headers
  let server := serverOf response
  let lower := lowerBody response
  match headerValue headers "cf-ray" with
  | some ray =>
      if contains "cf-browser-verification" lower ∨ contains "cf-challenge-running" lower ∨
          contains "cf-error-code" lower then
        some ⟨"cloudflare", .browserChallenge, .finite (15938355 / 16777216),
          [("cf-ray", ray), ("body-marker", "cf-browser-verification")]⟩
      else if response.status = 403 ∨ response.status = 503 then
        some ⟨"cloudflare", .accessDenied, .finite (11744051 / 16777216),
          [("cf-ray", ray), ("status", ofNat response.status.toNat)]⟩
      else none
  | none =>
      if contains "akamai" server ∨ (headerValue headers "x-akamai-transformed").isSome ∨
          incapsulaOf response = some ("incapsula" : Text) then
        if contains "_incapsula_resource" lower ∨ contains "incapsula" lower then
          some ⟨"akamai", .browserChallenge, .finite (7549747 / 8388608),
            [("server", server), ("body-marker", "_Incapsula_Resource")]⟩
        else if response.status = 403 then
          some ⟨"akamai", .accessDenied, .finite (11744051 / 16777216),
            [("server", server), ("status", "403")]⟩
        else none
      else if contains "cloudflare" server ∧ (headerValue headers "cf-mitigated").isSome then
        some ⟨"cloudflare", .browserChallenge, .finite (7549747 / 8388608),
          [("server", server),
            ("cf-mitigated", (headerValue headers "cf-mitigated").getD [])]⟩
      else if contains "ddos-guard" server then
        some ⟨"ddos-guard", .browserChallenge, .finite (7130317 / 8388608), [("server", server)]⟩
      else if contains "data-dome" server ∨ contains "datadome" lower then
        some ⟨"datadome", .browserChallenge, .finite (7130317 / 8388608), [("server", server)]⟩
      else if response.status = 429 then
        some ⟨"rate-limit", .accessDenied, .finite (5033165 / 8388608),
          [("status", "429"), ("retry-after", (headerValue headers "retry-after").getD [])]⟩
      else none

variable {U : Type}

/-- The challenge of a response, if it shows one. -/
def detectFromResponse (request : NetworkRequest U) (response : NetworkResponse) :
    Option (ChallengeObservation U) :=
  (detectSignals response).map fun detected =>
    let evidence := detected.signals.map fun signal => ⟨signal.1, signal.2⟩
    { provider := detected.provider
      kind := detected.kind
      url := request.url
      evidence :=
        if 400 ≤ response.status ∧ evidence.all (·.signal ≠ ("status" : Text)) then
          evidence ++ [⟨"status", ofNat response.status.toNat⟩]
        else evidence
      confidence := detected.confidence
      provenance := [⟨.networkResponse, "challenge-observer", none⟩] }

/-! ## The table -/

/-- The rows of the table of network-side signals, in its order. -/
inductive NetworkSignal where
  | cfRayMarker | cfRayStatus | akamaiBody | akamaiStatus | cloudflareMitigated | ddosGuard
  | dataDome | tooManyRequests
  deriving DecidableEq

namespace NetworkSignal

/-- The provider of a row. -/
def provider : NetworkSignal → Text
  | .cfRayMarker | .cfRayStatus | .cloudflareMitigated => "cloudflare"
  | .akamaiBody | .akamaiStatus => "akamai"
  | .ddosGuard => "ddos-guard"
  | .dataDome => "datadome"
  | .tooManyRequests => "rate-limit"

/-- The kind of challenge of a row. -/
def kind : NetworkSignal → ChallengeKind
  | .cfRayMarker | .akamaiBody | .cloudflareMitigated | .ddosGuard | .dataDome => .browserChallenge
  | .cfRayStatus | .akamaiStatus | .tooManyRequests => .accessDenied

/-- The response is as the row says. -/
def Satisfied (response : NetworkResponse) : NetworkSignal → Prop
  | .cfRayMarker => (headerValue response.headers "cf-ray").isSome ∧
      contains "cf-browser-verification" (lowerBody response)
  | .cfRayStatus => (headerValue response.headers "cf-ray").isSome ∧
      (response.status = 403 ∨ response.status = 503)
  | .akamaiBody => contains "akamai" (serverOf response) ∧
      contains "_incapsula_resource" (lowerBody response)
  | .akamaiStatus => contains "akamai" (serverOf response) ∧ response.status = 403
  | .cloudflareMitigated => contains "cloudflare" (serverOf response) ∧
      (headerValue response.headers "cf-mitigated").isSome
  | .ddosGuard => contains "ddos-guard" (serverOf response)
  | .dataDome => contains "data-dome" (serverOf response) ∨
      contains "datadome" (lowerBody response)
  | .tooManyRequests => response.status = 429

end NetworkSignal

/-- No row that the response satisfies is shadowed: a response of Cloudflare has the marker of the
table, or no marker and a status of the table, and one that passes for a response of Akamai comes
from a server of that name, with the body or the status of the table. -/
def Unshadowed (response : NetworkResponse) : Prop :=
  let lower := lowerBody response
  if (headerValue response.headers "cf-ray").isSome then
    if contains "cf-browser-verification" lower then True
    else if contains "cf-challenge-running" lower ∨ contains "cf-error-code" lower then
      NetworkSignal.Satisfied response .cloudflareMitigated
    else response.status = 403 ∨ response.status = 503
  else if contains "akamai" (serverOf response) then
    contains "_incapsula_resource" lower ∨ ¬ contains "incapsula" lower ∧ response.status = 403
  else ¬ ((headerValue response.headers "x-akamai-transformed").isSome ∨
    incapsulaOf response = some ("incapsula" : Text))

/-- A row with this provider and kind is satisfied. -/
def Tells (response : NetworkResponse) (provider : Text) (kind : ChallengeKind) : Prop :=
  ∃ row : NetworkSignal, row.Satisfied response ∧ provider = row.provider ∧ kind = row.kind

section Tells

variable {response : NetworkResponse}

/-- What tells a provider and a kind are the rows that have both. -/
theorem tells_iff_of_rows {provider : Text} {kind : ChallengeKind} {rows : List NetworkSignal}
    (hrows : ∀ row : NetworkSignal, row ∈ rows ↔ provider = row.provider ∧ kind = row.kind) :
    Tells response provider kind ↔ ∃ row ∈ rows, row.Satisfied response := by
  constructor
  · intro ⟨row, hrow, hsame⟩
    exact ⟨row, (hrows row).mpr hsame, hrow⟩
  · intro ⟨row, hmem, hrow⟩
    exact ⟨row, hrow, (hrows row).mp hmem⟩

theorem tells_cloudflare_iff : Tells response "cloudflare" .browserChallenge ↔
    NetworkSignal.Satisfied response .cfRayMarker ∨
      NetworkSignal.Satisfied response .cloudflareMitigated := by
  have hrows : ∀ row : NetworkSignal, row ∈ [.cfRayMarker, .cloudflareMitigated] ↔
      ("cloudflare" : Text) = row.provider ∧ ChallengeKind.browserChallenge = row.kind := by
    intro row
    cases row <;> decide
  simp only [tells_iff_of_rows hrows, List.mem_cons, List.not_mem_nil, or_false,
    exists_eq_or_imp, exists_eq_left]

theorem tells_akamai_iff : Tells response "akamai" .browserChallenge ↔
    NetworkSignal.Satisfied response .akamaiBody := by
  have hrows : ∀ row : NetworkSignal, row ∈ [.akamaiBody] ↔
      ("akamai" : Text) = row.provider ∧ ChallengeKind.browserChallenge = row.kind := by
    intro row
    cases row <;> decide
  simp only [tells_iff_of_rows hrows, List.mem_singleton, exists_eq_left]

theorem tells_akamai_status_iff : Tells response "akamai" .accessDenied ↔
    NetworkSignal.Satisfied response .akamaiStatus := by
  have hrows : ∀ row : NetworkSignal, row ∈ [.akamaiStatus] ↔
      ("akamai" : Text) = row.provider ∧ ChallengeKind.accessDenied = row.kind := by
    intro row
    cases row <;> decide
  simp only [tells_iff_of_rows hrows, List.mem_singleton, exists_eq_left]

/-- The detected challenge is the one that is told. -/
theorem exists_some_iff {detected : Detected} :
    (∃ detected', some detected = some detected' ∧
      Tells response detected'.provider detected'.kind) ↔
    Tells response detected.provider detected.kind := by
  simp only [Option.some.injEq, exists_eq_left']

theorem not_exists_none : ¬ ∃ detected : Detected, none = some detected ∧
    Tells response detected.provider detected.kind := by
  simp

/-- With the header `cf-ray`, the other rows are not tried. -/
theorem tells_iff_of_cf_ray {ray : Text} (hray : headerValue response.headers "cf-ray" = some ray) :
    (∃ detected, detectSignals response = some detected ∧
        Tells response detected.provider detected.kind) ↔ Unshadowed response := by
  have hsome : (headerValue response.headers "cf-ray").isSome := by rw [hray]; rfl
  rw [Unshadowed, if_pos hsome, detectSignals, hray]
  dsimp only
  by_cases hmarker : contains "cf-browser-verification" (lowerBody response)
  · rw [if_pos (.inl hmarker), if_pos hmarker, exists_some_iff, tells_cloudflare_iff]
    exact iff_of_true (.inl ⟨hsome, hmarker⟩) trivial
  · rw [if_neg hmarker]
    by_cases hother : contains "cf-challenge-running" (lowerBody response) ∨
        contains "cf-error-code" (lowerBody response)
    · rw [if_pos (.inr hother), if_pos hother, exists_some_iff, tells_cloudflare_iff]
      exact or_iff_right fun h => hmarker h.2
    · rw [if_neg (not_or.mpr ⟨hmarker, hother⟩), if_neg hother]
      by_cases hstatus : response.status = 403 ∨ response.status = 503
      · rw [if_pos hstatus, exists_some_iff]
        exact iff_of_true ⟨.cfRayStatus, ⟨hsome, hstatus⟩, rfl, rfl⟩ hstatus
      · rw [if_neg hstatus]
        exact iff_of_false not_exists_none hstatus

/-- Without it, a response that passes for one of Akamai is tried for the rows of Akamai only. -/
theorem tells_iff_of_akamai (hray : headerValue response.headers "cf-ray" = none)
    (hakamai : contains "akamai" (serverOf response) ∨
      (headerValue response.headers "x-akamai-transformed").isSome ∨
      incapsulaOf response = some ("incapsula" : Text)) :
    (∃ detected, detectSignals response = some detected ∧
        Tells response detected.provider detected.kind) ↔ Unshadowed response := by
  have hnone : ¬ (headerValue response.headers "cf-ray").isSome := by rw [hray]; decide
  rw [Unshadowed, if_neg hnone, detectSignals, hray]
  dsimp only
  rw [if_pos hakamai]
  by_cases hserver : contains "akamai" (serverOf response)
  · rw [if_pos hserver]
    by_cases hbody : contains "_incapsula_resource" (lowerBody response) ∨
        contains "incapsula" (lowerBody response)
    · rw [if_pos hbody, exists_some_iff, tells_akamai_iff]
      constructor
      · exact fun h => .inl h.2
      · intro h
        rcases h with h | ⟨hword, -⟩
        · exact ⟨hserver, h⟩
        · exact ⟨hserver, hbody.resolve_right hword⟩
    · rw [if_neg hbody]
      rw [not_or] at hbody
      by_cases hstatus : response.status = 403
      · rw [if_pos hstatus, exists_some_iff, tells_akamai_status_iff]
        exact iff_of_true ⟨hserver, hstatus⟩ (.inr ⟨hbody.2, hstatus⟩)
      · rw [if_neg hstatus]
        refine iff_of_false not_exists_none fun h => ?_
        rcases h with h | h
        · exact hbody.1 h
        · exact hstatus h.2
  · -- no row of Akamai is satisfied
    rw [if_neg hserver]
    refine iff_of_false ?_ (not_not_intro (hakamai.resolve_left hserver))
    split_ifs with hbody hstatus
    · rw [exists_some_iff, tells_akamai_iff]
      exact fun h => hserver h.1
    · rw [exists_some_iff, tells_akamai_status_iff]
      exact fun h => hserver h.1
    · exact fun ⟨_, h, _⟩ => h

/-- The remaining rows are tried one after the other. -/
theorem tells_of_others (hrow : ∃ row, NetworkSignal.Satisfied response row)
    (hray : headerValue response.headers "cf-ray" = none)
    (hakamai : ¬ (contains "akamai" (serverOf response) ∨
      (headerValue response.headers "x-akamai-transformed").isSome ∨
      incapsulaOf response = some ("incapsula" : Text))) :
    ∃ detected, detectSignals response = some detected ∧
      Tells response detected.provider detected.kind := by
  rw [detectSignals, hray]
  dsimp only
  rw [if_neg hakamai]
  split_ifs with hcloudflare hddos hdatadome hstatus
  · exact ⟨_, rfl, .cloudflareMitigated, hcloudflare, rfl, rfl⟩
  · exact ⟨_, rfl, .ddosGuard, hddos, rfl, rfl⟩
  · exact ⟨_, rfl, .dataDome, hdatadome, rfl, rfl⟩
  · exact ⟨_, rfl, .tooManyRequests, hstatus, rfl, rfl⟩
  · obtain ⟨row, hrow⟩ := hrow
    cases row with
    | cfRayMarker | cfRayStatus =>
        have hsome := hrow.1
        rw [hray] at hsome
        cases hsome
    | akamaiBody | akamaiStatus => exact absurd (.inl hrow.1) hakamai
    | cloudflareMitigated => exact absurd hrow hcloudflare
    | ddosGuard => exact absurd hrow hddos
    | dataDome => exact absurd hrow hdatadome
    | tooManyRequests => exact absurd hrow hstatus

/-- A response with a row is told as one of its rows exactly if no earlier branch hides them. -/
theorem tells_iff (hrow : ∃ row, NetworkSignal.Satisfied response row) :
    (∃ detected, detectSignals response = some detected ∧
        Tells response detected.provider detected.kind) ↔ Unshadowed response := by
  cases hray : headerValue response.headers "cf-ray" with
  | some ray => exact tells_iff_of_cf_ray hray
  | none =>
      by_cases hakamai : contains "akamai" (serverOf response) ∨
          (headerValue response.headers "x-akamai-transformed").isSome ∨
          incapsulaOf response = some ("incapsula" : Text)
      · exact tells_iff_of_akamai hray hakamai
      · refine iff_of_true (tells_of_others hrow hray hakamai) ?_
        have hnone : ¬ (headerValue response.headers "cf-ray").isSome := by rw [hray]; decide
        rw [not_or] at hakamai
        rw [Unshadowed, if_neg hnone, if_neg hakamai.1]
        exact hakamai.2

end Tells

/-- A response that satisfies a row of the table is reported with the provider and the kind of a
row that it satisfies exactly if no row is shadowed. -/
theorem detects_row_iff (request : NetworkRequest U) (response : NetworkResponse)
    (hrow : ∃ row, NetworkSignal.Satisfied response row) :
    (∃ observation, detectFromResponse request response = some observation ∧
        ∃ row, NetworkSignal.Satisfied response row ∧ observation.provider = row.provider ∧
          observation.kind = row.kind) ↔ Unshadowed response := by
  rw [← tells_iff hrow, detectFromResponse]
  cases detectSignals response with
  | none => exact iff_of_false (fun ⟨_, h, _⟩ => nomatch h) not_exists_none
  | some detected =>
      rw [exists_some_iff]
      constructor
      · rintro ⟨_, ⟨⟩, hrow⟩
        exact hrow
      · exact fun hrow => ⟨_, rfl, hrow⟩

/-- A request and responses to it that came through Cloudflare. -/
def pageRequest : NetworkRequest PlainUrl :=
  ⟨1, 0, [], ⟨"https", "example.test", "/"⟩, "GET", ∅, none, none⟩

/-- A response of Cloudflare with a status. -/
def cloudflareResponse (status : UInt16) : NetworkResponse :=
  ⟨1, status, (∅ : OrdMap Text Text).insert ("cf-ray" : String) ("8f1" : String), []⟩

/-- The test for `cf-ray` hides the row of status 429. -/
theorem rate_limit_shadowed :
    (∃ row, NetworkSignal.Satisfied (cloudflareResponse 429) row) ∧
      ¬ ∃ observation, detectFromResponse pageRequest (cloudflareResponse 429) = some observation ∧
        ∃ row, NetworkSignal.Satisfied (cloudflareResponse 429) row ∧
          observation.provider = row.provider ∧ observation.kind = row.kind := by
  refine ⟨⟨.tooManyRequests, rfl⟩, ?_⟩
  intro ⟨observation, hobservation, _⟩
  have hnone : detectFromResponse pageRequest (cloudflareResponse 429) = none := by rfl
  rw [hnone] at hobservation
  cases hobservation

/-- A response with status 403 is told as its row says. -/
theorem detects_row_iff_denied :
    (∃ observation, detectFromResponse pageRequest (cloudflareResponse 403) = some observation ∧
        ∃ row, NetworkSignal.Satisfied (cloudflareResponse 403) row ∧
          observation.provider = row.provider ∧ observation.kind = row.kind) ↔
      Unshadowed (cloudflareResponse 403) :=
  detects_row_iff pageRequest (cloudflareResponse 403) ⟨.cfRayStatus, by decide, .inl rfl⟩

end BrowsAI.ChallengeObserver
