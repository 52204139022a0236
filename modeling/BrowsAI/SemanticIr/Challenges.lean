import BrowsAI.AgentTree.Basic
import BrowsAI.Network.Url

/-!
# Challenges in the agent tree

`SemanticIr::with_challenge_observations` of `crates/semantic-ir`: a summary node for every
observation of a human-verification wall. Its id has the number of nodes before it, its identity key
only the provider, so the observations of one provider share a key.
-/

namespace BrowsAI.SemanticIr

open Utf8 AgentTree Network

/-- What kind of challenge a page shows. -/
inductive ChallengeKind where
  | captcha | browserChallenge | accessDenied | twoFactorPrompt | accountLocked
  | termsOfServiceGate
  deriving DecidableEq

/-- The `Debug` rendering. -/
def ChallengeKind.debug : ChallengeKind → Text
  | .captcha => "Captcha"
  | .browserChallenge => "BrowserChallenge"
  | .accessDenied => "AccessDenied"
  | .twoFactorPrompt => "TwoFactorPrompt"
  | .accountLocked => "AccountLocked"
  | .termsOfServiceGate => "TermsOfServiceGate"

/-- The name of a kind in node names. -/
def challengeKindLabel : ChallengeKind → Text
  | .captcha => "captcha"
  | .browserChallenge => "browser-challenge"
  | .accessDenied => "access-denied"
  | .twoFactorPrompt => "two-factor"
  | .accountLocked => "account-locked"
  | .termsOfServiceGate => "tos-gate"

/-- A challenge that was seen. -/
structure ChallengeObservation (U : Type) where
  provider : Text
  kind : ChallengeKind
  url : U
  confidence : F64
  provenance : List ProvenanceSource

variable {U : Type}

/-- The identity key of the nodes of a provider. -/
def challengeKey (provider : Text) : Text := "challenge:" ++ provider

/-- The node that is pushed for an observation. -/
def challengeNode [Url U] (tree : AgentRenderTree) (observation : ChallengeObservation U) :
    AgentNode where
  id := "challenge:" ++ observation.provider ++ ":" ++ ofNat tree.nodes.length
  origin := some (Url.asStr observation.url)
  identityKey := some (challengeKey observation.provider)
  structuralRole := .region
  semanticRole := some .challenge
  applicationType := none
  name := some ("challenge:" ++ observation.provider ++ " (" ++ observation.kind.debug ++ ")")
  value := some (.text (challengeKindLabel observation.kind))
  description := some (observation.provider ++ " challenge detected on " ++
    Url.asStr observation.url)
  state := default
  geometry := none
  relationships := []
  actions := []
  children := []
  provenance := observation.provenance
  confidence := ⟨observation.confidence⟩
  generation := tree.generation

/-- The tree with a node for each challenge at its end. -/
def withChallengeObservations [Url U] (tree : AgentRenderTree)
    (observations : List (ChallengeObservation U)) : AgentRenderTree :=
  observations.foldl (fun tree observation =>
    { tree with nodes := tree.nodes ++ [challengeNode tree observation] }) tree

end BrowsAI.SemanticIr
