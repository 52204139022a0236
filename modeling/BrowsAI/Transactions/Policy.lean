import BrowsAI.AgentTree.Basic
import BrowsAI.Audit.Journal

/-!
# The transaction policy

`TransactionPolicy::classify` of `crates/transactions`, and which consequences a policy allows.
-/

namespace BrowsAI.Transactions

open Utf8 AgentTree
open Audit (Consequence Reversibility PolicyDecision TransactionClassification)

/-- What is allowed without a confirmation. -/
structure TransactionPolicy where
  requireConfirmationForUnknown : Bool
  allowDelete : Bool
  allowFinancial : Bool
  allowSecurityChanges : Bool
  deriving DecidableEq

/-- `TransactionPolicy::default()`. -/
instance : Inhabited TransactionPolicy := ⟨⟨true, false, false, false⟩⟩

namespace TransactionPolicy

/-- The decision on a consequence, with its reason. -/
def decide (policy : TransactionPolicy) (consequence : Consequence) : PolicyDecision × Text :=
  let permitted : PolicyDecision × Text := (.allow, "policy permits this action")
  match consequence with
  | .delete =>
      if !policy.allowDelete then (.deny, "delete is disabled by policy") else permitted
  | .purchase | .transfer =>
      if !policy.allowFinancial then
        (.requireConfirmation, "financial effect requires explicit confirmation")
      else permitted
  | .securityChange | .permissionChange =>
      if !policy.allowSecurityChanges then
        (.requireConfirmation, "security or permission change requires explicit confirmation")
      else permitted
  | .send | .publish | .authenticate =>
      (.requireConfirmation, "external side effect requires explicit confirmation")
  | .unknown =>
      if policy.requireConfirmationForUnknown then
        (.requireConfirmation, "unknown effect cannot be treated as safe")
      else permitted
  | _ => permitted

/-- What a policy says of an action. -/
def classify (policy : TransactionPolicy) (consequence : Consequence)
    (reversibility : Reversibility) : TransactionClassification F64 where
  consequence := consequence
  reversibility := reversibility
  decision := (policy.decide consequence).1
  reason := (policy.decide consequence).2
  confidence := if consequence = .unknown then .finite (1 / 2) else .finite 1

end TransactionPolicy

end BrowsAI.Transactions
