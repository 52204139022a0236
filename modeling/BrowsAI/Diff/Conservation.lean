import BrowsAI.Diff.Tree
import BrowsAI.Library.Indexed
import BrowsAI.SemanticIr.Challenges
import Mathlib.Algebra.Order.Group.Multiset
import Mathlib.Tactic.Abel

/-!
# Conservation of nodes

A difference accounts for the nodes of both trees when the nodes of the first, without what it
removes and with its changes and additions, are the nodes of the second. Nodes are compared up to
the signs of zeros, as the difference compares them.

The maps of the difference keep one node for each key, the last one. So a node that a later node
with the same key hides is neither compared nor reported, and the difference conserves the nodes
exactly when both trees hide the same ones: `diff_tree_conserves_iff`. The challenges of one provider
have one key, and hide one another.
-/

namespace BrowsAI.Diff

open Utf8 AgentTree Indexed Network SemanticIr Std

variable {U : Type} {before after : PageSnapshot U}

/-- The nodes of the first tree become those of the second. -/
def Conserves (before after : PageSnapshot U) (delta : SemanticTreeDiff) : Prop :=
  ((before.tree.nodes : Multiset AgentNode) - delta.removed - delta.changed.map NodeChange.before +
      delta.changed.map NodeChange.after + delta.added).map AgentNode.normalized =
    (after.tree.nodes : Multiset AgentNode).map AgentNode.normalized

/-- The nodes that a later node with the same key hides. -/
def hidden (nodes : List AgentNode) : List AgentNode := shadowed nodeKey nodes

/-! ## The parts of a difference -/

/-- The nodes before and after under the keys that both trees have. -/
def matched (before after : PageSnapshot U) : List (AgentNode × AgentNode) :=
  (shared (keyed before.tree.nodes) (keyed after.tree.nodes)).map Prod.snd

/-- The matched nodes that are not equal. -/
def differing (before after : PageSnapshot U) : List (AgentNode × AgentNode) :=
  (matched before after).filter fun pair => !pair.1.partialEq pair.2

/-- The matched nodes that are equal. -/
def kept (before after : PageSnapshot U) : List (AgentNode × AgentNode) :=
  (matched before after).filter fun pair => pair.1.partialEq pair.2

/-- The changes are the matched nodes that differ. -/
theorem changed_eq : (diffTree before after).changed =
    (differing before after).map fun pair => ⟨pair.2.id, pair.1, pair.2⟩ := by
  simp only [diffTree, differing, matched, shared]
  induction (keyed after.tree.nodes).toList with
  | nil => rfl
  | cons entry rest ih =>
      rw [List.filterMap_cons, List.filterMap_cons]
      cases (keyed before.tree.nodes)[entry.1]? with
      | none => exact ih
      | some beforeNode =>
          by_cases heq : beforeNode.partialEq entry.2
          · simpa [heq] using ih
          · simpa [heq] using ih

theorem matched_perm :
    (differing before after ++ kept before after).Perm (matched before after) := by
  have hsplit := List.filter_append_perm (fun pair => !pair.1.partialEq pair.2)
    (matched before after)
  simpa only [differing, kept, Bool.not_not] using hsplit

/-- A side of the matched nodes is that side of the differing and of the kept ones. -/
theorem matched_side (side : AgentNode × AgentNode → AgentNode) :
    ((matched before after).map side : Multiset AgentNode) =
      (differing before after).map side + (kept before after).map side := by
  rw [Multiset.coe_add, ← List.map_append]
  exact Multiset.coe_eq_coe.mpr (matched_perm.map side).symm

/-- A tree consists of the nodes in the map under their keys and of the hidden ones. -/
theorem nodes_eq (nodes : List AgentNode) : (nodes : Multiset AgentNode) =
    ((keyed nodes).toList.map Prod.snd : List AgentNode) + hidden nodes := by
  rw [Multiset.coe_add]
  exact Multiset.coe_eq_coe.mpr (index_perm nodes).symm

/-- The first tree: the removed nodes, the old sides of the changes, the kept nodes, and the
hidden ones. -/
theorem before_eq (before after : PageSnapshot U) : (before.tree.nodes : Multiset AgentNode) =
    (diffTree before after).removed + (diffTree before after).changed.map NodeChange.before +
      ((kept before after).map Prod.fst + hidden before.tree.nodes) := by
  have hvalues := Multiset.coe_eq_coe.mpr
    (values_perm_left (keyed before.tree.nodes) (keyed after.tree.nodes))
  have hmatched : ((shared (keyed before.tree.nodes) (keyed after.tree.nodes)).map
      fun entry => entry.2.1) = (matched before after).map Prod.fst := by
    simp [matched, Function.comp_def]
  have hchanged : (diffTree before after).changed.map NodeChange.before =
      (differing before after).map Prod.fst := by
    simp [changed_eq, Function.comp_def]
  rw [nodes_eq, ← hvalues, ← Multiset.coe_add, hmatched, matched_side, hchanged]
  simp only [diffTree, add_assoc]

/-- The second tree: the added nodes, the new sides of the changes, the kept nodes, and the
hidden ones. -/
theorem after_eq (before after : PageSnapshot U) : (after.tree.nodes : Multiset AgentNode) =
    (diffTree before after).added + (diffTree before after).changed.map NodeChange.after +
      ((kept before after).map Prod.snd + hidden after.tree.nodes) := by
  have hvalues := Multiset.coe_eq_coe.mpr
    (values_perm_right (keyed before.tree.nodes) (keyed after.tree.nodes))
  have hmatched : ((shared (keyed before.tree.nodes) (keyed after.tree.nodes)).map
      fun entry => entry.2.2) = (matched before after).map Prod.snd := by
    simp [matched, Function.comp_def]
  have hchanged : (diffTree before after).changed.map NodeChange.after =
      (differing before after).map Prod.snd := by
    simp [changed_eq, Function.comp_def]
  rw [nodes_eq, ← hvalues, ← Multiset.coe_add, hmatched, matched_side, hchanged]
  simp only [diffTree, add_assoc]

/-- Kept nodes are the same before and after. -/
theorem normalized_kept : ((kept before after).map Prod.fst).map AgentNode.normalized =
    ((kept before after).map Prod.snd).map AgentNode.normalized := by
  simp only [List.map_map]
  refine List.map_congr_left fun pair hpair => ?_
  exact AgentNode.normalized_eq_of_partial_eq (List.mem_filter.mp hpair).2

/-! ## What is conserved -/

/-- The nodes that the difference puts into the second tree, as it compares them. -/
def accounted (before after : PageSnapshot U) : Multiset AgentNode :=
  (((kept before after).map Prod.snd).map AgentNode.normalized : List AgentNode) +
    ((diffTree before after).changed.map NodeChange.after).map AgentNode.normalized +
    (diffTree before after).added.map AgentNode.normalized

/-- Taking away what was removed and changed leaves the kept nodes and the hidden ones. -/
theorem remaining_eq : (before.tree.nodes : Multiset AgentNode) - (diffTree before after).removed -
    (diffTree before after).changed.map NodeChange.before =
      (kept before after).map Prod.fst + hidden before.tree.nodes := by
  rw [before_eq before after, add_assoc, add_tsub_cancel_left, add_tsub_cancel_left]

/-- The first tree with the difference applied: what is accounted for, and what it hides. -/
theorem applied_eq : ((before.tree.nodes : Multiset AgentNode) - (diffTree before after).removed -
    (diffTree before after).changed.map NodeChange.before +
      (diffTree before after).changed.map NodeChange.after +
      (diffTree before after).added).map AgentNode.normalized =
    accounted before after + (hidden before.tree.nodes).map AgentNode.normalized := by
  rw [remaining_eq, accounted, ← normalized_kept]
  simp only [Multiset.map_add, Multiset.map_coe]
  abel

/-- The second tree: what is accounted for, and what it hides. -/
theorem after_normalized_eq : (after.tree.nodes : Multiset AgentNode).map AgentNode.normalized =
    accounted before after + (hidden after.tree.nodes).map AgentNode.normalized := by
  rw [after_eq before after, accounted]
  simp only [Multiset.map_add, Multiset.map_coe]
  abel

/-- Nothing is hidden where the keys are distinct. -/
theorem hidden_eq_nil {nodes : List AgentNode} (h : (nodes.map nodeKey).Nodup) :
    hidden nodes = [] :=
  shadowed_eq_nil h

/-- Between trees with distinct keys every node is accounted for. -/
theorem diff_tree_conserves (hbefore : (before.tree.nodes.map nodeKey).Nodup)
    (hafter : (after.tree.nodes.map nodeKey).Nodup) :
    Conserves before after (diffTree before after) := by
  rw [Conserves, applied_eq, after_normalized_eq, hidden_eq_nil hbefore, hidden_eq_nil hafter]

/-- A difference conserves the nodes exactly when the two trees hide the same nodes. -/
theorem diff_tree_conserves_iff (before after : PageSnapshot U) :
    Conserves before after (diffTree before after) ↔
      ((hidden before.tree.nodes).map AgentNode.normalized).Perm
        ((hidden after.tree.nodes).map AgentNode.normalized) := by
  rw [Conserves, applied_eq, after_normalized_eq, add_right_inj, Multiset.coe_eq_coe]

/-! ## Challenges of one provider -/

/-- A captcha of the provider, seen on the login page. -/
def captcha (provider : Text) : ChallengeObservation PlainUrl where
  provider := provider
  kind := .captcha
  url := ⟨"https", "example.test", "/login"⟩
  confidence := .finite 1
  provenance := []

/-- The snapshot of an empty page on which so many captchas were seen. -/
def captchaPage (count : Nat) : PageSnapshot PlainUrl :=
  let url : PlainUrl := ⟨"https", "example.test", "/login"⟩
  let tree := withChallengeObservations ⟨"page:login", [], 1, false⟩
    (List.replicate count (captcha "turnstile"))
  PageState.snapshot ⟨url, tree, 1⟩ 1

/-- Of two captchas of one provider only one is left, and the difference does not account for it. -/
theorem captcha_not_conserved :
    ¬ ∀ before after : PageSnapshot PlainUrl, Conserves before after (diffTree before after) := by
  intro h
  have hcard := congrArg Multiset.card (h (captchaPage 2) (captchaPage 1))
  revert hcard
  decide

end BrowsAI.Diff
