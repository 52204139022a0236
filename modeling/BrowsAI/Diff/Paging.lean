import BrowsAI.Diff.Tree
import BrowsAI.Library.Json
import BrowsAI.Library.Pages
import BrowsAI.Library.Saturating
import Mathlib.Tactic.SplitIfs

/-!
# Pages of a snapshot

`PageState::page` of `crates/state`, which cuts the nodes of a tree into pages under a limit on the
nodes and a budget of tokens. `page_spec` is what one call gives, `pages_cover` what the calls give
that follow `next_offset`. `NodeJson` is the library that prints a node.
-/

namespace BrowsAI.Diff

open Utf8 AgentTree Saturating

/-- `serde_json::to_string` of a node. -/
class NodeJson where
  toString : AgentNode → Option Text

/-- Some of the nodes of a page, and where the next ones start. -/
structure SnapshotPage where
  snapshotId : UInt64
  offset : Nat
  nodes : List AgentNode
  nextOffset : Option Nat
  cursor : Nat
  limit : Nat
  truncated : Bool
  nextCursor : Option Text
  estimatedTokens : Nat
  deriving DecidableEq

/-- Why no page is given. -/
inductive SnapshotError where
  | stale | serialization
  deriving DecidableEq

/-- The loop of `page` with the nodes so far and the bytes that they take. -/
def collect [NodeJson] (tokenLimit : Option Nat) :
    List AgentNode → Nat → List AgentNode → Except SnapshotError (List AgentNode × Nat)
  | [], used, nodes => .ok (nodes, used)
  | node :: rest, used, nodes =>
      match NodeJson.toString node with
      | none => .error .serialization
      | some text =>
          let size := len text
          if tokenLimit.any fun limit => !nodes.isEmpty && limit < used + size then
            .ok (nodes, used)
          else collect tokenLimit rest (used + size) (nodes ++ [node])

variable {U : Type}

/-- The nodes from an offset on, up to the limit and the tokens. -/
def PageState.page [NodeJson] (state : PageState U) (offset limit : Nat) (maxTokens : Option Nat)
    (expectedGeneration : Option UInt64) : Except SnapshotError SnapshotPage :=
  if expectedGeneration.any (· ≠ state.tree.generation) then .error .stale
  else
    let total := state.tree.nodes.length
    let start := min offset total
    let effectiveLimit := max limit 1
    let tokenLimit := maxTokens.map (saturatingMulUsize · 4)
    match collect tokenLimit ((state.tree.nodes.drop start).take effectiveLimit) 0 [] with
    | .error error => .error error
    | .ok (nodes, used) =>
        let nextOffset := min (start + nodes.length) total
        .ok
          { snapshotId := state.tree.generation
            offset := start
            nodes
            nextOffset := if nextOffset < total then some nextOffset else none
            cursor := start
            limit := effectiveLimit
            truncated := nextOffset < total
            nextCursor := if nextOffset < total then some (ofNat nextOffset) else none
            estimatedTokens := used / 4 + if used % 4 ≠ 0 then 1 else 0 }

/-! ## One page -/

/-- The bytes of the printed nodes. -/
def serializedSize [NodeJson] (nodes : List AgentNode) : Nat :=
  (nodes.map fun node => (NodeJson.toString node).elim 0 len).sum

/-- The nodes keep to the limit on bytes, or there is only one. -/
def FitsIn [NodeJson] (tokenLimit : Option Nat) (nodes : List AgentNode) : Prop :=
  ∀ limit, tokenLimit = some limit → serializedSize nodes ≤ limit ∨ nodes.length = 1

section Calls

variable [NodeJson]

theorem serialized_size_concat {node : AgentNode} {text : Text}
    (htext : NodeJson.toString node = some text) (nodes : List AgentNode) :
    serializedSize (nodes ++ [node]) = serializedSize nodes + len text := by
  simp [serializedSize, htext]

/-- The loop takes nodes from the front, at least one if there is one, as long as they fit. -/
theorem collect_spec {tokenLimit : Option Nat} {rest nodes : List AgentNode}
    (hjson : ∀ node ∈ rest, ∃ text, NodeJson.toString node = some text)
    (hfits : FitsIn tokenLimit nodes) :
    ∃ n, n ≤ rest.length ∧ (nodes = [] → rest ≠ [] → 0 < n) ∧
      FitsIn tokenLimit (nodes ++ rest.take n) ∧
      collect tokenLimit rest (serializedSize nodes) nodes =
        .ok (nodes ++ rest.take n, serializedSize (nodes ++ rest.take n)) := by
  induction rest generalizing nodes with
  | nil =>
      refine ⟨0, Nat.le_refl 0, ?_, ?_, ?_⟩
      · intro _ hne
        exact absurd rfl hne
      · rwa [List.take_nil, List.append_nil]
      · rw [List.take_nil, List.append_nil, collect]
  | cons node rest ih =>
      rw [List.forall_mem_cons] at hjson
      obtain ⟨⟨text, htext⟩, hrest⟩ := hjson
      simp only [collect, htext]
      by_cases hstop : (tokenLimit.any fun limit =>
          !nodes.isEmpty && decide (limit < serializedSize nodes + len text)) = true
      · refine ⟨0, Nat.zero_le _, ?_, ?_, ?_⟩
        -- the first node is never refused
        · intro hnil
          simp [hnil] at hstop
        · rwa [List.take_zero, List.append_nil]
        · rw [if_pos hstop, List.take_zero, List.append_nil]
      · have hgrown : FitsIn tokenLimit (nodes ++ [node]) := by
          intro limit hlimit
          rw [serialized_size_concat htext]
          cases nodes with
          | nil => exact .inr rfl
          | cons first others =>
              refine .inl ?_
              simpa [hlimit] using hstop
        obtain ⟨n, hn, -, hfit, hcollect⟩ := ih hrest hgrown
        have hgroup : nodes ++ (node :: rest).take (n + 1) = nodes ++ [node] ++ rest.take n := by
          rw [List.take_succ_cons, List.append_cons]
        refine ⟨n + 1, Nat.succ_le_succ hn, ?_, ?_, ?_⟩
        · intro _ _
          exact Nat.succ_pos n
        · rwa [hgroup]
        · rw [if_neg hstop, ← serialized_size_concat htext, hcollect, hgroup]

/-- The arguments of a call beside the offset. A generation that is asked for is the one of the
tree. -/
structure PageRequest (generation : UInt64) where
  limit : Nat
  maxTokens : Option Nat
  expectedGeneration : Option UInt64
  current : ∀ expected, expectedGeneration = some expected → expected = generation

/-- A page within the limit on its nodes, and within the budget unless it holds a single one. -/
structure SnapshotPage.Within {generation : UInt64} (page : SnapshotPage)
    (request : PageRequest generation) : Prop where
  limit : page.nodes.length ≤ max 1 request.limit
  budget : ∀ tokens, request.maxTokens = some tokens →
    (serializedSize page.nodes ≤ 4 * tokens ∧ page.estimatedTokens ≤ tokens) ∨
      page.nodes.length = 1

namespace PageState

/-- The page that a request is given. -/
def ask (state : PageState U) (offset : Nat) (request : PageRequest state.tree.generation) :
    Except SnapshotError SnapshotPage :=
  state.page offset request.limit request.maxTokens request.expectedGeneration

/-- A page is a piece of the list from the offset on, and names the offset behind it. -/
theorem page_spec {state : PageState U}
    (hjson : ∀ node ∈ state.tree.nodes, ∃ text, NodeJson.toString node = some text)
    {offset : Nat} (hoffset : offset ≤ state.tree.nodes.length)
    (request : PageRequest state.tree.generation) :
    ∃ page n, state.ask offset request = .ok page ∧ page.Within request ∧
      page.nodes = (state.tree.nodes.drop offset).take n ∧
      (offset < state.tree.nodes.length → 0 < n) ∧ offset + n ≤ state.tree.nodes.length ∧
      page.nextOffset =
        if offset + n < state.tree.nodes.length then some (offset + n) else none := by
  have hcurrent : request.expectedGeneration.any (· ≠ state.tree.generation) = false := by
    cases hexpected : request.expectedGeneration with
    | none => rfl
    | some expected => simp [request.current expected hexpected]
  have hwindow : ∀ node ∈ (state.tree.nodes.drop offset).take (max request.limit 1),
      ∃ text, NodeJson.toString node = some text := by
    intro node hnode
    exact hjson node (List.mem_of_mem_drop (List.mem_of_mem_take hnode))
  have hempty : FitsIn (request.maxTokens.map (saturatingMulUsize · 4)) [] :=
    fun limit _ => .inl (Nat.zero_le limit)
  obtain ⟨n, hn, hpos, hfits, hcollect⟩ := collect_spec hwindow hempty
  rw [List.length_take, List.length_drop] at hn
  have htake : (state.tree.nodes.drop offset).take n =
      ((state.tree.nodes.drop offset).take (max request.limit 1)).take n := by
    rw [List.take_take, Nat.min_eq_left (by omega)]
  have hlength : ((state.tree.nodes.drop offset).take n).length = n := by
    rw [List.length_take, List.length_drop]
    omega
  rw [List.nil_append, ← htake] at hfits hcollect
  have hzero : serializedSize ([] : List AgentNode) = 0 := rfl
  rw [hzero] at hcollect
  simp only [ask, page, hcurrent, Nat.min_eq_left hoffset, hcollect, hlength]
  have hend : offset + n ≤ state.tree.nodes.length := by omega
  refine ⟨_, n, rfl, ⟨?_, ?_⟩, rfl, ?_, hend, ?_⟩
  · show ((state.tree.nodes.drop offset).take n).length ≤ _
    omega
  · intro tokens htokens
    have hlimit : request.maxTokens.map (saturatingMulUsize · 4) = some (saturatingMulUsize tokens 4) := by
      rw [htokens, Option.map_some]
    rcases hfits _ hlimit with hsize | hsingle
    · have hbytes : saturatingMulUsize tokens 4 ≤ tokens * 4 := Nat.min_le_left _ _
      have hbudget : serializedSize ((state.tree.nodes.drop offset).take n) ≤ 4 * tokens := by
        omega
      refine .inl ⟨hbudget, ?_⟩
      show serializedSize _ / 4 + (if serializedSize _ % 4 ≠ 0 then 1 else 0) ≤ tokens
      split_ifs <;> omega
    · exact .inr hsingle
  · intro hmore
    refine hpos rfl ?_
    rw [← List.length_pos_iff, List.length_take, List.length_drop]
    omega
  · show (if min (offset + n) _ < _ then _ else _) = _
    rw [Nat.min_eq_left hend]

/-- The pages that a client gets who follows `next_offset`; no pages if a call fails, or if the fuel
runs out before the last page. -/
def follow (state : PageState U) (requests : Nat → PageRequest state.tree.generation) :
    Nat → Nat → Nat → Option (List SnapshotPage)
  | 0, _, _ => none
  | fuel + 1, call, offset =>
      match state.ask offset (requests call) with
      | .error _ => none
      | .ok page =>
          match page.nextOffset with
          | none => some [page]
          | some next => (state.follow requests fuel (call + 1) next).map (page :: ·)

/-- Following the cursors is a case of the general loop. -/
theorem follow_eq {state : PageState U} (requests : Nat → PageRequest state.tree.generation)
    (fuel call offset : Nat) :
    state.follow requests fuel call offset =
      Pages.follow (fun call offset => (state.ask offset (requests call)).toOption)
        SnapshotPage.nextOffset fuel call offset := by
  induction fuel generalizing call offset with
  | zero => rfl
  | succ fuel ih =>
      simp only [follow, Pages.follow]
      cases state.ask offset (requests call) with
      | error error => rfl
      | ok page =>
          simp only [Except.toOption]
          cases page.nextOffset with
          | none => rfl
          | some next => exact congrArg (Option.map (page :: ·)) (ih (call + 1) next)

/-- Following `next_offset` from the start ends, and its pages list the nodes of the tree, whatever
limit and budget each call sets. -/
theorem pages_cover (state : PageState U)
    (hjson : ∀ node ∈ state.tree.nodes, ∃ text, NodeJson.toString node = some text)
    (requests : Nat → PageRequest state.tree.generation) :
    ∃ pages, state.follow requests (state.tree.nodes.length + 1) 0 0 = some pages ∧
      (pages.map SnapshotPage.nodes).flatten = state.tree.nodes ∧
      ∀ (call : Nat) (page : SnapshotPage), pages[call]? = some page →
        page.Within (requests call) := by
  have hask : ∀ call offset, offset ≤ state.tree.nodes.length →
      ∃ page, (state.ask offset (requests call)).toOption = some page ∧
        Pages.Cuts SnapshotPage.nodes SnapshotPage.nextOffset state.tree.nodes offset page ∧
        page.Within (requests call) := by
    intro call offset hoffset
    obtain ⟨page, n, hpage, hwithin, hnodes, hpos, hend, hnext⟩ :=
      page_spec hjson hoffset (requests call)
    exact ⟨page, by rw [hpage]; rfl, ⟨n, hnodes, hpos, hend, hnext⟩, hwithin⟩
  obtain ⟨pages, hpages, hflatten, hwithin⟩ :=
    Pages.follow_spec (Q := fun call (page : SnapshotPage) => page.Within (requests call)) hask 0
      (Nat.zero_le _) (Nat.lt_succ_self _)
  refine ⟨pages, (follow_eq requests _ 0 0).trans hpages, hflatten, ?_⟩
  intro call page hpage
  have h := hwithin call page hpage
  rwa [Nat.zero_add] at h

end PageState

end Calls

section Plain

open JsonPrint (quote object array orNull)

/-- The text of a visible and enabled text node with a name, and nothing else. -/
@[reducible] def NodeJson.plain : NodeJson where
  toString node := some (object [("id", quote node.id), ("origin", "null"),
    ("identity_key", "null"), ("structural_role", quote "Text"), ("semantic_role", "null"),
    ("application_type", "null"), ("name", orNull (node.name.map quote)), ("value", "null"),
    ("description", "null"),
    ("state", object [("visible", "true"), ("enabled", "true"), ("focused", "false"),
      ("selected", "false"), ("expanded", "null")]),
    ("geometry", "null"), ("relationships", "[]"), ("actions", "[]"),
    ("children", array (node.children.map quote)), ("provenance", "[]"), ("confidence", "1.0"),
    ("generation", ofNat node.generation.toNat)])

/-- A page with two texts. -/
def twoTexts : PageState Unit where
  url := ()
  tree := ⟨"a", [.plain "a" .text (some "left") [], .plain "b" .text (some "right") []], 1, false⟩
  generation := 1

/-- A client that asks for more and more nodes, and never has tokens for one. -/
def growing (call : Nat) : PageRequest 1 where
  limit := call
  maxTokens := some 1
  expectedGeneration := some 1
  current := by simp

theorem two_texts_paged :
    let _ := NodeJson.plain
    ∃ pages, twoTexts.follow growing 3 0 0 = some pages ∧
      (pages.map SnapshotPage.nodes).flatten = twoTexts.tree.nodes ∧
      ∀ (call : Nat) (page : SnapshotPage), pages[call]? = some page →
        page.Within (growing call) := by
  intro json
  exact twoTexts.pages_cover (fun node _ => ⟨_, rfl⟩) growing

end Plain

end BrowsAI.Diff
