import BrowsAI.Library.Boundaries
import BrowsAI.PageText.NodeText

/-!
# Truncated labels

What `truncate` makes of a text, and of a text that it made before: `actionable_body_text` cuts the
label of a widget once, or twice when `node_text` has cut it already. Read `is_cut_iff` first.
-/

namespace BrowsAI.PageText

open Utf8 AgentTree

/-! ## One truncation -/

/-- The result is the text, or its longest prefix that fits with one mark behind it. -/
inductive IsCut (s : Text) (max : Nat) : Text → Prop
  | whole : len s ≤ max → IsCut s max s
  | cut {p : Text} : max < len s → LongestWithin s max p → IsCut s max (p ++ "...")

/-- The greatest boundary that is not too far. -/
theorem floor_boundary_spec (s : Text) (max : Nat) :
    isCharBoundary s (floorBoundary s max) = true ∧ floorBoundary s max ≤ max ∧
      ∀ k, isCharBoundary s k = true → k ≤ max → k ≤ floorBoundary s max := by
  induction max with
  | zero => exact ⟨by cases s <;> rfl, le_rfl, fun k _ hk => hk⟩
  | succ max ih =>
      rw [floorBoundary]
      split_ifs with hboundary
      · exact ⟨hboundary, le_rfl, fun _ _ hk => hk⟩
      · refine ⟨ih.1, Nat.le_succ_of_le ih.2.1, fun k hk hle => ?_⟩
        have hne : k ≠ max + 1 := by
          rintro rfl
          exact hboundary hk
        exact ih.2.2 k hk (by omega)

theorem longest_within_floor (s : Text) (max : Nat) :
    LongestWithin s max (takeBytes (floorBoundary s max) s) := by
  obtain ⟨hboundary, hle, hlast⟩ := floor_boundary_spec s max
  obtain ⟨p, hp, hlen⟩ := is_char_boundary_iff.mp hboundary
  have htake : takeBytes (floorBoundary s max) s = p := by
    obtain ⟨rest, rfl⟩ := hp
    rw [← hlen, takeBytes_append]
  rw [htake]
  refine ⟨hp, hlen ▸ hle, fun q hq hfits => ?_⟩
  exact hlen ▸ hlast (len q) (is_char_boundary_iff.mpr ⟨q, hq, rfl⟩) hfits

theorem truncate_is_cut (s : Text) (max : Nat) : IsCut s max (truncate s max) := by
  rw [truncate]
  split_ifs with hfits
  · exact .whole hfits
  · exact .cut (Nat.lt_of_not_le hfits) (longest_within_floor s max)

/-- There is one cut. -/
theorem IsCut.unique {s t u : Text} {max : Nat} (ht : IsCut s max t) (hu : IsCut s max u) :
    t = u := by
  cases ht with
  | whole hfits =>
      cases hu with
      | whole => rfl
      | cut hlong => exact absurd hfits (Nat.not_le_of_lt hlong)
  | cut hlong hp =>
      cases hu with
      | whole hfits => exact absurd hfits (Nat.not_le_of_lt hlong)
      | cut _ hq => rw [hp.unique hq]

/-! ## Two truncations -/

/-- The offset is a boundary of the text, or neither of the two before it is. -/
def CutsClean (s : Text) (max : Nat) : Prop :=
  isCharBoundary s max = true ∨
    isCharBoundary s (max - 1) = false ∧ isCharBoundary s (max - 2) = false

/-- A text that is too long and has its mark is cut within the mark, if the mark does not fit. -/
theorem truncate_marked {p : Text} {max : Nat} (hp : len p ≤ max) (hmark : max < len p + 3) :
    truncate (p ++ "...") max = p ++ List.replicate (max - len p) '.' ++ "..." := by
  obtain ⟨k, hk⟩ : ∃ k, max = len p + k := ⟨max - len p, by omega⟩
  subst hk
  have hdots : ∀ j, len (List.replicate j '.') = j := by
    intro j
    induction j with
    | zero => rfl
    | succ j ih =>
        rw [List.replicate_succ, len_cons, ih, Nat.add_comm]
        rfl
  have hprefix : p ++ List.replicate k '.' <+: p ++ ("..." : Text) := by
    refine (List.prefix_append_right_inj p).mpr ⟨List.replicate (3 - k) '.', ?_⟩
    rw [List.replicate_append_replicate, show k + (3 - k) = 3 by omega]
    rfl
  have hlong : len p + k < len (p ++ ("..." : Text)) := by
    rw [len_append]
    exact hmark
  have hlongest : LongestWithin (p ++ ("..." : Text)) (len p + k) (p ++ List.replicate k '.') := by
    have h := longest_within_of_len hprefix
    rwa [len_append, hdots] at h
  rw [Nat.add_sub_cancel_left]
  exact (truncate_is_cut _ _).unique (.cut hlong hlongest)

/-- A second truncation changes nothing where the mark fits too, or where the first one took all
the bytes it could. -/
theorem truncate_twice_iff {s p : Text} {max : Nat} (hp : LongestWithin s max p) :
    truncate (p ++ "...") max = p ++ "..." ↔ len p = max ∨ len p + 3 ≤ max := by
  have hle := hp.within
  by_cases hmark : len p + 3 ≤ max
  · have hfits : len (p ++ ("..." : Text)) ≤ max := by
      rw [len_append]
      exact hmark
    exact iff_of_true (by rw [truncate, if_pos hfits]) (.inr hmark)
  · rw [truncate_marked hle (by omega), List.append_assoc, List.append_cancel_left_eq]
    constructor
    · intro heq
      have hlength := congrArg List.length heq
      rw [List.length_append, List.length_replicate] at hlength
      omega
    · rintro (heq | hfits)
      · rw [heq, Nat.sub_self]
        rfl
      · exact absurd hfits hmark

/-- The dots have room exactly if the cut is clean. -/
theorem cuts_clean_iff {s p : Text} {max : Nat} (hp : LongestWithin s max p) :
    len p = max ∨ len p + 3 ≤ max ↔ CutsClean s max := by
  have hle := hp.within
  have hboundary : isCharBoundary s (len p) = true := is_char_boundary_iff.mpr ⟨p, hp.start, rfl⟩
  have hlast : ∀ j, len p < j → j ≤ max → isCharBoundary s j = false := by
    intro j hlt hj
    by_contra hne
    obtain ⟨q, hq, hlen⟩ := is_char_boundary_iff.mp (Bool.eq_true_of_not_eq_false hne)
    have := hp.longest q hq (by omega)
    omega
  rw [CutsClean]
  constructor
  · rintro (heq | hfits)
    · exact .inl (heq ▸ hboundary)
    · exact .inr ⟨hlast _ (by omega) (by omega), hlast _ (by omega) (by omega)⟩
  · rintro (hmax | ⟨hone, htwo⟩)
    · refine .inl (Nat.le_antisymm hle (Nat.le_of_not_lt fun hlt => ?_))
      rw [hlast max hlt le_rfl] at hmax
      cases hmax
    · have hne_one : len p ≠ max - 1 := by
        intro heq
        rw [← heq, hboundary] at hone
        cases hone
      have hne_two : len p ≠ max - 2 := by
        intro heq
        rw [← heq, hboundary] at htwo
        cases htwo
      omega

/-- A text that is truncated twice is cut as it should be, exactly if it fits or its cut is
clean. -/
theorem is_cut_truncate_twice_iff (s : Text) (max : Nat) :
    IsCut s max (truncate (truncate s max) max) ↔ len s ≤ max ∨ CutsClean s max := by
  by_cases hfits : len s ≤ max
  · have hwhole : truncate s max = s := if_pos hfits
    rw [hwhole, hwhole]
    exact iff_of_true (.whole hfits) (.inl hfits)
  · have hlong := Nat.lt_of_not_le hfits
    have hp := longest_within_floor s max
    have hfirst : truncate s max = takeBytes (floorBoundary s max) s ++ "..." := if_neg hfits
    rw [hfirst, or_iff_right hfits, ← cuts_clean_iff hp, ← truncate_twice_iff hp]
    constructor
    · exact fun hcut => hcut.unique (.cut hlong hp)
    · intro heq
      rw [heq]
      exact .cut hlong hp

/-! ## The bodies of widgets -/

section Labels

variable [F64Display]

/-- The text of a block, before it is cut. -/
def nodeLabel (node : AgentNode) : Text :=
  match node.value with
  | some (.text s) => s
  | some (.url s) => s
  | some (.secretReference _) => "(secret)"
  | some (.number n) => F64Display.display n
  | some (.boolean b) => if b then "true" else "false"
  | none => node.name.getD []

/-- The body of a widget, before it is cut. -/
def fullLabel (node : AgentNode) : MarkdownTag → Text
  | .link | .image => node.name.getD []
  | .textbox =>
      match node.value with
      | some (.text s) => s
      | some (.number n) => F64Display.display n
      | _ => node.name.getD []
  | .checkbox | .radio =>
      match node.value with
      | some (.text s) => if s = [] then node.name.getD [] else s
      | _ => node.name.getD []
  | _ => nodeLabel node

/-- The body of the widget is read from the node, and not from the text of its block. -/
def MarkdownTag.hasOwnBody : MarkdownTag → Bool
  | .link | .image | .textbox | .checkbox | .radio => true
  | _ => false

theorem body_of_has_own_body (node : AgentNode) {tag : MarkdownTag} (opts : MarkdownOptions)
    (h : tag.hasOwnBody = true) :
    actionableBodyText node tag opts = truncate (fullLabel node tag) opts.maxTextBytes := by
  cases tag with
  | link | image | textbox | checkbox | radio => rfl
  | _ => cases h

/-- The label of a block is cut twice. -/
theorem body_of_block (node : AgentNode) {tag : MarkdownTag} (opts : MarkdownOptions)
    (h : tag.hasOwnBody = false) :
    actionableBodyText node tag opts =
      truncate (truncate (fullLabel node tag) opts.maxTextBytes) opts.maxTextBytes := by
  cases tag with
  | link | image | textbox | checkbox | radio => cases h
  | _ => rfl

/-- The body of a widget is one truncation of its label, exactly if the widget has a body of its
own, or the label fits, or its cut is clean. -/
theorem is_cut_iff (node : AgentNode) (tag : MarkdownTag) (opts : MarkdownOptions) :
    IsCut (fullLabel node tag) opts.maxTextBytes (actionableBodyText node tag opts) ↔
      tag.hasOwnBody = true ∨ len (fullLabel node tag) ≤ opts.maxTextBytes ∨
        CutsClean (fullLabel node tag) opts.maxTextBytes := by
  cases htag : tag.hasOwnBody with
  | true =>
      rw [body_of_has_own_body node opts htag]
      exact iff_of_true (truncate_is_cut _ _) (.inl rfl)
  | false =>
      rw [body_of_block node opts htag, is_cut_truncate_twice_iff]
      simp

end Labels

/-- A button with a label of two bytes, of which one may be shown. -/
theorem button_cut_twice :
    ¬ ∀ (_ : F64Display) (node : AgentNode) (tag : MarkdownTag) (opts : MarkdownOptions),
      IsCut (fullLabel node tag) opts.maxTextBytes (actionableBodyText node tag opts) := by
  intro h
  have hcut := h .ofWhole (.plain "save" .button (some "é") []) .button
    { (default : MarkdownOptions) with maxTextBytes := 1 }
  have heq : (truncate (truncate "é" 1) 1 : Text) = truncate "é" 1 :=
    hcut.unique (truncate_is_cut _ _)
  exact absurd heq (by decide)

end BrowsAI.PageText
