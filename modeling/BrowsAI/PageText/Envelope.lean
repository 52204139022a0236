import BrowsAI.Library.Occurs
import BrowsAI.PageText.Blank

/-!
# The envelope holds

Unless the options ask for raw text, the printed page stands inside an envelope that ends with
`</page-content>`. Page text is copied into the page along a dozen paths, some of which escape it.
`Shows` lists the texts that are copied without escaping. No occurrence of the closing marker can be
put together from several of them, since each is followed by a character that is not in the marker:
`Guarded` for the pieces of a frame, `Closed` for whole fragments. So the envelope holds exactly
when no shown text contains the marker, `envelope_closed_iff`.
-/

namespace BrowsAI.PageText

open Utf8 AgentTree Fragment Relation Occurs

/-! ## The closing marker -/

theorem suffix_ne_nil : envelopeSuffix ≠ [] := by decide

/-- The characters that the emitter puts behind copied text. -/
def isGuard (c : Char) : Bool :=
  c == '\n' || c == ' ' || c == '(' || c == ')' || c == '[' || c == ']' || c == ':' || c == '|'

theorem guard_not_mem {c : Char} (h : isGuard c) : c ∉ envelopeSuffix := by
  simp only [isGuard, Bool.or_eq_true, beq_iff_eq] at h
  rcases h with ((((((rfl | rfl) | rfl) | rfl) | rfl) | rfl) | rfl) | rfl <;> decide

theorem space_not_mem {c : Char} (h : isWhitespace c) : c ∉ envelopeSuffix := by
  have hblack : ∀ d ∈ envelopeSuffix, ¬ isWhitespace d := forall_mem_of_all (by decide)
  exact fun hc => hblack c hc h

/-- A text without `<` in front of another makes no difference. -/
theorem suffix_infix_append {s t : Text} (hs : '<' ∉ s) :
    envelopeSuffix <:+: s ++ t ↔ envelopeSuffix <:+: t := by
  have hsuffix : envelopeSuffix = '<' :: envelopeSuffix.tail := by decide
  rw [hsuffix]
  exact infix_headless_append hs

theorem not_suffix_infix {s : Text} (hs : '<' ∉ s) : ¬ envelopeSuffix <:+: s := by
  rw [← List.append_nil s, suffix_infix_append hs]
  exact fun h => suffix_ne_nil (List.infix_nil.mp h)

theorem suffix_infix_collapse {s : Text} :
    envelopeSuffix <:+: collapse s ↔ envelopeSuffix <:+: s := by
  have hspace : ∀ d ∈ (" " : Text), d ∉ envelopeSuffix := forall_mem_of_all (by decide)
  rw [collapse, infix_trim (fun d hd => space_not_mem hd) suffix_ne_nil,
    infix_replace (by decide) hspace (by decide) suffix_ne_nil]

theorem suffix_infix_pipes {s : Text} :
    envelopeSuffix <:+: escapePipes s ↔ envelopeSuffix <:+: s := by
  have hpipe : ∀ d ∈ ("\\|" : Text), d ∉ envelopeSuffix := forall_mem_of_all (by decide)
  rw [escapePipes, infix_replace (by decide) hpipe (by decide) suffix_ne_nil]

theorem lt_not_mem_escape (t : Text) : '<' ∉ escapeAttrInline t := by
  intro hmem
  obtain ⟨c, -, hc⟩ := List.mem_flatMap.mp hmem
  unfold escapeChar at hc
  split at hc
  case h_5 hlt _ => exact hlt (List.mem_singleton.mp hc).symm
  all_goals exact absurd hc (by decide)

/-! ## Guarded pieces -/

/-- The pieces begin with a guard. -/
def StartsGuarded : List Piece → Prop
  | .fixed (c :: _) :: _ => isGuard c
  | _ => False

/-- Every copied piece is followed by a guard, and no fixed piece has a `<`. -/
def Guarded : List Piece → Prop
  | [] => True
  | .fixed u :: rest => '<' ∉ u ∧ Guarded rest
  | .escaped _ :: rest => Guarded rest
  | .copied _ :: rest => StartsGuarded rest ∧ Guarded rest

theorem StartsGuarded.append {ps : List Piece} (h : StartsGuarded ps) (qs : List Piece) :
    StartsGuarded (ps ++ qs) := by
  unfold StartsGuarded at h
  split at h
  · exact h
  · exact h.elim

theorem Guarded.append {ps qs : List Piece} (hp : Guarded ps) (hq : Guarded qs) :
    Guarded (ps ++ qs) := by
  induction ps with
  | nil => exact hq
  | cons p ps ih =>
      cases p with
      | fixed u => exact ⟨hp.1, ih hp.2⟩
      | escaped t => exact ih hp
      | copied t => exact ⟨hp.1.append qs, ih hp.2⟩

theorem StartsGuarded.begins {ps : List Piece} (h : StartsGuarded ps) (s : Text) :
    BeginsInert envelopeSuffix (textOf ps ++ s) := by
  unfold StartsGuarded at h
  split at h
  · exact ⟨_, _, rfl, guard_not_mem h⟩
  · exact h.elim

/-- An occurrence of the marker behind or in guarded pieces is behind them or in a copied piece. -/
theorem Guarded.infix_append {ps : List Piece} (h : Guarded ps) (s : Text) :
    envelopeSuffix <:+: textOf ps ++ s ↔
      (∃ t, .copied t ∈ ps ∧ envelopeSuffix <:+: t) ∨ envelopeSuffix <:+: s := by
  induction ps with
  | nil => simp
  | cons p ps ih =>
      rw [textOf_cons, List.append_assoc]
      cases p with
      | fixed u =>
          rw [Piece.text, suffix_infix_append h.1, ih h.2]
          simp
      | escaped t =>
          rw [Piece.text, suffix_infix_append (lt_not_mem_escape t), ih h]
          simp
      | copied t =>
          rw [Piece.text, infix_append_of_begins (h.1.begins s) suffix_ne_nil, ih h.2]
          simp [or_assoc]

theorem Guarded.closed {ps : List Piece} (h : Guarded ps) : Closed envelopeSuffix (textOf ps) := by
  intro s
  have hself := h.infix_append []
  rw [List.append_nil] at hself
  rw [h.infix_append, hself]
  simp [suffix_ne_nil]

theorem guarded_attrs {attrs : List Attribute} (h : ∀ a ∈ attrs, '<' ∉ a.key) :
    Guarded (attrs.flatMap Attribute.pieces) := by
  induction attrs with
  | nil => trivial
  | cons a attrs ih =>
      have hkey : '<' ∉ (" " ++ a.key ++ "=\"" : Text) := by simp [h a (by simp)]
      exact ⟨hkey, by simp, ih fun b hb => h b (by simp [hb])⟩

theorem guarded_tag_open {tag close : Text} {attrs : List Attribute} (htag : '<' ∉ tag)
    (hclose : '<' ∉ close) (h : ∀ a ∈ attrs, '<' ∉ a.key) : Guarded (tagOpen tag attrs close) := by
  have hopen : '<' ∉ ("[" ++ tag : Text) := by simp [htag]
  exact ⟨hopen, (guarded_attrs h).append ⟨hclose, trivial⟩⟩

/-! ## The frames are guarded -/

/-- None of the fixed texts of the frame closes the envelope. -/
def Frame.Guarded : Frame → Prop
  | .around _ before after trail =>
      PageText.Guarded before ∧ PageText.Guarded after ∧ PageText.Guarded trail
  | _ => True

theorem guarded_print {pieces : List Piece} (h : Guarded pieces) :
    (Frame.print pieces).Guarded := ⟨h, trivial, trivial⟩

theorem key_of_mem_attr_of {key : Text} {value : Option Text} {a : Attribute}
    (h : a ∈ attrOf key value) : a.key = key := by
  obtain ⟨v, -, rfl⟩ := List.mem_map.mp h
  rfl

theorem key_of_mem_flag {condition : Bool} {key : Text} {a : Attribute}
    (h : a ∈ flag condition key) : a.key = key := by
  unfold flag at h
  split_ifs at h
  · rw [List.mem_singleton.mp h]
  · simp at h

/-- The keys of the attributes are fixed. -/
theorem key_of_mem_extra_attrs {node : AgentNode} {tag : MarkdownTag} {a : Attribute}
    (h : a ∈ extraAttrs node tag) :
    a.key ∈ (["name", "href", "disabled", "placeholder", "checked", "src", "provider"] :
      List Text) := by
  simp only [extraAttrs, List.mem_append] at h
  rcases h with (h | h) | h
  · split_ifs at h
    · simp at h
    · simp [key_of_mem_attr_of h]
  · cases tag <;> simp only [List.mem_append, List.not_mem_nil] at h
    case link | image => simp [key_of_mem_attr_of h]
    case button => simp [key_of_mem_flag h]
    case textbox =>
      rcases h with h | h
      · simp [key_of_mem_attr_of h]
      · simp [key_of_mem_flag h]
    case checkbox | radio => rcases h with h | h <;> simp [key_of_mem_flag h]
  · split_ifs at h
    · simp [List.mem_singleton.mp h]
    · simp at h

theorem lt_not_mem_key {id : AgentNodeId} {node : AgentNode} {tag : MarkdownTag} {a : Attribute}
    (h : a ∈ (⟨"id", id⟩ :: extraAttrs node tag : List Attribute)) : '<' ∉ a.key := by
  rcases List.mem_cons.mp h with rfl | h
  · show '<' ∉ ("id" : Text)
    decide
  · have hkeys : ∀ key ∈ (["name", "href", "disabled", "placeholder", "checked", "src",
        "provider"] : List Text), '<' ∉ key := by decide
    exact hkeys _ (key_of_mem_extra_attrs h)

/-- The keys of a tag with a value and a flag. -/
theorem lt_not_mem_valued_key {id : AgentNodeId} {key mark : Text} {value : Option Text}
    {condition : Bool} {a : Attribute} (hkey : '<' ∉ key) (hmark : '<' ∉ mark)
    (h : a ∈ ⟨"id", id⟩ :: attrOf key value ++ flag condition mark) : '<' ∉ a.key := by
  rcases List.mem_append.mp h with h | h
  · rcases List.mem_cons.mp h with rfl | h
    · show '<' ∉ ("id" : Text)
      decide
    · exact key_of_mem_attr_of h ▸ hkey
  · exact key_of_mem_flag h ▸ hmark

theorem lt_not_mem_tag (tag : MarkdownTag) : '<' ∉ tag.asStr := by
  cases tag <;> decide

theorem lt_not_mem_of_nat (n : Nat) : '<' ∉ ofNat n := not_mem_of_nat (by decide) n

section Frames

variable [F64Display] {tree : AgentRenderTree} {opts : MarkdownOptions}

omit [F64Display] in
theorem page_guarded (node : AgentNode) : (pageFrame opts node).Guarded := by
  unfold pageFrame
  split
  · split_ifs <;> exact guarded_print (by simp [Guarded, StartsGuarded, isGuard])
  · exact guarded_print trivial

theorem heading_guarded (node : AgentNode) : (headingFrame opts node).Guarded := by
  simp only [headingFrame]
  split_ifs
  · trivial
  · exact guarded_print (by simp [Guarded, StartsGuarded, isGuard])
  · exact guarded_print (by simp [Guarded, lt_not_mem_of_nat])

theorem text_block_guarded (node : AgentNode) : (textBlockFrame opts node).Guarded := by
  simp only [textBlockFrame]
  split_ifs
  · trivial
  · exact guarded_print (by simp [Guarded, StartsGuarded, isGuard])

/-- Those of a plain actionable do not. -/
theorem actionable_plain_guarded (node : AgentNode) (tag : MarkdownTag) :
    (actionablePlainFrame opts node tag).Guarded := by
  unfold actionablePlainFrame
  cases tag with
  | link | image =>
      simp only
      split_ifs
      · exact guarded_print trivial
      · exact guarded_print (by simp [Guarded, StartsGuarded, isGuard])
  | button =>
      refine guarded_print ?_
      split_ifs <;> simp [Guarded, StartsGuarded, isGuard]
  | textbox =>
      simp only
      cases node.name <;> split_ifs <;>
        exact guarded_print (by simp [Guarded, StartsGuarded, isGuard])
  | checkbox | radio =>
      refine guarded_print ?_
      split_ifs <;> simp [Guarded, StartsGuarded, isGuard]
  | _ => exact guarded_print (by simp [Guarded, StartsGuarded, isGuard])

/-- Nor do those of a tag. -/
theorem actionable_guarded (node : AgentNode) (tag : MarkdownTag) :
    (actionableFrame opts node tag).Guarded := by
  by_cases hplain : isPlain opts
  · simpa only [actionableFrame, hplain, if_true] using actionable_plain_guarded node tag
  simp only [actionableFrame, hplain, if_false, Bool.false_eq_true]
  cases resolvedUrl node tag with
  | some url =>
      refine ⟨?_, trivial, by simp [Guarded]⟩
      split_ifs <;> simp [Guarded, StartsGuarded, isGuard]
  | none =>
      have hkeys : ∀ a ∈ (⟨"id", node.id⟩ :: extraAttrs node tag : List Attribute), '<' ∉ a.key :=
        fun a ha => lt_not_mem_key ha
      have hopen : Guarded (tagOpen tag.asStr (⟨"id", node.id⟩ :: extraAttrs node tag) "]") :=
        guarded_tag_open (lt_not_mem_tag tag) (by decide) hkeys
      refine ⟨?_, trivial, by simp [Guarded]⟩
      rw [List.append_assoc]
      refine hopen.append ?_
      split_ifs <;> simp [Guarded, StartsGuarded, isGuard, lt_not_mem_tag]

theorem option_guarded (node : AgentNode) : (optionFrame opts node).Guarded := by
  refine ⟨⟨by decide, (guarded_tag_open (by decide) (by decide) ?_).append ?_⟩, trivial,
    by simp [Guarded]⟩
  · exact fun a => lt_not_mem_valued_key (by decide) (by decide)
  · simp [Guarded, StartsGuarded, isGuard]

theorem select_guarded (node : AgentNode) : (selectFrame tree opts node).Guarded := by
  by_cases hplain : isPlain opts
  · simp only [selectFrame, hplain, if_true, selectPlainFrame]
    split <;> cases node.name <;>
      exact guarded_print (by simp [Guarded, StartsGuarded, isGuard, lt_not_mem_of_nat])
  · simp only [selectFrame, hplain, if_false, Bool.false_eq_true]
    refine ⟨guarded_tag_open (by decide) (by decide) ?_, by simp [Guarded], by simp [Guarded]⟩
    exact fun a => lt_not_mem_valued_key (by decide) (by decide)

omit [F64Display] in
theorem box_guarded (node : AgentNode) (tag : MarkdownTag) : (boxFrame node tag).Guarded := by
  refine ⟨guarded_tag_open (lt_not_mem_tag tag) (by decide) fun a => lt_not_mem_key, ?_, ?_⟩
  · simp [Guarded, lt_not_mem_tag]
  · simp [Guarded]

omit [F64Display] in
theorem challenge_guarded (node : AgentNode) : Guarded (challengePieces node) := by
  unfold challengePieces
  split_ifs
  · cases node.description <;> simp [Guarded, StartsGuarded, isGuard]
  · trivial

omit [F64Display] in
theorem table_guarded (node : AgentNode) : (tableFrame tree opts node).Guarded := by
  unfold tableFrame
  split_ifs
  · exact guarded_print trivial
  · refine guarded_print (guarded_tag_open (by decide) (by decide) ?_)
    intro a ha
    rw [List.mem_singleton.mp ha]
    show '<' ∉ ("id" : Text)
    decide
  · exact ⟨trivial, trivial, by simp [Guarded]⟩

omit [F64Display] in
theorem dialog_guarded (node : AgentNode) : (dialogFrame opts node).Guarded := by
  unfold dialogFrame
  split_ifs
  · refine guarded_print ((challenge_guarded node).append ?_)
    cases node.name <;> simp [Guarded, StartsGuarded, isGuard]
  · exact box_guarded node .dialog

omit [F64Display] in
theorem video_guarded (node : AgentNode) : (videoFrame opts node).Guarded := by
  simp only [videoFrame]
  split_ifs
  · exact guarded_print (by simp [Guarded, StartsGuarded, isGuard])
  · refine ⟨(guarded_tag_open (by decide) (by decide) ?_).append ?_, trivial, trivial⟩
    · intro a ha
      rw [List.mem_singleton.mp ha]
      show '<' ∉ ("id" : Text)
      decide
    · simp [Guarded, StartsGuarded, isGuard]

/-- Nor those of a block. -/
theorem block_guarded (ctx : Context) (node : AgentNode) :
    (blockFrame tree opts ctx node).Guarded := by
  unfold blockFrame
  cases node.structuralRole with
  | page => exact page_guarded node
  | heading => exact heading_guarded node
  | paragraph | text => exact text_block_guarded node
  | link | button | textbox | checkbox | radio | image => exact actionable_guarded node _
  | select => exact select_guarded node
  | listItem => trivial
  | table => exact table_guarded node
  | region | menu | tab | frame | shadowRoot =>
      simp only [regionFrame]
      split_ifs
      · exact guarded_print (challenge_guarded node)
      · exact box_guarded node .region
  | dialog => exact dialog_guarded node
  | canvas => exact guarded_print (by simp [Guarded, StartsGuarded, isGuard])
  | video => exact video_guarded node
  | list | row | cell | form | unknown => exact guarded_print trivial

/-- Nor those of any visit. -/
theorem frame_guarded (v : Visit) : (frame tree opts v).Guarded := by
  cases v with
  | skipped | missing => trivial
  | node place ctx node =>
      cases place with
      | page => exact page_guarded node
      | block => exact block_guarded ctx node
      | option => exact option_guarded node
      | row header =>
          simp only [frame, rowFrame]
          split_ifs <;> trivial
      | cell first => trivial

end Frames

/-! ## Occurrences in a fragment -/

section Leaks

variable [F64Display] (tree : AgentRenderTree) (opts : MarkdownOptions)

/-- `Shows v t`: the visit copies the text `t` of its node without escaping it. -/
def Shows (v : Visit) (t : Text) : Prop :=
  (∃ mark before after trail, frame tree opts v = .around mark before after trail ∧
    .copied t ∈ before ++ after ++ trail) ∨ FallsBack tree opts v t

/-- The visit, or one below it, shows a text with the closing marker. -/
def Leaks (v : Visit) : Prop :=
  ∃ w t, Reaches tree opts v w ∧ Shows tree opts w t ∧ envelopeSuffix <:+: t

variable {tree opts}

/-- The end of the envelope is shown by a visit or below it. -/
theorem leaks_iff {v : Visit} : Leaks tree opts v ↔
    (∃ t, Shows tree opts v t ∧ envelopeSuffix <:+: t) ∨
      ∃ u ∈ next tree opts v, Leaks tree opts u := by
  constructor
  · rintro ⟨w, t, hw, ht⟩
    rcases hw.cases_head with rfl | ⟨u, hu, huw⟩
    · exact .inl ⟨t, ht⟩
    · exact .inr ⟨u, hu, w, t, huw, ht⟩
  · rintro (⟨t, ht⟩ | ⟨u, hu, w, t, huw, ht⟩)
    · exact ⟨v, t, .refl, ht⟩
    · exact ⟨w, t, .head hu huw, ht⟩

/-- What is known of the fragment of a visit. -/
structure Sealed (tree : AgentRenderTree) (opts : MarkdownOptions) (v : Visit) (f : Fragment) :
    Prop where
  leaks : envelopeSuffix <:+: f.text ↔ Leaks tree opts v
  blank : Blank f.text ↔ BlankFrom tree opts v
  /-- Blocks can be followed by anything. -/
  closed : ¬ v.IsCell → Closed envelopeSuffix f.text
  /-- Cells behind another cell begin with their separator. -/
  begins : ∀ fallback, frame tree opts v = .cell " | " fallback →
    BeginsInert envelopeSuffix f.text

omit [F64Display] in
theorem closed_concat {fs : List Fragment} (h : ∀ f ∈ fs, Closed envelopeSuffix f.text) :
    Closed envelopeSuffix (concat fs).text := by
  induction fs with
  | nil => exact .nil suffix_ne_nil
  | cons f fs ih => exact (h f (by simp)).append (ih fun g hg => h g (by simp [hg]))

omit [F64Display] in
theorem infix_concat {fs : List Fragment} (h : ∀ f ∈ fs, Closed envelopeSuffix f.text) :
    envelopeSuffix <:+: (concat fs).text ↔ ∃ f ∈ fs, envelopeSuffix <:+: f.text := by
  induction fs with
  | nil => simp [suffix_ne_nil]
  | cons f fs ih =>
      rw [concat_cons_text, h f (by simp), ih fun g hg => h g (by simp [hg])]
      simp

variable {v : Visit} {fs : List Fragment}

/-- The marker is in the fragments below a visit when a visit below it leaks. -/
theorem leaks_below (hfs : List.Forall₂ (Sealed tree opts) (next tree opts v) fs) :
    (∃ f ∈ fs, envelopeSuffix <:+: f.text) ↔ ∃ u ∈ next tree opts v, Leaks tree opts u := by
  constructor
  · rintro ⟨f, hf, hinfix⟩
    obtain ⟨u, hu, hsealed⟩ := Unfold.exists_of_mem_right hfs hf
    exact ⟨u, hu, hsealed.leaks.mp hinfix⟩
  · rintro ⟨u, hu, hleaks⟩
    obtain ⟨f, hf, hsealed⟩ := Unfold.exists_of_mem_left hfs hu
    exact ⟨f, hf, hsealed.leaks.mpr hleaks⟩

theorem closed_below (hrow : ¬ v.IsRow)
    (hfs : List.Forall₂ (Sealed tree opts) (next tree opts v) fs) :
    ∀ f ∈ fs, Closed envelopeSuffix f.text := by
  intro f hf
  obtain ⟨u, hu, hsealed⟩ := Unfold.exists_of_mem_right hfs hf
  exact hsealed.closed (not_cell_of_next hrow hu)

/-- A frame shows what it copies. -/
theorem shows_around {mark : Option Mark} {before after trail : List Piece}
    (hframe : frame tree opts v = .around mark before after trail) (t : Text) :
    Shows tree opts v t ↔ .copied t ∈ before ++ after ++ trail := by
  constructor
  · rintro (⟨mark', before', after', trail', hframe', ht⟩ | ⟨sep, hframe', -⟩)
    · rw [hframe] at hframe'
      cases hframe'
      exact ht
    · rw [hframe] at hframe'
      cases hframe'
  · exact fun ht => .inl ⟨mark, before, after, trail, hframe, ht⟩

/-- A cell shows its fallback when nothing else is in it. -/
theorem shows_cell {sep : Text} {fallback : Option Text}
    (hframe : frame tree opts v = .cell sep fallback) (t : Text) :
    Shows tree opts v t ↔ fallback = some t ∧ BlankBelow tree opts v := by
  constructor
  · rintro (⟨mark', before', after', trail', hframe', -⟩ | ⟨sep', hframe', hblank⟩)
    · rw [hframe] at hframe'
      cases hframe'
    · rw [hframe] at hframe'
      cases hframe'
      exact ⟨rfl, hblank⟩
  · rintro ⟨rfl, hblank⟩
    exact .inr ⟨sep, hframe, hblank⟩

theorem not_shows {t : Text} (haround : ¬ (frame tree opts v).IsAround)
    (hcell : ∀ sep fallback, frame tree opts v ≠ .cell sep fallback) : ¬ Shows tree opts v t := by
  rintro (⟨mark, before, after, trail, hframe, -⟩ | ⟨sep, hframe, -⟩)
  · exact haround ⟨mark, before, after, trail, hframe⟩
  · exact hcell sep _ hframe

omit [F64Display] in
theorem lt_not_mem_bullet (depth : Nat) : '<' ∉ bullet depth := by
  intro h
  rcases List.mem_append.mp h with h | h
  · obtain ⟨indent, hindent, hlt⟩ := List.mem_flatten.mp h
    rw [List.eq_of_mem_replicate hindent] at hlt
    exact absurd hlt (by decide)
  · exact absurd h (by decide)

theorem guarded_of_frame {mark : Option Mark} {before after trail : List Piece}
    (hframe : frame tree opts v = .around mark before after trail) :
    Guarded before ∧ Guarded after ∧ Guarded trail := by
  have hguarded : (frame tree opts v).Guarded := frame_guarded v
  rwa [hframe] at hguarded

/-- What a row prints around its cells. -/
theorem row_guarded (hrow : v.IsRow) {lead trail : Text}
    (hframe : frame tree opts v = .row lead trail) :
    '<' ∉ lead ∧ '<' ∉ trail ∧ BeginsInert envelopeSuffix trail ∧ ∃ t, trail = t ++ ['\n'] := by
  have hnewline : '\n' ∉ envelopeSuffix := guard_not_mem (by decide)
  have hspace : ' ' ∉ envelopeSuffix := guard_not_mem (by decide)
  obtain ⟨header, ctx, row, rfl⟩ := hrow.exists_node
  simp only [frame, rowFrame] at hframe
  split_ifs at hframe <;> cases hframe
  · exact ⟨by decide, by decide, ⟨_, _, rfl, hnewline⟩, [], rfl⟩
  · refine ⟨by decide, ?_, ⟨_, _, rfl, hspace⟩, _, rfl⟩
    intro h
    simp only [List.mem_append] at h
    rcases h with (h | h) | h
    · exact absurd h (by decide)
    · obtain ⟨rule, hrule, hlt⟩ := List.mem_flatten.mp h
      rw [List.eq_of_mem_replicate hrule] at hlt
      exact absurd hlt (by decide)
    · exact absurd h (by decide)
  · exact ⟨by decide, by decide, ⟨_, _, rfl, hspace⟩, " |", rfl⟩

/-- The cells of a row behind the first begin with their separator. -/
theorem cells_begin (hrow : v.IsRow)
    (hfs : List.Forall₂ (Sealed tree opts) (next tree opts v) fs) :
    ∀ t ∈ (fs.map Fragment.text).tail, BeginsInert envelopeSuffix t := by
  intro t ht
  rw [← List.map_tail] at ht
  obtain ⟨f, hf, rfl⟩ := List.mem_map.mp ht
  obtain ⟨w, fallback, hsealed, hframe⟩ := cell_of_mem_tail hrow hfs hf
  exact hsealed.begins fallback hframe

/-- The marker in the text of a visit comes from the visit or from one below it. -/
theorem leaks_step (hfs : List.Forall₂ (Sealed tree opts) (next tree opts v) fs) :
    envelopeSuffix <:+: ((frame tree opts v).lay fs).text ↔ Leaks tree opts v := by
  have hbelow := leaks_below hfs
  have hnewline : '\n' ∉ envelopeSuffix := guard_not_mem (by decide)
  rw [leaks_iff]
  rcases frame_cases tree opts v with ⟨hframe, hnext⟩ |
    ⟨-, mark, before, after, trail, hframe⟩ | ⟨hitem, depth, hframe⟩ |
    ⟨hrow, lead, trail, hframe⟩ | ⟨-, first, fallback, hframe, hnone⟩
  · have hshows : ∀ t, ¬ Shows tree opts v t := fun t =>
      not_shows (by simp [hframe, Frame.IsAround]) (by simp [hframe])
    simp [hframe, hnext, hshows, Frame.lay, suffix_ne_nil]
  · obtain ⟨hbefore, hafter, htrail⟩ := guarded_of_frame hframe
    have hrow : ¬ v.IsRow := not_row_of_frame hframe (by simp)
    have hclosed := closed_below hrow hfs
    have htext : ((frame tree opts v).lay fs).text =
        textOf before ++ ((concat fs).text ++ (textOf after ++ (textOf trail ++ []))) := by
      simp [hframe, Frame.lay, ofText]
    -- the pieces are guarded, so the marker does not cross from one to the next
    rw [htext, hbefore.infix_append, closed_concat hclosed, hafter.infix_append,
      htrail.infix_append, infix_concat hclosed, hbelow]
    simp only [shows_around hframe, List.mem_append, List.infix_nil, suffix_ne_nil, or_false,
      or_and_right, exists_or]
    simp only [or_assoc, or_comm, or_left_comm]
  · have hshows : ∀ t, ¬ Shows tree opts v t := fun t =>
      not_shows (by simp [hframe, Frame.IsAround]) (by simp [hframe])
    have hrow : ¬ v.IsRow := not_row_of_frame hframe (by simp)
    have htext : ((frame tree opts v).lay fs).text =
        bullet depth ++ (collapse (concat fs).text ++ '\n' :: []) := by
      simp [hframe, Frame.lay]
    rw [htext, suffix_infix_append (lt_not_mem_bullet depth), infix_cut hnewline,
      suffix_infix_collapse, infix_concat (closed_below hrow hfs), hbelow]
    simp [hshows, suffix_ne_nil]
  · have hshows : ∀ t, ¬ Shows tree opts v t := fun t =>
      not_shows (by simp [hframe, Frame.IsAround]) (by simp [hframe])
    -- every cell but the first begins with the separator, which cuts the marker
    obtain ⟨hlead, htrail, hbegins, -⟩ := row_guarded hrow hframe
    have htext : ((frame tree opts v).lay fs).text =
        lead ++ ((fs.map Fragment.text).flatten ++ trail) := by
      simp [hframe, Frame.lay]
    rw [htext, suffix_infix_append hlead,
      infix_flatten (cells_begin hrow hfs) hbegins suffix_ne_nil]
    simp [hshows, not_suffix_infix htrail, hbelow]
  · have hsep : '<' ∉ cellSep first := by cases first <;> decide
    have htext : ((frame tree opts v).lay fs).text =
        cellSep first ++ cellText fallback (concat fs).text := by
      simp [hframe, Frame.lay]
    rw [htext, suffix_infix_append hsep, ← hbelow]
    simp only [shows_cell hframe]
    cases fallback with
    | none =>
        rw [hnone rfl, List.forall₂_nil_left_iff] at hfs
        simp [hfs, cellText, suffix_ne_nil]
    | some text =>
        have hblank := blank_below (hfs.imp fun u f h => h.blank)
        have hclosed := closed_below (not_row_of_frame hframe (by simp)) hfs
        rw [cellText, suffix_infix_pipes, ← infix_concat hclosed, ← hblank, ← collapse_eq_nil_iff]
        split_ifs with hempty
        -- the fallback is printed for a blank text, which has no marker
        · have hraw : ¬ envelopeSuffix <:+: (concat fs).text := by
            intro hinfix
            have hlt : '<' ∈ (concat fs).text := hinfix.subset (by decide)
            exact absurd (collapse_eq_nil_iff.mp hempty '<' hlt) (by decide)
          simp [hempty, hraw]
        · simp [hempty, suffix_infix_collapse]

/-- The step of `envelope_closed_iff`. -/
theorem sealed_step : StepRule tree opts (Sealed tree opts) := by
  intro v fs hfs
  have hnewline : '\n' ∉ envelopeSuffix := guard_not_mem (by decide)
  refine ⟨leaks_step hfs, blank_step v fs (hfs.imp fun u f h => h.blank), ?_, ?_⟩
  · intro hcell
    rcases frame_cases tree opts v with ⟨hframe, -⟩ | ⟨-, mark, before, after, trail, hframe⟩ |
      ⟨-, depth, hframe⟩ | ⟨hrow, lead, trail, hframe⟩ | ⟨hcell', -⟩
    · rw [hframe]
      exact .nil suffix_ne_nil
    · obtain ⟨hbefore, hafter, htrail⟩ := guarded_of_frame hframe
      have hbelow := closed_concat (closed_below (not_row_of_frame hframe (by simp)) hfs)
      have hclosed := ((hbefore.closed.append hbelow).append hafter.closed).append htrail.closed
      simpa [hframe, Frame.lay, ofText] using hclosed
    · have hlast : ((frame tree opts v).lay fs).text =
          (bullet depth ++ collapse (concat fs).text) ++ ['\n'] := by
        simp [hframe, Frame.lay]
      rw [hlast]
      exact .of_last hnewline suffix_ne_nil
    · obtain ⟨-, -, -, t, rfl⟩ := row_guarded hrow hframe
      have hlast : ((frame tree opts v).lay fs).text =
          (lead ++ (fs.map Fragment.text).flatten ++ t) ++ ['\n'] := by
        simp [hframe, Frame.lay]
      rw [hlast]
      exact .of_last hnewline suffix_ne_nil
    · exact absurd hcell' hcell
  · intro fallback hframe
    rw [hframe]
    exact ⟨' ', _, rfl, guard_not_mem (by decide)⟩

omit [F64Display] in
/-- The marker closes the content, and occurs nowhere else, when it is not in what is printed. -/
theorem finish_closed_iff (hraw : opts.raw = false) (e : MarkdownEmitter) :
    OnlyAtEnd envelopeSuffix (finish opts e).content ↔ ¬ envelopeSuffix <:+: e.out := by
  have hnewline : '\n' ∉ envelopeSuffix := guard_not_mem (by decide)
  have hinert : ∀ d ∈ ['\n'], d ∉ envelopeSuffix := by simpa using hnewline
  have hopen : ¬ envelopeSuffix <:+: envelopePrefix.dropLast := by decide
  have hprefix : envelopePrefix = envelopePrefix.dropLast ++ ['\n'] := by decide
  -- the last newline is the one in front of the marker
  have hcut : ∀ out, OnlyAtEnd envelopeSuffix (envelopePrefix ++ (out ++ '\n' :: envelopeSuffix)) ↔
      ¬ envelopeSuffix <:+: out := by
    intro out
    rw [← List.append_assoc, onlyAtEnd_append_iff hnewline, hprefix, List.append_assoc,
      List.singleton_append, infix_cut hnewline]
    simp only [hopen, false_or]
  simp only [finish_content, envelopeOpen, envelopeClose, hraw, Bool.false_eq_true, if_false]
  split_ifs with hlast
  · obtain ⟨out, hout⟩ : ∃ out, e.out = out ++ ['\n'] := List.getLast?_eq_some_iff.mp hlast
    rw [hout, infix_append_inert hinert suffix_ne_nil, ← hcut]
    simp
  · rw [← hcut]
    simp

/-- The marker is in the printed page when a visit of it shows a text with the marker. -/
theorem page_leaks_iff {depth : Nat} {f : Fragment} (h : pagePlan tree opts depth = some f) :
    envelopeSuffix <:+: f.text ↔ ∃ v t, Visited tree opts v ∧ Shows tree opts v t ∧
      envelopeSuffix <:+: t := by
  cases hroot : tree.find tree.root with
  | none =>
      have hvisited : ∀ v, ¬ Visited tree opts v := by
        rintro v ⟨root, hfind, -⟩
        rw [hroot] at hfind
        cases hfind
      simp only [pagePlan, hroot, Option.some.injEq] at h
      simp [← h, default, hvisited, suffix_ne_nil]
  | some root =>
      have hsealed := page_plan_induction (fun v fs _ => sealed_step v fs) hroot h
      rw [hsealed.leaks]
      constructor
      · rintro ⟨w, t, hw, ht⟩
        exact ⟨w, t, ⟨root, hroot, hw⟩, ht⟩
      · rintro ⟨w, t, ⟨root', hroot', hw⟩, ht⟩
        rw [hroot] at hroot'
        cases hroot'
        exact ⟨w, t, hw, ht⟩

/-- The envelope holds exactly when no text that the page shows contains its closing marker. -/
theorem envelope_closed_iff (tree : AgentRenderTree) (opts : MarkdownOptions)
    (hraw : opts.raw = false) :
    (tree.Acyclic → ∃ bound, ∀ depth ≥ bound, ∃ view, emit tree opts depth = some view) ∧
      ∀ depth view, emit tree opts depth = some view →
        (OnlyAtEnd envelopeSuffix view.content ↔
          ∀ v t, Visited tree opts v → Shows tree opts v t → ¬ envelopeSuffix <:+: t) := by
  refine ⟨eventually_emit opts, fun depth view hview => ?_⟩
  rw [emit_eq, Option.map_eq_some_iff] at hview
  obtain ⟨f, hf, rfl⟩ := hview
  have hout : (MarkdownEmitter.new.append f).out = f.text := by
    simp [MarkdownEmitter.new, MarkdownEmitter.append]
  rw [finish_closed_iff hraw, hout, page_leaks_iff hf]
  simp only [not_exists, not_and]

end Leaks

/-- The texts of a frame that are copied without escaping, or may be. -/
def Frame.copies : Frame → List Text
  | .around _ before after trail => (before ++ after ++ trail).filterMap fun
      | .copied t => some t
      | _ => none
  | .cell _ fallback => fallback.toList
  | _ => []

theorem mem_copies [F64Display] {tree : AgentRenderTree} {opts : MarkdownOptions} {v : Visit}
    {t : Text} (h : Shows tree opts v t) : t ∈ (frame tree opts v).copies := by
  rcases h with ⟨mark, before, after, trail, hframe, ht⟩ | ⟨sep, hframe, -⟩
  · rw [hframe]
    exact List.mem_filterMap.mpr ⟨_, ht, rfl⟩
  · rw [hframe]
    exact List.mem_singleton_self t

/-- A list keeps the envelope closed. -/
theorem list_page_envelope_closed : ∃ view,
    @emit F64Display.ofWhole listPage default 3 = some view ∧
      OnlyAtEnd envelopeSuffix view.content := by
  let display := F64Display.ofWhole
  have hreturns : (emit listPage default 3).isSome := by decide
  obtain ⟨view, hview⟩ := Option.isSome_iff_exists.mp hreturns
  have hcopies : ∀ v ∈ listVisits, ∀ t ∈ (frame listPage default v).copies,
      ¬ envelopeSuffix <:+: t := by decide
  refine ⟨view, hview, ?_⟩
  exact ((@envelope_closed_iff F64Display.ofWhole listPage default rfl).2 3 view hview).mpr
    fun v t hv ht => hcopies v (mem_list_visits hv) t (mem_copies ht)

/-- A page whose text is the closing marker. -/
def markerPage : AgentRenderTree where
  root := "page"
  nodes := [.plain "page" .page none ["text"], .plain "text" .text (some "</page-content>") []]
  generation := 0
  truncated := false

/-- The marker occurs in front of the end. -/
theorem marker_page_not_closed : ∃ view,
    @emit F64Display.ofWhole markerPage default 2 = some view ∧
      ¬ OnlyAtEnd envelopeSuffix view.content := by
  let display := F64Display.ofWhole
  have hreturns : (emit markerPage default 2).isSome := by decide
  obtain ⟨view, hview⟩ := Option.isSome_iff_exists.mp hreturns
  have hcontent : ∀ view ∈ emit markerPage default 2, ∃ rest ∈ view.content.tails,
      rest ≠ [] ∧ envelopePrefix ++ (envelopeSuffix ++ rest) = view.content := by decide
  refine ⟨view, hview, fun hclosed => ?_⟩
  obtain ⟨rest, -, hrest, hsplit⟩ := hcontent view hview
  exact hrest (hclosed.2 envelopePrefix rest hsplit.symm)

end BrowsAI.PageText
