import BrowsAI.PageText.Openings

/-!
# The lines of the output

Blocks print whole lines. List items and table cells join the lines of what they contain by spaces,
so that the opening of a tag can begin at the end of one line and end in the next. `Lines` says that
only texts of the page do: a line of markup, `Fence`, neither ends like the first half of an opening
nor begins like the second.
-/

namespace BrowsAI.PageText

open Utf8 AgentTree Fragment Relation Occurs

/-! ## Lines -/

/-- Nothing, or whole lines. -/
def Ended (t : Text) : Prop := t = [] ∨ ∃ s, t = s ++ ['\n']

theorem Ended.append {s t : Text} (hs : Ended s) (ht : Ended t) : Ended (s ++ t) := by
  rcases ht with rfl | ⟨t, rfl⟩
  · rwa [List.append_nil]
  · exact .inr ⟨s ++ t, (List.append_assoc ..).symm⟩

/-- A line of markup. It does not begin like the second half of an opening, nor end like the first
half of one. -/
structure Fence (t : Text) : Prop where
  opens : ∃ c s, t = c :: s ∧ c ≠ 'i'
  closes : ∃ s c, t = s ++ [c, '\n'] ∧ c ∈ closers

theorem Fence.ended {t : Text} (h : Fence t) : Ended t := by
  obtain ⟨s, c, rfl, -⟩ := h.closes
  exact .inr ⟨s ++ [c], by simp⟩

theorem Fence.indent {t : Text} (h : Fence t) : Fence ("  " ++ t) := by
  obtain ⟨s, c, rfl, hc⟩ := h.closes
  exact ⟨⟨' ', ' ' :: (s ++ [c, '\n']), rfl, by decide⟩, ⟨"  " ++ s, c, by simp, hc⟩⟩

theorem Fence.not_id {s t : Text} (h : Fence s) : ¬ ("id=\"" : Text) <+: s ++ t := by
  obtain ⟨c, s, rfl, hc⟩ := h.opens
  intro hid
  exact hc (List.cons_prefix_cons.mp hid).1.symm

theorem tag_visible (tag : MarkdownTag) : ∀ c ∈ ("[" ++ tag.asStr : Text), ¬ isWhitespace c := by
  cases tag <;> exact forall_mem_of_all (by decide)

/-- The last characters of a text that are not white space. -/
theorem last_visible_eq {s s' w w' : Text} {c d : Char} (hc : ¬ isWhitespace c)
    (hd : ¬ isWhitespace d) (hw : Blank w) (hw' : Blank w') (h : s ++ c :: w = s' ++ d :: w') :
    c = d := by
  rcases List.append_eq_append_iff.mp h with ⟨y, -, hy⟩ | ⟨y, -, hy⟩
  · rcases y with _ | ⟨e, y⟩
    · exact (List.cons.inj hy).1
    · exact absurd (hw d (by simp [(List.cons.inj hy).2])) hd
  · rcases y with _ | ⟨e, y⟩
    · exact (List.cons.inj hy).1.symm
    · exact absurd (hw' c (by simp [(List.cons.inj hy).2])) hc

/-- The first half of an opening ends with a letter. -/
theorem not_ends_open {s w : Text} {c : Char} (hc : c ∈ closers) (hw : Blank w) :
    ¬ EndsOpen (s ++ c :: w) := by
  rintro ⟨tag, x, w', heq, hw'⟩
  have hcloser : ∀ d ∈ closers, ¬ isWhitespace d ∧ d.isLower = false :=
    forall_mem_of_all (by decide)
  obtain ⟨n, d, hname⟩ : ∃ n d, tag.asStr = n ++ [d] := by
    rcases List.eq_nil_or_concat tag.asStr with h | h
    · cases tag <;> cases h
    · simpa using h
  have hd : d ∈ tag.asStr := by rw [hname]; simp
  have hsplit : x ++ ("[" ++ tag.asStr) ++ w' = (x ++ ("[" ++ n)) ++ d :: w' := by
    simp only [hname, List.append_assoc, List.singleton_append]
  rw [hsplit] at heq
  obtain rfl := last_visible_eq (hcloser c hc).1 (tag_visible tag d (by simp [hd])) hw hw' heq
  have hlower := lower_of_mem_tag tag c hd
  rw [(hcloser c hc).2] at hlower
  cases hlower

/-- White space before a text does not make it end open. -/
theorem ends_open_append {s t : Text} (hs : s = [] ∨ ∃ x c, s = x ++ [c] ∧ isWhitespace c)
    (h : EndsOpen (s ++ t)) : EndsOpen s ∨ EndsOpen t := by
  obtain ⟨tag, x, w, heq, hw⟩ := h
  rcases List.append_eq_append_iff.mp heq with ⟨y, hy, rfl⟩ | ⟨y, rfl, rfl⟩
  swap
  · exact .inl ⟨tag, x, y, rfl, fun c hc => hw c (List.mem_append_left t hc)⟩
  rcases List.append_eq_append_iff.mp hy with ⟨z, hz, hname⟩ | ⟨z, rfl, rfl⟩
  · rcases List.eq_nil_or_concat z with rfl | ⟨z, c, rfl⟩
    · exact .inr ⟨tag, [], w, by rw [hname]; rfl, hw⟩
    -- the name does not reach into `s`, which ends with white space
    have hc : ¬ isWhitespace c := tag_visible tag c (by rw [hname]; simp)
    rcases hs with rfl | ⟨x', c', hx', hspace⟩
    · simp at hz
    · obtain ⟨-, rfl⟩ : x' = x ++ z ∧ c' = c := by simpa [← List.append_assoc, hx'] using hz
      exact absurd hspace hc
  · exact .inr ⟨tag, z, w, rfl, hw⟩

theorem ended_concat {fs : List Fragment} (hfs : ∀ f ∈ fs, Ended f.text) :
    Ended (concat fs).text := by
  induction fs with
  | nil => exact .inl rfl
  | cons f fs ih => exact (hfs f (by simp)).append (ih fun g hg => hfs g (by simp [hg]))

theorem Ended.folded {t : Text} (h : Ended t) :
    oneLine t = [] ∨ ∃ x c, oneLine t = x ++ [c] ∧ isWhitespace c := by
  rcases h with rfl | ⟨s, rfl⟩
  · exact .inl rfl
  · exact .inr ⟨oneLine s, ' ', one_line_append s ['\n'], by decide⟩

theorem not_ends_open_nil : ¬ EndsOpen [] := by
  rintro ⟨tag, x, w, heq, -⟩
  simp at heq

theorem ends_open_concat {fs : List Fragment} (hfs : ∀ f ∈ fs, Ended f.text)
    (h : EndsOpen (oneLine (concat fs).text)) : ∃ f ∈ fs, EndsOpen (oneLine f.text) := by
  induction fs with
  | nil => exact absurd h not_ends_open_nil
  | cons f fs ih =>
      rw [concat_cons_text, one_line_append] at h
      rcases ends_open_append (hfs f (by simp)).folded h with h | h
      · exact ⟨f, by simp, h⟩
      · obtain ⟨g, hg, hopen⟩ := ih (fun g hg => hfs g (by simp [hg])) h
        exact ⟨g, by simp [hg], hopen⟩

/-- What the first line begins with. -/
theorem id_concat {fs : List Fragment} {t : Text} (hfs : ∀ f ∈ fs, Ended f.text)
    (h : ("id=\"" : Text) <+: (concat fs).text ++ t) :
    (∃ f ∈ fs, ("id=\"" : Text) <+: f.text) ∨ ("id=\"" : Text) <+: t := by
  induction fs with
  | nil => exact .inr h
  | cons f fs ih =>
      rw [concat_cons_text, List.append_assoc] at h
      rcases hfs f (by simp) with hnil | ⟨s, hline⟩
      · rw [hnil] at h
        rcases ih (fun g hg => hfs g (by simp [hg])) h with ⟨g, hg, hid⟩ | hid
        · exact .inl ⟨g, by simp [hg], hid⟩
        · exact .inr hid
      · rw [hline, List.append_assoc] at h
        refine .inl ⟨f, by simp, ?_⟩
        rw [hline]
        exact (prefix_of_prefix_cut h (by decide)).trans (List.prefix_append s _)

/-! ## The lines of a frame -/

/-- Text between a first and a last character of markup. -/
theorem fence_of_eq {t : Text} (c d : Char) (s : Text) (h : t = c :: (s ++ [d, '\n']))
    (hc : c ≠ 'i') (hd : d ∈ closers) : Fence t :=
  ⟨⟨c, s ++ [d, '\n'], h, hc⟩, ⟨c :: s, d, h, hd⟩⟩

/-- A tag with what follows it on its line. -/
theorem fence_tag (s : Text) {name close : Text} {attrs : List Attribute} {rest : List Piece}
    (h : close ++ textOf rest = s ++ [']', '\n']) :
    Fence (textOf (tagOpen name attrs close ++ rest)) := by
  refine fence_of_eq '[' ']' (name ++ textOf (attrs.flatMap Attribute.pieces) ++ s) ?_ (by decide)
    (by decide)
  simp only [tagOpen, textOf_append, textOf_cons, Piece.text, List.append_assoc, List.nil_append,
    h, List.cons_append]
  rfl

theorem fence_tag_open (s : Text) {name close : Text} {attrs : List Attribute}
    (h : close = s ++ [']', '\n']) : Fence (textOf (tagOpen name attrs close)) := by
  rw [← List.append_nil (tagOpen name attrs close)]
  exact fence_tag s (by rw [h, textOf_nil, List.append_nil])

theorem fence_closing (name : Text) :
    Fence (textOf ([.fixed ("[/" ++ name ++ "]")] ++ [.fixed "\n"])) :=
  fence_of_eq '[' ']' ('/' :: name) (by simp [Piece.text]) (by decide) (by decide)

section Shape

variable [F64Display] {tree : AgentRenderTree} {opts : MarkdownOptions} {v : Visit}

/-- What a frame prints around the visits below it: one text of the page, one line of markup, or
lines of markup before and behind them. -/
inductive Shape (tree : AgentRenderTree) (opts : MarkdownOptions) (v : Visit) :
    Text → Text → Prop where
  | loose {t : Text} (line : Loose tree opts v t) (leaf : next tree opts v = []) :
      Shape tree opts v (t ++ ['\n']) []
  | line {before after : Text} (leaf : next tree opts v = []) (fence : Fence (before ++ after)) :
      Shape tree opts v before after
  | around {before after : Text} (opens : before = [] ∨ Fence before)
      (closes : after = [] ∨ after = ['\n'] ∨ Fence after) : Shape tree opts v before after

theorem Shape.leaf_or_opens {before after : Text} (h : Shape tree opts v before after) :
    next tree opts v = [] ∨ before = [] ∨ Fence before := by
  cases h with
  | loose line leaf => exact .inl leaf
  | line leaf fence => exact .inl leaf
  | around opens closes => exact .inr opens

/-- The fixed texts of the frame keep its lines in shape. -/
def Frame.Shaped (tree : AgentRenderTree) (opts : MarkdownOptions) (v : Visit) : Frame → Prop
  | .around _ before after trail => '"' ∉ textOf (after ++ trail) ∧
      Shape tree opts v (textOf before) (textOf (after ++ trail))
  | _ => True

theorem page_shaped (hplain : isPlain opts = false) (node : AgentNode) :
    (pageFrame opts node).Shaped tree opts v := by
  unfold pageFrame
  cases node.name with
  | some title =>
      simp only [hplain, Bool.false_eq_true, if_false]
      refine ⟨by simp, .around (.inr ?_) (.inl rfl)⟩
      exact fence_of_eq '[' ']' ("heading level=\"1\"]" ++ escapeAttrInline (trim title) ++
        "[/heading") (by simp [Piece.text]) (by decide) (by decide)
  | none => exact ⟨by simp, .around (.inl rfl) (.inl rfl)⟩

theorem heading_shaped (hplain : isPlain opts = false) (node : AgentNode) :
    (headingFrame opts node).Shaped tree opts v := by
  simp only [headingFrame, hplain, Bool.false_eq_true, if_false]
  split_ifs
  · trivial
  · refine ⟨by simp, .around (.inr ?_) (.inl rfl)⟩
    exact fence_of_eq '[' ']' ("heading level=\"" ++ ofNat (headingLevel node
      opts.maxHeadingLevel) ++ "\"]" ++ escapeAttrInline (nodeText node opts) ++ "[/heading")
      (by simp [Piece.text]) (by decide) (by decide)

theorem loose_shaped (t : Text) (hleaf : next tree opts v = [])
    (hframe : frame tree opts v = .print [.copied t, .fixed "\n"]) :
    (frame tree opts v).Shaped tree opts v := by
  rw [hframe]
  exact ⟨by simp, .loose hframe hleaf⟩

/-- Those of an actionable do. -/
theorem actionable_shaped (hplain : isPlain opts = false) (hleaf : next tree opts v = [])
    (node : AgentNode) (tag : MarkdownTag) :
    (actionableFrame opts node tag).Shaped tree opts v := by
  simp only [actionableFrame, hplain, Bool.false_eq_true, if_false]
  cases resolvedUrl node tag with
  | some url =>
      refine ⟨by simp [Piece.text], .line hleaf ?_⟩
      split_ifs
      · exact fence_of_eq '!' ')' ("[image](" ++ url) (by simp [Piece.text]) (by decide)
          (by decide)
      · exact fence_of_eq '!' ')' ("[" ++ actionableBodyText node tag opts ++ "](" ++ url)
          (by simp [Piece.text]) (by decide) (by decide)
      · exact fence_of_eq '[' ')' (actionableBodyText node tag opts ++ "](" ++ url)
          (by simp [Piece.text]) (by decide) (by decide)
  | none =>
      refine ⟨by simp [Piece.text], .line hleaf ?_⟩
      rw [← textOf_append, List.append_assoc, List.append_assoc]
      refine fence_tag ("]" ++ textOf (if actionableBodyText node tag opts = [] ∨ tag = .textbox
        then [] else [.copied (actionableBodyText node tag opts)]) ++ "[/" ++ tag.asStr) ?_
      simp [Piece.text]

/-- Those of an option do. -/
theorem option_shaped (hleaf : next tree opts v = []) (node : AgentNode) :
    (optionFrame opts node).Shaped tree opts v := by
  have hline : Fence (textOf (tagOpen "option" (⟨"id", node.id⟩ :: attrOf "value" (optionValue node)
      ++ flag node.state.selected "selected") "]" ++ ([.copied (if nodeText node opts = [] then
        (optionValue node).getD [] else nodeText node opts), .fixed "[/option]"] ++
          [.fixed "\n"]))) := by
    refine fence_tag ("]" ++ (if nodeText node opts = [] then (optionValue node).getD [] else
      nodeText node opts) ++ "[/option") ?_
    simp [Piece.text]
  refine ⟨by simp [Piece.text], .line hleaf ?_⟩
  have hindent := hline.indent
  rw [← List.append_assoc, textOf_append] at hindent
  exact hindent

theorem select_shaped (hplain : isPlain opts = false) (node : AgentNode) :
    (selectFrame tree opts node).Shaped tree opts v := by
  simp only [selectFrame, hplain, Bool.false_eq_true, if_false]
  exact ⟨by simp [Piece.text], .around (.inr (fence_tag_open [] rfl)) (.inr (.inr
    (fence_closing "select")))⟩

theorem box_shaped (node : AgentNode) (tag : MarkdownTag) :
    (boxFrame node tag).Shaped tree opts v := by
  refine ⟨?_, .around (.inr (fence_tag_open [] rfl)) (.inr (.inr (fence_closing tag.asStr)))⟩
  have hlower := not_mem_name (lower_of_mem_tag tag) (c := '"') (by decide)
  simp [Piece.text, hlower]

theorem table_shaped (hplain : isPlain opts = false) (node : AgentNode) :
    (tableFrame tree opts node).Shaped tree opts v := by
  simp only [tableFrame, hplain, Bool.false_eq_true, if_false]
  split_ifs
  · exact ⟨by simp, .around (.inr (fence_tag_open "]empty[/table" rfl)) (.inl rfl)⟩
  · exact ⟨by simp [Piece.text], .around (.inl rfl) (.inr (.inl rfl))⟩

theorem video_shaped (hplain : isPlain opts = false) (node : AgentNode) :
    (videoFrame opts node).Shaped tree opts v := by
  simp only [videoFrame, hplain, Bool.false_eq_true, if_false]
  refine ⟨by simp, .around (.inr (fence_tag ("]" ++ truncate (node.name.getD "(video)")
    opts.maxTextBytes ++ "[/video") ?_)) (.inl rfl)⟩
  simp [Piece.text]

/-- Those of a block do. -/
theorem block_shaped (hplain : isPlain opts = false) (ctx : Context) (node : AgentNode) :
    (frame tree opts (.node .block ctx node)).Shaped tree opts (.node .block ctx node) := by
  have hleaf : node.structuralRole ∈ ([.heading, .paragraph, .text, .link, .button, .textbox,
      .checkbox, .radio, .image, .canvas, .video] : List StructuralRole) →
      next tree opts (.node .block ctx node) = [] := by
    intro hrole
    simp only [List.mem_cons, List.not_mem_nil, or_false] at hrole
    rcases hrole with h | h | h | h | h | h | h | h | h | h | h <;>
      simp [next, blockNext, h, isFlow]
  cases hrole : node.structuralRole with
  | page => simpa only [frame, blockFrame, hrole] using page_shaped hplain node
  | heading => simpa only [frame, blockFrame, hrole] using heading_shaped hplain node
  | paragraph | text =>
      by_cases htext : nodeText node opts = []
      · simp only [frame, blockFrame, hrole, textBlockFrame, htext, if_true]
        trivial
      · exact loose_shaped (nodeText node opts) (hleaf (by simp [hrole]))
          (by simp only [frame, blockFrame, hrole, textBlockFrame, htext, if_false])
  | link | button | textbox | checkbox | radio | image =>
      simpa only [frame, blockFrame, hrole] using
        actionable_shaped hplain (hleaf (by simp [hrole])) node _
  | select => simpa only [frame, blockFrame, hrole] using select_shaped hplain node
  | listItem =>
      simp only [frame, blockFrame, hrole]
      trivial
  | table => simpa only [frame, blockFrame, hrole] using table_shaped hplain node
  | region | menu | tab | frame | shadowRoot =>
      simp only [PageText.frame, blockFrame, hrole, regionFrame, hplain, Bool.false_eq_true,
        if_false]
      exact box_shaped node .region
  | dialog =>
      simp only [frame, blockFrame, hrole, dialogFrame, hplain, Bool.false_eq_true, if_false]
      exact box_shaped node .dialog
  | canvas =>
      exact loose_shaped _ (hleaf (by simp [hrole])) (by simp only [frame, blockFrame, hrole]; rfl)
  | video => simpa only [frame, blockFrame, hrole] using video_shaped hplain node
  | list | row | cell | form | unknown =>
      simp only [frame, blockFrame, hrole]
      exact ⟨by simp, .around (.inl rfl) (.inl rfl)⟩

/-- Those of every visit do. -/
theorem visit_shaped (hplain : isPlain opts = false) (v : Visit) :
    (frame tree opts v).Shaped tree opts v := by
  cases v with
  | skipped | missing => trivial
  | node place ctx node =>
      cases place with
      | page => exact page_shaped hplain node
      | block => exact block_shaped hplain ctx node
      | option => exact option_shaped rfl node
      | row header =>
          simp only [frame, rowFrame]
          split_ifs <;> trivial
      | cell first => trivial

/-! ## Ends and beginnings of lines -/

/-- The text consists of lines. One that ends like the first half of an opening, or the first one
where it begins like the second half, is a text of the page at the visit or below it. -/
structure Lines (tree : AgentRenderTree) (opts : MarkdownOptions) (v : Visit) (t : Text) : Prop where
  ended : Ended t
  opens : EndsOpen (oneLine t) →
    ∃ w s, Reaches tree opts v w ∧ Loose tree opts w s ∧ EndsOpen (oneLine s)
  ids : ("id=\"" : Text) <+: t →
    ∃ w s, Reaches tree opts v w ∧ Loose tree opts w s ∧ ("id=\"" : Text) <+: s

omit [F64Display] in
theorem Fence.not_ends_open {t : Text} (h : Fence t) : ¬ EndsOpen (oneLine t) := by
  obtain ⟨s, c, rfl, hc⟩ := h.closes
  have hcloser : ∀ d ∈ closers, d ≠ '\n' := forall_mem_of_all (by decide)
  have hfold : oneLine (s ++ [c, '\n']) = oneLine s ++ c :: [' '] := by
    rw [one_line_append, one_line_cons, if_neg (hcloser c hc)]
    rfl
  rw [hfold]
  refine PageText.not_ends_open hc fun d hd => ?_
  rw [List.mem_singleton.mp hd]
  decide

theorem Fence.lines {t : Text} (h : Fence t) : Lines tree opts v t :=
  ⟨h.ended, fun hopen => absurd hopen h.not_ends_open,
    fun hid => absurd (by rwa [List.append_nil]) (h.not_id (t := []))⟩

omit [F64Display] in
/-- A line feed at the end changes nothing. -/
theorem ends_open_newline {t : Text} (h : EndsOpen (oneLine (t ++ ['\n']))) :
    EndsOpen (oneLine t) := by
  obtain ⟨tag, x, w, heq, hw⟩ := h
  have hspace : oneLine (t ++ ['\n']) = oneLine t ++ [' '] := one_line_append t ['\n']
  rw [hspace] at heq
  rcases List.eq_nil_or_concat w with rfl | ⟨w, c, rfl⟩
  · have hname : ' ' ∈ ("[" ++ tag.asStr : Text) := by
      have hlast := congrArg List.getLast? heq
      rw [List.append_nil, List.getLast?_concat, List.getLast?_append_of_ne_nil x (by simp)] at hlast
      exact List.mem_of_mem_getLast? hlast.symm
    exact absurd (by decide) (tag_visible tag ' ' hname)
  · obtain ⟨heq, -⟩ : oneLine t = x ++ ("[" ++ tag.asStr) ++ w ∧ ' ' = c := by
      simpa [← List.append_assoc] using heq
    exact ⟨tag, x, w, heq, fun d hd => hw d (by simp [hd])⟩

omit [F64Display] in
theorem ends_open_trim {s : Text} (h : EndsOpen (trim s)) : EndsOpen s := by
  obtain ⟨v, w, hs, -, hw⟩ := exists_trim s
  obtain ⟨tag, x, w', heq, hw'⟩ := h
  refine ⟨tag, v ++ x, w' ++ w, ?_, blank_append.mpr ⟨hw', hw⟩⟩
  rw [hs, heq]
  simp only [List.append_assoc]

omit [F64Display] in
theorem bracket_of_ends_open {s : Text} (h : EndsOpen s) : '[' ∈ s := by
  obtain ⟨tag, x, w, rfl, -⟩ := h
  simp

theorem loose_lines {t : Text} (h : Loose tree opts v t) : Lines tree opts v (t ++ ['\n']) := by
  refine ⟨.inr ⟨t, rfl⟩, fun hopen => ?_, fun hid => ?_⟩
  · exact ⟨v, t, .refl, h, ends_open_newline hopen⟩
  · exact ⟨v, t, .refl, h, prefix_of_prefix_cut hid (by decide)⟩

/-- A frame in shape around lines gives lines. -/
theorem lines_around {before after : Text} {fs : List Fragment}
    (hshape : Shape tree opts v before after)
    (hfs : List.Forall₂ (fun w f => Lines tree opts w f.text) (next tree opts v) fs) :
    Lines tree opts v (before ++ (concat fs).text ++ after) := by
  have hended : ∀ f ∈ fs, Ended f.text := by
    intro f hf
    obtain ⟨w, -, hlines⟩ := Unfold.exists_of_mem_right hfs hf
    exact hlines.ended
  cases hshape with
  | loose line leaf =>
      rw [leaf, List.forall₂_nil_left_iff] at hfs
      simpa [hfs] using loose_lines line
  | line leaf fence =>
      rw [leaf, List.forall₂_nil_left_iff] at hfs
      simpa [hfs] using fence.lines
  | around opens closes =>
      have hbefore : Ended before := by
        rcases opens with rfl | hfence
        exacts [.inl rfl, hfence.ended]
      have hbelow : Ended (concat fs).text := ended_concat hended
      refine ⟨?_, fun hopen => ?_, fun hid => ?_⟩
      · refine (hbefore.append hbelow).append ?_
        rcases closes with rfl | rfl | hfence
        exacts [.inl rfl, .inr ⟨[], rfl⟩, hfence.ended]
      · have hconcat : EndsOpen (oneLine (before ++ (concat fs).text)) := by
          rcases closes with rfl | rfl | hfence
          · rwa [List.append_nil] at hopen
          · exact ends_open_newline hopen
          · rw [one_line_append] at hopen
            exact (ends_open_append (hbefore.append hbelow).folded hopen).resolve_right
              hfence.not_ends_open
        -- a fence ends every opening, so an open end is left by the last text below
        have hlast : EndsOpen (oneLine (concat fs).text) := by
          rcases opens with rfl | hfence
          · exact hconcat
          · rw [one_line_append] at hconcat
            exact (ends_open_append hbefore.folded hconcat).resolve_left hfence.not_ends_open
        obtain ⟨f, hf, hf'⟩ := ends_open_concat hended hlast
        obtain ⟨u, hu, hlines⟩ := Unfold.exists_of_mem_right hfs hf
        obtain ⟨w, s, hw, hloose, hs⟩ := hlines.opens hf'
        exact ⟨w, s, .head hu hw, hloose, hs⟩
      · rcases opens with rfl | hfence
        swap
        · rw [List.append_assoc] at hid
          exact absurd hid hfence.not_id
        rcases id_concat hended hid with ⟨f, hf, hf'⟩ | hafter
        · obtain ⟨u, hu, hlines⟩ := Unfold.exists_of_mem_right hfs hf
          obtain ⟨w, s, hw, hloose, hs⟩ := hlines.ids hf'
          exact ⟨w, s, .head hu hw, hloose, hs⟩
        · rcases closes with rfl | rfl | hfence
          · exact absurd hafter (by decide)
          · exact absurd hafter (by decide)
          · exact absurd (by rwa [List.append_nil]) (hfence.not_id (t := []))

end Shape

end BrowsAI.PageText
