import BrowsAI.PageText.Markup

/-!
# Where the spans point

A span of the index is meant to cut out of the content exactly the markup printed for its node,
from the opening token to the closing token. `SpanOk` says so; inside a list item the markup is
folded to one line.

The offsets are recorded while the buffer grows, and three constructs rewrite the buffer
afterwards. `Indexable` lists what a tree must avoid: videos and options, whose spans are off by
their own margins; widgets inside table cells, which are cut out and printed elsewhere; and list
items whose body starts with white space, which is trimmed away under the recorded offsets. Read
`emit_indexed` last: on every other tree all spans are right.
-/

namespace BrowsAI.PageText

open Utf8 AgentTree Fragment Relation

/-! ## One line -/

/-- Newlines to spaces. -/
def oneLine (t : Text) : Text := replace '\n' " " t

@[simp] theorem one_line_append (s t : Text) : oneLine (s ++ t) = oneLine s ++ oneLine t :=
  replace_append _ _ s t

theorem one_line_cons (c : Char) (t : Text) :
    oneLine (c :: t) = (if c = '\n' then ' ' else c) :: oneLine t := by
  by_cases hc : c = '\n' <;> simp [oneLine, replace, hc]

@[simp] theorem len_one_line (t : Text) : len (oneLine t) = len t := by
  induction t with
  | nil => rfl
  | cons c t ih =>
      rw [one_line_cons, len_cons, len_cons, ih]
      split_ifs with hc
      · rw [hc]
        rfl
      · rfl

theorem newline_not_mem_one_line (t : Text) : '\n' ∉ oneLine t := by
  induction t with
  | nil => simp [oneLine]
  | cons c t ih =>
      rw [one_line_cons, List.mem_cons, not_or]
      refine ⟨?_, ih⟩
      split_ifs with hc
      · decide
      · exact fun h => hc h.symm

theorem one_line_of_not_mem {t : Text} (h : '\n' ∉ t) : oneLine t = t :=
  replace_of_not_mem h

@[simp] theorem one_line_one_line (t : Text) : oneLine (oneLine t) = oneLine t :=
  one_line_of_not_mem (newline_not_mem_one_line t)

/-- A text that starts and ends with black characters around `s` keeps `s` in its place when it is
collapsed. -/
theorem collapse_append {p t q : Text} {c : Char} (hc : ¬ isWhitespace c)
    (hstart : ∀ d ∈ (p ++ (t ++ [c] ++ q)).head?, ¬ isWhitespace d) :
    ∃ q', collapse (p ++ (t ++ [c] ++ q)) = oneLine p ++ (oneLine (t ++ [c]) ++ q') := by
  have hnewline : c ≠ '\n' := by
    rintro rfl
    exact hc (by decide)
  have hlast : oneLine (t ++ [c]) = oneLine t ++ [c] := by
    rw [one_line_append, one_line_cons, if_neg hnewline]
    rfl
  have hfirst : trimStart (oneLine (p ++ (t ++ [c] ++ q))) = oneLine (p ++ (t ++ [c] ++ q)) := by
    apply trimStart_eq_self
    intro d hd
    cases hs : p ++ (t ++ [c] ++ q) with
    | nil => simp at hs
    | cons e rest =>
        have he : ¬ isWhitespace e := hstart e (by rw [hs]; rfl)
        have hne : e ≠ '\n' := by
          rintro rfl
          exact he (by decide)
        rw [hs, one_line_cons, if_neg hne] at hd
        obtain rfl : e = d := by simpa using hd
        exact he
  refine ⟨trimEnd (oneLine q), ?_⟩
  have hsplit : oneLine (p ++ (t ++ [c] ++ q)) = (oneLine p ++ oneLine t) ++ c :: oneLine q := by
    rw [one_line_append, one_line_append, hlast]
    simp
  rw [collapse, trim, ← oneLine, hfirst, hsplit, trimEnd_append_cons _ hc, hlast]
  simp

/-! ## The condition -/

/-- The text in front of the fragments that a frame is laid around. -/
def Frame.lead : Frame → Text
  | .skip => []
  | .around _ before _ _ => textOf before
  | .item depth => bullet depth
  | .row lead _ => lead
  | .cell sep _ => sep

section Condition

variable [F64Display] (tree : AgentRenderTree) (opts : MarkdownOptions)

/-- The text that a visit prints in front of the visits below it. -/
def Visit.lead (v : Visit) : Text := (PageText.frame tree opts v).lead

/-- Nothing is printed in front of a visit or in front of a visit below it. -/
def Silent (v : Visit) : Prop := ∀ w, Reaches tree opts v w → w.lead tree opts = []

/-- `Begins c vs`: the output of the visits `vs` begins with the character `c`. -/
inductive Begins (c : Char) : List Visit → Prop where
  | lead {v : Visit} {vs : List Visit} (first : (v.lead tree opts).head? = some c) :
      Begins c (v :: vs)
  | deeper {v : Visit} {vs : List Visit} (empty : v.lead tree opts = [])
      (inner : Begins c (next tree opts v)) : Begins c (v :: vs)
  | later {v : Visit} {vs : List Visit} (silent : Silent tree opts v) (later : Begins c vs) :
      Begins c (v :: vs)

/-- The trees whose spans all point at the markup of their nodes. -/
structure Indexable : Prop where
  /-- The span of a video has the tag of a region, and reaches past the closing tag. -/
  no_video : ∀ v, Visited tree opts v → ¬ v.isVideo
  /-- The span of an option starts in front of its indentation. -/
  no_option : ∀ v, Visited tree opts v → ¬ v.isOption
  /-- Nothing inside a table cell records a span. -/
  no_cell : ∀ v, Visited tree opts v → v.inCell → v.mark tree opts = none
  /-- A list item with a span inside does not begin with white space. -/
  begins : ∀ v, Visited tree opts v → v.isItem →
    (∃ w, Reaches tree opts v w ∧ w.mark tree opts ≠ none) →
    ∀ c, Begins tree opts c (next tree opts v) → ¬ isWhitespace c
  /-- The tokens of a node inside a list item are on one line: the URL in the link syntax, and the
  id in a tag. -/
  one_line : ∀ place ctx node m, Visited tree opts (.node place ctx node) →
    (Visit.node place ctx node).mark tree opts = some m → ctx.inItem →
    '\n' ∉ (resolvedUrl node m.tag).getD node.id

/-- The markup of a visit as it stands in the content. -/
def printed (ctx : Context) (t : Text) : Text := if ctx.inItem then oneLine t else t

/-- A span that cuts the markup of its node out of the content. -/
structure SpanOk (content : Text) (span : NodeSpan) : Prop where
  ordered : span.start ≤ span.stop
  bounded : span.stop ≤ len content
  start_boundary : isCharBoundary content span.start
  stop_boundary : isCharBoundary content span.stop
  cuts : ∃ place ctx node m t, Visited tree opts (.node place ctx node) ∧
    Markup tree opts (.node place ctx node) m t ∧ span.id = node.id ∧ span.tag = m.tag ∧
    slice content span.start span.stop = printed ctx t ∧
    openToken node m.tag <+: slice content span.start span.stop ∧
    closeToken node m.tag <:+ slice content span.start span.stop

end Condition

/-! ## The first character -/

section First

variable [F64Display] {tree : AgentRenderTree} {opts : MarkdownOptions}

theorem Silent.node {v : Visit} (hlead : v.lead tree opts = [])
    (hbelow : ∀ w ∈ next tree opts v, Silent tree opts w) : Silent tree opts v := by
  intro w hw
  rcases hw.cases_head with rfl | ⟨u, hu, huw⟩
  · exact hlead
  · exact hbelow u hu w huw

/-- The output of a visit, read off the walk: it is empty when the walk is silent, and otherwise
the walk begins with its first character. -/
def Heads (tree : AgentRenderTree) (opts : MarkdownOptions) (vs : List Visit) (t : Text) : Prop :=
  (t = [] → ∀ v ∈ vs, Silent tree opts v) ∧ ∀ c, t.head? = some c → Begins tree opts c vs

theorem Heads.of_lead {v : Visit} {t : Text} (hlead : v.lead tree opts ≠ []) :
    Heads tree opts [v] (v.lead tree opts ++ t) := by
  refine ⟨fun h => absurd (List.append_eq_nil_iff.mp h).1 hlead, fun c hc => .lead ?_⟩
  rwa [List.head?_append_of_ne_nil _ hlead] at hc

/-- The heads of the first visit, and of the others. -/
theorem Heads.cons {v : Visit} {vs : List Visit} {s t : Text} (hv : Heads tree opts [v] s)
    (hvs : Heads tree opts vs t) : Heads tree opts (v :: vs) (s ++ t) := by
  have hbegins : ∀ c, Begins tree opts c [v] → Begins tree opts c (v :: vs) := by
    intro c h
    cases h with
    | lead first => exact .lead first
    | deeper empty inner => exact .deeper empty inner
    | later _ later => cases later
  constructor
  · intro h
    obtain ⟨hs, ht⟩ := List.append_eq_nil_iff.mp h
    intro w hw
    rcases List.mem_cons.mp hw with rfl | hw
    · exact hv.1 hs w (by simp)
    · exact hvs.1 ht w hw
  · intro c hc
    by_cases hs : s = []
    · rw [hs, List.nil_append] at hc
      exact .later (hv.1 hs v (by simp)) (hvs.2 c hc)
    · rw [List.head?_append_of_ne_nil _ hs] at hc
      exact hbegins c (hv.2 c hc)

theorem Heads.concat {vs : List Visit} {fs : List Fragment}
    (h : List.Forall₂ (fun v f => Heads tree opts [v] f.text) vs fs) :
    Heads tree opts vs (concat fs).text := by
  induction h with
  | nil => exact ⟨fun _ => by simp, fun c hc => by simp at hc⟩
  | cons hv _ ih => exact hv.cons ih

theorem Heads.deeper {v : Visit} {t : Text} (hlead : v.lead tree opts = [])
    (h : Heads tree opts (next tree opts v) t) : Heads tree opts [v] t := by
  refine ⟨fun ht => ?_, fun c hc => .deeper hlead (h.2 c hc)⟩
  intro w hw
  obtain rfl := List.mem_singleton.mp hw
  exact .node hlead (h.1 ht)

theorem lay_starts_with_lead (v : Visit) (fs : List Fragment) :
    ∃ t, ((frame tree opts v).lay fs).text = v.lead tree opts ++ t := by
  simp only [Visit.lead]
  cases frame tree opts v with
  | skip => exact ⟨[], rfl⟩
  | around mark before after trail => simp [Frame.lead, Frame.lay, ofText]
  | item depth => simp [Frame.lead, Frame.lay]
  | row lead trail => simp [Frame.lead, Frame.lay]
  | cell sep fallback => simp [Frame.lead, Frame.lay]

theorem table_first_row {ctx : Context} {node : AgentNode} (hformat : opts.format = .markdown)
    (hrole : node.structuralRole = .table) (hrows : tableRows tree node ≠ []) :
    ∃ w ws, next tree opts (.node .block ctx node) = w :: ws ∧ w.lead tree opts ≠ [] := by
  obtain ⟨row, rows, hrow⟩ := List.exists_cons_of_ne_nil hrows
  refine ⟨.node (.row true) ctx row, rows.map fun row => .node (.row false) ctx row, ?_, ?_⟩
  · simp [next, blockNext, hrole, hrow, flagFirst]
  · simp [Visit.lead, Frame.lead, frame, rowFrame, isPlain, hformat]

/-- An actionable prints something first. -/
theorem actionable_lead (hformat : opts.format = .markdown) (node : AgentNode)
    (tag : MarkdownTag) : (actionableFrame opts node tag).lead ≠ [] := by
  have hplain : isPlain opts = false := by simp [isPlain, hformat]
  have hfixed (c : Char) (t : Text) (pieces : List Piece) :
      textOf (.fixed (c :: t) :: pieces) ≠ [] := List.cons_ne_nil _ _
  rw [actionableFrame, hplain, if_neg Bool.false_ne_true]
  cases resolvedUrl node tag with
  | some url =>
      dsimp only
      by_cases himage : tag = .image
      · rw [if_pos himage]
        exact hfixed '!' _ _
      · rw [if_neg himage]
        exact hfixed '[' _ _
  | none => exact hfixed '[' _ _

/-- A visit that prints nothing in front is skipped, or prints nothing of its own at all, or is a
table, which prints a newline behind its rows. -/
theorem quiet_frame {v : Visit} (hformat : opts.format = .markdown) (hcell : ¬ v.IsCell)
    (hlead : v.lead tree opts = []) :
    (frame tree opts v = .skip ∧ next tree opts v = []) ∨
      frame tree opts v = .print [] ∨
      (frame tree opts v = .around none [] [] [.fixed "\n"] ∧
        ∃ w ws, next tree opts v = w :: ws ∧ w.lead tree opts ≠ []) := by
  have hplain : isPlain opts = false := by simp [isPlain, hformat]
  cases v with
  | skipped => exact .inl ⟨rfl, rfl⟩
  | missing => exact absurd trivial hcell
  | node place ctx node =>
      cases place with
      | page =>
          cases hname : node.name with
          | none => exact .inr (.inl (by simp [frame, pageFrame, hname]))
          | some title =>
              simp [Visit.lead, Frame.lead, frame, pageFrame, hname, hplain, Piece.text] at hlead
      | option => simp [Visit.lead, Frame.lead, frame, optionFrame, Piece.text] at hlead
      | row header =>
          cases header <;> simp [Visit.lead, Frame.lead, frame, rowFrame, hplain] at hlead
      | cell first => exact absurd trivial hcell
      | block =>
          simp only [Visit.lead, frame, blockFrame] at hlead
          cases hrole : node.structuralRole with
          | page =>
              cases hname : node.name with
              | none => exact .inr (.inl (by simp [frame, blockFrame, hrole, pageFrame, hname]))
              | some title =>
                  simp [hrole, Frame.lead, pageFrame, hname, hplain, Piece.text] at hlead
          | heading =>
              by_cases htext : nodeText node opts = []
              · exact .inl ⟨by simp [frame, blockFrame, hrole, headingFrame, htext],
                  by simp [next, blockNext, hrole, isFlow]⟩
              · simp [hrole, Frame.lead, headingFrame, htext, hplain, Piece.text] at hlead
          | paragraph | text =>
              by_cases htext : nodeText node opts = []
              · exact .inl ⟨by simp [frame, blockFrame, hrole, textBlockFrame, htext],
                  by simp [next, blockNext, hrole, isFlow]⟩
              · simp [hrole, Frame.lead, textBlockFrame, htext, Piece.text] at hlead
          | link | button | textbox | checkbox | radio | image =>
              simp only [hrole] at hlead
              exact absurd hlead (actionable_lead hformat node _)
          | select => simp [hrole, Frame.lead, selectFrame, hplain, tagOpen, Piece.text] at hlead
          | table =>
              -- only a table without rows prints a tag of its own
              by_cases hrows : tableRows tree node = []
              · simp [hrole, Frame.lead, tableFrame, hrows, hplain, tagOpen, Piece.text] at hlead
              · exact .inr (.inr ⟨by simp [frame, blockFrame, hrole, tableFrame, hrows],
                  table_first_row hformat hrole hrows⟩)
          | region | menu | tab | frame | shadowRoot =>
              simp [hrole, Frame.lead, regionFrame, boxFrame, hplain, tagOpen, Piece.text] at hlead
          | dialog =>
              simp [hrole, Frame.lead, dialogFrame, boxFrame, hplain, tagOpen, Piece.text] at hlead
          | canvas => simp [hrole, Frame.lead, canvasFrame, Piece.text] at hlead
          | video => simp [hrole, Frame.lead, videoFrame, hplain, tagOpen, Piece.text] at hlead
          | listItem => simp [hrole, Frame.lead, bullet] at hlead
          | list | row | cell | form | unknown =>
              exact .inr (.inl (by simp [PageText.frame, blockFrame, hrole]))

/-- The output of the visits below a visit, one after the other. -/
theorem heads_below {v : Visit} (hrow : ¬ v.IsRow) {fs : List Fragment}
    (hfs : List.Forall₂ (fun w f => ¬ w.IsCell → Heads tree opts [w] f.text)
      (next tree opts v) fs) :
    Heads tree opts (next tree opts v) (concat fs).text := by
  have hand := (List.forall₂_and_left _ _).mpr ⟨fun w hw => not_cell_of_next hrow hw, hfs⟩
  exact .concat (hand.imp fun w f h => h.2 h.1)

/-- What a visit prints starts with its own head. -/
theorem heads_step (hformat : opts.format = .markdown) :
    StepRule tree opts fun v f => ¬ v.IsCell → Heads tree opts [v] f.text := by
  intro v fs hfs hcell
  by_cases hlead : v.lead tree opts = []
  swap
  · obtain ⟨t, ht⟩ := lay_starts_with_lead v fs
    rw [ht]
    exact .of_lead hlead
  have hrow : ¬ v.IsRow := by
    intro hrow
    cases v with
    | skipped | missing => exact hrow
    | node place ctx node =>
        cases place with
        | row header =>
            cases header <;>
              simp [Visit.lead, Frame.lead, frame, rowFrame, isPlain, hformat] at hlead
        | page | block | option | cell => exact hrow
  have hbelow := heads_below hrow hfs
  rcases quiet_frame hformat hcell hlead with ⟨hskip, hnext⟩ | hframe | ⟨hframe, w, ws, hnext, hw⟩
  · rw [hnext, List.forall₂_nil_left_iff] at hfs
    subst hfs
    simpa [hskip, Frame.lay] using hbelow.deeper hlead
  · simpa [hframe, Frame.lay, ofText, Mark.wrap] using hbelow.deeper hlead
  -- the first row of a table prints something, so the newline behind the rows is not first
  have hne : (concat fs).text ≠ [] := by
    intro hnil
    exact hw (hbelow.1 hnil w (by simp [hnext]) w .refl)
  have htext : ((frame tree opts v).lay fs).text = (concat fs).text ++ "\n" := by
    simp [hframe, Frame.lay, ofText, Mark.wrap, Piece.text]
  rw [htext]
  refine Heads.deeper hlead ⟨fun h => absurd (List.append_eq_nil_iff.mp h).1 hne, ?_⟩
  intro c hc
  rw [List.head?_append_of_ne_nil _ hne] at hc
  exact hbelow.2 c hc

end First

/-! ## Spans inside a fragment -/

section Fit

variable [F64Display] {tree : AgentRenderTree} {opts : MarkdownOptions}

/-- A span that cuts the markup of a visit below `v` out of a text. The text is at a place that is
inside a list item when `line` is true; an item between the two has folded the markup. -/
inductive Fit (tree : AgentRenderTree) (opts : MarkdownOptions) (v : Visit) (line : Bool) :
    Text → NodeSpan → Prop where
  | intro {w : Visit} {m : Mark} {p s t q : Text} (reaches : Reaches tree opts v w)
      (markup : Markup tree opts w m t)
      (folds : s = t ∧ w.inItem = line ∨ s = oneLine t ∧ w.inItem = true) :
      Fit tree opts v line (p ++ (s ++ q)) ⟨m.id, m.tag, len p, len p + len s, m.href, m.name⟩

variable {v : Visit} {line : Bool} {text : Text} {span : NodeSpan}

theorem Fit.append_left (h : Fit tree opts v line text span) (t : Text) :
    Fit tree opts v line (t ++ text) (span.shift (len t)) := by
  cases h with
  | @intro w m p s u q reaches markup folds =>
      have hfit := Fit.intro (p := t ++ p) (q := q) reaches markup folds
      simpa [NodeSpan.shift, Nat.add_assoc, Nat.add_comm, Nat.add_left_comm] using hfit

theorem Fit.append_right (h : Fit tree opts v line text span) (t : Text) :
    Fit tree opts v line (text ++ t) span := by
  cases h with
  | @intro w m p s u q reaches markup folds =>
      simpa using Fit.intro (p := p) (q := q ++ t) reaches markup folds

theorem Fit.above {w : Visit} (h : Fit tree opts w line text span) (hw : w ∈ next tree opts v) :
    Fit tree opts v line text span := by
  cases h with
  | intro reaches markup folds => exact .intro (.head hw reaches) markup folds

/-- A span that fits in a part fits in the whole. -/
theorem Fit.concat {fs : List Fragment}
    (h : ∀ f ∈ fs, ∀ span ∈ f.spans, Fit tree opts v line f.text span) :
    ∀ span ∈ (concat fs).spans, Fit tree opts v line (concat fs).text span := by
  induction fs with
  | nil => simp [Fragment.concat, default]
  | cons f fs ih =>
      intro span hspan
      simp only [Fragment.concat, append_spans, List.mem_append, List.mem_map] at hspan
      rcases hspan with hspan | ⟨span, hspan, rfl⟩
      · exact (h f (by simp) span hspan).append_right _
      · exact (ih (fun g hg => h g (by simp [hg])) span hspan).append_left _

/-- A visit with a span below it is the visit of a node. -/
theorem Fit.context (h : Fit tree opts v line text span) : v.context ≠ none := by
  cases h with
  | intro reaches markup _ => exact context_of_mark reaches markup.mark

/-- What the steps of the layout keep about a visit and its fragment. -/
structure Fits (tree : AgentRenderTree) (opts : MarkdownOptions) (v : Visit) (f : Fragment) :
    Prop where
  laid : Laid tree opts v f
  heads : ¬ v.IsCell → Heads tree opts [v] f.text
  spans : ∀ span ∈ f.spans, Fit tree opts v v.inItem f.text span

/-- The spans of the fragments below, seen from the visit. -/
theorem fits_below {fs : List Fragment}
    (h : List.Forall₂ (Fits tree opts) (next tree opts v) fs) :
    ∀ f ∈ fs, ∀ span ∈ f.spans, Fit tree opts v (v.inItem || v.isItem) f.text span := by
  intro f hf span hspan
  obtain ⟨w, hw, hfits⟩ := Unfold.exists_of_mem_right h hf
  have hfit := hfits.spans span hspan
  rw [← (inherits_of_next hw hfit.context).1]
  exact hfit.above hw

/-- No span fits in a cell. -/
theorem Fit.not_in_cell (hindexable : Indexable tree opts) (hv : Visited tree opts v)
    (hcell : v.inCell) (h : Fit tree opts v line text span) : False := by
  cases h with
  | @intro w m p s t q reaches markup folds =>
      obtain ⟨root, hroot, hpath⟩ := hv
      have hnode : w.context ≠ none := by
        obtain ⟨place, ctx, node, rfl⟩ := node_of_mark markup.mark
        simp [Visit.context]
      have hnone := hindexable.no_cell w ⟨root, hroot, hpath.trans reaches⟩
        (in_cell_of_reaches reaches hnode hcell)
      rw [markup.mark] at hnone
      cases hnone

/-- Collapsing the body of a list item keeps its spans in place. -/
theorem Fit.collapse (line : Bool) (hformat : opts.format = .markdown)
    (hindexable : Indexable tree opts) (hv : Visited tree opts v) (hitem : v.isItem)
    (h : Fit tree opts v true text span)
    (hheads : Heads tree opts (next tree opts v) text) :
    Fit tree opts v line (collapse text) span := by
  cases h with
  | @intro w m p s t q reaches markup folds =>
      obtain ⟨place, ctx, node, rfl⟩ := node_of_mark markup.mark
      obtain ⟨root, hroot, hpath⟩ := id hv
      have hw : Visited tree opts (.node place ctx node) := ⟨root, hroot, hpath.trans reaches⟩
      have hcloses := (markup.tokens hformat (hindexable.no_video _ hw)
        (hindexable.no_option _ hw)).2.2
      -- the markup ends with a black character, and so does its folded form
      obtain ⟨t', c, hc, hs⟩ : ∃ t' c, ¬ isWhitespace c ∧ s = t' ++ [c] := by
        obtain ⟨u, c, hclose, hc⟩ := close_token_ends node m.tag
        obtain ⟨t', rfl⟩ := hcloses
        have hnewline : c ≠ '\n' := by
          rintro rfl
          exact hc (by decide)
        rw [hclose] at folds
        rcases folds with ⟨rfl, -⟩ | ⟨rfl, -⟩
        · exact ⟨t' ++ u, c, hc, by simp⟩
        · exact ⟨oneLine (t' ++ u), c, hc, by
            simp [one_line_cons, hnewline, show oneLine [] = [] from rfl]⟩
      have hfirst : ∀ d ∈ (p ++ (s ++ q)).head?, ¬ isWhitespace d := fun d hd =>
        hindexable.begins v hv hitem ⟨_, reaches, by simp [markup.mark]⟩ d (hheads.2 d hd)
      obtain ⟨q', hq'⟩ : ∃ q', PageText.collapse (p ++ (s ++ q)) =
          oneLine p ++ (oneLine s ++ q') := by
        rw [hs] at hfirst ⊢
        exact collapse_append hc hfirst
      have hfolds : oneLine s = oneLine t ∧ (Visit.node place ctx node).inItem = true := by
        rcases folds with ⟨rfl, hinside⟩ | ⟨rfl, hinside⟩
        · exact ⟨rfl, hinside⟩
        · exact ⟨one_line_one_line t, hinside⟩
      have hfit : Fit tree opts v line (oneLine p ++ (oneLine s ++ q')) _ :=
        .intro reaches markup (.inr hfolds)
      rw [len_one_line, len_one_line] at hfit
      rw [hq']
      exact hfit

/-- The spans of a visit fit if those below do. -/
theorem fits_step (hformat : opts.format = .markdown) (hindexable : Indexable tree opts)
    (v : Visit) (fs : List Fragment) (hv : Visited tree opts v)
    (hfs : List.Forall₂ (Fits tree opts) (next tree opts v) fs) :
    Fits tree opts v ((frame tree opts v).lay fs) := by
  have hlaid : List.Forall₂ (Laid tree opts) (next tree opts v) fs := hfs.imp fun w f h => h.laid
  have hheads := hfs.imp fun w f h => h.heads
  refine ⟨.lay hlaid, heads_step hformat v fs hheads, ?_⟩
  have hbelow := fits_below hfs
  rcases frame_cases tree opts v with ⟨hframe, -⟩ |
    ⟨hitem, mark, before, after, trail, hframe⟩ | ⟨hitem, depth, hframe⟩ |
    ⟨hrow, lead, trail, hframe⟩ | ⟨hcell, first, fallback, hframe, -⟩
  · simp [hframe, Frame.lay]
  -- a frame around the visits below moves their spans, and adds the one of its mark
  · rw [hitem, Bool.or_false] at hbelow
    have hinner : ∀ span ∈ (ofText (textOf before) ++ concat fs ++ ofText (textOf after)).spans,
        Fit tree opts v v.inItem
          (ofText (textOf before) ++ concat fs ++ ofText (textOf after)).text span := by
      intro span hspan
      simp only [append_spans, ofText, List.map_nil, List.append_nil, List.nil_append,
        List.mem_map] at hspan
      obtain ⟨span, hspan, rfl⟩ := hspan
      exact ((Fit.concat hbelow span hspan).append_left _).append_right _
    have hwrap : ∀ span ∈ (Mark.wrap mark
        (ofText (textOf before) ++ concat fs ++ ofText (textOf after))).spans,
        Fit tree opts v v.inItem (Mark.wrap mark
          (ofText (textOf before) ++ concat fs ++ ofText (textOf after))).text span := by
      intro span hspan
      cases mark with
      | none => exact hinner span hspan
      | some m =>
          rcases List.mem_append.mp hspan with hspan | hspan
          · exact hinner span hspan
          · obtain rfl := List.mem_singleton.mp hspan
            have hmarkup : Markup tree opts v m _ := .intro hframe hlaid
            simpa [ofText] using
              Fit.intro (p := []) (q := []) (.refl : Reaches tree opts v v) hmarkup
                (.inl ⟨rfl, rfl⟩)
    intro span hspan
    rw [hframe] at hspan ⊢
    simp only [Frame.lay, append_spans, ofText, List.map_nil, List.append_nil] at hspan
    exact (hwrap span hspan).append_right _
  -- the body of an item is collapsed, so its spans are those of the folded text
  · rw [hitem, Bool.or_true] at hbelow
    have hrow : ¬ v.IsRow := by
      intro hrow
      cases v with
      | skipped | missing => exact hrow
      | node place ctx node => cases place <;> simp_all [Visit.IsRow, Visit.isItem]
    intro span hspan
    rw [hframe] at hspan ⊢
    obtain ⟨inner, hinner, rfl⟩ := List.mem_map.mp hspan
    have hcollapse := (Fit.concat hbelow inner hinner).collapse v.inItem hformat
      hindexable hv hitem (heads_below hrow hheads)
    exact (hcollapse.append_left _).append_right _
  · intro span hspan
    rw [hframe] at hspan
    obtain ⟨f, hf, hspan⟩ := List.mem_flatMap.mp hspan
    obtain ⟨w, hw, hfits⟩ := Unfold.exists_of_mem_right hfs hf
    -- a span below a row would be in a cell, where an indexable tree marks nothing
    have hfit := hfits.spans span hspan
    exact (hfit.not_in_cell hindexable (hv.next hw) (in_cell_of_row hrow hw hfit.context)).elim
  · intro span hspan
    rw [hframe] at hspan
    have hfit := Fit.concat hbelow span hspan
    exact (hfit.not_in_cell hindexable hv (in_cell_of_visited hv hcell hfit.context)).elim

end Fit

/-! ## The whole view -/

/-- Escaping makes no other characters than those of the entities. -/
theorem not_mem_escape {c : Char} {t : Text} (hc : c ∉ ("&quot;&amp;&lt;&gt;" : Text))
    (h : c ∉ t) : c ∉ escapeAttrInline t := by
  intro hmem
  obtain ⟨d, hd, hn⟩ := List.mem_flatMap.mp hmem
  unfold escapeChar at hn
  split at hn
  case h_5 => exact h (List.mem_singleton.mp hn ▸ hd)
  all_goals
    refine hc ((?_ : _ ⊆ ("&quot;&amp;&lt;&gt;" : Text)) hn)
    decide

theorem newline_not_mem_escape {t : Text} (h : '\n' ∉ t) : '\n' ∉ escapeAttrInline t :=
  not_mem_escape (by decide) h

/-- The tokens of a node are on one line when what they print of the node is. -/
theorem newline_not_mem_tokens {node : AgentNode} {tag : MarkdownTag}
    (h : '\n' ∉ (resolvedUrl node tag).getD node.id) :
    '\n' ∉ openToken node tag ∧ '\n' ∉ closeToken node tag := by
  have htag : '\n' ∉ tag.asStr := by cases tag <;> decide
  unfold openToken closeToken
  cases hurl : resolvedUrl node tag with
  | some url =>
      rw [hurl] at h
      dsimp only
      refine ⟨?_, by simpa using h⟩
      split_ifs <;> decide
  | none =>
      rw [hurl] at h
      have hid : '\n' ∉ escapeAttrInline node.id := newline_not_mem_escape h
      simp [hid, htag]

section View

variable [F64Display] {tree : AgentRenderTree} {opts : MarkdownOptions}

/-- A span that fits the printed page is right in the content around it. -/
theorem Fit.span_ok (hformat : opts.format = .markdown) (hindexable : Indexable tree opts)
    {root : AgentNode} (hroot : tree.find tree.root = some root) {content text before after : Text}
    {span : NodeSpan} (h : Fit tree opts (rootVisit root) false text span)
    (hcontent : content = before ++ (text ++ after)) :
    SpanOk tree opts content (span.shift (len before)) := by
  have hfit := (h.append_right after).append_left before
  rw [← hcontent] at hfit
  generalize span.shift (len before) = outer at hfit ⊢
  clear hcontent
  cases hfit with
  | @intro w m p s t q reaches markup folds =>
      obtain ⟨place, ctx, node, rfl⟩ := node_of_mark markup.mark
      have hw : Visited tree opts (.node place ctx node) := ⟨root, hroot, reaches⟩
      obtain ⟨hid, hopens, hcloses⟩ := markup.tokens hformat (hindexable.no_video _ hw)
        (hindexable.no_option _ hw)
      have hprinted : s = printed ctx t := by
        rcases folds with ⟨rfl, hinside⟩ | ⟨rfl, hinside⟩
        all_goals
          have hctx : (Visit.node place ctx node).inItem = ctx.inItem := rfl
          rw [hctx] at hinside
          simp [printed, hinside]
      have htokens : openToken node m.tag <+: s ∧ closeToken node m.tag <:+ s := by
        rw [hprinted, printed]
        split_ifs with hitem
        -- the tokens are on one line, so they are still there in the folded markup
        · obtain ⟨hopenLine, hcloseLine⟩ :=
            newline_not_mem_tokens (hindexable.one_line place ctx node m hw markup.mark hitem)
          obtain ⟨rest, rfl⟩ := hopens
          obtain ⟨start, hstart⟩ := hcloses
          refine ⟨⟨oneLine rest, ?_⟩, ⟨oneLine start, ?_⟩⟩
          · rw [one_line_append, one_line_of_not_mem hopenLine]
          · rw [← hstart, one_line_append, one_line_of_not_mem hcloseLine]
        · exact ⟨hopens, hcloses⟩
      have hslice : slice (p ++ (s ++ q)) (len p) (len p + len s) = s := slice_append p s q
      have hstop : isCharBoundary (p ++ (s ++ q)) (len p + len s) := by
        rw [← List.append_assoc, ← len_append]
        exact isCharBoundary_append _ _
      refine ⟨by simp, by simp, isCharBoundary_append _ _, hstop,
        place, ctx, node, m, t, hw, markup, hid, rfl, ?_, ?_, ?_⟩
      · rw [hslice, hprinted]
      · rw [hslice]
        exact htokens.1
      · rw [hslice]
        exact htokens.2

/-- On an indexable tree every span cuts the markup of its node out of the content. -/
theorem emit_indexed (hacyclic : tree.Acyclic) (hformat : opts.format = .markdown)
    (hindexable : Indexable tree opts) :
    ∃ bound, ∀ depth ≥ bound, ∃ view, emit tree opts depth = some view ∧
      ∀ span ∈ view.nodeIndex, SpanOk tree opts view.content span := by
  obtain ⟨bound, hbound⟩ := eventually_emit opts hacyclic
  refine ⟨bound, fun depth hdepth => ?_⟩
  obtain ⟨view, hview⟩ := hbound depth hdepth
  refine ⟨view, hview, ?_⟩
  rw [emit_eq, Option.map_eq_some_iff] at hview
  obtain ⟨f, hplan, rfl⟩ := hview
  intro span hspan
  rw [finish_index] at hspan
  obtain ⟨inner, hinner, rfl⟩ := List.mem_map.mp hspan
  have hinner : inner ∈ f.spans := by
    simpa [MarkdownEmitter.new, MarkdownEmitter.append] using hinner
  cases hroot : tree.find tree.root with
  | none =>
      obtain rfl : default = f := by simpa [pagePlan, hroot] using hplan
      simp [default] at hinner
  | some root =>
      have hfits := page_plan_induction (fits_step hformat hindexable) hroot hplan
      exact (hfits.spans inner hinner).span_ok hformat hindexable hroot (finish_content _)

omit [F64Display] in
/-- A list of visits that the walk does not leave holds every visit of the page. -/
theorem mem_of_visited {root : AgentNode} (hroot : tree.find tree.root = some root)
    {visits : List Visit} (hstart : rootVisit root ∈ visits)
    (hnext : ∀ v ∈ visits, ∀ w ∈ next tree opts v, w ∈ visits) {v : Visit}
    (h : Visited tree opts v) : v ∈ visits := by
  obtain ⟨root', hroot', hpath⟩ := h
  obtain rfl : root = root' := Option.some.inj (hroot.symm.trans hroot')
  induction hpath with
  | refl => exact hstart
  | tail _ hw ih => exact hnext _ ih _ hw

/-- Visits whose first one prints something in front begin with that. -/
theorem Begins.eq_first {c d : Char} {vs : List Visit} (h : Begins tree opts c vs)
    (hd : (vs.head?.bind fun v => (v.lead tree opts).head?) = some d) : c = d := by
  cases h with
  | lead first => exact Option.some.inj (first.symm.trans hd)
  | deeper empty _ => simp [empty] at hd
  | later silent _ => simp [silent _ .refl] at hd

end View

/-- A link, and a button in a list item. -/
def listPage : AgentRenderTree where
  root := "page"
  nodes := [.plain "page" .page (some "Home") ["more", "list"],
    { AgentNode.plain "more" .link (some "More") [] with value := some (.url "/more") },
    .plain "list" .list none ["item"], .plain "item" .listItem none ["go"],
    .plain "go" .button (some "Go") []]
  generation := 0
  truncated := false

/-- The visits of `listPage`. -/
def listVisits : List Visit :=
  [rootVisit (.plain "page" .page (some "Home") ["more", "list"]),
    childVisit listPage default ⟨0, false, false⟩ "more",
    childVisit listPage default ⟨0, false, false⟩ "list",
    childVisit listPage default ⟨1, false, false⟩ "item",
    childVisit listPage default ⟨1, true, false⟩ "go"]

theorem mem_list_visits {v : Visit} (h : Visited listPage default v) : v ∈ listVisits :=
  have hroot : listPage.find listPage.root =
      some (.plain "page" .page (some "Home") ["more", "list"]) := by decide
  mem_of_visited hroot (by decide) (by decide) h

/-- The page with a list is indexable. -/
theorem list_page_indexable : @Indexable F64Display.ofWhole listPage default := by
  let display := F64Display.ofWhole
  refine ⟨?_, ?_, ?_, ?_, ?_⟩
  · have h : ∀ v ∈ listVisits, ¬ v.isVideo := by decide
    exact fun v hv => h v (mem_list_visits hv)
  · have h : ∀ v ∈ listVisits, ¬ v.isOption := by decide
    exact fun v hv => h v (mem_list_visits hv)
  · have h : ∀ v ∈ listVisits, v.inCell → v.mark listPage default = none := by decide
    exact fun v hv => h v (mem_list_visits hv)
  · intro v hv hitem _ c hc
    have h : ∀ v ∈ listVisits, v.isItem → ((next listPage default v).head?.bind fun w =>
        (w.lead listPage default).head?) = some '[' := by decide
    rw [hc.eq_first (h v (mem_list_visits hv) hitem)]
    decide
  · intro place ctx node m hv hmark hitem
    have hgo : ∀ v ∈ listVisits, v.inItem →
        v = .node .block ⟨1, true, false⟩ (.plain "go" .button (some "Go") []) := by decide
    cases hgo _ (mem_list_visits hv) hitem
    have htag : ∀ m ∈ (Visit.node .block ⟨1, true, false⟩
        (.plain "go" .button (some "Go") [])).mark listPage default, m.tag = .button := by
      decide
    rw [htag m hmark]
    decide

theorem list_page_indexed : ∃ bound, ∀ depth ≥ bound, ∃ view,
    @emit F64Display.ofWhole listPage default depth = some view ∧
      ∀ span ∈ view.nodeIndex, @SpanOk F64Display.ofWhole listPage default view.content span :=
  @emit_indexed F64Display.ofWhole listPage default
    (AgentRenderTree.acyclic_of_ordered (by decide)) rfl list_page_indexable

/-- A button in a table cell. -/
def cellPage : AgentRenderTree where
  root := "page"
  nodes := [.plain "page" .page none ["table"], .plain "table" .table none ["row"],
    .plain "row" .row none ["cell"], .plain "cell" .cell none ["go"],
    .plain "go" .button (some "Go") []]
  generation := 0
  truncated := false

/-- The span of the button starts at the bar of its row. -/
theorem cell_page_not_indexed : cellPage.Acyclic ∧
    ¬ ∃ bound, ∀ depth ≥ bound, ∃ view,
      @emit F64Display.ofWhole cellPage default depth = some view ∧
        ∀ span ∈ view.nodeIndex, @SpanOk F64Display.ofWhole cellPage default view.content span := by
  let display := F64Display.ofWhole
  refine ⟨AgentRenderTree.acyclic_of_ordered (by decide), ?_⟩
  rintro ⟨bound, hbound⟩
  obtain ⟨view, hview, hspans⟩ := hbound (max bound 3) (le_max_left _ _)
  have hreturns : (emit cellPage default 3).isSome := by decide
  obtain ⟨shown, hshown⟩ := Option.isSome_iff_exists.mp hreturns
  obtain rfl : shown = view :=
    Option.some.inj ((emit_mono (le_max_right _ _) hshown).symm.trans hview)
  have hbar : ∀ shown ∈ emit cellPage default 3, ∃ span ∈ shown.nodeIndex,
      (slice shown.content span.start span.stop).head? = some '|' := by decide
  obtain ⟨span, hspan, hhead⟩ := hbar shown hshown
  obtain ⟨place, ctx, node, m, t, -, -, -, -, -, ⟨rest, hopen⟩, -⟩ := (hspans span hspan).cuts
  rw [← hopen] at hhead
  unfold openToken at hhead
  split at hhead
  · split_ifs at hhead <;> simp at hhead
  · simp at hhead

end BrowsAI.PageText
