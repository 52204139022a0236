import BrowsAI.Library.Unfold
import BrowsAI.PageText.Visits

/-!
# Laying out the walk

A `Fragment` is a piece of output with spans relative to its start. `Frame.lay` puts the fragments
of the visits below a visit inside its frame, and `plan` lays out the whole walk, cells and rows
within a table at the depth of the table as in the source.

`emit_child_eq` is the refinement: emitting a child appends its laid out fragment to the buffer,
the index, and the count, and does nothing else. `plan_induction` proves a property of every
fragment from one case per visit.
-/

namespace BrowsAI.PageText

open Utf8 AgentTree Unfold

/-! ## Fragments -/

/-- The span so many bytes further on. -/
def NodeSpan.shift (n : Nat) (span : NodeSpan) : NodeSpan :=
  { span with start := span.start + n, stop := span.stop + n }

@[simp] theorem NodeSpan.shift_zero (span : NodeSpan) : span.shift 0 = span := rfl

@[simp] theorem NodeSpan.shift_shift (m n : Nat) (span : NodeSpan) :
    (span.shift m).shift n = span.shift (m + n) := by
  simp [NodeSpan.shift, Nat.add_assoc]

/-- A part of the text, with the spans in it. -/
structure Fragment where
  text : Text
  spans : List NodeSpan
  skipped : Nat
  deriving DecidableEq

namespace Fragment

/-- One fragment behind another. -/
def append (f g : Fragment) : Fragment :=
  ⟨f.text ++ g.text, f.spans ++ g.spans.map (NodeSpan.shift (len f.text)), f.skipped + g.skipped⟩

instance : Append Fragment := ⟨append⟩

instance : Inhabited Fragment := ⟨⟨[], [], 0⟩⟩

@[simp] theorem append_text (f g : Fragment) : (f ++ g).text = f.text ++ g.text := rfl

@[simp] theorem append_spans (f g : Fragment) :
    (f ++ g).spans = f.spans ++ g.spans.map (NodeSpan.shift (len f.text)) := rfl

@[simp] theorem append_skipped (f g : Fragment) : (f ++ g).skipped = f.skipped + g.skipped := rfl

/-- Fragments one after the other. -/
def concat : List Fragment → Fragment
  | [] => default
  | f :: fs => f ++ concat fs

@[simp] theorem concat_nil_text : (concat []).text = [] := rfl

@[simp] theorem concat_cons_text (f : Fragment) (fs : List Fragment) :
    (concat (f :: fs)).text = f.text ++ (concat fs).text := rfl

theorem concat_text (fs : List Fragment) : (concat fs).text = (fs.map text).flatten := by
  induction fs with
  | nil => rfl
  | cons f fs ih => simp [ih]

/-- Text without spans. -/
def ofText (t : Text) : Fragment := ⟨t, [], 0⟩

end Fragment

open Fragment

/-- The whole fragment as one span, recorded after the spans inside it. -/
def Mark.wrap (mark : Option Mark) (f : Fragment) : Fragment :=
  match mark with
  | none => f
  | some m =>
      { f with spans := f.spans ++ [⟨m.id, m.tag, 0, len f.text, m.href, m.name⟩] }

@[simp] theorem Mark.wrap_text (mark : Option Mark) (f : Fragment) :
    (Mark.wrap mark f).text = f.text := by
  cases mark <;> rfl

/-- The indentation and bullet of a list item. -/
def bullet (depth : Nat) : Text := (List.replicate depth "  ".toList).flatten ++ "- "

/-- The text of a cell whose visits print `raw`. -/
def cellText (fallback : Option Text) (raw : Text) : Text :=
  match fallback with
  | none => []
  | some text => escapePipes (if collapse raw = [] then text else collapse raw)

/-- A frame around the fragments of the visits below it. The spans inside a list item keep the
offsets they had before the item was collapsed, and the spans inside a row keep offsets from the
start of the row, since each of its cells is printed there before it is cut out. -/
def Frame.lay : Frame → List Fragment → Fragment
  | .skip, _ => ⟨[], [], 1⟩
  | .around mark before after trail, fs =>
      Mark.wrap mark (ofText (textOf before) ++ concat fs ++ ofText (textOf after)) ++
        ofText (textOf trail)
  | .item depth, fs =>
      let body := concat fs
      ⟨bullet depth ++ collapse body.text ++ "\n",
        body.spans.map (NodeSpan.shift (len (bullet depth))), body.skipped⟩
  | .row lead trail, fs =>
      ⟨lead ++ (fs.map Fragment.text).flatten ++ trail, fs.flatMap Fragment.spans,
        (fs.map Fragment.skipped).sum⟩
  | .cell sep fallback, fs =>
      let body := concat fs
      ⟨sep ++ cellText fallback body.text, body.spans, body.skipped⟩

/-! ## The plan -/

section Plan

variable [F64Display] (tree : AgentRenderTree) (opts : MarkdownOptions)

/-- One visit laid out around the fragments of the visits it leads to. -/
abbrev layVisit (sub : Visit → Option Fragment) (v : Visit) : Option Fragment :=
  expand (next tree opts) (fun v fs => (frame tree opts v).lay fs) sub v

/-- A visit laid out with its rows, cells, and options, given the layout of the blocks below. -/
def planVisit (sub : Visit → Option Fragment) (v : Visit) : Option Fragment :=
  match v with
  | .node .block _ node =>
      if node.structuralRole = .table then
        layVisit tree opts (layVisit tree opts (layVisit tree opts sub)) v
      else if node.structuralRole = .select then layVisit tree opts (layVisit tree opts sub) v
      else layVisit tree opts sub v
  | v => layVisit tree opts sub v

/-- The fragment of a visit, at most `depth` blocks deep. -/
def plan : Nat → Visit → Option Fragment
  | 0, _ => none
  | depth + 1, v => planVisit tree opts (plan depth) v

variable {tree opts}

/-- The one-step rule of `plan_induction`: what holds of the visits below holds of the visit. -/
def StepRule (tree : AgentRenderTree) (opts : MarkdownOptions)
    (P : Visit → Fragment → Prop) : Prop :=
  ∀ v fs, List.Forall₂ P (next tree opts v) fs → P v ((frame tree opts v).lay fs)

theorem lay_visit_induction {P : Visit → Fragment → Prop} (hstep : StepRule tree opts P)
    {sub : Visit → Option Fragment} (hsub : ∀ v f, sub v = some f → P v f) {v : Visit}
    {f : Fragment} (h : layVisit tree opts sub v = some f) : P v f := by
  obtain ⟨fs, hfs, rfl⟩ := expand_eq_some_iff.mp h
  exact hstep v fs (hfs.imp fun w g hg => hsub w g hg)

/-- A property of fragments that every visit passes up holds of every fragment of a plan. -/
theorem plan_induction {P : Visit → Fragment → Prop} (hstep : StepRule tree opts P)
    {depth : Nat} {v : Visit} {f : Fragment} (h : plan tree opts depth v = some f) : P v f := by
  induction depth generalizing v f with
  | zero => simp [plan] at h
  | succ depth ih =>
      have hblock {v f} := lay_visit_induction hstep (@ih) (v := v) (f := f)
      have hcell {v f} := lay_visit_induction hstep (@hblock) (v := v) (f := f)
      have hrow {v f} := lay_visit_induction hstep (@hcell) (v := v) (f := f)
      rw [plan] at h
      unfold planVisit at h
      split at h
      · split_ifs at h
        exacts [hrow h, hcell h, hblock h]
      · exact hblock h

end Plan

end BrowsAI.PageText
