import BrowsAI.Library.Occurs
import BrowsAI.PageText.Blank

/-!
# Tags that were not emitted

An action tag with an id begins with an opening such as `[link id="`. The emitter escapes the ids
and the other attribute values, but copies names, values, and URLs as they are, so that a page can
write an opening into its own texts: `Unforged` lists the four ways in which it can. The third and
the fourth come from list items and table cells, which fold the newlines of what they contain to
spaces, and print texts next to each other that were on lines of their own.

`vouched_before` says that what a visit prints in front of the visits below it has no other openings
than its own then.
-/

namespace BrowsAI.PageText

open Utf8 AgentTree Fragment Relation Occurs

/-! ## Openings -/

/-- What a tag with an id begins with. -/
def MarkdownTag.opening (tag : MarkdownTag) : Text := "[" ++ tag.asStr ++ " id=\""

/-- The tag with an id that the emitter prints for a role. -/
def tagOfRole : StructuralRole → Option MarkdownTag
  | .link => some .link
  | .button => some .button
  | .textbox => some .textbox
  | .checkbox => some .checkbox
  | .radio => some .radio
  | .select => some .select
  | .image => some .image
  | .table => some .table
  | .region | .menu | .tab | .frame | .shadowRoot => some .region
  | .dialog => some .dialog
  | _ => none

/-- The node has a role that produces the tag; what a select contains is an option. -/
def Produces (tree : AgentRenderTree) (node : AgentNode) (tag : MarkdownTag) : Prop :=
  tagOfRole node.structuralRole = some tag ∨
    tag = .option ∧
      ∃ parent ∈ tree.nodes, parent.structuralRole = .select ∧ node.id ∈ parent.children

/-- What happens to a text after it is printed: nothing, or a list item folds it, or a table cell
folds it and escapes its bars. -/
inductive Setting where
  | page
  | item
  | cell

namespace Setting

/-- The text without its newlines, unless nothing happens to it. -/
def fold : Setting → Text → Text
  | .page, t => t
  | _, t => oneLine t

/-- The characters that do not stay as they are. -/
def unstable : Setting → List Char
  | .page => []
  | .item => ['\n']
  | .cell => ['\n', '|']

@[simp] theorem fold_append (setting : Setting) (s t : Text) :
    setting.fold (s ++ t) = setting.fold s ++ setting.fold t := by
  cases setting <;> simp [fold]

@[simp] theorem fold_nil (setting : Setting) : setting.fold [] = [] := by
  cases setting <;> rfl

theorem fold_of_not_mem {setting : Setting} {t : Text} (h : '\n' ∉ t) : setting.fold t = t := by
  cases setting with
  | page => rfl
  | item | cell => exact one_line_of_not_mem h

/-- Table cells change most. -/
theorem unstable_subset (setting : Setting) : setting.unstable ⊆ cell.unstable := by
  cases setting <;> decide

/-- Folding makes no quotes and no brackets. -/
theorem mem_of_mem_fold {setting : Setting} {c : Char} {t : Text} (hc : c ≠ ' ')
    (h : c ∈ setting.fold t) : c ∈ t := by
  cases setting with
  | page => exact h
  | item | cell =>
      obtain ⟨d, hd, hmem⟩ := List.mem_flatMap.mp h
      split_ifs at hmem
      · exact absurd (List.mem_singleton.mp hmem) hc
      · rwa [List.mem_singleton.mp hmem]

end Setting

section Conditions

variable [F64Display] (tree : AgentRenderTree) (opts : MarkdownOptions)

/-- The visit is printed inside the list item or the table cell `x`. -/
def Inside (x : Visit) : Visit → Prop := TransGen (fun v w => w ∈ next tree opts v) x

/-- The visit is printed in the setting. -/
def PrintedIn : Setting → Visit → Prop
  | .page, v => Visited tree opts v
  | .item, v => ∃ x, Visited tree opts x ∧ x.isItem ∧ Inside tree opts x v
  | .cell, v => ∃ x, Visited tree opts x ∧ x.IsCell ∧ Inside tree opts x v

/-- The fixed text at the start. -/
def leading : List Piece → Text
  | .fixed u :: _ => u
  | _ => []

/-- The texts of the page, each with the fixed text in front of it and behind it. -/
def windows : Text → List Piece → List Text
  | _, [] => []
  | _, .fixed u :: ps => windows u ps
  | u, .copied t :: ps => (u ++ t ++ leading ps) :: windows [] ps
  | u, .escaped t :: ps => (u ++ escapeAttrInline t ++ leading ps) :: windows [] ps

/-- The windows of a frame. In Markdown format no text of the page is behind the visits below. -/
def Frame.windows : Frame → List Text
  | .around _ before _ _ => PageText.windows [] before
  | _ => []

/-- The visit prints the tag for the id. -/
def PrintsTag (v : Visit) (tag : MarkdownTag) (id : AgentNodeId) : Prop :=
  ∃ mark lead attrs close rest after trail, frame tree opts v =
    .around mark (lead ++ tagOpen tag.asStr (⟨"id", id⟩ :: attrs) close ++ rest) after trail

/-- The visit prints a text of the page on a line of its own. -/
def Loose (v : Visit) (t : Text) : Prop :=
  frame tree opts v = .print [.copied t, .fixed "\n"]

/-- The text ends with a bracket and the name of a tag, up to white space. -/
def EndsOpen (s : Text) : Prop :=
  ∃ (tag : MarkdownTag) (x w : Text), s = x ++ ("[" ++ tag.asStr) ++ w ∧ Blank w

/-- No text of the page looks like a tag where it is printed. -/
structure Unforged : Prop where
  /-- No text of the page, together with the markup around it, has an opening. -/
  texts : ∀ setting v, PrintedIn tree opts setting v → ∀ s ∈ (frame tree opts v).windows,
    ∀ tag : MarkdownTag, ¬ tag.opening <:+: setting.fold s
  /-- Neither has a text that a table cell falls back to. -/
  cells : ∀ setting v t, PrintedIn tree opts setting v → FallsBack tree opts v t →
    ∀ tag : MarkdownTag, ¬ tag.opening <:+: setting.fold t
  /-- The ids in tags are not changed by list items and table cells. -/
  ids : ∀ setting v tag id, PrintedIn tree opts setting v → PrintsTag tree opts v tag id →
    ∀ c ∈ setting.unstable, c ∉ id
  /-- In no list item or table cell is there a line that ends with `[` and the name of a tag, and
  another that begins with `id="`. -/
  apart : ∀ x, Visited tree opts x → x.isItem ∨ x.IsCell → ∀ v w s t,
    Inside tree opts x v → Inside tree opts x w → Loose tree opts v s → Loose tree opts w t →
      EndsOpen (oneLine s) → ¬ ("id=\"" : Text) <+: t

end Conditions

/-! ## Genuine openings -/

/-- The text continues with the id of a node that the tag belongs to, and what happens to the text
later does not change the id. -/
def Genuine (tree : AgentRenderTree) (setting : Setting) (tag : MarkdownTag) (rest : Text) : Prop :=
  ∃ node ∈ tree.nodes, Produces tree node tag ∧
    (∀ c ∈ setting.unstable, c ∉ escapeAttrInline node.id) ∧
    escapeAttrInline node.id ++ ['"'] <+: rest

/-- Every opening in the text is genuine. -/
abbrev Vouched (tree : AgentRenderTree) (setting : Setting) (s : Text) : Prop :=
  Followed MarkdownTag.opening (Genuine tree setting) s

theorem opening_head (tag : MarkdownTag) : tag.opening.head? = some '[' := rfl

theorem opening_last (tag : MarkdownTag) : tag.opening.getLast? = some '"' := by
  cases tag <;> decide

theorem quote_not_mem_drop_last (tag : MarkdownTag) : '"' ∉ tag.opening.dropLast := by
  cases tag <;> decide

/-- A tag is found by its name. -/
theorem as_str_injective : Function.Injective MarkdownTag.asStr := by
  have hfind : ∀ tag : MarkdownTag, [MarkdownTag.link, .button, .textbox, .checkbox, .radio,
      .select, .option, .image, .heading, .region, .dialog, .challenge, .form, .list, .listItem,
      .table, .row, .cell].find? (fun found => found.asStr = tag.asStr) = some tag := by
    intro tag
    cases tag <;> decide
  intro tag tag' h
  have htag := hfind tag
  rw [h, hfind tag'] at htag
  exact (Option.some.inj htag).symm

/-- The characters with which the markup of a line ends. -/
def closers : List Char := [']', ')', '|']

theorem closers_not_mem (tag : MarkdownTag) : ∀ c ∈ '\n' :: closers, c ∉ tag.opening := by
  cases tag <;> exact forall_mem_of_all (by decide)

section Pieces

variable {tree : AgentRenderTree} {setting : Setting} {s t : Text}

theorem genuine_extends : Extends (Genuine tree setting) := by
  rintro tag b t ⟨node, hnode, hproduces, hstable, hid⟩
  exact ⟨node, hnode, hproduces, hstable, hid.trans (List.prefix_append b t)⟩

theorem Vouched.append_closed {c : Char} (hc : c ∈ '\n' :: closers) (hs : Vouched tree setting (s ++ [c]))
    (ht : Vouched tree setting t) : Vouched tree setting (s ++ [c] ++ t) :=
  hs.append_of_last genuine_extends
    (fun tag h => closers_not_mem tag c hc (List.mem_of_mem_dropLast h)) ht

theorem Vouched.append_quote (hs : Vouched tree setting (s ++ ['"'])) (ht : Vouched tree setting t) :
    Vouched tree setting (s ++ ['"'] ++ t) :=
  hs.append_of_last genuine_extends quote_not_mem_drop_last ht

theorem Vouched.append_closer {c : Char} (hc : c ∈ '\n' :: closers) (hs : Vouched tree setting s)
    (ht : Vouched tree setting (c :: t)) : Vouched tree setting (s ++ c :: t) :=
  hs.append_of_head genuine_extends
    (fun tag h => closers_not_mem tag c hc (List.mem_of_mem_tail h)) ht

theorem vouched_of_no_quote (h : '"' ∉ s) : Vouched tree setting s :=
  followed_of_not_last opening_last h

theorem Vouched.append_plain (hs : Vouched tree setting s) (ht : '"' ∉ t) :
    Vouched tree setting (s ++ t) :=
  Followed.append_plain genuine_extends opening_last hs ht

theorem Vouched.plain_append (hs : '[' ∉ s) (ht : Vouched tree setting t) :
    Vouched tree setting (s ++ t) :=
  Followed.plain_append genuine_extends opening_head hs ht

/-- What has no quotes can be cut off. -/
theorem Vouched.of_append_plain (h : Vouched tree setting (s ++ t)) (ht : '"' ∉ t) :
    Vouched tree setting s := by
  refine h.of_append_left ?_
  rintro tag b ⟨node, hnode, hproduces, hstable, hid⟩
  exact ⟨node, hnode, hproduces, hstable, prefix_of_prefix_append hid ht⟩

/-! ## Pieces -/

/-- The windows of attributes are the attributes. -/
theorem windows_attrs (u close : Text) (attrs : List Attribute) (ps : List Piece) :
    windows u (attrs.flatMap Attribute.pieces ++ .fixed close :: ps) =
      attrs.map Attribute.markup ++ windows close ps := by
  induction attrs generalizing u with
  | nil => rfl
  | cons a attrs ih =>
      have hstep : windows u ((a :: attrs).flatMap Attribute.pieces ++ .fixed close :: ps) =
          a.markup ::
            windows "\"" (attrs.flatMap Attribute.pieces ++ .fixed close :: ps) := rfl
      rw [hstep, ih]
      rfl

/-- The windows of a tag are its attributes. -/
theorem windows_tag_open (u tag close : Text) (attrs : List Attribute) (ps : List Piece) :
    windows u (tagOpen tag attrs close ++ ps) =
      attrs.map Attribute.markup ++ windows close ps := by
  rw [tagOpen, List.append_assoc, List.cons_append]
  exact windows_attrs _ close attrs ps

/-- Attributes without openings, between a quote and a text. -/
theorem vouched_attrs {attrs : List Attribute} (hs : Vouched tree setting (s ++ ['"']))
    (hattrs : ∀ a ∈ attrs, ∀ tag : MarkdownTag, ¬ tag.opening <:+: setting.fold a.markup)
    (ht : Vouched tree setting t) :
    Vouched tree setting
      (s ++ ['"'] ++ (setting.fold (textOf (attrs.flatMap Attribute.pieces)) ++ t)) := by
  induction attrs generalizing s with
  | nil => simpa using hs.append_quote ht
  | cons a attrs ih =>
      have hmarkup : setting.fold a.markup =
          setting.fold (" " ++ a.key ++ "=\"" ++ escapeAttrInline a.value) ++ ['"'] := by
        have hquote : setting.fold "\"" = ['"'] := Setting.fold_of_not_mem (by decide)
        rw [Attribute.markup, Setting.fold_append, hquote]
      have ha : Vouched tree setting (setting.fold a.markup) :=
        followed_of_absent (hattrs a (by simp))
      have hnext := hs.append_quote ha
      rw [hmarkup, ← List.append_assoc] at hnext
      have hrest := ih hnext fun b hb => hattrs b (by simp [hb])
      simpa [hmarkup] using hrest

theorem fold_id_markup (id : AgentNodeId) : setting.fold (Attribute.markup ⟨"id", id⟩) =
    " id=\"" ++ (setting.fold (escapeAttrInline id) ++ ['"']) := by
  have hmarkup : Attribute.markup ⟨"id", id⟩ = " id=\"" ++ (escapeAttrInline id ++ ['"']) := by
    simp only [Attribute.markup, List.append_assoc]
    rfl
  have hkey : setting.fold " id=\"" = " id=\"" := Setting.fold_of_not_mem (by decide)
  have hquote : setting.fold ['"'] = ['"'] := Setting.fold_of_not_mem (by decide)
  rw [hmarkup, Setting.fold_append, Setting.fold_append, hkey, hquote]

/-- A tag with its id has no other opening than its own. -/
theorem vouched_id {name : Text} {id : AgentNodeId} (hspace : ' ' ∉ name) (hbracket : '[' ∉ name)
    (hgenuine : ∀ tag : MarkdownTag, tag.asStr = name →
      Genuine tree setting tag (setting.fold (escapeAttrInline id) ++ ['"']))
    (hid : ∀ tag : MarkdownTag, ¬ tag.opening <:+: setting.fold (Attribute.markup ⟨"id", id⟩)) :
    Vouched tree setting ('[' :: (name ++ setting.fold (Attribute.markup ⟨"id", id⟩))) := by
  intro tag a b hab
  cases a with
  | nil =>
      have hopening : tag.opening ++ b = '[' :: (tag.asStr ++ ' ' :: ("id=\"" ++ b)) := by
        simp [MarkdownTag.opening]
      have htag : ' ' ∉ tag.asStr := by cases tag <;> decide
      rw [List.nil_append, hopening, fold_id_markup] at hab
      obtain ⟨hname, hrest⟩ := append_cons_inj hspace htag (List.cons.inj hab).2
      have hb : setting.fold (escapeAttrInline id) ++ ['"'] = b := List.append_cancel_left hrest
      rw [← hb]
      exact hgenuine tag hname.symm
  | cons d a =>
      have hoccurs : tag.opening <:+: name ++ setting.fold (Attribute.markup ⟨"id", id⟩) :=
        ⟨a, b, by rw [List.append_assoc]; exact (List.cons.inj hab).2.symm⟩
      exact absurd ((infix_headless_append hbracket).mp hoccurs) (hid tag)

/-- The names of tags are lower case letters. -/
theorem lower_of_mem_tag (tag : MarkdownTag) : ∀ c ∈ tag.asStr, c.isLower := by
  cases tag <;> exact forall_mem_of_all (by decide)

theorem not_mem_name {name : Text} (hname : ∀ c ∈ name, c.isLower) {c : Char}
    (hc : c.isLower = false) : c ∉ name := by
  intro hmem
  rw [hname c hmem] at hc
  cases hc

/-- An opening tag with a genuine id vouches for itself. -/
theorem vouched_tag_open {name close : Text} {id : AgentNodeId} {attrs : List Attribute}
    (hname : ∀ c ∈ name, c.isLower)
    (hgenuine : ∀ tag : MarkdownTag, tag.asStr = name →
      Genuine tree setting tag (setting.fold (escapeAttrInline id) ++ ['"']))
    (hattrs : ∀ a ∈ (⟨"id", id⟩ :: attrs : List Attribute), ∀ tag : MarkdownTag,
      ¬ tag.opening <:+: setting.fold a.markup)
    (ht : Vouched tree setting (setting.fold close ++ t)) :
    Vouched tree setting
      (setting.fold (textOf (tagOpen name (⟨"id", id⟩ :: attrs) close)) ++ t) := by
  have hopen : setting.fold "[" = "[" := Setting.fold_of_not_mem (by decide)
  have hplain : setting.fold name = name :=
    Setting.fold_of_not_mem (not_mem_name hname (by decide))
  have hfirst := vouched_id (not_mem_name hname (by decide)) (not_mem_name hname (by decide))
    hgenuine (hattrs _ (List.mem_cons_self ..))
  have hsplit : '[' :: (name ++ setting.fold (Attribute.markup ⟨"id", id⟩)) =
      '[' :: (name ++ (" id=\"" ++ setting.fold (escapeAttrInline id))) ++ ['"'] := by
    rw [fold_id_markup, List.cons_append, List.append_assoc, List.append_assoc]
  rw [hsplit] at hfirst
  have hrest := vouched_attrs hfirst (fun a ha => hattrs a (List.mem_cons_of_mem _ ha)) ht
  have htext : textOf (tagOpen name (⟨"id", id⟩ :: attrs) close) = "[" ++ name ++
      (Attribute.markup ⟨"id", id⟩ ++ (textOf (attrs.flatMap Attribute.pieces) ++ close)) := by
    simp only [tagOpen, List.flatMap_cons, textOf_append, textOf_cons, textOf_nil, Piece.text,
      Attribute.textOf_pieces, List.cons_append, List.append_nil, List.append_assoc]
  rw [← hsplit] at hrest
  simp only [htext, Setting.fold_append, hopen, hplain, List.append_assoc]
  simp only [List.cons_append, List.append_assoc] at hrest
  exact hrest

/-- What follows a tag is one text of the page and a closing tag, or has no text of the page. -/
def Follows (rest : List Piece) : Prop :=
  (∃ body close, rest = [.copied body, .fixed close]) ∨ '"' ∉ textOf rest

/-- A tag, behind `lead`, with what follows it. -/
theorem vouched_tagged (lead : Text) {name close : Text} {id : AgentNodeId}
    {attrs : List Attribute} {rest : List Piece} (hname : ∀ c ∈ name, c.isLower)
    (hlead : '[' ∉ lead) (hclose : '"' ∉ close)
    (hrest : Follows rest)
    (hgenuine : ∀ tag : MarkdownTag, tag.asStr = name →
      Genuine tree setting tag (setting.fold (escapeAttrInline id) ++ ['"']))
    (hwindows : ∀ s ∈ windows lead (tagOpen name (⟨"id", id⟩ :: attrs) close ++ rest),
      ∀ tag : MarkdownTag, ¬ tag.opening <:+: setting.fold s) :
    Vouched tree setting
      (setting.fold (lead ++ textOf (tagOpen name (⟨"id", id⟩ :: attrs) close ++ rest))) := by
  rw [windows_tag_open] at hwindows
  have hplain : '[' ∉ setting.fold lead := fun h => hlead (Setting.mem_of_mem_fold (by decide) h)
  rw [Setting.fold_append, textOf_append, Setting.fold_append]
  refine Vouched.plain_append hplain (vouched_tag_open hname hgenuine ?_ ?_)
  · intro a ha
    exact hwindows _ (List.mem_append_left _ (List.mem_map_of_mem ha))
  rcases hrest with ⟨body, after, rfl⟩ | hquote
  · have hbody : close ++ body ++ after ∈ windows close [.copied body, .fixed after] :=
      List.mem_singleton_self _
    have hoccurs := hwindows _ (List.mem_append_right _ hbody)
    refine followed_of_absent fun tag => ?_
    simpa [Piece.text] using hoccurs tag
  · refine vouched_of_no_quote fun h => ?_
    rcases List.mem_append.mp h with h | h
    · exact hclose (Setting.mem_of_mem_fold (by decide) h)
    · exact hquote (Setting.mem_of_mem_fold (by decide) h)

/-- The link syntax, with what it shows in `lead`. -/
theorem vouched_link {lead url : Text} (hlead : Vouched tree setting (setting.fold lead))
    (hurl : ∀ tag : MarkdownTag, ¬ tag.opening <:+: setting.fold ("](" ++ url ++ ")")) :
    Vouched tree setting (setting.fold (lead ++ ("](" ++ url ++ ")"))) := by
  have hbracket : setting.fold "](" = "](" := Setting.fold_of_not_mem (by decide)
  have hsplit : setting.fold ("](" ++ url ++ ")") = ']' :: ('(' :: setting.fold (url ++ ")")) := by
    rw [List.append_assoc, Setting.fold_append, hbracket]
    rfl
  rw [hsplit] at hurl
  rw [Setting.fold_append, hsplit]
  exact hlead.append_closer (by decide) (followed_of_absent hurl)

end Pieces

/-! ## Frames -/

/-- The pieces of a visit to the node have no opening but those of the tags that the node produces,
when no window has one. -/
def Sound (tree : AgentRenderTree) (setting : Setting) (node : AgentNode) (ps : List Piece) :
    Prop :=
  (∀ s ∈ windows [] ps, ∀ tag : MarkdownTag, ¬ tag.opening <:+: setting.fold s) →
    (∀ (tag : MarkdownTag) lead attrs close rest, Produces tree node tag →
      ps = lead ++ tagOpen tag.asStr (⟨"id", node.id⟩ :: attrs) close ++ rest →
      Genuine tree setting tag (setting.fold (escapeAttrInline node.id) ++ ['"'])) →
    Vouched tree setting (setting.fold (textOf ps))

/-- The frame opens no tag but its own. -/
def Frame.Sound (tree : AgentRenderTree) (setting : Setting) (node : AgentNode) : Frame → Prop
  | .around _ before _ _ => PageText.Sound tree setting node before
  | _ => True

section Sound

variable {tree : AgentRenderTree} {opts : MarkdownOptions} {setting : Setting} {node : AgentNode}

theorem sound_print_nil : (Frame.print []).Sound tree setting node :=
  fun _ _ => vouched_of_no_quote (by simp)

/-- A single text between fixed texts is a window. -/
theorem sound_of_window {ps : List Piece} (h : textOf ps ∈ windows [] ps) :
    Sound tree setting node ps :=
  fun hwindows _ => followed_of_absent (hwindows _ h)

theorem loose_sound (t : Text) : (Frame.print [.copied t, .fixed "\n"]).Sound tree setting node :=
  sound_of_window (by simp [windows, leading, Piece.text])

/-- The tag of a node is genuine. -/
theorem sound_tagged {tag : MarkdownTag} {close : Text} {attrs : List Attribute}
    {rest : List Piece} (hproduces : Produces tree node tag) (hclose : '"' ∉ close)
    (hrest : Follows rest) :
    Sound tree setting node (tagOpen tag.asStr (⟨"id", node.id⟩ :: attrs) close ++ rest) := by
  intro hwindows hgenuine
  refine vouched_tagged [] (lower_of_mem_tag tag) (by simp) hclose hrest ?_ hwindows
  intro tag' htag
  obtain rfl := as_str_injective htag
  exact hgenuine tag' [] attrs close rest hproduces rfl

/-- The link syntax around a text of the page. -/
theorem link_sound (lead body url : Text) :
    Sound tree setting node
      ([.fixed lead, .copied body] ++ [.fixed "](", .copied url, .fixed ")"]) := by
  intro hwindows _
  have htext : textOf ([.fixed lead, .copied body] ++ [.fixed "](", .copied url, .fixed ")"]) =
      (lead ++ body) ++ ("](" ++ url ++ ")") := by
    simp [Piece.text]
  have hurl := hwindows ("](" ++ url ++ ")") (by simp [windows, leading])
  rw [htext]
  refine vouched_link (followed_of_absent fun tag hoccurs => ?_) hurl
  refine hwindows (lead ++ body ++ "](") (by simp [windows, leading]) tag (hoccurs.trans ?_)
  rw [Setting.fold_append setting (lead ++ body)]
  exact (List.prefix_append _ _).isInfix

theorem page_sound (hplain : isPlain opts = false) :
    (pageFrame opts node).Sound tree setting node := by
  unfold pageFrame
  cases node.name with
  | some title =>
      simp only [hplain, Bool.false_eq_true, if_false]
      exact sound_of_window (by simp [windows, leading, Piece.text])
  | none => exact sound_print_nil

theorem box_sound {tag : MarkdownTag} (hproduces : Produces tree node tag) :
    (boxFrame node tag).Sound tree setting node := by
  have hsound : PageText.Sound tree setting node
      (tagOpen tag.asStr (⟨"id", node.id⟩ :: extraAttrs node tag) "]\n" ++ []) :=
    sound_tagged hproduces (by decide) (.inr (by simp))
  rwa [List.append_nil] at hsound

theorem table_sound (hplain : isPlain opts = false) (hproduces : Produces tree node .table) :
    (tableFrame tree opts node).Sound tree setting node := by
  simp only [tableFrame, hplain, Bool.false_eq_true, if_false]
  split_ifs
  · have hsound : PageText.Sound tree setting node
        (tagOpen MarkdownTag.table.asStr [⟨"id", node.id⟩] "]empty[/table]\n" ++ []) :=
      sound_tagged hproduces (by decide) (.inr (by simp))
    rwa [List.append_nil] at hsound
  · exact sound_print_nil

theorem video_sound (hplain : isPlain opts = false) :
    (videoFrame opts node).Sound tree setting node := by
  simp only [videoFrame, hplain, Bool.false_eq_true, if_false]
  intro hwindows _
  have hname : ∀ c ∈ ("video" : Text), c.isLower := forall_mem_of_all (by decide)
  refine vouched_tagged [] hname (by simp) (by decide) (.inl ⟨_, _, rfl⟩) ?_ hwindows
  -- there is no tag of this name
  intro tag htag
  cases tag <;> exact absurd htag (by decide)

variable [F64Display]

theorem heading_sound (hplain : isPlain opts = false) :
    (headingFrame opts node).Sound tree setting node := by
  simp only [headingFrame, hplain, Bool.false_eq_true, if_false]
  split_ifs
  · trivial
  · exact sound_of_window (by simp [windows, leading, Piece.text])

theorem text_block_sound : (textBlockFrame opts node).Sound tree setting node := by
  simp only [textBlockFrame]
  split_ifs
  · trivial
  · exact loose_sound _

/-- An actionable opens its own tag only. -/
theorem actionable_sound (hplain : isPlain opts = false) {tag : MarkdownTag}
    (hproduces : Produces tree node tag) :
    (actionableFrame opts node tag).Sound tree setting node := by
  simp only [actionableFrame, hplain, Bool.false_eq_true, if_false]
  cases resolvedUrl node tag with
  | some url =>
      show PageText.Sound tree setting node _
      split_ifs
      · intro hwindows _
        have hshown : '"' ∉ setting.fold "![image" :=
          fun h => absurd (Setting.mem_of_mem_fold (by decide) h) (by decide)
        have hlink : Vouched tree setting (setting.fold ("![image" ++ ("](" ++ url ++ ")"))) :=
          vouched_link (vouched_of_no_quote hshown)
            (hwindows ("](" ++ url ++ ")") (by simp [windows, leading]))
        simpa [Piece.text] using hlink
      · exact link_sound "![" _ url
      · exact link_sound "[" _ url
  | none =>
      have hclosing : '"' ∉ textOf [.fixed ("[/" ++ tag.asStr ++ "]")] := by
        have hlower := not_mem_name (lower_of_mem_tag tag) (c := '"') (by decide)
        simp [Piece.text, hlower]
      simp only [List.append_assoc]
      refine sound_tagged hproduces (by decide) ?_
      split_ifs
      · exact .inr hclosing
      · exact .inl ⟨_, _, rfl⟩

theorem option_sound (hproduces : Produces tree node .option) :
    (optionFrame opts node).Sound tree setting node := by
  intro hwindows hgenuine
  refine vouched_tagged "  " (lower_of_mem_tag .option) (by decide) (by decide) (.inl ⟨_, _, rfl⟩)
    (fun tag htag => ?_) hwindows
  obtain rfl : tag = .option := as_str_injective htag
  exact hgenuine .option [.fixed "  "] _ _ _ hproduces rfl

theorem select_sound (hplain : isPlain opts = false) (hproduces : Produces tree node .select) :
    (selectFrame tree opts node).Sound tree setting node := by
  simp only [selectFrame, hplain, Bool.false_eq_true, if_false]
  have hsound : PageText.Sound tree setting node
      (tagOpen MarkdownTag.select.asStr (⟨"id", node.id⟩ :: (attrOf "name" node.name ++
        flag (!node.state.enabled) "disabled")) "]\n" ++ []) :=
    sound_tagged hproduces (by decide) (.inr (by simp))
  rwa [List.append_nil] at hsound

/-- So does every block. -/
theorem block_sound (hplain : isPlain opts = false) (ctx : Context) :
    (blockFrame tree opts ctx node).Sound tree setting node := by
  unfold blockFrame
  cases hrole : node.structuralRole with
  | page => exact page_sound hplain
  | heading => exact heading_sound hplain
  | paragraph | text => exact text_block_sound
  | link | button | textbox | checkbox | radio | image =>
      exact actionable_sound hplain (.inl (by rw [hrole]; rfl))
  | select => exact select_sound hplain (.inl (by rw [hrole]; rfl))
  | listItem => trivial
  | table => exact table_sound hplain (.inl (by rw [hrole]; rfl))
  | region | menu | tab | frame | shadowRoot =>
      simp only [regionFrame, hplain, Bool.false_eq_true, if_false]
      exact box_sound (.inl (by rw [hrole]; rfl))
  | dialog =>
      simp only [dialogFrame, hplain, Bool.false_eq_true, if_false]
      exact box_sound (.inl (by rw [hrole]; rfl))
  | canvas => exact loose_sound _
  | video => exact video_sound hplain
  | list | row | cell | form | unknown => exact sound_print_nil

end Sound

/-! ## Visits -/

section Visits

variable [F64Display] {tree : AgentRenderTree} {opts : MarkdownOptions} {setting : Setting}
  {v : Visit}

omit [F64Display] in
theorem visited_of_inside {x : Visit} (hx : Visited tree opts x) (h : Inside tree opts x v) :
    Visited tree opts v := by
  obtain ⟨root, hroot, hpath⟩ := hx
  exact ⟨root, hroot, hpath.trans h.to_reflTransGen⟩

omit [F64Display] in
theorem visited_of_printed (h : PrintedIn tree opts setting v) : Visited tree opts v := by
  cases setting with
  | page => exact h
  | item | cell =>
      obtain ⟨x, hx, -, hinside⟩ := h
      exact visited_of_inside hx hinside

omit [F64Display] in
/-- An option of the page is a child of a select. -/
theorem parent_of_option {ctx : Context} {node : AgentNode}
    (h : Visited tree opts (.node .option ctx node)) :
    ∃ parent ∈ tree.nodes, parent.structuralRole = .select ∧ node.id ∈ parent.children := by
  obtain ⟨root, hroot, hpath⟩ := h
  rcases hpath.cases_tail with heq | ⟨u, hu, hnext⟩
  · cases heq
  obtain ⟨place, ctx', parent, rfl, hcases⟩ := next_cases hnext
  have hparent : parent ∈ tree.nodes := mem_nodes_of_visited ⟨root, hroot, hu⟩
  rcases hcases with ⟨id, -, _, hw, -⟩ | ⟨-, hrole, child, hchild, hw⟩ | ⟨-, -, _, row, -, hw⟩ |
    ⟨-, first, id, -, hw⟩
  · have hplace := (child_visit_eq_node hw.symm).1
    cases hplace
  · cases hw
    obtain ⟨id, hid, hfind, -⟩ := mem_shown_options hchild
    exact ⟨parent, hparent, hrole, (AgentRenderTree.find_eq_some hfind).2 ▸ hid⟩
  · cases hw
  · have hplace := (cell_visit_eq_node hw.symm).1
    cases hplace

/-- The opening of a printed tag is genuine. -/
theorem Unforged.genuine (h : Unforged tree opts) {place : Place} {ctx : Context}
    {node : AgentNode} (hv : PrintedIn tree opts setting (.node place ctx node)) {tag : MarkdownTag}
    (hprints : PrintsTag tree opts (.node place ctx node) tag node.id)
    (hproduces : Produces tree node tag) :
    Genuine tree setting tag (setting.fold (escapeAttrInline node.id) ++ ['"']) := by
  have hstable : ∀ c ∈ setting.unstable, c ∉ escapeAttrInline node.id := by
    intro c hc
    refine not_mem_escape ?_ (h.ids setting _ tag node.id hv hprints c hc)
    have hentities : ∀ c ∈ Setting.cell.unstable, c ∉ ("&quot;&amp;&lt;&gt;" : Text) :=
      forall_mem_of_all (by decide)
    exact hentities c (setting.unstable_subset hc)
  have hfold : setting.fold (escapeAttrInline node.id) = escapeAttrInline node.id := by
    cases setting with
    | page => rfl
    | item | cell => exact Setting.fold_of_not_mem (hstable '\n' (by decide))
  refine ⟨node, mem_nodes_of_visited (visited_of_printed hv), hproduces, hstable, ?_⟩
  rw [hfold]

/-- What a visit prints in front of the visits below it has no openings but genuine ones. -/
theorem vouched_before (hmarkdown : opts.format = .markdown) (h : Unforged tree opts)
    (hv : PrintedIn tree opts setting v) {mark : Option Mark} {before after trail : List Piece}
    (hframe : frame tree opts v = .around mark before after trail) :
    Vouched tree setting (setting.fold (textOf before)) := by
  have hplain : isPlain opts = false := by simp [isPlain, hmarkdown]
  cases v with
  | skipped | missing => cases hframe
  | node place ctx node =>
      have hsound : (frame tree opts (.node place ctx node)).Sound tree setting node := by
        cases place with
        | page => exact page_sound hplain
        | block => exact block_sound hplain ctx
        | option => exact option_sound (.inr ⟨rfl, parent_of_option (visited_of_printed hv)⟩)
        | row header =>
            simp only [frame, rowFrame]
            split_ifs <;> trivial
        | cell first => trivial
      have hwindows := h.texts setting _ hv
      rw [hframe] at hsound hwindows
      refine hsound hwindows fun tag lead attrs close rest hproduces hbefore => ?_
      refine h.genuine hv ⟨mark, lead, attrs, close, rest, after, trail, ?_⟩ hproduces
      rw [hframe, hbefore]

end Visits

end BrowsAI.PageText
