import BrowsAI.PageText.Lines

/-!
# No other tags

Every opening of a tag in the output belongs to a node of the tree when the texts of the page are
`Unforged`: `tags_genuine`. `Upright` is what a visit passes up. List items and table cells change
the text of the visits inside them, so it covers every setting that the visit is printed in.
-/

namespace BrowsAI.PageText

open Utf8 AgentTree Fragment Relation Occurs

/-! ## Folding and escaping bars -/

section Settings

variable {tree : AgentRenderTree} {setting : Setting} {s t : Text}

/-- What is stable in one setting is stable in another that changes less. -/
theorem Vouched.mono {setting' : Setting} (hsub : setting'.unstable ⊆ setting.unstable)
    (h : Vouched tree setting s) : Vouched tree setting' s := by
  intro tag a b hab
  obtain ⟨node, hnode, hproduces, hstable, hid⟩ := h tag a b hab
  exact ⟨node, hnode, hproduces, fun c hc => hstable c (hsub hc), hid⟩

theorem quote_not_mem_blank {w : Text} (hw : Blank w) : '"' ∉ w :=
  fun h => absurd (hw '"' h) (by decide)

theorem vouched_trim (h : Vouched tree setting s) : Vouched tree setting (trim s) := by
  obtain ⟨v, w, hs, -, hw⟩ := exists_trim s
  rw [hs] at h
  have hrest : Vouched tree setting (trim s ++ w) := h.of_append_right
  exact hrest.of_append_plain (quote_not_mem_blank hw)

/-- Escaping bars leaves the ids as they are. -/
theorem vouched_pipes (h : Vouched tree .cell s) : Vouched tree .cell (escapePipes s) := by
  suffices hsuffices : ∀ p, Vouched tree .cell (p ++ s) →
      Vouched tree .cell (p ++ escapePipes s) from hsuffices [] h
  clear h
  induction s with
  | nil => exact fun p hp => hp
  | cons c s ih =>
      intro p hp
      by_cases hc : c = '|'
      · subst hc
        have hfront : Vouched tree .cell p := by
          refine hp.of_append_left ?_
          rintro tag b ⟨node, hnode, hproduces, hstable, hid⟩
          refine ⟨node, hnode, hproduces, hstable, prefix_of_prefix_cut hid ?_⟩
          have hbar : '|' ∉ escapeAttrInline node.id := hstable '|' (by decide)
          simpa using hbar
        have hrest : Vouched tree .cell (escapePipes s) := by
          have hback : Vouched tree .cell (['|'] ++ s) := hp.of_append_right
          exact ih [] hback.of_append_right
        have hbars : Vouched tree .cell ('|' :: escapePipes s) :=
          Vouched.plain_append (s := ['|']) (by decide) hrest
        have hall := (hfront.append_plain (t := ['\\']) (by decide)).append_closer (by decide) hbars
        simpa [escapePipes, replace] using hall
      · have hnext := ih (p ++ [c]) (by simpa using hp)
        simpa [escapePipes, replace, hc] using hnext

/-- Bars are escaped in one line as elsewhere. -/
theorem fold_escape_pipes (t : Text) :
    setting.fold (escapePipes t) = escapePipes (setting.fold t) := by
  cases setting with
  | page => rfl
  | item | cell =>
      simp only [Setting.fold]
      induction t with
      | nil => rfl
      | cons c t ih =>
          have hsplit : escapePipes (c :: t) = escapePipes [c] ++ escapePipes t :=
            replace_append '|' "\\|" [c] t
          have hone : oneLine (escapePipes [c]) = escapePipes (oneLine [c]) := by
            by_cases hc : c = '|'
            · rw [hc]
              decide
            · have hplain : ∀ d : Char, d ≠ '|' → escapePipes [d] = [d] := by
                intro d hd
                simp [escapePipes, replace, hd]
              rw [hplain c hc, one_line_cons]
              split_ifs
              · decide
              · exact (hplain c hc).symm
          have hfold : oneLine (c :: t) = oneLine [c] ++ oneLine t := one_line_append [c] t
          rw [hsplit, one_line_append, hone, ih, hfold]
          simp [escapePipes]

/-- A text that is folded already. -/
theorem fold_collapse (t : Text) : setting.fold (collapse t) = collapse t := by
  refine Setting.fold_of_not_mem fun h => newline_not_mem_one_line t ?_
  obtain ⟨v, w, hs, -, -⟩ := exists_trim (oneLine t)
  rw [hs]
  exact List.mem_append_right v (List.mem_append_left w h)

/-- An opening that is cut behind a space is cut in front of its `id`. -/
theorem opening_cut {tag : MarkdownTag} {u v x : Text} (h : tag.opening = u ++ v) (hu : u ≠ [])
    (hsuffix : u <:+ x ++ [' ']) : u = ("[" ++ tag.asStr) ++ [' '] ∧ v = "id=\"" := by
  have hopening : tag.opening = ("[" ++ tag.asStr) ++ ' ' :: "id=\"" := rfl
  obtain ⟨u, c, rfl⟩ : ∃ u' c, u = u' ++ [c] := by
    rcases List.eq_nil_or_concat u with rfl | hconcat
    · exact absurd rfl hu
    · simpa using hconcat
  obtain rfl : c = ' ' := by simpa using hsuffix.getLast hu
  have hsplit : ("[" ++ tag.asStr) ++ ' ' :: "id=\"" = u ++ ' ' :: v := by
    rw [← hopening, h, List.append_assoc]
    rfl
  rcases List.append_eq_append_iff.mp hsplit with ⟨y, hy, hrest⟩ | ⟨y, hy, hrest⟩
  · rcases y with _ | ⟨c, y⟩
    · rw [hy, List.append_nil]
      exact ⟨rfl, (List.cons.inj hrest).2.symm⟩
    · have hspace : ' ' ∈ ("id=\"" : Text) := by simp [(List.cons.inj hrest).2]
      exact absurd hspace (by decide)
  · rcases y with _ | ⟨c, y⟩
    · rw [hy, List.append_nil]
      exact ⟨rfl, (List.cons.inj hrest).2⟩
    · have hspace : ' ' ∈ ("[" ++ tag.asStr : Text) := by
        rw [hy, (List.cons.inj hrest).1]
        simp
      exact absurd (by decide) (tag_visible tag ' ' hspace)

/-- A start without spaces is one of the text. -/
theorem prefix_of_prefix_one_line {m : Text} (hm : ' ' ∉ m) (h : m <+: oneLine t) : m <+: t := by
  induction m generalizing t with
  | nil => exact List.nil_prefix
  | cons c m ih =>
      cases t with
      | nil => exact h
      | cons d t =>
          rw [one_line_cons] at h
          obtain ⟨hc, hrest⟩ := List.cons_prefix_cons.mp h
          simp only [List.mem_cons, not_or] at hm
          split_ifs at hc
          · exact absurd hc.symm hm.1
          · exact List.cons_prefix_cons.mpr ⟨hc, ih hm.2 hrest⟩

end Settings

section Steps

variable [F64Display] {tree : AgentRenderTree} {opts : MarkdownOptions} {setting : Setting}
  {v w : Visit} {fs : List Fragment}

omit [F64Display] in
theorem PrintedIn.next (hv : PrintedIn tree opts setting v) (hw : w ∈ next tree opts v) :
    PrintedIn tree opts setting w := by
  cases setting with
  | page => exact hv.next hw
  | item | cell =>
      obtain ⟨x, hx, hkind, hinside⟩ := hv
      exact ⟨x, hx, hkind, hinside.tail hw⟩

/-- What is known of the fragment of a visit. -/
structure Upright (tree : AgentRenderTree) (opts : MarkdownOptions) (v : Visit) (f : Fragment) :
    Prop where
  vouched : ∀ setting, PrintedIn tree opts setting v → Vouched tree setting (setting.fold f.text)
  lines : ¬ v.IsCell → Lines tree opts v f.text
  blank : Blank f.text ↔ BlankFrom tree opts v
  separated : ∀ fallback, frame tree opts v = .cell " | " fallback → ∃ t, f.text = " | " ++ t

/-- Lines one after the other: either they stay apart, or they are all inside the same list item or
table cell. -/
theorem vouched_concat (h : Unforged tree opts) {ws : List Visit}
    (hinside : setting = .page ∨ ∃ x, Visited tree opts x ∧ (x.isItem ∨ x.IsCell) ∧
      ∀ w ∈ ws, Inside tree opts x w)
    (hprinted : ∀ w ∈ ws, PrintedIn tree opts setting w) (hcell : ∀ w ∈ ws, ¬ w.IsCell)
    (hfs : List.Forall₂ (Upright tree opts) ws fs) :
    Vouched tree setting (setting.fold (concat fs).text) := by
  induction hfs with
  | nil => exact vouched_of_no_quote (by simp)
  | @cons w f ws fs hf hfs ih =>
      have hrest := ih (hinside.imp_right fun ⟨x, hx, hkind, hbelow⟩ =>
        ⟨x, hx, hkind, fun u hu => hbelow u (by simp [hu])⟩)
        (fun u hu => hprinted u (by simp [hu])) (fun u hu => hcell u (by simp [hu]))
      have hfirst := hf.vouched setting (hprinted w (by simp))
      have hlines := hf.lines (hcell w (by simp))
      rw [concat_cons_text, Setting.fold_append]
      rcases hlines.ended with hnil | ⟨s, hs⟩
      · rwa [hnil, Setting.fold_nil, List.nil_append]
      -- on the page itself the newline behind the first text ends any opening in it
      by_cases hpage : setting = .page
      · subst hpage
        simp only [Setting.fold, hs] at hfirst hrest ⊢
        exact hfirst.append_closed (by decide) hrest
      obtain ⟨x, hx, hkind, hbelow⟩ := hinside.resolve_left hpage
      have hfold : setting.fold = oneLine := by
        cases setting with
        | page => exact absurd rfl hpage
        | item | cell => rfl
      rw [hfold] at hfirst hrest ⊢
      refine hfirst.append genuine_extends hrest fun tag u v hsplit hu _ hsuffix hbegins => ?_
      -- an opening that is cut in two shows the two texts it comes from
      have hline : oneLine f.text = oneLine s ++ [' '] := by
        rw [hs]
        exact one_line_append s ['\n']
      rw [hline] at hsuffix
      obtain ⟨rfl, rfl⟩ := opening_cut hsplit hu hsuffix
      obtain ⟨y, hy⟩ := hsuffix
      have hopen : EndsOpen (oneLine f.text) := by
        refine ⟨tag, y, [' '], ?_, fun c hc => ?_⟩
        · rw [hline, ← hy]
          simp only [List.append_assoc]
        · rw [List.mem_singleton.mp hc]
          decide
      have hended : ∀ g ∈ fs, Ended g.text := by
        intro g hg
        obtain ⟨u, hu, hupright⟩ := Unfold.exists_of_mem_right hfs hg
        exact (hupright.lines (hcell u (by simp [hu]))).ended
      have hid : ("id=\"" : Text) <+: (concat fs).text ++ [] := by
        rw [List.append_nil]
        exact prefix_of_prefix_one_line (by decide) hbegins
      obtain ⟨g, hg, hgid⟩ := (id_concat hended hid).resolve_right (by decide)
      obtain ⟨u, hu, hupright⟩ := Unfold.exists_of_mem_right hfs hg
      obtain ⟨v, s, hwv, hloose, hs⟩ := hlines.opens hopen
      obtain ⟨v', s', huv, hloose', hs'⟩ := (hupright.lines (hcell u (by simp [hu]))).ids hgid
      exact h.apart x hx hkind v v' s s' ((hbelow w (by simp)).trans_left hwv)
        ((hbelow u (by simp [hu])).trans_left huv) hloose hloose' hs hs'

omit [F64Display] in
/-- The cells of a row, of which all but the first begin with their separator. -/
theorem vouched_cells {ts : List Text} (hts : ∀ t ∈ ts, Vouched tree setting (setting.fold t))
    (hseparated : ∀ t ∈ ts.tail, ∃ s, t = " | " ++ s) :
    Vouched tree setting (setting.fold ts.flatten) := by
  cases ts with
  | nil => exact vouched_of_no_quote (by simp)
  | cons t ts =>
      induction ts generalizing t with
      | nil => simpa using hts t
      | cons u ts ih =>
          have hrest := ih u (fun s hs => hts s (List.mem_cons_of_mem t hs))
            fun s hs => hseparated s (List.mem_of_mem_tail hs)
          have hfirst := hts t (by simp)
          obtain ⟨s, rfl⟩ := hseparated u (by simp)
          have hbar : setting.fold " | " = " | " := Setting.fold_of_not_mem (by decide)
          have hsplit : setting.fold ((" | " ++ s) :: ts).flatten =
              [' '] ++ '|' :: (' ' :: setting.fold (s ++ ts.flatten)) := by
            rw [List.flatten_cons, List.append_assoc, Setting.fold_append, hbar]
            rfl
          rw [hsplit] at hrest
          have hbehind : Vouched tree setting ('|' :: (' ' :: setting.fold (s ++ ts.flatten))) :=
            hrest.of_append_right
          have hspace : Vouched tree setting (setting.fold t ++ [' ']) :=
            hfirst.append_plain (by decide)
          rw [List.flatten_cons, Setting.fold_append, hsplit, ← List.append_assoc]
          exact hspace.append_closer (by decide) hbehind

/-- What a list item or a table cell contains, on one line. -/
theorem vouched_collapse (h : Unforged tree opts) (hv : Visited tree opts v)
    (hkind : v.isItem ∨ v.IsCell) (hrow : ¬ v.IsRow) (hsetting : setting ≠ .page)
    (hprinted : ∀ w ∈ next tree opts v, PrintedIn tree opts setting w)
    (hfs : List.Forall₂ (Upright tree opts) (next tree opts v) fs) :
    Vouched tree setting (collapse (concat fs).text) := by
  have hconcat := vouched_concat h (.inr ⟨v, hv, hkind, fun w hw => .single hw⟩) hprinted
    (fun w hw => not_cell_of_next hrow hw) hfs
  cases setting with
  | page => exact absurd rfl hsetting
  | item | cell => exact vouched_trim hconcat

/-- A list item is vouched for. -/
theorem vouched_item (h : Unforged tree opts) (hitem : v.isItem) (hrow : ¬ v.IsRow)
    (hv : PrintedIn tree opts setting v)
    (hfs : List.Forall₂ (Upright tree opts) (next tree opts v) fs) :
    Vouched tree setting (collapse (concat fs).text) := by
  have hvisited := visited_of_printed hv
  have hin : ∀ w ∈ next tree opts v, PrintedIn tree opts .item w :=
    fun w hw => ⟨v, hvisited, hitem, .single hw⟩
  have hbody := vouched_collapse h hvisited (.inl hitem) hrow (by simp) hin hfs
  cases setting with
  | page => exact hbody.mono (by simp [Setting.unstable])
  | item => exact hbody
  | cell =>
      exact vouched_collapse h hvisited (.inl hitem) hrow (by simp) (fun w hw => hv.next hw) hfs

omit [F64Display] in
theorem bracket_not_mem_bullet (depth : Nat) : '[' ∉ bullet depth := by
  intro h
  rcases List.mem_append.mp h with h | h
  · obtain ⟨indent, hindent, hc⟩ := List.mem_flatten.mp h
    rw [List.eq_of_mem_replicate hindent] at hc
    exact absurd hc (by decide)
  · exact absurd h (by decide)

/-- It is one line. -/
theorem lines_item {depth : Nat} (hrow : ¬ v.IsRow)
    (hfs : List.Forall₂ (Upright tree opts) (next tree opts v) fs) :
    Lines tree opts v (bullet depth ++ collapse (concat fs).text ++ ['\n']) := by
  have hlines : ∀ f ∈ fs, ∃ w ∈ next tree opts v, Lines tree opts w f.text := by
    intro f hf
    obtain ⟨w, hw, hupright⟩ := Unfold.exists_of_mem_right hfs hf
    exact ⟨w, hw, hupright.lines (not_cell_of_next hrow hw)⟩
  refine ⟨.inr ⟨_, rfl⟩, fun hopen => ?_, fun hid => ?_⟩
  · have hdash : bullet depth = ((List.replicate depth "  ".toList).flatten ++ "-") ++ [' '] := by
      rw [bullet, List.append_assoc]
      rfl
    have hbullet : oneLine (bullet depth) = [] ∨
        ∃ x c, oneLine (bullet depth) = x ++ [c] ∧ isWhitespace c := by
      rw [hdash, one_line_append]
      exact .inr ⟨_, ' ', rfl, by decide⟩
    have hitem := ends_open_newline hopen
    rw [one_line_append] at hitem
    have hbody : EndsOpen (Setting.item.fold (collapse (concat fs).text)) := by
      refine (ends_open_append hbullet hitem).resolve_left fun hlead => ?_
      have hbracket : '[' ∈ Setting.item.fold (bullet depth) := bracket_of_ends_open hlead
      exact bracket_not_mem_bullet depth (Setting.mem_of_mem_fold (by decide) hbracket)
    rw [fold_collapse] at hbody
    have hended : ∀ f ∈ fs, Ended f.text := by
      intro f hf
      obtain ⟨w, -, hw⟩ := hlines f hf
      exact hw.ended
    obtain ⟨f, hf, hopen⟩ := ends_open_concat hended (ends_open_trim hbody)
    obtain ⟨u, hu, hlines⟩ := hlines f hf
    obtain ⟨w, s, hw, hloose, hs⟩ := hlines.opens hopen
    exact ⟨w, s, .head hu hw, hloose, hs⟩
  · cases depth <;> simp [bullet, List.replicate_succ] at hid

/-- A row in Markdown format is one line of markup around its cells. -/
theorem row_frame (hplain : isPlain opts = false) (hrow : v.IsRow) : ∃ s,
    frame tree opts v = .row "| " (s ++ ['|', '\n']) ∧ '"' ∉ s := by
  obtain ⟨header, ctx, row, rfl⟩ := hrow.exists_node
  simp only [frame, rowFrame, hplain, Bool.false_eq_true, if_false]
  split_ifs
  · obtain ⟨columns, hcolumns⟩ : ∃ n, Nat.max row.children.length 1 = n + 1 :=
      Nat.exists_eq_add_one_of_ne_zero (Nat.ne_of_gt (Nat.le_max_right _ 1))
    refine ⟨" |\n|" ++ (List.replicate columns " --- |".toList).flatten ++ " --- ", ?_, ?_⟩
    · rw [hcolumns, List.replicate_succ']
      simp
    · intro h
      rcases List.mem_append.mp h with h | h
      · rcases List.mem_append.mp h with h | h
        · exact absurd h (by decide)
        · obtain ⟨rule, hrule, hc⟩ := List.mem_flatten.mp h
          rw [List.eq_of_mem_replicate hrule] at hc
          exact absurd hc (by decide)
      · exact absurd h (by decide)
  · exact ⟨" ", rfl, by decide⟩

/-- The text of a cell is vouched for. -/
theorem vouched_cell_text (h : Unforged tree opts) (hcell : v.IsCell)
    (hv : PrintedIn tree opts setting v) {sep : Text} {fallback : Option Text}
    (hframe : frame tree opts v = .cell sep fallback)
    (hfs : List.Forall₂ (Upright tree opts) (next tree opts v) fs) :
    Vouched tree setting (setting.fold (cellText fallback (concat fs).text)) := by
  cases fallback with
  | none => exact vouched_of_no_quote (by simp [cellText])
  | some text =>
      rw [cellText, fold_escape_pipes]
      split_ifs with hempty
      · have hblank := blank_below (hfs.imp fun u f h => h.blank)
        have hfalls : FallsBack tree opts v text :=
          ⟨sep, hframe, hblank.mp (collapse_eq_nil_iff.mp hempty)⟩
        refine followed_of_absent fun tag => ?_
        have hpipe : ∀ d ∈ ("\\|" : Text), d ∉ tag.opening := by
          cases tag <;> exact forall_mem_of_all (by decide)
        rw [escapePipes, infix_replace (hpipe '|' (by decide)) hpipe (by decide)
          (List.cons_ne_nil _ _)]
        exact h.cells setting v text hv hfalls tag
      · have hrow : ¬ v.IsRow := not_row_of_frame hframe (by simp)
        have hvisited := visited_of_printed hv
        have hbody : Vouched tree .cell (collapse (concat fs).text) :=
          vouched_collapse h hvisited (.inr hcell) hrow (by simp)
            (fun w hw => ⟨v, hvisited, hcell, .single hw⟩) hfs
        rw [fold_collapse]
        exact (vouched_pipes hbody).mono setting.unstable_subset

omit [F64Display] in
/-- Markup on lines of its own can be followed by anything. -/
theorem Fence.vouched_append {s t : Text} (hfence : Fence s)
    (hs : Vouched tree setting (setting.fold s)) (ht : Vouched tree setting t) :
    Vouched tree setting (setting.fold s ++ t) := by
  obtain ⟨s, c, rfl, hc⟩ := hfence.closes
  have hcloser : ∀ d ∈ closers, d ≠ '\n' ∧ d ∈ '\n' :: closers := forall_mem_of_all (by decide)
  have hplain : setting.fold [c] = [c] :=
    Setting.fold_of_not_mem (by simpa using (hcloser c hc).1.symm)
  have hnewline : ∀ d ∈ setting.fold ['\n'], d ≠ '"' ∧ d ≠ '[' := by
    cases setting <;> exact forall_mem_of_all (by decide)
  have hsplit : setting.fold (s ++ [c, '\n']) = (setting.fold s ++ [c]) ++ setting.fold ['\n'] := by
    have hlist : s ++ [c, '\n'] = (s ++ [c]) ++ ['\n'] := by simp
    rw [hlist, Setting.fold_append, Setting.fold_append, hplain]
  rw [hsplit] at hs ⊢
  have hfront := hs.of_append_plain fun h => (hnewline _ h).1 rfl
  have hrest := Vouched.plain_append (fun h => (hnewline _ h).2 rfl) ht
  rw [List.append_assoc]
  exact hfront.append_closed (hcloser c hc).2 hrest

/-- A frame around what is upright is so too. -/
theorem upright_around (hmarkdown : opts.format = .markdown) (h : Unforged tree opts)
    {mark : Option Mark} {before after trail : List Piece}
    (hframe : frame tree opts v = .around mark before after trail)
    (hfs : List.Forall₂ (Upright tree opts) (next tree opts v) fs) :
    (∀ setting, PrintedIn tree opts setting v →
      Vouched tree setting (setting.fold ((frame tree opts v).lay fs).text)) ∧
        Lines tree opts v ((frame tree opts v).lay fs).text := by
  have hplain : isPlain opts = false := by simp [isPlain, hmarkdown]
  have hrow : ¬ v.IsRow := not_row_of_frame hframe (by simp)
  have hshaped : (frame tree opts v).Shaped tree opts v := visit_shaped hplain v
  rw [hframe] at hshaped
  obtain ⟨hquote, hshape⟩ := hshaped
  have htext : ((frame tree opts v).lay fs).text =
      textOf before ++ (concat fs).text ++ textOf (after ++ trail) := by
    simp [hframe, Frame.lay, ofText]
  rw [htext]
  constructor
  · intro setting hv
    have hbefore := vouched_before hmarkdown h hv hframe
    have hinside : setting = .page ∨ ∃ x, Visited tree opts x ∧ (x.isItem ∨ x.IsCell) ∧
        ∀ w ∈ next tree opts v, Inside tree opts x w := by
      cases setting with
      | page => exact .inl rfl
      | item =>
          obtain ⟨x, hx, hitem, hin⟩ := hv
          exact .inr ⟨x, hx, .inl hitem, fun w hw => hin.tail hw⟩
      | cell =>
          obtain ⟨x, hx, hcell, hin⟩ := hv
          exact .inr ⟨x, hx, .inr hcell, fun w hw => hin.tail hw⟩
    have hconcat := vouched_concat h hinside (fun w hw => hv.next hw)
      (fun w hw => not_cell_of_next hrow hw) hfs
    have hafter : '"' ∉ setting.fold (textOf (after ++ trail)) :=
      fun hmem => hquote (Setting.mem_of_mem_fold (by decide) hmem)
    rw [Setting.fold_append, Setting.fold_append]
    refine Vouched.append_plain ?_ hafter
    -- either nothing is below, or nothing is in front, or a fence stands between the two
    rcases hshape.leaf_or_opens with hleaf | hnil | hfence
    · rw [hleaf, List.forall₂_nil_left_iff] at hfs
      simpa [hfs] using hbefore
    · simpa [hnil] using hconcat
    · exact hfence.vouched_append hbefore hconcat
  · refine lines_around hshape ?_
    have hbelow := (List.forall₂_and_left _ _).mpr
      ⟨fun w hw => not_cell_of_next hrow hw, hfs⟩
    exact hbelow.imp fun w f hwf => hwf.2.lines hwf.1

/-- A row is vouched for. -/
theorem vouched_row (hv : PrintedIn tree opts setting v) (hrow : v.IsRow) {s : Text}
    (hs : '"' ∉ s) (hfs : List.Forall₂ (Upright tree opts) (next tree opts v) fs) :
    Vouched tree setting
      (setting.fold ("| " ++ (fs.map Fragment.text).flatten ++ (s ++ ['|', '\n']))) := by
  have hcells : ∀ t ∈ fs.map Fragment.text, Vouched tree setting (setting.fold t) := by
    intro t ht
    obtain ⟨f, hf, rfl⟩ := List.mem_map.mp ht
    obtain ⟨w, hw, hupright⟩ := Unfold.exists_of_mem_right hfs hf
    exact hupright.vouched setting (hv.next hw)
  have hseparated : ∀ t ∈ (fs.map Fragment.text).tail, ∃ s, t = " | " ++ s := by
    intro t ht
    rw [← List.map_tail] at ht
    obtain ⟨f, hf, rfl⟩ := List.mem_map.mp ht
    obtain ⟨w, fallback, hupright, hframe⟩ := cell_of_mem_tail hrow hfs hf
    exact hupright.separated fallback hframe
  have hlead : '[' ∉ setting.fold "| " :=
    fun h => absurd (Setting.mem_of_mem_fold (by decide) h) (by decide)
  have htrail : '"' ∉ setting.fold (s ++ ['|', '\n']) := by
    intro h
    rcases List.mem_append.mp (Setting.mem_of_mem_fold (by decide) h) with h | h
    · exact hs h
    · exact absurd h (by decide)
  rw [Setting.fold_append, Setting.fold_append]
  exact (Vouched.plain_append hlead (vouched_cells hcells hseparated)).append_plain htrail

/-- The step of `tags_genuine`. -/
theorem upright_step (hmarkdown : opts.format = .markdown) (h : Unforged tree opts)
    (hfs : List.Forall₂ (Upright tree opts) (next tree opts v) fs) :
    Upright tree opts v ((frame tree opts v).lay fs) := by
  have hplain : isPlain opts = false := by simp [isPlain, hmarkdown]
  have hblank := blank_step v fs (hfs.imp fun u f h => h.blank)
  rcases frame_cases tree opts v with ⟨hframe, -⟩ | ⟨-, mark, before, after, trail, hframe⟩ |
    ⟨hitem, depth, hframe⟩ | ⟨hrow, -⟩ | ⟨hcell, first, fallback, hframe, -⟩
  · have htext : ((frame tree opts v).lay fs).text = [] := by rw [hframe]; rfl
    refine ⟨fun setting _ => ?_, fun _ => ⟨.inl htext, fun hopen => ?_, fun hid => ?_⟩, hblank,
      by simp [hframe]⟩
    · rw [htext]
      exact vouched_of_no_quote (by simp)
    · rw [htext] at hopen
      exact absurd hopen not_ends_open_nil
    · rw [htext] at hid
      exact absurd hid (by decide)
  · obtain ⟨hvouched, hlines⟩ := upright_around hmarkdown h hframe hfs
    exact ⟨hvouched, fun _ => hlines, hblank, by simp [hframe]⟩
  · have hrow : ¬ v.IsRow := not_row_of_frame hframe (by simp)
    have htext : ((frame tree opts v).lay fs).text =
        bullet depth ++ collapse (concat fs).text ++ ['\n'] := by rw [hframe]; rfl
    refine ⟨fun setting hv => ?_, fun _ => ?_, hblank, by simp [hframe]⟩
    -- a collapsed body is one line already, so folding it changes nothing
    · have hbullet : '[' ∉ setting.fold (bullet depth) :=
        fun h => bracket_not_mem_bullet depth (Setting.mem_of_mem_fold (by decide) h)
      have hnewline : '"' ∉ setting.fold ['\n'] := by cases setting <;> decide
      rw [htext, Setting.fold_append, Setting.fold_append, fold_collapse]
      exact (Vouched.plain_append hbullet (vouched_item h hitem hrow hv hfs)).append_plain hnewline
    · rw [htext]
      exact lines_item hrow hfs
  · obtain ⟨s, hframe, hs⟩ : ∃ s, frame tree opts v = .row "| " (s ++ ['|', '\n']) ∧ '"' ∉ s :=
      row_frame hplain hrow
    have htext : ((frame tree opts v).lay fs).text =
        "| " ++ (fs.map Fragment.text).flatten ++ (s ++ ['|', '\n']) := by rw [hframe]; rfl
    refine ⟨fun setting hv => ?_, fun _ => ?_, hblank, by simp [hframe]⟩
    · rw [htext]
      exact vouched_row hv hrow hs hfs
    · refine (fence_of_eq '|' '|' (" " ++ (fs.map Fragment.text).flatten ++ s) ?_ (by decide)
        (by decide)).lines
      rw [htext]
      simp
  · have htext : ((frame tree opts v).lay fs).text =
        cellSep first ++ cellText fallback (concat fs).text := by rw [hframe]; rfl
    refine ⟨fun setting hv => ?_, fun hno => absurd hcell hno, hblank, fun fallback' hsep => ?_⟩
    · have hlead : '[' ∉ setting.fold (cellSep first) := by
        intro hmem
        have hbracket := Setting.mem_of_mem_fold (by decide) hmem
        cases first <;> exact absurd hbracket (by decide)
      rw [htext, Setting.fold_append]
      exact Vouched.plain_append hlead (vouched_cell_text h hcell hv hframe hfs)
    · rw [hframe] at hsep
      obtain ⟨hsep, -⟩ : cellSep first = " | " ∧ fallback = fallback' := by simpa using hsep
      exact ⟨_, by rw [htext, hsep]⟩

end Steps

/-! ## The page -/

theorem quote_not_mem_escape (t : Text) : '"' ∉ escapeAttrInline t := by
  intro hmem
  obtain ⟨c, -, hc⟩ := List.mem_flatMap.mp hmem
  unfold escapeChar at hc
  split at hc
  case h_5 hquote _ _ _ => exact hquote (List.mem_singleton.mp hc).symm
  all_goals exact absurd hc (by decide)

section Page

variable [F64Display]

/-- The page and its envelope have no openings but genuine ones. -/
theorem vouched_emit {tree : AgentRenderTree} {opts : MarkdownOptions}
    (hmarkdown : opts.format = .markdown) (h : Unforged tree opts) {depth : Nat}
    {view : MarkdownView} (hview : emit tree opts depth = some view) :
    Vouched tree .page view.content := by
  rw [emit_eq, Option.map_eq_some_iff] at hview
  obtain ⟨f, hf, rfl⟩ := hview
  have hpage : Vouched tree .page f.text := by
    cases hroot : tree.find tree.root with
    | none =>
        simp only [pagePlan, hroot, Option.some.injEq] at hf
        rw [← hf]
        exact vouched_of_no_quote (by simp [default])
    | some root =>
        have hupright := page_plan_induction (fun v fs _ => upright_step hmarkdown h) hroot hf
        exact hupright.vouched .page ⟨root, hroot, .refl⟩
  have hopen : '[' ∉ envelopeOpen opts := by
    unfold envelopeOpen
    split_ifs <;> decide
  have hclose : ∀ out, '"' ∉ envelopeClose opts out := by
    intro out
    unfold envelopeClose
    split_ifs <;> decide
  have hout : (MarkdownEmitter.new.append f).out = f.text := by
    simp [MarkdownEmitter.new, MarkdownEmitter.append]
  rw [finish_content, hout]
  exact Vouched.plain_append hopen (hpage.append_plain (hclose _))

/-- In the output for a page that is not forged, a tag with an id is that of a node of the page. -/
theorem tags_genuine (tree : AgentRenderTree) (opts : MarkdownOptions)
    (hmarkdown : opts.format = .markdown) (h : Unforged tree opts) :
    (tree.Acyclic → ∃ bound, ∀ depth ≥ bound, ∃ view, emit tree opts depth = some view) ∧
      ∀ depth view, emit tree opts depth = some view → ∀ (tag : MarkdownTag) (id : Text),
        '"' ∉ id → tag.opening ++ id ++ ['"'] <:+: view.content →
          ∃ node ∈ tree.nodes, Produces tree node tag ∧ id = escapeAttrInline node.id := by
  refine ⟨eventually_emit opts, fun depth view hview tag id hid hoccurs => ?_⟩
  obtain ⟨a, b, hab⟩ := hoccurs
  have hsplit : view.content = a ++ (tag.opening ++ (id ++ '"' :: b)) := by
    rw [← hab]
    simp
  obtain ⟨node, hnode, hproduces, -, hbegins⟩ := vouched_emit hmarkdown h hview tag a _ hsplit
  refine ⟨node, hnode, hproduces, ?_⟩
  obtain ⟨rest, hrest⟩ := hbegins
  rw [List.append_assoc] at hrest
  exact (append_cons_inj (quote_not_mem_escape node.id) hid hrest).1.symm

end Page

/-- The texts of the page that a frame escapes. -/
def Frame.escapes : Frame → List Text
  | .around _ before _ _ => before.filterMap fun
      | .escaped t => some t
      | _ => none
  | _ => []

theorem mem_escapes [F64Display] {tree : AgentRenderTree} {opts : MarkdownOptions} {v : Visit}
    {tag : MarkdownTag} {id : AgentNodeId} (h : PrintsTag tree opts v tag id) :
    id ∈ (frame tree opts v).escapes := by
  obtain ⟨mark, lead, attrs, close, rest, after, trail, hframe⟩ := h
  rw [hframe]
  refine List.mem_filterMap.mpr ⟨.escaped id, ?_, rfl⟩
  simp [tagOpen, Attribute.pieces]

/-- The frame prints a text that no markup separates from what is around it. -/
def Frame.bare : Frame → Bool
  | .around _ (.copied _ :: _) _ _ => true
  | .cell _ _ => true
  | _ => false

theorem parts_of_opening {tag : MarkdownTag} {s : Text} (h : tag.opening <:+: s) :
    '[' ∈ s ∧ ("id=\"" : Text) <:+: s := by
  have hid : ("id=\"" : Text) <:+ tag.opening := ⟨"[" ++ tag.asStr ++ " ", by
    simp [MarkdownTag.opening]⟩
  exact ⟨h.subset (List.mem_of_mem_head? (opening_head tag)), hid.isInfix.trans h⟩

/-- The page with a list copies no tags. -/
theorem list_page_unforged : @Unforged F64Display.ofWhole listPage default := by
  let display := F64Display.ofWhole
  have hvisited : ∀ {setting v}, PrintedIn listPage default setting v → v ∈ listVisits :=
    fun hv => mem_list_visits (visited_of_printed hv)
  have hbare : ∀ v ∈ listVisits, (frame listPage default v).bare = false := by decide
  have hwindows : ∀ v ∈ listVisits, ∀ s ∈ (frame listPage default v).windows, '[' ∈ s →
      ¬ ("id=\"" : Text) <:+: s ∧ ¬ ("id=\"" : Text) <:+: oneLine s := by decide
  have hids : ∀ v ∈ listVisits, ∀ t ∈ (frame listPage default v).escapes,
      '\n' ∉ t ∧ '|' ∉ t := by decide
  refine ⟨?_, ?_, ?_, ?_⟩
  · intro setting v hv s hs tag hoccurs
    obtain ⟨hbracket, hid⟩ := parts_of_opening hoccurs
    have hnone := hwindows v (hvisited hv) s hs (Setting.mem_of_mem_fold (by decide) hbracket)
    cases setting with
    | page => exact hnone.1 hid
    | item | cell => exact hnone.2 hid
  · rintro setting v t hv ⟨sep, hframe, -⟩
    have h := hbare v (hvisited hv)
    rw [hframe] at h
    cases h
  · intro setting v tag id hv hprints c hc
    have hid := hids v (hvisited hv) id (mem_escapes hprints)
    rcases List.mem_pair.mp (setting.unstable_subset hc) with rfl | rfl
    exacts [hid.1, hid.2]
  · intro x hx _ v w s t hv _ hloose
    have h := hbare v (mem_list_visits (visited_of_inside hx hv))
    rw [hloose] at h
    cases h

/-- Its tags are genuine. -/
theorem list_page_tags_genuine : ∃ view,
    @emit F64Display.ofWhole listPage default 3 = some view ∧
      ∀ (tag : MarkdownTag) (id : Text), '"' ∉ id → tag.opening ++ id ++ ['"'] <:+: view.content →
        ∃ node ∈ listPage.nodes, Produces listPage node tag ∧ id = escapeAttrInline node.id := by
  let display := F64Display.ofWhole
  have hreturns : (emit listPage default 3).isSome := by decide
  obtain ⟨view, hview⟩ := Option.isSome_iff_exists.mp hreturns
  exact ⟨view, hview, (@tags_genuine F64Display.ofWhole listPage default rfl
    list_page_unforged).2 3 view hview⟩

/-- A page whose text is the tag of a button. -/
def forgedPage : AgentRenderTree where
  root := "page"
  nodes := [.plain "page" .page none ["text"],
    .plain "text" .text (some "[button id=\"x\"]") []]
  generation := 0
  truncated := false

/-- The output has the tag of a button that is not in the tree. -/
theorem forged_page_not_genuine : ∃ view,
    @emit F64Display.ofWhole forgedPage default 2 = some view ∧
      ¬ ∀ (tag : MarkdownTag) (id : Text), '"' ∉ id →
        tag.opening ++ id ++ ['"'] <:+: view.content →
          ∃ node ∈ forgedPage.nodes, Produces forgedPage node tag ∧
            id = escapeAttrInline node.id := by
  let display := F64Display.ofWhole
  have hreturns : (emit forgedPage default 2).isSome := by decide
  obtain ⟨view, hview⟩ := Option.isSome_iff_exists.mp hreturns
  have hcontent : ∀ view ∈ emit forgedPage default 2,
      MarkdownTag.button.opening ++ ("x" : Text) ++ ['"'] <:+: view.content := by decide
  have hroles : ∀ node ∈ forgedPage.nodes, tagOfRole node.structuralRole = none := by decide
  refine ⟨view, hview, fun hgenuine => ?_⟩
  obtain ⟨node, hnode, hproduces | ⟨hoption, -⟩, -⟩ :=
    hgenuine .button "x" (by decide) (hcontent view hview)
  · rw [hroles node hnode] at hproduces
    cases hproduces
  · cases hoption

end BrowsAI.PageText
