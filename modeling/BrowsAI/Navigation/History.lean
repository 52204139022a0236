import BrowsAI.Library.Zipper
import BrowsAI.Navigation.State
import BrowsAI.Network.WebUrl

/-!
# The history as a zipper

A navigation state stands for a zipper of history entries. The moves and the status changes follow
the zipper. `start` follows it exactly when its test for a fragment change agrees with the URLs: it
compares origins, and an opaque origin is not even its own equal.
-/

namespace BrowsAI.Navigation

open Utf8 Network

namespace NavigationState

variable {U : Type} {s s' : NavigationState U} {z : Zipper (HistoryEntry U)} {url : U}

/-- The position is in the history, and the current URL is the one there. -/
def Placed (s : NavigationState U) : Prop :=
  ∃ entry, s.history[s.index.toNat]? = some entry ∧ entry.url = s.current

/-- The state has the entries of a zipper, and its URL and position are those of the focus. -/
structure Represents (s : NavigationState U) (z : Zipper (HistoryEntry U)) : Prop where
  history : s.history = z.toList
  index : s.index.toNat = z.index
  current : s.current = z.focus.url

theorem Represents.get (h : s.Represents z) : s.history[s.index.toNat]? = some z.focus := by
  rw [h.history, h.index, z.get_index]

theorem Represents.placed (h : s.Represents z) : s.Placed := ⟨z.focus, h.get, h.current.symm⟩

theorem placed_iff : s.Placed ↔ ∃ z, s.Represents z := by
  constructor
  · intro ⟨entry, hget, hurl⟩
    obtain ⟨z, hlist, hindex, rfl⟩ := Zipper.exists_of_get hget
    exact ⟨z, hlist.symm, hindex.symm, hurl.symm⟩
  · intro ⟨z, hz⟩
    exact hz.placed

theorem represents_new (url : U) : (new url).Represents (.single ⟨url, none⟩) := ⟨rfl, rfl, rfl⟩

/-- A state stands for one zipper. -/
theorem Represents.unique {z' : Zipper (HistoryEntry U)} (h : s.Represents z)
    (h' : s.Represents z') : z = z' :=
  Zipper.eq_of_to_list (h.history.symm.trans h'.history) (h.index.symm.trans h'.index)

/-! ## The calls -/

theorem Represents.set_url (h : s.Represents z) (url : U) :
    s.setUrl url = some { s with history := (z.replace { z.focus with url }).toList } := by
  rw [setUrl, h.get, Option.map_some, Zipper.to_list_replace, ← h.history, ← h.index]

/-- The test of `start` for a change of the fragment alone. -/
def sameDocument [PageUrl U] [DecidableEq U] (current url : U) : Bool :=
  PageUrl.sameOrigin current url && Url.path current = Url.path url &&
    PageUrl.query current = PageUrl.query url && PageUrl.fragment current ≠ PageUrl.fragment url

/-- The two outcomes of `start`. -/
theorem start_eq [PageUrl U] [DecidableEq U] (s : NavigationState U) (url : U) :
    s.start url =
      if s.current = url ∨ sameDocument s.current url then
        (({ s with status := .loading } : NavigationState U).setUrl url).map fun s =>
          { s with current := url, generation := s.generation + 1 }
      else
        some
          { current := url
            history := s.history.take (s.index + 1).toNat ++ [⟨url, none⟩]
            index := s.index + 1
            status := .loading
            generation := s.generation + 1 } := by
  show (if s.current = url then _ else if (!sameDocument s.current url) = true then _ else _) = _
  by_cases hcurrent : s.current = url
  · rw [if_pos hcurrent, if_pos (Or.inl hcurrent), Option.map_eq_bind]
    rfl
  · rw [if_neg hcurrent]
    cases hsame : sameDocument s.current url with
    | true =>
        rw [Bool.not_true, if_neg Bool.false_ne_true, if_pos (Or.inr rfl), Option.map_eq_bind]
        rfl
    | false =>
        rw [Bool.not_false, if_pos rfl, if_neg (not_or.mpr ⟨hcurrent, Bool.false_ne_true⟩)]
        rfl

/-- The next position, which does not wrap around in a vector. -/
theorem Represents.next_index (h : s.Represents z) (hlength : s.history.length < 2 ^ 63) :
    (s.index + 1).toNat = z.index + 1 := by
  have hlt := z.index_lt_length
  rw [← h.history] at hlt
  rw [UInt64.toNat_add, h.index]
  show (z.index + 1) % 2 ^ 64 = z.index + 1
  omega

theorem placed_of_get {index : Nat} {entry : HistoryEntry U} (hindex : s.index.toNat = index)
    (hget : s.history[index]? = some entry) (hurl : entry.url = s.current) : s.Placed :=
  ⟨entry, hindex.symm ▸ hget, hurl⟩

theorem Placed.index_lt (h : s.Placed) : s.index.toNat < s.history.length := by
  obtain ⟨entry, hget, _⟩ := h
  exact (List.getElem?_eq_some_iff.mp hget).1

/-- The position of a new entry is in the history also where the index wraps around. -/
theorem Placed.start [PageUrl U] [DecidableEq U] (h : s.Placed) (url : U) :
    ∃ s', s.start url = some s' ∧ s'.Placed := by
  obtain ⟨entry, hget, _⟩ := h
  have hlt : s.index.toNat < s.history.length := (List.getElem?_eq_some_iff.mp hget).1
  rw [start_eq]
  split_ifs
  · rw [setUrl, hget]
    refine ⟨_, rfl, ⟨{ entry with url }, ?_, rfl⟩⟩
    exact List.getElem?_set_self hlt
  · refine ⟨_, rfl, ⟨⟨url, none⟩, ?_, rfl⟩⟩
    have hle : (s.index + 1).toNat ≤ s.history.length := by
      rw [UInt64.toNat_add]
      show (s.index.toNat + 1) % 2 ^ 64 ≤ s.history.length
      omega
    show (s.history.take (s.index + 1).toNat ++ [_])[(s.index + 1).toNat]? = _
    rw [List.getElem?_append_right (by rw [List.length_take]; omega), List.length_take,
      Nat.min_eq_left hle, Nat.sub_self]
    rfl

theorem placed_move_to {index : UInt64} (hindex : index.toNat < s.history.length) :
    ∃ url s', s.moveTo index = some (some url, s') ∧ s'.Placed := by
  rw [moveTo, List.getElem?_eq_getElem hindex]
  exact ⟨_, _, rfl, placed_of_get rfl (List.getElem?_eq_getElem hindex) rfl⟩

/-- Going back is possible, and keeps the place. -/
theorem Placed.back (h : s.Placed) : ∃ url s', s.back = some (url, s') ∧ s'.Placed := by
  rw [NavigationState.back]
  split_ifs with hzero
  · exact ⟨_, _, rfl, h⟩
  · have hlt := h.index_lt
    have hpred : (s.index - 1).toNat < s.history.length := by
      have hle : (1 : UInt64) ≤ s.index := by
        rw [UInt64.le_iff_toNat_le]
        show 1 ≤ s.index.toNat
        have hne : s.index.toNat ≠ 0 := fun h => hzero (UInt64.toNat_inj.mp h)
        omega
      rw [UInt64.toNat_sub_of_le _ _ hle]
      omega
    obtain ⟨url, s', hmove, hs'⟩ := placed_move_to hpred
    exact ⟨_, s', hmove, hs'⟩

theorem Placed.forward (h : s.Placed) : ∃ url s', s.forward = some (url, s') ∧ s'.Placed := by
  rw [NavigationState.forward]
  split_ifs with hend
  · exact ⟨_, _, rfl, h⟩
  · obtain ⟨url, s', hmove, hs'⟩ := placed_move_to (Nat.lt_of_not_le hend)
    exact ⟨_, s', hmove, hs'⟩

/-! ## The zipper -/

/-- What `start` does to the zipper. -/
theorem Represents.start [PageUrl U] [DecidableEq U] (h : s.Represents z)
    (hlength : s.history.length < 2 ^ 63) (url : U) :
    ∃ s', s.start url = some s' ∧ s'.Represents
      (if s.current = url ∨ sameDocument s.current url then z.replace { z.focus with url }
        else z.push ⟨url, none⟩) := by
  rw [start_eq]
  split_ifs with hreplaced
  · have hloading : ({ s with status := .loading } : NavigationState U).Represents z :=
      ⟨h.history, h.index, h.current⟩
    rw [hloading.set_url]
    exact ⟨_, rfl, rfl, h.index, rfl⟩
  · refine ⟨_, rfl, ?_, h.next_index hlength, rfl⟩
    rw [Zipper.to_list_push, h.next_index hlength, h.history]

theorem Represents.move_to {z' : Zipper (HistoryEntry U)} {index : UInt64} (h : s.Represents z)
    (hlist : z'.toList = z.toList) (hindex : index.toNat = z'.index) :
    ∃ s', s.moveTo index = some (some z'.focus.url, s') ∧ s'.Represents z' := by
  have hget : s.history[index.toNat]? = some z'.focus := by
    rw [h.history, hindex, ← hlist, z'.get_index]
  rw [moveTo, hget]
  exact ⟨_, rfl, h.history.trans hlist.symm, hindex, rfl⟩

/-- `back` moves to the left, and does nothing at the first entry. -/
theorem Represents.back (h : s.Represents z) :
    ∃ s', s.back = some (z.left.map fun z' => z'.focus.url, s') ∧
      s'.Represents (z.left.getD z) := by
  rw [NavigationState.back]
  cases hleft : z.left with
  | none =>
      have hzero : s.index = 0 :=
        UInt64.toNat_inj.mp (h.index.trans (Zipper.left_eq_none_iff.mp hleft))
      rw [if_pos hzero]
      exact ⟨s, rfl, h⟩
  | some z' =>
      obtain ⟨hlist, hindex⟩ := Zipper.to_list_left hleft
      have hne : s.index ≠ 0 := by
        intro hzero
        have hnat := h.index
        rw [hzero] at hnat
        have hzero' : (0 : UInt64).toNat = 0 := rfl
        omega
      rw [if_neg hne]
      refine h.move_to hlist ?_
      have hle : (1 : UInt64) ≤ s.index := by
        rw [UInt64.le_iff_toNat_le, h.index]
        show 1 ≤ z.index
        omega
      rw [UInt64.toNat_sub_of_le _ _ hle, h.index]
      show z.index - 1 = z'.index
      omega

/-- `forward` moves to the right, and does nothing at the last entry. -/
theorem Represents.forward (h : s.Represents z) (hlength : s.history.length < 2 ^ 63) :
    ∃ s', s.forward = some (z.right.map fun z' => z'.focus.url, s') ∧
      s'.Represents (z.right.getD z) := by
  have hnext := h.next_index hlength
  rw [NavigationState.forward, hnext, h.history]
  cases hright : z.right with
  | none =>
      rw [if_pos (Zipper.right_eq_none_iff.mp hright)]
      exact ⟨s, rfl, h⟩
  | some z' =>
      have hinside : ¬ z.toList.length ≤ z.index + 1 := by
        intro hle
        have hnone := Zipper.right_eq_none_iff.mpr hle
        rw [hright] at hnone
        cases hnone
      rw [if_neg hinside]
      obtain ⟨hlist, hindex⟩ := Zipper.to_list_right hright
      exact h.move_to hlist (hnext.trans hindex.symm)

/-! ## Runs -/

/-- `back` and then `forward` leave history, position and URL as they were. -/
def Restores (s : NavigationState U) : Prop :=
  ∀ url s₁ url' s₂, s.back = some (some url, s₁) → s₁.forward = some (some url', s₂) →
    s₂.history = s.history ∧ s₂.index = s.index ∧ s₂.current = s.current

/-- A history that is short enough can be restored. -/
theorem Represents.restores (h : s.Represents z) (hlength : s.history.length < 2 ^ 63) :
    s.Restores := by
  intro url s₁ url' s₂ hback hforward
  obtain ⟨t₁, ht₁, h₁⟩ := h.back
  rw [hback] at ht₁
  obtain ⟨hurl, rfl⟩ := Prod.mk.inj (Option.some.inj ht₁)
  obtain ⟨z₁, hleft, _⟩ := Option.map_eq_some_iff.mp hurl.symm
  rw [hleft, Option.getD_some] at h₁
  have hhistory : s₁.history = s.history := by
    rw [h₁.history, h.history, (Zipper.to_list_left hleft).1]
  obtain ⟨t₂, ht₂, h₂⟩ := h₁.forward (by rw [hhistory]; exact hlength)
  rw [hforward] at ht₂
  obtain ⟨_, rfl⟩ := Prod.mk.inj (Option.some.inj ht₂)
  rw [Zipper.right_of_left hleft, Option.getD_some] at h₂
  exact ⟨h₂.history.trans h.history.symm,
    UInt64.toNat_inj.mp (h₂.index.trans h.index.symm), h₂.current.trans h.current.symm⟩

section Runs

variable [DocumentUrl U] [DecidableEq U]

/-- The same call on the zipper: a URL of the current document takes the place of the current one,
and a URL of another document comes after it. -/
def follow (z : Zipper (HistoryEntry U)) : Op U → Zipper (HistoryEntry U)
  | .start url =>
      if DocumentUrl.document z.focus.url = DocumentUrl.document url then
        z.replace { z.focus with url }
      else z.push ⟨url, none⟩
  | .complete | .fail _ | .reload | .stop => z
  | .back => z.left.getD z
  | .forward => z.right.getD z

/-- A call returns, and the state before it and the state after it stand for zippers of which the
second follows the first. -/
structure Follows (s : NavigationState U) (op : Op U) : Prop where
  placed : s.Placed
  restores : s.Restores
  follows : ∃ z s', s.Represents z ∧ s.perform op = some s' ∧ s'.Placed ∧
    s'.Represents (follow z op)

/-- A new fragment comes with a tuple origin, and no other document passes for a new fragment. -/
def SeesFragment (s : NavigationState U) : Op U → Prop
  | .start url => s.current ≠ url →
      (DocumentUrl.document s.current = DocumentUrl.document url →
        PageUrl.sameOrigin s.current url = true) ∧
      (sameDocument s.current url = true →
        DocumentUrl.document s.current = DocumentUrl.document url)
  | _ => True

/-- A start is told as one within the document exactly if the addresses differ in the fragment at
most. -/
theorem sees_fragment_start_iff (hlaws : DocumentUrl.Lawful U) (s : NavigationState U) (url : U) :
    (s.current = url ∨ sameDocument s.current url = true ↔
      DocumentUrl.document s.current = DocumentUrl.document url) ↔ s.SeesFragment (.start url) := by
  rw [SeesFragment]
  by_cases hcurrent : s.current = url
  · refine iff_of_true ?_ fun hne => absurd hcurrent hne
    exact iff_of_true (Or.inl hcurrent) (congrArg _ hcurrent)
  · have hsame : DocumentUrl.document s.current = DocumentUrl.document url →
        (sameDocument s.current url = true ↔ PageUrl.sameOrigin s.current url = true) := by
      intro hdocument
      have hfragment : PageUrl.fragment s.current ≠ PageUrl.fragment url := fun hfragment =>
        hcurrent (hlaws.ext _ _ hdocument hfragment)
      rw [sameDocument, decide_eq_true (hlaws.path _ _ hdocument),
        decide_eq_true (hlaws.query _ _ hdocument), decide_eq_true hfragment]
      simp only [Bool.and_true]
    rw [or_iff_right hcurrent]
    constructor
    · exact fun hiff _ => ⟨fun hdocument => (hsame hdocument).mp (hiff.mpr hdocument), hiff.mp⟩
    · intro h
      obtain ⟨horigin, hdocument⟩ := h hcurrent
      exact ⟨hdocument, fun heq => (hsame heq).mpr (horigin heq)⟩

omit [DocumentUrl U] [DecidableEq U] in
theorem push_ne_replace (z : Zipper (HistoryEntry U)) (a b : HistoryEntry U) :
    z.push a ≠ z.replace b := by
  intro heq
  have hindex : z.index + 1 = z.index := congrArg Zipper.index heq
  omega

/-- The call that keeps every entry. -/
theorem Represents.follows_of_eq {op : Op U} (h : s.Represents z)
    (hlength : s.history.length < 2 ^ 63) (hperform : s.perform op = some s')
    (hfollow : s'.Represents (follow z op)) : s.Follows op where
  placed := h.placed
  restores := h.restores hlength
  follows := ⟨z, s', h, hperform, hfollow.placed, hfollow⟩

/-- One call follows the zipper exactly when it sees the fragment. -/
theorem Represents.follows_iff (hlaws : DocumentUrl.Lawful U) (h : s.Represents z)
    (hlength : s.history.length < 2 ^ 63) (op : Op U) : s.Follows op ↔ s.SeesFragment op := by
  cases op with
  | start url =>
      obtain ⟨s', hstart, hs'⟩ := h.start hlength url
      rw [← sees_fragment_start_iff hlaws]
      constructor
      · intro hfollows
        obtain ⟨z₁, s₁, hz₁, hperform, _, hs₁⟩ := hfollows.follows
        obtain rfl := h.unique hz₁
        obtain rfl : s' = s₁ := Option.some.inj (hstart.symm.trans hperform)
        have heq := hs'.unique hs₁
        rw [follow, ← h.current] at heq
        split_ifs at heq with hcode hdocument hdocument
        · exact iff_of_true hcode hdocument
        · exact absurd heq.symm (push_ne_replace _ _ _)
        · exact absurd heq (push_ne_replace _ _ _)
        · exact iff_of_false hcode hdocument
      · intro hiff
        refine h.follows_of_eq hlength hstart ?_
        rw [follow, ← h.current]
        simp only [← hiff]
        exact hs'
  | complete | fail reason | reload =>
      exact iff_of_true (h.follows_of_eq hlength rfl ⟨h.history, h.index, h.current⟩) trivial
  | stop =>
      refine iff_of_true (h.follows_of_eq hlength rfl ?_) trivial
      rw [stop]
      split
      · exact ⟨h.history, h.index, h.current⟩
      · exact h
  | back =>
      obtain ⟨s', hback, hs'⟩ := h.back
      refine iff_of_true (h.follows_of_eq hlength ?_ hs') trivial
      rw [perform, hback, Option.map_some]
  | forward =>
      obtain ⟨s', hforward, hs'⟩ := h.forward hlength
      refine iff_of_true (h.follows_of_eq hlength ?_ hs') trivial
      rw [perform, hforward, Option.map_some]

/-- A run from a new state follows the zipper exactly when every `start` in it sees the fragment. -/
theorem refines_zipper_iff (hlaws : DocumentUrl.Lawful U) (url : U) (ops : List (Op U))
    (hallowed : machine.AllowedRun (new url) ops) :
    machine.Throughout Follows (new url) ops ↔ machine.Throughout SeesFragment (new url) ops := by
  refine Machine.throughout_congr
    (I := fun s : NavigationState U => s.Placed ∧ s.history.length < 2 ^ 63)
    (fun s op hs _ => ?_) (fun s op hs hop hsees => ?_) ⟨(represents_new url).placed, ?_⟩ hallowed
  · obtain ⟨z, hz⟩ := placed_iff.mp hs.1
    exact hz.follows_iff hlaws hs.2 op
  · obtain ⟨z, hz⟩ := placed_iff.mp hs.1
    obtain ⟨_, s', _, hperform, hs', _⟩ := ((hz.follows_iff hlaws hs.2 op).mpr hsees).follows
    have hstep : machine.step s op = s' := by
      show (s.perform op).getD s = s'
      rw [hperform]
      rfl
    rw [hstep]
    exact ⟨hs', hop s' hperform⟩
  · show 1 < 2 ^ 63
    omega

end Runs

/-! ## Two pages -/

/-- A file. -/
def notes : WebUrl := ⟨"file", [], some [], "/notes", none, none⟩

/-- A page. -/
def shop : WebUrl := ⟨"https", [], some "a.example", "/", none, none⟩

/-- A new fragment in a shop page, another page, and back. -/
theorem shop_follows : machine.Throughout Follows (new shop)
    [.start { shop with fragment := some "sale" }, .start notes, .back] := by
  refine (refines_zipper_iff WebUrl.document_lawful shop _ ?_).mpr ?_
  · exact ⟨fun s' hs' => by cases hs'; decide, fun s' hs' => by cases hs'; decide,
      fun s' hs' => by cases hs'; decide, trivial⟩
  · exact ⟨fun _ => by decide, fun _ => by decide, trivial, trivial⟩

/-- A new fragment in a file appends an entry. -/
theorem notes_not_follows :
    ((new notes).start { notes with fragment := some "end" }).map (·.history.length) = some 2 ∧
      ¬ ∀ (url : WebUrl) (ops : List (Op WebUrl)), machine.AllowedRun (new url) ops →
        machine.Throughout Follows (new url) ops := by
  refine ⟨by decide, fun h => ?_⟩
  have hallowed : machine.AllowedRun (new notes)
      [.start { notes with fragment := some "end" }] :=
    ⟨fun s' hs' => by cases hs'; decide, trivial⟩
  have hfollows := (h _ _ hallowed).1
  rw [(represents_new notes).follows_iff WebUrl.document_lawful (by decide)] at hfollows
  have horigin := (hfollows (by decide)).1 (by decide)
  exact absurd horigin (by decide)

end NavigationState

end BrowsAI.Navigation
