import Mathlib.Data.List.Infix

/-!
# Pages of a list

A reader gets a list in pages. A page is a piece of the list from an offset on and names the offset
behind it while something is left, `Cuts`; then the pages of a reader who follows these offsets make
up the list, `follow_spec`, or what is kept of it if every page drops the items that are not to be
kept, `follow_kept_spec`. A page that takes items as long as they fit is the longest prefix that
fits, `Longest`.
-/

namespace Pages

variable {α : Type}

/-! ## What fits -/

/-- The longest prefix of a list with a property. -/
structure Longest (P : List α → Prop) (xs taken : List α) : Prop where
  starts : taken <+: xs
  fits : P taken
  longest : ∀ other, other <+: xs → P other → other <+: taken

theorem longest_self {P : List α → Prop} {xs : List α} (h : P xs) : Longest P xs xs where
  starts := List.prefix_rfl
  fits := h
  longest := fun _ hother _ => hother

/-- What cannot be extended is the longest, if the property holds of the prefixes of what it holds
of. -/
theorem longest_of_stop {P : List α → Prop} (hclosed : ∀ xs ys, P (xs ++ ys) → P xs)
    {taken rest : List α} {x : α} (hfits : P taken) (hstop : ¬ P (taken ++ [x])) :
    Longest P (taken ++ x :: rest) taken where
  starts := List.prefix_append _ _
  fits := hfits
  longest := by
    intro other hother hP
    have hnext : taken ++ [x] <+: taken ++ x :: rest := ⟨rest, by simp⟩
    obtain hshort | hlong := List.prefix_or_prefix_of_prefix hother hnext
    · obtain heq | hshort := List.prefix_concat_iff.mp hshort
      · exact absurd (heq ▸ hP) hstop
      · exact hshort
    · obtain ⟨more, rfl⟩ := hlong
      exact absurd (hclosed _ _ hP) hstop

/-! ## What follows -/

section Follow

variable {π : Type}

/-- The pages that a reader gets who follows the offsets; no pages if a call fails, or if the fuel
runs out before the last page. -/
def follow (ask : Nat → Nat → Option π) (next : π → Option Nat) :
    Nat → Nat → Nat → Option (List π)
  | 0, _, _ => none
  | fuel + 1, call, offset =>
      match ask call offset with
      | none => none
      | some page =>
          match next page with
          | none => some [page]
          | some later => (follow ask next fuel (call + 1) later).map (page :: ·)

/-- There is a first page. -/
theorem exists_cons_of_follow {ask : Nat → Nat → Option π} {next : π → Option Nat}
    {fuel call offset : Nat} {pages : List π} (h : follow ask next fuel call offset = some pages) :
    ∃ page rest, ask call offset = some page ∧ pages = page :: rest := by
  cases fuel with
  | zero => cases h
  | succ fuel =>
      rw [follow] at h
      cases hask : ask call offset with
      | none =>
          rw [hask] at h
          cases h
      | some page =>
          rw [hask] at h
          dsimp only at h
          cases hnext : next page with
          | none =>
              rw [hnext] at h
              cases h
              exact ⟨page, [], rfl, rfl⟩
          | some later =>
              rw [hnext] at h
              obtain ⟨rest, -, rfl⟩ := Option.map_eq_some_iff.mp h
              exact ⟨page, rest, rfl, rfl⟩

/-- Every page but the last names a later offset. -/
theorem next_is_some_of_follow {ask : Nat → Nat → Option π} {next : π → Option Nat}
    {fuel call offset : Nat} {pages : List π} (h : follow ask next fuel call offset = some pages) :
    ∀ page ∈ pages.dropLast, (next page).isSome := by
  induction fuel generalizing call offset pages with
  | zero => cases h
  | succ fuel ih =>
      rw [follow] at h
      cases hask : ask call offset with
      | none =>
          rw [hask] at h
          cases h
      | some first =>
          rw [hask] at h
          dsimp only at h
          cases hnext : next first with
          | none =>
              rw [hnext] at h
              cases h
              exact fun page hpage => nomatch hpage
          | some later =>
              rw [hnext] at h
              obtain ⟨rest, hrest, rfl⟩ := Option.map_eq_some_iff.mp h
              intro page hpage
              cases rest with
              | nil => cases hpage
              | cons second rest =>
                  rw [List.dropLast_cons_cons] at hpage
                  rcases List.mem_cons.mp hpage with rfl | hpage
                  · rw [hnext]
                    rfl
                  · exact ih hrest page hpage

/-- The page is a piece of the list from the offset on, with an item if one is left, and names the
offset behind it. -/
def Cuts (items : π → List α) (next : π → Option Nat) (xs : List α) (offset : Nat) (page : π) :
    Prop :=
  ∃ n, items page = (xs.drop offset).take n ∧ (offset < xs.length → 0 < n) ∧
    offset + n ≤ xs.length ∧ next page = if offset + n < xs.length then some (offset + n) else none

/-- The same, but only the items of the piece that are kept are in the page. -/
def CutsKept (keep : α → Bool) (items : π → List α) (next : π → Option Nat) (xs : List α)
    (offset : Nat) (page : π) : Prop :=
  ∃ n, items page = ((xs.drop offset).take n).filter keep ∧ (offset < xs.length → 0 < n) ∧
    offset + n ≤ xs.length ∧ next page = if offset + n < xs.length then some (offset + n) else none

variable {items : π → List α} {next : π → Option Nat} {xs : List α} {ask : Nat → Nat → Option π}
  {Q : Nat → π → Prop}

theorem Cuts.kept {offset : Nat} {page : π} (h : Cuts items next xs offset page) :
    CutsKept (fun _ => true) items next xs offset page := by
  obtain ⟨n, hitems, hrest⟩ := h
  exact ⟨n, hitems.trans (List.filter_true _).symm, hrest⟩

/-- From any offset, a call for each item that is left is enough to get to the end. -/
theorem follow_kept_spec {keep : α → Bool}
    (hask : ∀ call offset, offset ≤ xs.length →
      ∃ page, ask call offset = some page ∧ CutsKept keep items next xs offset page ∧ Q call page)
    (call : Nat) {fuel offset : Nat} (hoffset : offset ≤ xs.length)
    (hfuel : xs.length - offset < fuel) :
    ∃ pages, follow ask next fuel call offset = some pages ∧
      (pages.map items).flatten = (xs.drop offset).filter keep ∧
      ∀ (i : Nat) (page : π), pages[i]? = some page → Q (call + i) page := by
  induction fuel generalizing call offset with
  | zero => omega
  | succ fuel ih =>
      obtain ⟨page, hpage, hcuts, hQ⟩ := hask call offset hoffset
      obtain ⟨n, hitems, hpos, hend, hnext⟩ := hcuts
      simp only [follow, hpage, hnext]
      by_cases hmore : offset + n < xs.length
      · rw [if_pos hmore]
        -- a page that is not the last one takes at least one item
        have hprogress : 0 < n := hpos (by omega)
        obtain ⟨pages, hpages, hflatten, hrest⟩ := ih (call + 1) hend (by omega)
        refine ⟨page :: pages, ?_, ?_, ?_⟩
        · simp only [hpages, Option.map_some]
        · rw [List.map_cons, List.flatten_cons, hflatten, hitems, ← List.drop_drop,
            ← List.filter_append, List.take_append_drop]
        · intro i later hlater
          cases i with
          | zero =>
              cases hlater
              exact hQ
          | succ i =>
              have hlater := hrest i later hlater
              rwa [Nat.add_assoc, Nat.add_comm 1 i] at hlater
      · rw [if_neg hmore]
        refine ⟨[page], rfl, ?_, ?_⟩
        · have hall : (xs.drop offset).take n = xs.drop offset := by
            apply List.take_of_length_le
            rw [List.length_drop]
            omega
          rw [List.map_singleton, List.flatten_singleton, hitems, hall]
        · intro i later hlater
          cases i with
          | zero =>
              cases hlater
              exact hQ
          | succ i => cases hlater

/-- If every call cuts a page, following the cursors gives the rest of the list in pages. -/
theorem follow_spec
    (hask : ∀ call offset, offset ≤ xs.length →
      ∃ page, ask call offset = some page ∧ Cuts items next xs offset page ∧ Q call page)
    (call : Nat) {fuel offset : Nat} (hoffset : offset ≤ xs.length)
    (hfuel : xs.length - offset < fuel) :
    ∃ pages, follow ask next fuel call offset = some pages ∧
      (pages.map items).flatten = xs.drop offset ∧
      ∀ (i : Nat) (page : π), pages[i]? = some page → Q (call + i) page := by
  have hkept : ∀ call offset, offset ≤ xs.length → ∃ page, ask call offset = some page ∧
      CutsKept (fun _ => true) items next xs offset page ∧ Q call page := by
    intro call offset hoffset
    obtain ⟨page, hpage, hcuts, hQ⟩ := hask call offset hoffset
    exact ⟨page, hpage, hcuts.kept, hQ⟩
  have h := follow_kept_spec hkept call hoffset hfuel
  rwa [List.filter_true] at h

end Follow

end Pages
