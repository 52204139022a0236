import BrowsAI.Library.Utf8

/-!
# Reading links with a pattern

The pattern `[text](url)`, in which the text has no `]` and the url no `)`, and the reader that
finds its first match in a text. `readLink_print` says when the reader gets back the url of a link
that was printed by putting a shown text and a url between the delimiters.
-/

namespace LinkPattern

open Utf8

/-- The url of a match of `[text](url)` at the start of a text. -/
def matchLink : Text → Option Text
  | '[' :: rest =>
      match splitOnce ']' rest with
      | some (_, '(' :: tail) => (splitOnce ')' tail).map Prod.fst
      | _ => none
  | _ => none

/-- The url of the first match in a text. -/
def readLink : Text → Option Text
  | [] => none
  | c :: s => matchLink (c :: s) <|> readLink s

/-- What is printed behind the shown text of a link. -/
def linkTail (url : Text) : Text := ']' :: '(' :: (url ++ [')'])

/-- A `[` in front of `s` that opens no link: the next `]` in `s` is not followed by `(`. -/
def Stray (s : Text) : Prop :=
  ∃ t r, s = t ++ ']' :: r ∧ ']' ∉ t ∧ r.head? ≠ some '('

/-- A `[` in front of `s` that opens the printed link, or one with the same url. -/
def Opens (s url : Text) : Prop :=
  ']' ∉ s ∨ ∃ t r, s = t ++ (linkTail url ++ r) ∧ ']' ∉ t

/-- The first `[` of `s` that is not stray opens the printed link, or one with the same url. -/
def Readable (s url : Text) : Prop :=
  ∃ a b, s = a ++ '[' :: b ∧ (∀ a₁ a₂, a = a₁ ++ '[' :: a₂ → Stray (a₂ ++ '[' :: b)) ∧ Opens b url

variable {s t url : Text}

/-- A link is a text in brackets with its address behind. -/
theorem matchLink_eq_some_iff :
    matchLink ('[' :: s) = some url ↔
      ∃ t r, s = t ++ (linkTail url ++ r) ∧ ']' ∉ t ∧ ')' ∉ url := by
  constructor
  · intro h
    rw [matchLink] at h
    split at h
    · rename_i text tail hsplit
      obtain ⟨hs, htext⟩ := splitOnce_eq_some_iff.mp hsplit
      obtain ⟨⟨_, r⟩, hurl, rfl⟩ := Option.map_eq_some_iff.mp h
      obtain ⟨rfl, hclose⟩ := splitOnce_eq_some_iff.mp hurl
      exact ⟨text, r, by simp [hs, linkTail], htext, hclose⟩
    · cases h
  · rintro ⟨t, r, rfl, ht, hurl⟩
    have hopen : splitOnce ']' (t ++ (linkTail url ++ r)) = some (t, '(' :: (url ++ ')' :: r)) :=
      splitOnce_eq_some_iff.mpr ⟨by simp [linkTail], ht⟩
    simp [matchLink, hopen, splitOnce_append hurl]

/-- At a stray bracket nothing matches. -/
theorem matchLink_of_stray (h : Stray s) : matchLink ('[' :: (s ++ linkTail url)) = none := by
  obtain ⟨t, r, rfl, ht, hr⟩ := h
  have hsplit : splitOnce ']' (t ++ ']' :: r ++ linkTail url) = some (t, r ++ linkTail url) :=
    splitOnce_eq_some_iff.mpr ⟨by simp, ht⟩
  rw [matchLink, hsplit]
  cases r with
  | nil => rfl
  | cons c r =>
      have hc : c ≠ '(' := by simpa using hr
      simp [hc]

/-- At any other bracket something matches, since the printed link is closed. -/
theorem matchLink_of_not_stray (url : Text) (h : ¬ Stray s) :
    (matchLink ('[' :: (s ++ linkTail url))).isSome := by
  have hclosed : ∀ r : Text, ∃ x y, r ++ [')'] = x ++ ')' :: y ∧ ')' ∉ x := fun r =>
    List.eq_append_cons_of_mem (by simp)
  by_cases hs : ']' ∈ s
  · obtain ⟨t, r, rfl, ht⟩ := List.eq_append_cons_of_mem hs
    have hhead : r.head? = some '(' := by
      by_contra hr
      exact h ⟨t, r, rfl, ht, hr⟩
    obtain ⟨tail, rfl⟩ : ∃ tail, r = '(' :: tail := by
      cases r with
      | nil => simp at hhead
      | cons c tail => exact ⟨tail, by simpa using hhead⟩
    obtain ⟨x, y, hxy, hx⟩ := hclosed (tail ++ ']' :: '(' :: url)
    rw [matchLink_eq_some_iff.mpr ⟨t, y, by simpa [linkTail] using hxy, ht, hx⟩]
    rfl
  · obtain ⟨x, y, hxy, hx⟩ := hclosed url
    rw [matchLink_eq_some_iff.mpr ⟨s, y, by simpa [linkTail] using hxy, hs, hx⟩]
    rfl

/-- At a bracket in front of the printed link the reader gets its url exactly when the bracket opens
the link, or one with the same url. -/
theorem matchLink_print (s url : Text) :
    matchLink ('[' :: (s ++ linkTail url)) = some url ↔ ')' ∉ url ∧ Opens s url := by
  rw [matchLink_eq_some_iff]
  constructor
  · rintro ⟨t, r, hprint, ht, hurl⟩
    refine ⟨hurl, ?_⟩
    by_cases hs : ']' ∈ s
    swap
    · exact .inl hs
    obtain ⟨t', s', rfl, ht'⟩ := List.eq_append_cons_of_mem hs
    obtain ⟨rfl, htail⟩ : t' = t ∧ s' ++ linkTail url = '(' :: (url ++ [')']) ++ r :=
      append_cons_inj ht' ht (by simpa [linkTail] using hprint)
    -- the first `)` ends the url that was read, so it cannot lie behind `s'`
    have hparen : ')' ∉ '(' :: url := by simp [hurl]
    by_cases hclose : ')' ∈ s'
    · obtain ⟨x, y, rfl, hx⟩ := List.eq_append_cons_of_mem hclose
      have hread : x ++ ')' :: (y ++ linkTail url) = ('(' :: url) ++ ')' :: r := by
        simpa using htail
      obtain ⟨rfl, -⟩ := append_cons_inj hx hparen hread
      exact .inr ⟨t', y, by simp [linkTail], ht⟩
    · have hbefore : ')' ∉ s' ++ ']' :: '(' :: url := by simp [hclose, hurl]
      have hread : (s' ++ ']' :: '(' :: url) ++ ')' :: [] = ('(' :: url) ++ ')' :: r := by
        simpa [linkTail] using htail
      obtain ⟨hlength, -⟩ := append_cons_inj hbefore hparen hread
      have := congrArg List.length hlength
      simp only [List.length_append, List.length_cons] at this
      omega
  · rintro ⟨hurl, hs | ⟨t, r, rfl, ht⟩⟩
    · exact ⟨s, [], by simp, hs, hurl⟩
    · exact ⟨t, r ++ linkTail url, by simp, ht, hurl⟩

/-- A url is shorter than the text it is read from. -/
theorem length_of_readLink (h : readLink s = some url) : url.length + 4 ≤ s.length := by
  induction s with
  | nil => cases h
  | cons c s ih =>
      rw [readLink] at h
      rcases hmatch : matchLink (c :: s) with _ | u
      · rw [hmatch] at h
        have := ih h
        simp only [List.length_cons]
        omega
      · rw [hmatch] at h
        obtain rfl : u = url := by simpa using h
        have hc : c = '[' := by
          by_contra hc
          simp [matchLink, hc] at hmatch
        subst hc
        obtain ⟨t, r, rfl, -⟩ := matchLink_eq_some_iff.mp hmatch
        simp only [linkTail, List.length_append, List.length_cons, List.length_nil]
        omega

theorem Opens.not_stray (h : Opens s url) : ¬ Stray s := by
  rintro ⟨t, r, rfl, ht, hr⟩
  rcases h with hs | ⟨t', r', hs, ht'⟩
  · simp at hs
  · obtain ⟨-, rfl⟩ := append_cons_inj ht ht' (by simpa [linkTail] using hs)
    simp at hr

/-- A link starts here, or later behind brackets that open none. -/
theorem readable_cons {c : Char} :
    Readable (c :: s) url ↔ c = '[' ∧ Opens s url ∨ (c = '[' → Stray s) ∧ Readable s url := by
  constructor
  · rintro ⟨a, b, hab, ha, hb⟩
    cases a with
    | nil =>
        obtain ⟨rfl, rfl⟩ := List.cons.inj hab
        exact .inl ⟨rfl, hb⟩
    | cons d a =>
        obtain ⟨rfl, rfl⟩ := List.cons.inj hab
        refine .inr ⟨?_, a, b, rfl, fun a₁ a₂ h => ha (c :: a₁) a₂ (by rw [h]; rfl), hb⟩
        rintro rfl
        exact ha [] a rfl
  · rintro (⟨rfl, hopens⟩ | ⟨hstray, a, b, rfl, ha, hb⟩)
    · exact ⟨[], s, rfl, by simp, hopens⟩
    · refine ⟨c :: a, b, rfl, fun a₁ a₂ h => ?_, hb⟩
      cases a₁ with
      | nil =>
          obtain ⟨rfl, rfl⟩ := List.cons.inj h
          exact hstray rfl
      | cons d a₁ => exact ha a₁ a₂ (List.cons.inj h).2

/-- When the reader gets back the url of a printed link. -/
theorem readLink_print :
    readLink (s ++ linkTail url) = some url ↔ ')' ∉ url ∧ Readable s url := by
  induction s with
  | nil =>
      constructor
      · intro h
        have hlength := length_of_readLink h
        simp only [linkTail, List.nil_append, List.length_cons, List.length_append,
          List.length_nil] at hlength
        omega
      · rintro ⟨-, a, b, hab, -⟩
        simp at hab
  | cons c s ih =>
      rw [List.cons_append, readLink, readable_cons]
      by_cases hc : c = '['
      swap
      · have hnone : matchLink (c :: (s ++ linkTail url)) = none := by simp [matchLink, hc]
        rw [hnone]
        simpa [hc] using ih
      subst hc
      by_cases hstray : Stray s
      · have hopens : ¬ Opens s url := fun h => h.not_stray hstray
        rw [matchLink_of_stray hstray]
        simpa [hopens, hstray] using ih
      · obtain ⟨u, hu⟩ := Option.isSome_iff_exists.mp (matchLink_of_not_stray url hstray)
        have hprint := matchLink_print s url
        rw [hu] at hprint ⊢
        simpa [hstray] using hprint

end LinkPattern
