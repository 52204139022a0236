import BrowsAI.Library.Utf8
import Mathlib.Data.List.Infix

/-!
# Occurrences of a marker

A marker is a word, and it occurs in a text when it is an infix of it. Characters that are not in
the marker are inert: an occurrence never reaches across one, `infix_cut`. So a marker survives the
cutting and folding of texts at inert characters, `infix_replace` and `infix_trim`, and a text that
ends with an inert character can be followed by anything, `Closed`. For a family of markers,
`Followed` says that what stands behind each occurrence is good for it.
-/

namespace Occurs

open Utf8

variable {m s t u : Text} {c : Char}

/-- Where a list is cut at an inert character, an occurrence lies on one side. -/
theorem append_eq_cut {a b : Text} (hc : c ∉ m) (h : a ++ m ++ b = s ++ c :: t) :
    (∃ x, a ++ m ++ x = s) ∨ ∃ y, a = s ++ c :: y ∧ t = y ++ m ++ b := by
  rcases List.append_eq_append_iff.mp h with ⟨x, hs, -⟩ | ⟨x, ham, hx⟩
  · exact .inl ⟨x, hs.symm⟩
  rcases x with _ | ⟨d, x⟩
  · exact .inl ⟨[], by simpa using ham⟩
  obtain ⟨rfl, rfl⟩ : c = d ∧ t = x ++ b := by simpa using hx
  rcases List.append_eq_append_iff.mp ham with ⟨y, -, hmid⟩ | ⟨y, ha, hmid⟩
  · rw [hmid] at hc
    simp at hc
  · rcases y with _ | ⟨e, y⟩
    · rw [← List.nil_append m, ← hmid] at hc
      simp at hc
    · obtain ⟨rfl, rfl⟩ : c = e ∧ x = y ++ m := by simpa using hmid
      exact .inr ⟨y, ha, rfl⟩

/-- An occurrence lies in front of an inert character or behind it. -/
theorem infix_cut (hc : c ∉ m) : m <:+: s ++ c :: t ↔ m <:+: s ∨ m <:+: t := by
  constructor
  · rintro ⟨a, b, hab⟩
    obtain ⟨x, hs⟩ | ⟨y, -, ht⟩ := append_eq_cut hc hab
    · exact .inl ⟨a, x, hs⟩
    · exact .inr ⟨y, b, ht.symm⟩
  · rintro (h | h)
    · exact h.trans (List.prefix_append s _).isInfix
    · exact h.trans ((List.suffix_cons c t).trans (List.suffix_append s _)).isInfix

/-- Inert characters in front make no difference. -/
theorem infix_inert_append (hu : ∀ d ∈ u, d ∉ m) (hm : m ≠ []) : m <:+: u ++ t ↔ m <:+: t := by
  induction u with
  | nil => rfl
  | cons d u ih =>
      have hcut := infix_cut (s := []) (t := u ++ t) (hu d (by simp))
      have hnil : ¬ m <:+: [] := fun h => hm (List.infix_nil.mp h)
      rw [List.nil_append] at hcut
      rw [List.cons_append, hcut, ih fun e he => hu e (by simp [he])]
      simp [hnil]

/-- Inert characters behind make no difference. -/
theorem infix_append_inert (hu : ∀ d ∈ u, d ∉ m) (hm : m ≠ []) : m <:+: s ++ u ↔ m <:+: s := by
  cases u with
  | nil => rw [List.append_nil]
  | cons d u =>
      have hrest := infix_inert_append (t := []) (fun e he => hu e (List.mem_cons_of_mem d he)) hm
      have hnil : ¬ m <:+: [] := fun h => hm (List.infix_nil.mp h)
      rw [List.append_nil] at hrest
      rw [infix_cut (hu d (by simp)), hrest]
      simp [hnil]

/-- A text without the first character of the marker makes no difference in front. -/
theorem infix_headless_append {h : Char} (hs : h ∉ s) :
    (h :: m) <:+: s ++ t ↔ (h :: m) <:+: t := by
  induction s with
  | nil => rfl
  | cons d s ih =>
      simp only [List.mem_cons, not_or] at hs
      rw [List.cons_append, List.infix_cons_iff, ih hs.2]
      constructor
      · rintro (hhead | h)
        · exact absurd (List.cons_prefix_cons.mp hhead).1 hs.1
        · exact h
      · exact .inr

/-- Replacing an inert character by inert characters makes no difference. -/
theorem infix_replace (hc : c ∉ m) (hu : ∀ d ∈ u, d ∉ m) (hne : u ≠ []) (hm : m ≠ []) :
    m <:+: replace c u s ↔ m <:+: s := by
  suffices h : ∀ p, m <:+: p ++ replace c u s ↔ m <:+: p ++ s from h []
  induction s with
  | nil => simp
  | cons d s ih =>
      intro p
      by_cases hd : d = c
      · subst hd
        obtain ⟨e, v, rfl⟩ := List.exists_cons_of_ne_nil hne
        have hsplit : replace d (e :: v) (d :: s) = e :: (v ++ replace d (e :: v) s) := by
          simp [replace]
        rw [hsplit, infix_cut (hu e (by simp)), infix_cut hc,
          infix_inert_append (fun f hf => hu f (by simp [hf])) hm]
        exact or_congr_right (ih [])
      · have hsplit : replace c u (d :: s) = d :: replace c u s := by simp [replace, hd]
        have hp := ih (p ++ [d])
        rw [List.append_assoc, List.append_assoc] at hp
        rw [hsplit]
        exact hp

/-- Trimming makes no difference to a marker without white space. -/
theorem infix_trim (hspace : ∀ d, isWhitespace d → d ∉ m) (hm : m ≠ []) :
    m <:+: trim s ↔ m <:+: s := by
  obtain ⟨v, w, hs, hv, hw⟩ := exists_trim s
  conv_rhs => rw [hs]
  rw [infix_inert_append (fun d hd => hspace d (hv d hd)) hm,
    infix_append_inert (fun d hd => hspace d (hw d hd)) hm]

/-! ## Closed texts -/

/-- No occurrence reaches from the text into what follows. -/
def Closed (m t : Text) : Prop := ∀ s, m <:+: t ++ s ↔ m <:+: t ∨ m <:+: s

theorem Closed.nil (hm : m ≠ []) : Closed m [] := by
  intro s
  simp [hm]

theorem Closed.append (hs : Closed m s) (ht : Closed m t) : Closed m (s ++ t) := by
  intro u
  rw [List.append_assoc, hs, ht, hs, or_assoc]

/-- A text that ends with an inert character is closed. -/
theorem Closed.of_last (hc : c ∉ m) (hm : m ≠ []) : Closed m (t ++ [c]) := by
  intro s
  rw [List.append_assoc, List.singleton_append, infix_cut hc, infix_cut hc]
  simp [hm]

/-! ## Texts that begin with an inert character -/

/-- The text begins with an inert character. -/
def BeginsInert (m t : Text) : Prop := ∃ c s, t = c :: s ∧ c ∉ m

theorem infix_append_of_begins (ht : BeginsInert m t) (hm : m ≠ []) :
    m <:+: s ++ t ↔ m <:+: s ∨ m <:+: t := by
  obtain ⟨c, t, rfl, hc⟩ := ht
  have hcut := infix_cut (s := []) (t := t) hc
  rw [List.nil_append] at hcut
  rw [infix_cut hc, hcut]
  simp [hm]

theorem BeginsInert.append (ht : BeginsInert m t) (s : Text) : BeginsInert m (t ++ s) := by
  obtain ⟨c, t, rfl, hc⟩ := ht
  exact ⟨c, t ++ s, rfl, hc⟩

/-- Texts of which all but the first begin with an inert character do not share an occurrence. -/
theorem infix_flatten {ts : List Text} (hts : ∀ t ∈ ts.tail, BeginsInert m t)
    (hs : BeginsInert m s) (hm : m ≠ []) :
    m <:+: ts.flatten ++ s ↔ (∃ t ∈ ts, m <:+: t) ∨ m <:+: s := by
  cases ts with
  | nil => simp
  | cons t ts =>
      induction ts generalizing t with
      | nil => simpa using infix_append_of_begins hs hm
      | cons u ts ih =>
          have hu : BeginsInert m u := hts u (by simp)
          have hrest := ih u fun x hx => hts x (by simp [List.mem_of_mem_tail hx])
          rw [List.flatten_cons, List.append_assoc,
            infix_append_of_begins ((List.flatten_cons ▸ hu.append ts.flatten).append s) hm, hrest]
          simp [or_assoc]

/-! ## What follows the occurrences -/

/-- What begins a text without `c` in it does not reach behind a `c`. -/
theorem prefix_of_prefix_cut (h : m <+: s ++ c :: t) (hc : c ∉ m) : m <+: s := by
  obtain ⟨r, hr⟩ := h
  rcases List.append_eq_append_iff.mp hr with ⟨x, hx, -⟩ | ⟨x, hx, hcut⟩
  · exact ⟨x, hx.symm⟩
  · rcases x with _ | ⟨d, x⟩
    · exact ⟨[], by simpa using hx⟩
    · obtain ⟨rfl, -⟩ : c = d ∧ t = x ++ r := by simpa using hcut
      exact absurd (by simp [hx]) hc

/-- What ends with `c` does not reach into a text without `c`. -/
theorem prefix_of_prefix_append (h : m ++ [c] <+: s ++ t) (hc : c ∉ t) : m ++ [c] <+: s := by
  obtain ⟨r, hr⟩ := h
  rcases List.append_eq_append_iff.mp hr with ⟨x, hx, -⟩ | ⟨x, hx, hrest⟩
  · exact ⟨x, hx.symm⟩
  · rcases List.eq_nil_or_concat x with rfl | ⟨x, d, rfl⟩
    · exact ⟨[], by simpa using hx⟩
    · obtain ⟨-, rfl⟩ : m = s ++ x ∧ c = d := by simpa [← List.append_assoc] using hx
      exact absurd (by simp [hrest]) hc

section Followed

variable {ι : Type*} {w : ι → Text} {good : ι → Text → Prop}

/-- Behind every occurrence of a marker `w i` stands a text that is good for it. -/
def Followed (w : ι → Text) (good : ι → Text → Prop) (s : Text) : Prop :=
  ∀ i a b, s = a ++ (w i ++ b) → good i b

theorem followed_of_absent (h : ∀ i, ¬ w i <:+: s) : Followed w good s := by
  intro i a b hs
  exact absurd ⟨a, b, by rw [hs, List.append_assoc]⟩ (h i)

/-- A text without the character that markers begin with. -/
theorem followed_of_not_head (hw : ∀ i, (w i).head? = some c) (hc : c ∉ s) : Followed w good s := by
  refine followed_of_absent fun i hoccurs => hc (hoccurs.subset ?_)
  exact List.mem_of_mem_head? (hw i)

/-- A text without the character that markers end with. -/
theorem followed_of_not_last (hw : ∀ i, (w i).getLast? = some c) (hc : c ∉ s) :
    Followed w good s := by
  refine followed_of_absent fun i hoccurs => hc (hoccurs.subset ?_)
  exact List.mem_of_mem_getLast? (hw i)

/-- What is good stays good when more text follows. -/
def Extends (good : ι → Text → Prop) : Prop := ∀ i b t, good i b → good i (b ++ t)

/-- Two texts between which no marker is cut in two. -/
theorem Followed.append (hgood : Extends good) (hs : Followed w good s) (ht : Followed w good t)
    (hcut : ∀ i u v, w i = u ++ v → u ≠ [] → v ≠ [] → u <:+ s → ¬ v <+: t) :
    Followed w good (s ++ t) := by
  intro i a b hab
  rcases List.append_eq_append_iff.mp hab with ⟨x, rfl, hx⟩ | ⟨x, rfl, hx⟩
  · exact ht i x b hx
  rcases List.append_eq_append_iff.mp hx with ⟨y, rfl, rfl⟩ | ⟨y, hw, rfl⟩
  · exact hgood i y t (hs i a y rfl)
  -- the marker begins in `s`, with `x`, and ends in `t`, with `y`
  by_cases hleft : x = []
  · subst hleft
    exact ht i [] b (by rw [hw]; rfl)
  by_cases hright : y = []
  · subst hright
    exact hgood i [] b (hs i a [] (by rw [hw]; simp))
  · exact absurd (List.prefix_append y b) (hcut i x y hw hleft hright (List.suffix_append a x))

/-- Cut behind a character with which markers end, if they have it at all. -/
theorem Followed.append_of_last (hgood : Extends good) (hc : ∀ i, c ∉ (w i).dropLast)
    (hs : Followed w good (s ++ [c])) (ht : Followed w good t) :
    Followed w good (s ++ [c] ++ t) := by
  refine hs.append hgood ht fun i u v hw hu hv hsuffix _ => hc i ?_
  have hlast : u.getLast hu = c := by
    have := hsuffix.getLast hu
    simpa using this
  have hmem : c ∈ u := hlast ▸ List.getLast_mem hu
  rw [hw, List.dropLast_append_of_ne_nil hv]
  exact List.mem_append_left _ hmem

/-- Cut in front of a character with which markers begin, if they have it at all. -/
theorem Followed.append_of_head (hgood : Extends good) (hc : ∀ i, c ∉ (w i).tail)
    (hs : Followed w good s) (ht : Followed w good (c :: t)) : Followed w good (s ++ c :: t) := by
  refine hs.append hgood ht fun i u v hw hu hv _ hbegins => hc i ?_
  obtain ⟨d, u, rfl⟩ := List.exists_cons_of_ne_nil hu
  obtain ⟨e, v, rfl⟩ := List.exists_cons_of_ne_nil hv
  obtain ⟨rfl, -⟩ := List.cons_prefix_cons.mp hbegins
  rw [hw, List.cons_append, List.tail_cons]
  exact List.mem_append_right u (List.mem_cons_self ..)

/-- Text without the character that markers end with can be put behind. -/
theorem Followed.append_plain (hgood : Extends good) (hw : ∀ i, (w i).getLast? = some c)
    (hs : Followed w good s) (hc : c ∉ t) : Followed w good (s ++ t) := by
  refine hs.append hgood (followed_of_not_last hw hc) fun i u v hwi _ hv _ hbegins => hc ?_
  refine hbegins.subset (List.mem_of_mem_getLast? ?_)
  have hlast := hw i
  rwa [hwi, List.getLast?_append_of_ne_nil u hv] at hlast

/-- Text without the character that markers begin with can be put in front. -/
theorem Followed.plain_append (hgood : Extends good) (hw : ∀ i, (w i).head? = some c)
    (hc : c ∉ s) (ht : Followed w good t) : Followed w good (s ++ t) := by
  refine (followed_of_not_head hw hc).append hgood ht fun i u v hwi hu _ hsuffix _ => hc ?_
  refine hsuffix.subset (List.mem_of_mem_head? ?_)
  have hhead := hw i
  rwa [hwi, List.head?_append_of_ne_nil u hu] at hhead

theorem Followed.of_append_right (h : Followed w good (s ++ t)) : Followed w good t := by
  intro i a b ht
  exact h i (s ++ a) b (by rw [ht, List.append_assoc])

theorem Followed.of_append_left (hback : ∀ i b, good i (b ++ t) → good i b)
    (h : Followed w good (s ++ t)) : Followed w good s := by
  intro i a b hs
  exact hback i b (h i a (b ++ t) (by rw [hs, List.append_assoc, List.append_assoc]))

end Followed

/-! ## A marker at the end -/

/-- The marker ends the text, and occurs nowhere else in it. -/
def OnlyAtEnd (m s : Text) : Prop := m <:+ s ∧ ∀ a b, s = a ++ (m ++ b) → b = []

/-- The mark is nowhere else exactly if it is not in the part before a character that it lacks. -/
theorem onlyAtEnd_append_iff (hc : c ∉ m) : OnlyAtEnd m (s ++ c :: m) ↔ ¬ m <:+: s := by
  constructor
  · rintro ⟨-, honly⟩ ⟨a, b, rfl⟩
    have := honly a (b ++ c :: m) (by simp)
    simp at this
  · intro hs
    refine ⟨⟨s ++ [c], by simp⟩, fun a b hab => ?_⟩
    rw [← List.append_assoc] at hab
    obtain ⟨x, hsx⟩ | ⟨y, -, hmy⟩ := append_eq_cut hc hab.symm
    · exact absurd ⟨a, x, hsx⟩ hs
    · have hlength := congrArg List.length hmy
      simp only [List.length_append] at hlength
      exact List.eq_nil_of_length_eq_zero (by omega)

end Occurs
