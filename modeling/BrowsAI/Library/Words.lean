import BrowsAI.Library.Utf8
import Mathlib.Data.List.Infix

/-!
# Words within a text

`contains p s` finds `p` as a contiguous part of `s`. A lower-case word is found in a text in lower
case exactly if the text has it in some letter case.
-/

namespace Utf8

theorem contains_iff {p s : Text} : contains p s = true ↔ p <:+: s := by
  simp only [contains, List.any_eq_true, List.mem_tails, List.isPrefixOf_iff_prefix]
  constructor
  · rintro ⟨t, ⟨before, rfl⟩, ⟨after, rfl⟩⟩
    exact ⟨before, after, by simp⟩
  · rintro ⟨before, after, rfl⟩
    exact ⟨p ++ after, ⟨before, by simp⟩, ⟨after, rfl⟩⟩

/-- Some of the words stand in the text. -/
theorem any_contains_iff {words : List Text} {s : Text} :
    (words.any fun word => contains word s) = true ↔ ∃ word ∈ words, word <:+: s := by
  simp only [List.any_eq_true, contains_iff]

/-- What stands in a text with its letters made small stands there in some letter case. -/
theorem infix_ascii_lower_iff {p s : Text} :
    p <:+: asciiLower s ↔ ∃ t, t <:+: s ∧ asciiLower t = p := by
  constructor
  · rintro ⟨before, after, h⟩
    obtain ⟨rest, after', rfl, hrest, -⟩ := List.map_eq_append_iff.mp h.symm
    obtain ⟨before', t, rfl, -, ht⟩ := List.map_eq_append_iff.mp hrest
    exact ⟨t, ⟨before', after', rfl⟩, ht⟩
  · rintro ⟨t, ht, rfl⟩
    exact ht.map Char.toLower

end Utf8
