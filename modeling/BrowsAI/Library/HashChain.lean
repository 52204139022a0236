import Mathlib.Data.List.Induction

/-!
# Hash chains

The entries of a chain each carry the digest of the one before and, as their own digest, the hash of
their content. Where the content determines the digest of the one before, two chains of one length
that end in one digest have the same contents, or show a collision: `Chained.commits`.
-/

/-- Links that carry a hash of their content and the hash of the one before. -/
structure HashChain (α β η : Type) where
  content : α → β
  hash : β → η
  digest : α → η
  previous : α → η

namespace HashChain

variable {α β η : Type} {c : HashChain α β η} {p : η} {as bs : List α}

/-- The entries follow a digest, each sealed and linked to the one before. -/
def Chained (c : HashChain α β η) : η → List α → Prop
  | _, [] => True
  | p, a :: as => c.previous a = p ∧ c.hash (c.content a) = c.digest a ∧ c.Chained (c.digest a) as

/-- The digest at the end of a chain. -/
def last (c : HashChain α β η) (p : η) (as : List α) : η := (as.getLast?.map c.digest).getD p

theorem last_concat (a : α) : c.last p (as ++ [a]) = c.digest a := by
  rw [last, List.getLast?_append]
  rfl

theorem last_cons (a : α) : c.last p (a :: as) = c.last (c.digest a) as := by
  rw [last, List.getLast?_cons, last]
  cases as.getLast? <;> rfl

theorem chained_append : c.Chained p (as ++ bs) ↔ c.Chained p as ∧ c.Chained (c.last p as) bs := by
  induction as generalizing p with
  | nil => exact (iff_of_eq (true_and _)).symm
  | cons a as ih =>
      rw [List.cons_append, Chained, Chained, ih, last_cons, and_assoc, and_assoc]

/-- The last digest commits to all contents, up to a collision. -/
theorem Chained.commits (hprevious : ∀ a b, c.content a = c.content b → c.previous a = c.previous b)
    (has : c.Chained p as) (hbs : c.Chained p bs) (hlength : as.length = bs.length)
    (hlast : c.last p as = c.last p bs) :
    as.map c.content = bs.map c.content ∨ ∃ a ∈ as ++ bs, ∃ b ∈ as ++ bs,
      c.content a ≠ c.content b ∧ c.hash (c.content a) = c.hash (c.content b) := by
  induction as using List.reverseRecOn generalizing bs with
  | nil =>
      rw [List.eq_nil_of_length_eq_zero hlength.symm]
      exact Or.inl rfl
  | append_singleton as a ih =>
      induction bs using List.reverseRecOn with
      | nil =>
          rw [List.length_append] at hlength
          cases hlength
      | append_singleton bs b _ =>
          obtain ⟨hfront, ha, hseal, _⟩ := chained_append.mp has
          obtain ⟨hfront', hb, hseal', _⟩ := chained_append.mp hbs
          rw [last_concat, last_concat, ← hseal, ← hseal'] at hlast
          by_cases hcontent : c.content a = c.content b
          · -- the same content has the same predecessor, so the fronts end in one digest
            have hprefix : c.last p as = c.last p bs := by
              rw [← ha, ← hb, hprevious a b hcontent]
            have hshorter : as.length = bs.length := by
              rw [List.length_append, List.length_append] at hlength
              exact Nat.add_right_cancel hlength
            rcases ih hfront hfront' hshorter hprefix with hsame | ⟨x, hx, y, hy, hcollision⟩
            · refine Or.inl ?_
              rw [List.map_append, List.map_append, hsame, List.map_singleton, List.map_singleton,
                hcontent]
            · have hmem : ∀ z, z ∈ as ++ bs → z ∈ (as ++ [a]) ++ (bs ++ [b]) := by
                intro z hz
                rcases List.mem_append.mp hz with hz | hz
                · exact List.mem_append_left _ (List.mem_append_left _ hz)
                · exact List.mem_append_right _ (List.mem_append_left _ hz)
              exact Or.inr ⟨x, hmem x hx, y, hmem y hy, hcollision⟩
          · refine Or.inr ⟨a, ?_, b, ?_, hcontent, hlast⟩
            · exact List.mem_append_left _ (List.mem_append_right _ (List.mem_singleton_self a))
            · exact List.mem_append_right _ (List.mem_append_right _ (List.mem_singleton_self b))

end HashChain
