import Mathlib.Algebra.BigOperators.Group.Finset.Basic
import Mathlib.Logic.Relation

/-!
# Worklists

A loop that takes the last place from a list of pending ones, adds it to the places that were
visited, and puts its successors on the list. `next` gives the successors of a place, and none for a
place that is not admitted. On a graph with finitely many admitted places the loop ends,
`exists_visit`, however the links run, and the places that it has visited are those that links
between admitted places reach, `mem_visit_iff`.
-/

namespace Worklist

open Relation

variable {α : Type} [DecidableEq α]

/-- The places visited when no place is pending any more, after `fuel` turns at most. -/
def visit (next : α → Option (List α)) : Nat → List α → Finset α → Option (Finset α)
  | 0, _, _ => none
  | fuel + 1, pending, visited =>
      match pending.getLast? with
      | none => some visited
      | some a =>
          match next a with
          | none => visit next fuel pending.dropLast visited
          | some successors =>
              if a ∈ visited then visit next fuel pending.dropLast visited
              else visit next fuel (pending.dropLast ++ successors) (insert a visited)

/-- A link to an admitted place. -/
def Step (next : α → Option (List α)) (a b : α) : Prop :=
  b ∈ (next a).getD [] ∧ (next b).isSome

variable {next : α → Option (List α)} {fuel : Nat} {pending : List α} {visited out : Finset α}

/-! ## One turn -/

theorem visit_nil : visit next (fuel + 1) [] visited = some visited := rfl

/-- A turn with a last place. -/
theorem visit_concat (a : α) : visit next (fuel + 1) (pending ++ [a]) visited =
    if a ∈ visited ∨ next a = none then visit next fuel pending visited
    else visit next fuel (pending ++ (next a).getD []) (insert a visited) := by
  rw [visit, List.getLast?_concat, List.dropLast_concat]
  dsimp only
  cases next a with
  | none => simp
  | some successors => simp

/-- What every turn preserves holds at the end. -/
theorem visit_induction {M : List α → Finset α → Prop}
    (h : visit next fuel pending visited = some out) (hstart : M pending visited)
    (hskip : ∀ pending a visited, M (pending ++ [a]) visited → a ∈ visited ∨ next a = none →
      M pending visited)
    (hadd : ∀ pending a visited successors, M (pending ++ [a]) visited → a ∉ visited →
      next a = some successors → M (pending ++ successors) (insert a visited)) : M [] out := by
  induction fuel generalizing pending visited with
  | zero => cases h
  | succ fuel ih =>
      cases pending using List.reverseRecOn with
      | nil => exact Option.some.inj h ▸ hstart
      | append_singleton pending a =>
          rw [visit_concat] at h
          split_ifs at h with hskipped
          · exact ih h (hskip pending a visited hstart hskipped)
          · rw [not_or] at hskipped
            obtain ⟨successors, hnext⟩ := Option.ne_none_iff_exists'.mp hskipped.2
            rw [hnext] at h
            exact ih h (hadd pending a visited successors hstart hskipped.1 hnext)

/-! ## What is visited -/

/-- Whatever holds of the pending places and is passed on by the links holds of what is visited. -/
theorem forall_mem_of_visit {P : α → Prop} (h : visit next fuel pending visited = some out)
    (hvisited : ∀ a ∈ visited, P a) (hpending : ∀ a ∈ pending, (next a).isSome → P a)
    (hstep : ∀ a b, P a → Step next a b → P b) : ∀ a ∈ out, P a := by
  have hinvariant := visit_induction
    (M := fun pending visited =>
      (∀ a ∈ visited, P a) ∧ ∀ a ∈ pending, (next a).isSome → P a) h ⟨hvisited, hpending⟩
    (fun pending a visited hM _ =>
      ⟨hM.1, fun b hb => hM.2 b (List.mem_append_left _ hb)⟩) ?_
  · exact hinvariant.1
  · intro pending a visited successors hM _ hnext
    have ha : P a := hM.2 a List.mem_concat_self (by rw [hnext]; rfl)
    refine ⟨fun b hb => ?_, fun b hb hadmitted => ?_⟩
    · obtain rfl | hb := Finset.mem_insert.mp hb
      · exact ha
      · exact hM.1 b hb
    · obtain hb | hb := List.mem_append.mp hb
      · exact hM.2 b (List.mem_append_left _ hb) hadmitted
      · exact hstep a b ha ⟨by rw [hnext]; exact hb, hadmitted⟩

omit [DecidableEq α] in
/-- A turn that skips a place loses no admitted place. -/
theorem visited_or_pending_of_skip {a b : α} (hskipped : a ∈ visited ∨ next a = none)
    (hadmitted : (next b).isSome) (hb : b ∈ visited ∨ b ∈ pending ++ [a]) :
    b ∈ visited ∨ b ∈ pending := by
  obtain hb | hb := hb
  · exact .inl hb
  · obtain hb | hb := List.mem_append.mp hb
    · exact .inr hb
    · rw [List.mem_singleton.mp hb] at hadmitted ⊢
      obtain hvisited | hnone := hskipped
      · exact .inl hvisited
      · rw [hnone] at hadmitted
        cases hadmitted

theorem visited_or_pending_of_add {a b : α} (successors : List α)
    (hb : b ∈ visited ∨ b ∈ pending ++ [a]) :
    b ∈ insert a visited ∨ b ∈ pending ++ successors := by
  obtain hb | hb := hb
  · exact .inl (Finset.mem_insert_of_mem hb)
  · obtain hb | hb := List.mem_append.mp hb
    · exact .inr (List.mem_append_left _ hb)
    · rw [List.mem_singleton.mp hb]
      exact .inl (Finset.mem_insert_self _ _)

/-- What was pending and admitted has been visited, and the links from what is visited lead to what
is visited. -/
theorem closed_of_visit (h : visit next fuel pending ∅ = some out) :
    (∀ a ∈ pending, (next a).isSome → a ∈ out) ∧
      ∀ a ∈ out, ∀ b, Step next a b → b ∈ out := by
  have hinvariant := visit_induction
    (M := fun rest visited =>
      (∀ a ∈ pending, (next a).isSome → a ∈ visited ∨ a ∈ rest) ∧
        ∀ a ∈ visited, ∀ b, Step next a b → b ∈ visited ∨ b ∈ rest) h
    ⟨fun a ha _ => .inr ha, fun a ha => absurd ha (Finset.notMem_empty a)⟩ ?_ ?_
  · simpa using hinvariant
  · intro rest a visited hM hskipped
    exact ⟨fun b hb hadmitted =>
        visited_or_pending_of_skip hskipped hadmitted (hM.1 b hb hadmitted),
      fun b hb c hc => visited_or_pending_of_skip hskipped hc.2 (hM.2 b hb c hc)⟩
  · intro rest a visited successors hM _ hnext
    refine ⟨fun b hb hadmitted => visited_or_pending_of_add successors (hM.1 b hb hadmitted),
      fun b hb c hc => ?_⟩
    obtain rfl | hb := Finset.mem_insert.mp hb
    · have hc' := hc.1
      rw [hnext] at hc'
      exact .inr (List.mem_append_right _ hc')
    · exact visited_or_pending_of_add successors (hM.2 b hb c hc)

omit [DecidableEq α] in
theorem is_some_of_reach {a b : α} (ha : (next a).isSome) (h : ReflTransGen (Step next) a b) :
    (next b).isSome := by
  cases h with
  | refl => exact ha
  | tail _ hstep => exact hstep.2

/-- What is visited is what the links reach. -/
theorem mem_visit_iff (h : visit next fuel pending ∅ = some out) (x : α) :
    x ∈ out ↔ ∃ a ∈ pending, (next a).isSome ∧ ReflTransGen (Step next) a x := by
  constructor
  · refine forall_mem_of_visit
      (P := fun x => ∃ a ∈ pending, (next a).isSome ∧ ReflTransGen (Step next) a x) h
      (fun a ha => absurd ha (Finset.notMem_empty a))
      (fun a ha hadmitted => ⟨a, ha, hadmitted, .refl⟩) (fun b c hb hstep => ?_) x
    obtain ⟨a, ha, hadmitted, hreach⟩ := hb
    exact ⟨a, ha, hadmitted, hreach.tail hstep⟩
  · intro hx
    obtain ⟨a, ha, hadmitted, hreach⟩ := hx
    obtain ⟨hpending, hclosed⟩ := closed_of_visit h
    induction hreach with
    | refl => exact hpending a ha hadmitted
    | tail _ hstep ih => exact hclosed _ ih _ hstep

/-! ## The end of the loop -/

/-- The turns that are left at most: one for each pending place and one for each link from a place
that was not visited yet. -/
def budget (next : α → Option (List α)) (places : Finset α) (pending : List α)
    (visited : Finset α) : Nat :=
  pending.length + (places \ visited).sum fun a => ((next a).getD []).length

/-- A turn that visits a place exchanges its links for pending places. -/
theorem budget_insert {places : Finset α} {a : α} (ha : a ∈ places) (hnew : a ∉ visited) :
    budget next places (pending ++ (next a).getD []) (insert a visited) =
      budget next places pending visited := by
  have hsum := Finset.add_sum_erase (places \ visited) (fun a => ((next a).getD []).length)
    (Finset.mem_sdiff.mpr ⟨ha, hnew⟩)
  rw [← Finset.sdiff_insert] at hsum
  rw [budget, budget, List.length_append]
  omega

/-- The loop ends: every round visits a new place or shortens the list. -/
theorem exists_visit {places : Finset α} (hplaces : ∀ a, (next a).isSome → a ∈ places)
    (hfuel : budget next places pending visited < fuel) :
    ∃ out, visit next fuel pending visited = some out := by
  induction fuel generalizing pending visited with
  | zero => omega
  | succ fuel ih =>
      cases pending using List.reverseRecOn with
      | nil => exact ⟨visited, visit_nil⟩
      | append_singleton pending a =>
          have hlength : budget next places (pending ++ [a]) visited =
              budget next places pending visited + 1 := by
            rw [budget, budget, List.length_append, List.length_singleton]
            omega
          rw [visit_concat]
          split_ifs with hskipped
          · exact ih (by omega)
          · rw [not_or] at hskipped
            refine ih ?_
            rw [budget_insert (hplaces a (Option.isSome_iff_ne_none.mpr hskipped.2)) hskipped.1]
            omega

/-- More rounds change nothing. -/
theorem visit_mono {fuel' : Nat} (hfuel : fuel ≤ fuel')
    (h : visit next fuel pending visited = some out) :
    visit next fuel' pending visited = some out := by
  induction fuel generalizing fuel' pending visited with
  | zero => cases h
  | succ fuel ih =>
      obtain ⟨more, rfl⟩ : ∃ k, fuel' = k + 1 := ⟨fuel' - 1, by omega⟩
      cases pending using List.reverseRecOn with
      | nil => exact h
      | append_singleton pending a =>
          rw [visit_concat] at h ⊢
          split_ifs at h ⊢
          · exact ih (by omega) h
          · exact ih (by omega) h

end Worklist
