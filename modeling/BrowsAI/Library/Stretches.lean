import Mathlib.Data.List.SplitBy
import Mathlib.Tactic.SplitIfs

/-!
# Stretches of a list

`List.splitBy near` cuts a list into its stretches: the longest segments in which each element is
near the one before. What holds between the start of a stretch and the elements behind it is read
off in one pass over the list, with the start of the current stretch at hand.
-/

namespace Stretches

variable {α : Type*} {near : α → α → Bool} {R : α → α → Prop}

/-- The first element of the stretch is in relation to all others. -/
def HeadRelated (R : α → α → Prop) : List α → Prop
  | [] => True
  | start :: rest => ∀ a ∈ rest, R start a

instance [∀ a b, Decidable (R a b)] : DecidablePred (HeadRelated R)
  | [] => .isTrue trivial
  | _ :: rest => inferInstanceAs (Decidable (∀ a ∈ rest, R _ a))

/-- The same in one pass: the element before, and the start of the current stretch. -/
def FromStart (near : α → α → Bool) (R : α → α → Prop) : α → α → List α → Prop
  | _, _, [] => True
  | previous, start, a :: rest =>
      if near previous a then R start a ∧ FromStart near R a start rest
      else FromStart near R a a rest

/-- The loop of `splitBy` with the stretches so far, the last of which starts with `start`. -/
theorem loop_head_related_iff {l : List α} {previous start : α} {g behind : List α}
    {gs : List (List α)} (hstretch : (previous :: g).reverse = start :: behind) :
    (∀ stretch ∈ List.splitBy.loop near l previous g gs, HeadRelated R stretch) ↔
      (∀ stretch ∈ gs, HeadRelated R stretch) ∧ HeadRelated R (start :: behind) ∧
        FromStart near R previous start l := by
  induction l generalizing previous start g behind gs with
  | nil =>
      simp only [List.splitBy.loop, List.mem_reverse, hstretch, List.forall_mem_cons, FromStart,
        and_true]
      exact and_comm
  | cons a rest ih =>
      by_cases hnear : near previous a = true
      · have hlonger : (a :: previous :: g).reverse = start :: (behind ++ [a]) := by
          rw [List.reverse_cons, hstretch, List.cons_append]
        simp only [List.splitBy.loop, FromStart, hnear, if_true]
        rw [ih hlonger]
        simp only [HeadRelated, List.forall_mem_append, List.forall_mem_singleton, and_assoc]
      · rw [Bool.not_eq_true] at hnear
        simp only [List.splitBy.loop, FromStart, hnear, Bool.false_eq_true, if_false]
        have halone : [a].reverse = [a] := rfl
        rw [ih halone, hstretch, List.forall_mem_cons]
        simp only [HeadRelated, List.not_mem_nil, false_implies, implies_true, true_and]
        rw [and_assoc, and_left_comm]

theorem head_related_iff (a : α) (l : List α) :
    (∀ stretch ∈ (a :: l).splitBy near, HeadRelated R stretch) ↔ FromStart near R a a l := by
  have halone : [a].reverse = [a] := rfl
  rw [List.splitBy, loop_head_related_iff halone]
  simp [HeadRelated]

end Stretches
