/-!
# Zippers

A list with a focus: `before` holds what stands before the focus, nearest first. `push` is what a
history does with a new entry, which discards what stands after the focus.
-/

/-- A list with one element in focus; what is before it is reversed. -/
structure Zipper (α : Type) where
  before : List α
  focus : α
  after : List α

namespace Zipper

variable {α : Type} {z z' : Zipper α}

/-- A list of one element. -/
def single (a : α) : Zipper α := ⟨[], a, []⟩

/-- The list. -/
def toList (z : Zipper α) : List α := z.before.reverse ++ z.focus :: z.after

/-- The position of the focus in the list. -/
def index (z : Zipper α) : Nat := z.before.length

/-- A new element behind the focus, instead of what is there. -/
def push (z : Zipper α) (a : α) : Zipper α := ⟨z.focus :: z.before, a, []⟩

/-- Another element in focus. -/
def replace (z : Zipper α) (a : α) : Zipper α := { z with focus := a }

/-- The focus moves back. -/
def left (z : Zipper α) : Option (Zipper α) :=
  match z.before with
  | [] => none
  | b :: before => some ⟨before, b, z.focus :: z.after⟩

/-- The focus moves on. -/
def right (z : Zipper α) : Option (Zipper α) :=
  match z.after with
  | [] => none
  | a :: after => some ⟨z.focus :: z.before, a, after⟩

theorem length_to_list (z : Zipper α) : z.toList.length = z.index + 1 + z.after.length := by
  rw [toList, List.length_append, List.length_reverse, List.length_cons, index]
  omega

theorem index_lt_length (z : Zipper α) : z.index < z.toList.length := by
  rw [length_to_list]
  omega

theorem get_index (z : Zipper α) : z.toList[z.index]? = some z.focus := by
  rw [toList, index, List.getElem?_append_right (Nat.le_of_eq List.length_reverse),
    List.length_reverse, Nat.sub_self]
  rfl

/-- A list splits at every position into a zipper. -/
theorem exists_of_get {l : List α} {i : Nat} {a : α} (h : l[i]? = some a) :
    ∃ z : Zipper α, z.toList = l ∧ z.index = i ∧ z.focus = a := by
  obtain ⟨hi, hget⟩ := List.getElem?_eq_some_iff.mp h
  refine ⟨⟨(l.take i).reverse, a, l.drop (i + 1)⟩, ?_, ?_, rfl⟩
  · rw [toList, List.reverse_reverse, ← hget, ← List.drop_eq_getElem_cons hi, List.take_append_drop]
  · show (l.take i).reverse.length = i
    rw [List.length_reverse, List.length_take]
    omega

/-! ## The list after a move -/

/-- What is before stays, and the new element comes last. -/
theorem to_list_push (z : Zipper α) (a : α) :
    (z.push a).toList = z.toList.take (z.index + 1) ++ [a] := by
  have hsplit : z.toList = (z.before.reverse ++ [z.focus]) ++ z.after := by
    rw [List.append_assoc]
    rfl
  have hlength : z.index + 1 = (z.before.reverse ++ [z.focus]).length := by
    rw [List.length_append, List.length_reverse]
    rfl
  rw [hsplit, hlength, List.take_left]
  show (z.focus :: z.before).reverse ++ [a] = _
  rw [List.reverse_cons]

theorem to_list_replace (z : Zipper α) (a : α) : (z.replace a).toList = z.toList.set z.index a := by
  rw [toList, toList, index, List.set_append_right _ _ (Nat.le_of_eq List.length_reverse),
    List.length_reverse, Nat.sub_self]
  rfl

theorem to_list_left (h : z.left = some z') : z'.toList = z.toList ∧ z'.index + 1 = z.index := by
  obtain ⟨_ | ⟨b, before⟩, focus, after⟩ := z
  · cases h
  · cases h
    refine ⟨?_, rfl⟩
    show before.reverse ++ b :: focus :: after = (b :: before).reverse ++ focus :: after
    rw [List.reverse_cons, List.append_assoc]
    rfl

theorem to_list_right (h : z.right = some z') : z'.toList = z.toList ∧ z'.index = z.index + 1 := by
  obtain ⟨before, focus, _ | ⟨a, after⟩⟩ := z
  · cases h
  · cases h
    refine ⟨?_, rfl⟩
    show (focus :: before).reverse ++ a :: after = before.reverse ++ focus :: a :: after
    rw [List.reverse_cons, List.append_assoc]
    rfl

theorem left_eq_none_iff : z.left = none ↔ z.index = 0 := by
  obtain ⟨_ | ⟨b, before⟩, focus, after⟩ := z
  · exact iff_of_true rfl rfl
  · exact iff_of_false (fun h => Option.some_ne_none _ h) (Nat.succ_ne_zero _)

theorem right_eq_none_iff : z.right = none ↔ z.toList.length ≤ z.index + 1 := by
  rw [length_to_list]
  obtain ⟨before, focus, _ | ⟨a, after⟩⟩ := z
  · exact iff_of_true rfl (Nat.le_refl _)
  · refine iff_of_false (fun h => Option.some_ne_none _ h) ?_
    simp only [List.length_cons]
    omega

/-- A move to the left is undone by a move to the right. -/
theorem right_of_left (h : z.left = some z') : z'.right = some z := by
  obtain ⟨_ | ⟨b, before⟩, focus, after⟩ := z
  · cases h
  · cases h
    rfl

/-- A list and a position in it make one zipper. -/
theorem eq_of_to_list (hlist : z.toList = z'.toList) (hindex : z.index = z'.index) : z = z' := by
  obtain ⟨before, focus, after⟩ := z
  obtain ⟨before', focus', after'⟩ := z'
  obtain ⟨hbefore, hrest⟩ := List.append_inj hlist (by
    rw [List.length_reverse, List.length_reverse]
    exact hindex)
  cases List.reverse_inj.mp hbefore
  cases hrest
  rfl

end Zipper
