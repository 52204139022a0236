import BrowsAI.Library.Unfold
import Mathlib.Data.List.Count
import Mathlib.Data.List.Nodup

/-!
# Collecting descendants

A recursive walk that lists the descendants of a place, each behind its own descendants, with no
record of the places it has been to. `collect_eq` makes it an unfolding. What it lists are the
descendants, and as many times as there are paths: `nodup_iff_unique_path` says when it lists none
twice, and `eventually_collect` that it returns on a finite graph without cycles.
-/

namespace Unfold

open Relation

variable {α : Type*}

/-- The walk, with at most `depth` nested calls. -/
def collect (next : α → List α) : Nat → α → List α → Option (List α)
  | 0, _, _ => none
  | depth + 1, a, descendants =>
      (next a).foldlM (fun descendants child => do
        let descendants ← collect next depth child descendants
        pure (descendants ++ [child])) descendants

/-- The descendants below every child, each list followed by the child itself. -/
def gather (next : α → List α) (a : α) (lists : List (List α)) : List α :=
  (((next a).zip lists).map fun p => p.2 ++ [p.1]).flatten

/-- The loop over the children lists the children's own lists, each before its child. -/
theorem collect_step {sub : α → List α → Option (List α)} {list : α → Option (List α)}
    (hsub : ∀ a acc, sub a acc = (list a).map (acc ++ ·)) (children acc : List α) :
    children.foldlM (fun acc child => do
        let acc ← sub child acc
        pure (acc ++ [child])) acc =
      (children.mapM list).map fun lists =>
        acc ++ ((children.zip lists).map fun p => p.2 ++ [p.1]).flatten := by
  induction children generalizing acc with
  | nil => simp
  | cons child children ih =>
      simp only [List.foldlM_cons, List.mapM_cons, hsub] at ih ⊢
      cases list child with
      | none => rfl
      | some below =>
          simp only [Option.map_some, bind, Option.bind_some, pure] at ih ⊢
          rw [ih]
          cases children.mapM list <;> simp

variable {next : α → List α}

/-- Collecting the descendants is unfolding the links. -/
theorem collect_eq (depth : Nat) (a : α) (acc : List α) :
    collect next depth a acc = (unfold next (gather next) depth a).map (acc ++ ·) := by
  induction depth generalizing a acc with
  | zero => rfl
  | succ depth ih =>
      rw [collect, unfold, expand, collect_step ih, Option.map_map]
      rfl

/-- What is listed below a place are its proper descendants. -/
theorem mem_gather_iff {depth : Nat} {a : α} {as : List α}
    (h : unfold next (gather next) depth a = some as) (x : α) :
    x ∈ as ↔ TransGen (fun a b => b ∈ next a) a x := by
  induction depth generalizing a as with
  | zero => cases h
  | succ depth ih =>
      obtain ⟨lists, hlists, rfl⟩ := expand_eq_some_iff.mp h
      rw [TransGen.head'_iff]
      rw [gather]
      generalize next a = children at hlists
      clear h
      induction hlists with
      | nil => simp
      | @cons child below children lists hbelow _ ihlists =>
          have hx : x ∈ below ++ [child] ↔ ReflTransGen (fun a b => b ∈ next a) child x := by
            rw [List.mem_append, ih hbelow, List.mem_singleton, reflTransGen_iff_eq_or_transGen,
              or_comm]
          rw [List.zip_cons_cons, List.map_cons, List.flatten_cons, List.mem_append, hx, ihlists]
          simp

/-- A place is listed once for every path to it, itself for the empty one. -/
theorem counted_gather [DecidableEq α] {depth : Nat} {a : α} {as : List α}
    (h : unfold next (gather next) depth a = some as) (x : α) :
    Counted next (· = x) a ((a :: as).count x) := by
  induction depth generalizing a as with
  | zero => cases h
  | succ depth ih =>
      obtain ⟨lists, hlists, rfl⟩ := expand_eq_some_iff.mp h
      have hcounted : ∀ (children : List α) (lists : List (List α)),
          List.Forall₂ (fun a as => unfold next (gather next) depth a = some as) children lists →
          ∃ ns, List.Forall₂ (Counted next (· = x)) children ns ∧
            ((children.zip lists).map fun p => p.2 ++ [p.1]).flatten.count x = ns.sum := by
        intro children lists hlists
        induction hlists with
        | nil => exact ⟨[], .nil, rfl⟩
        | @cons child below children lists hbelow _ ihlists =>
            obtain ⟨ns, hns, hsum⟩ := ihlists
            refine ⟨_, .cons (ih hbelow) hns, ?_⟩
            rw [List.zip_cons_cons, List.map_cons, List.flatten_cons, List.count_append, hsum,
              List.sum_cons]
            exact congrArg (· + ns.sum) ((List.perm_append_singleton child below).count_eq x)
      obtain ⟨ns, hns, hsum⟩ := hcounted _ _ hlists
      have hnode := Counted.node hns
      rw [List.count_cons, gather, hsum, Nat.add_comm]
      simpa only [beq_iff_eq] using hnode

/-- At most one path leads from one place to another, and none but the empty one back. -/
def UniquePaths (next : α → List α) : Prop :=
  ∀ a b is js, Path next a is b → Path next a js b → is = js

/-! ### Unique predecessors -/

section Predecessors

/-- Every place has one predecessor at most, which leads to it once. -/
structure UniqueLinks (next : α → List α) : Prop where
  predecessor : ∀ a b c, c ∈ next a → c ∈ next b → a = b
  once : ∀ a, (next a).Nodup

variable (h : UniqueLinks next)

include h

/-- Of two places above a place, one is above the other. -/
theorem UniqueLinks.above_total {a b c : α} (hac : ReflTransGen (fun a b => b ∈ next a) a c)
    (hbc : ReflTransGen (fun a b => b ∈ next a) b c) :
    ReflTransGen (fun a b => b ∈ next a) a b ∨ ReflTransGen (fun a b => b ∈ next a) b a := by
  have hunique : Relator.RightUnique (Function.swap fun a b => b ∈ next a) := fun c a b ha hb =>
    h.predecessor a b c ha hb
  have htotal := ReflTransGen.total_of_right_unique hunique (reflTransGen_swap.mpr hac)
    (reflTransGen_swap.mpr hbc)
  exact (htotal.imp reflTransGen_swap.mp reflTransGen_swap.mp).symm

variable (hacyclic : ∀ a, ¬ TransGen (fun a b => b ∈ next a) a a)

include hacyclic

/-- Two successors of a place are not above one another. -/
theorem UniqueLinks.successor_eq_of_above {a b c : α} (hb : b ∈ next a) (hc : c ∈ next a)
    (hbc : ReflTransGen (fun a b => b ∈ next a) b c) : b = c := by
  rcases hbc.cases_tail with heq | ⟨d, hbd, hlink⟩
  · exact heq.symm
  · obtain rfl := h.predecessor d a c hlink hc
    exact absurd (TransGen.head' hb hbd) (hacyclic d)

/-- Without cycles, unique predecessors make unique paths. -/
theorem UniqueLinks.unique_paths : UniquePaths next := by
  intro a b is js his
  induction his generalizing js with
  | nil a =>
      intro hjs
      cases hjs with
      | nil => rfl
      | cons here rest =>
          exact absurd (TransGen.head' (List.mem_of_getElem? here) rest.reaches) (hacyclic a)
  | @cons a c b i is here rest ih =>
      intro hjs
      cases hjs with
      | nil => exact absurd (TransGen.head' (List.mem_of_getElem? here) rest.reaches) (hacyclic _)
      | @cons _ c' _ j js here' rest' =>
          have hc := List.mem_of_getElem? here
          have hc' := List.mem_of_getElem? here'
          -- both paths lead through the same successor, and it stands at one position
          have hsuccessor : c = c' := by
            rcases h.above_total rest.reaches rest'.reaches with habove | habove
            · exact h.successor_eq_of_above hacyclic hc hc' habove
            · exact (h.successor_eq_of_above hacyclic hc' hc habove).symm
          subst hsuccessor
          have hlt : i < (next a).length := (List.getElem?_eq_some_iff.mp here).1
          have hposition := (List.getElem?_inj hlt (h.once a)).mp (here.trans here'.symm)
          rw [hposition, ih js rest']

end Predecessors

/-- At most one path leads from a place to any other. -/
theorem Counted.le_one_iff {Q : α → Prop} {a : α} {n : Nat} (h : Counted next Q a n) :
    n ≤ 1 ↔ ∀ b c is js, Path next a is b → Path next a js c → Q b → Q c → is = js := by
  obtain ⟨paths, hnodup, hmem, rfl⟩ := h
  constructor
  · intro hle b c is js hb hc hqb hqc
    have his := (hmem is).mpr ⟨b, hb, hqb⟩
    have hjs := (hmem js).mpr ⟨c, hc, hqc⟩
    obtain ⟨i, hi, rfl⟩ := List.getElem_of_mem his
    obtain ⟨j, hj, rfl⟩ := List.getElem_of_mem hjs
    congr 1
    omega
  · intro hunique
    match paths, hnodup, hmem with
    | [], _, _ => exact Nat.zero_le _
    | [_], _, _ => exact Nat.le_refl _
    | is :: js :: rest, hnodup, hmem =>
        obtain ⟨b, hb, hqb⟩ := (hmem is).mp List.mem_cons_self
        obtain ⟨c, hc, hqc⟩ := (hmem js).mp (List.mem_cons_of_mem _ List.mem_cons_self)
        have heq := hunique b c is js hb hc hqb hqc
        exact absurd (heq ▸ List.mem_cons_self) (List.nodup_cons.mp hnodup).1

/-- The walk lists no place twice exactly when no two paths lead to the same place. -/
theorem nodup_iff_unique_path [DecidableEq α] {depth : Nat} {a : α} {as : List α}
    (h : unfold next (gather next) depth a = some as) :
    (a :: as).Nodup ↔ ∀ b is js, Path next a is b → Path next a js b → is = js := by
  rw [List.nodup_iff_count_le_one]
  constructor
  · intro hcount b is js his hjs
    exact (counted_gather h b).le_one_iff.mp (hcount b) b b is js his hjs rfl rfl
  · intro hunique x
    refine (counted_gather h x).le_one_iff.mpr fun b c is js hb hc hqb hqc => ?_
    subst hqb
    subst hqc
    exact hunique _ is js hb hc

/-! ## Enough depth -/

/-- On a finite graph without cycles the walk returns. -/
theorem eventually_collect (hfinite : {a | ∃ b, b ∈ next a}.Finite)
    (hacyclic : ∀ a, ¬ TransGen (fun a b => b ∈ next a) a a) (a : α) :
    ∃ bound, ∀ depth ≥ bound, ∃ as, unfold next (gather next) depth a = some as :=
  eventually_unfold (wellFounded_of_acyclic hfinite hacyclic) a

theorem exists_path {a b : α} (h : ReflTransGen (fun a b => b ∈ next a) a b) :
    ∃ is, Path next a is b := by
  induction h using ReflTransGen.head_induction_on with
  | refl => exact ⟨[], .nil b⟩
  | head hstep _ ih =>
      obtain ⟨is, his⟩ := ih
      obtain ⟨i, hi⟩ := List.getElem?_of_mem hstep
      exact ⟨i :: is, .cons hi his⟩

/-- Unique paths leave no room for a cycle. -/
theorem UniquePaths.acyclic (h : UniquePaths next) (a : α) :
    ¬ TransGen (fun a b => b ∈ next a) a a := by
  intro hcycle
  obtain ⟨b, hstep, hback⟩ := TransGen.head'_iff.mp hcycle
  obtain ⟨is, his⟩ := exists_path hback
  obtain ⟨i, hi⟩ := List.getElem?_of_mem hstep
  exact List.cons_ne_nil _ _ (h a a _ _ (.cons hi his) (.nil a))

end Unfold

/-!
## Pre-order

The walk that lists a place before what it lists below each of its successors, as an unfolding. It
lists the same places as the walk that collects the descendants, `preorder_perm`, so each place
below the start is listed once where paths are unique.
-/

namespace Unfold

open Relation

variable {α : Type*}

/-- A place, and behind it the lists of its successors. -/
def preorder (a : α) (lists : List (List α)) : List α := a :: lists.flatten

variable {next : α → List α} {depth : Nat} {a : α} {order : List α}

/-- A pre-order is a pre-order of each successor behind the start. -/
theorem preorder_succ_iff :
    unfold next preorder (depth + 1) a = some order ↔
      ∃ lists, List.Forall₂ (fun child list => unfold next preorder depth child = some list)
        (next a) lists ∧ a :: lists.flatten = order :=
  expand_eq_some_iff

theorem head_preorder (h : unfold next preorder depth a = some order) :
    ∃ below, order = a :: below := by
  cases depth with
  | zero => cases h
  | succ depth =>
      obtain ⟨lists, _, rfl⟩ := preorder_succ_iff.mp h
      exact ⟨lists.flatten, rfl⟩

/-- A pre-order lists the start and its collected descendants, in another order. -/
theorem preorder_perm {below : List α} (h : unfold next preorder depth a = some order)
    (hbelow : unfold next (gather next) depth a = some below) : order.Perm (a :: below) := by
  induction depth generalizing a order below with
  | zero => cases h
  | succ depth ih =>
      obtain ⟨lists, hlists, rfl⟩ := preorder_succ_iff.mp h
      obtain ⟨belows, hbelows, rfl⟩ := expand_eq_some_iff.mp hbelow
      refine List.Perm.cons a ?_
      rw [gather]
      generalize next a = children at hlists hbelows
      clear h hbelow
      induction hlists generalizing belows with
      | nil => exact .nil
      | @cons child list children lists hlist _ ihlists =>
          cases hbelows with
          | @cons _ below _ belows hbelow hbelows =>
              have hchild : list.Perm (below ++ [child]) :=
                (ih hlist hbelow).trans (List.perm_append_singleton child below).symm
              exact hchild.append (ihlists belows hbelows)

/-- Both walks return for the same bounds. -/
theorem exists_gather (h : unfold next preorder depth a = some order) :
    ∃ below, unfold next (gather next) depth a = some below := by
  induction depth generalizing a order with
  | zero => cases h
  | succ depth ih =>
      obtain ⟨lists, hlists, -⟩ := preorder_succ_iff.mp h
      refine exists_expand fun child hchild => ?_
      obtain ⟨list, _, hlist⟩ := exists_of_mem_left hlists hchild
      exact ih hlist

theorem mem_preorder_iff (h : unfold next preorder depth a = some order) (x : α) :
    x ∈ order ↔ ReflTransGen (fun a b => b ∈ next a) a x := by
  obtain ⟨below, hbelow⟩ := exists_gather h
  rw [(preorder_perm h hbelow).mem_iff, List.mem_cons, mem_gather_iff hbelow,
    reflTransGen_iff_eq_or_transGen]

theorem nodup_preorder [DecidableEq α] (hunique : UniquePaths next)
    (h : unfold next preorder depth a = some order) : order.Nodup := by
  obtain ⟨below, hbelow⟩ := exists_gather h
  rw [(preorder_perm h hbelow).nodup_iff]
  exact (nodup_iff_unique_path hbelow).mpr fun b is js => hunique a b is js

end Unfold
