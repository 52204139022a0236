import BrowsAI.Library.Runs
import Mathlib.Logic.Function.Basic

/-!
# Processes that take turns

Processes with a stage each act on a shared state, one at a time and in any order. A property of
all runs is proved from what one act does to the shared state and to the stage of its process
(`Proof.act`), and from what it leaves alone of the others (`Proof.others`); `holds` puts the two
together.
-/

/-- Processes that share a state: what one of them does in a turn, and when it may. -/
structure Processes (π σ l ι : Type) where
  act : σ → l → ι → σ × l
  Allowed : σ → (π → l) → π → ι → Prop

namespace Processes

variable {π σ l ι : Type}

/-- The shared state, and the stage of every process. -/
structure World (π σ l : Type) where
  shared : σ
  stage : π → l

variable [DecidableEq π]

/-- One turn of one process. -/
def turn (ps : Processes π σ l ι) (w : World π σ l) (p : π) (i : ι) : World π σ l where
  shared := (ps.act w.shared (w.stage p) i).1
  stage := Function.update w.stage p (ps.act w.shared (w.stage p) i).2

/-- A turn of a process whose stage is known. -/
theorem turn_update (ps : Processes π σ l ι) (s : σ) (stages : π → l) (p : π) (stage : l) (i : ι) :
    ps.turn ⟨s, Function.update stages p stage⟩ p i =
      ⟨(ps.act s stage i).1, Function.update stages p (ps.act s stage i).2⟩ := by
  rw [turn]
  dsimp only
  rw [Function.update_self, Function.update_idem]

/-- The system whose steps are turns. -/
def machine (ps : Processes π σ l ι) : Machine (World π σ l) (π × ι) where
  step w i := ps.turn w i.1 i.2
  Allowed w i := ps.Allowed w.shared w.stage i.1 i.2

/-- What is said of the shared state, of it and a stage, and of the stages of any two processes. -/
structure Assertion (σ l : Type) where
  Shared : σ → Prop
  Own : σ → l → Prop
  Apart : l → l → Prop

/-- The assertion holds of the shared state and of all processes. -/
structure Assertion.Holds (a : Assertion σ l) (w : World π σ l) : Prop where
  shared : a.Shared w.shared
  own : ∀ p, a.Own w.shared (w.stage p)
  apart : ∀ p q, p ≠ q → a.Apart (w.stage p) (w.stage q)

/-- An act keeps what is said of the shared state and of its own stage, and does not disturb what is
said of the other processes. -/
structure Proof (ps : Processes π σ l ι) (a : Assertion σ l) : Prop where
  symm : ∀ first second, a.Apart first second → a.Apart second first
  act : ∀ (w : World π σ l) p i, a.Holds w → ps.Allowed w.shared w.stage p i →
    a.Shared (ps.act w.shared (w.stage p) i).1 ∧
      a.Own (ps.act w.shared (w.stage p) i).1 (ps.act w.shared (w.stage p) i).2
  others : ∀ (w : World π σ l) p q i, p ≠ q → a.Holds w → ps.Allowed w.shared w.stage p i →
    a.Own (ps.act w.shared (w.stage p) i).1 (w.stage q) ∧
      a.Apart (ps.act w.shared (w.stage p) i).2 (w.stage q)

variable {ps : Processes π σ l ι} {a : Assertion σ l}

/-- A turn keeps the assertion. -/
theorem Proof.holds_turn (proof : ps.Proof a) {w : World π σ l} {p : π} {i : ι} (h : a.Holds w)
    (hallowed : ps.Allowed w.shared w.stage p i) : a.Holds (ps.turn w p i) where
  shared := (proof.act w p i h hallowed).1
  own q := by
    show a.Own _ (Function.update w.stage p _ q)
    rcases eq_or_ne q p with rfl | hq
    · rw [Function.update_self]
      exact (proof.act w q i h hallowed).2
    · rw [Function.update_of_ne hq]
      exact (proof.others w p q i hq.symm h hallowed).1
  apart q r hqr := by
    show a.Apart (Function.update w.stage p _ q) (Function.update w.stage p _ r)
    rcases eq_or_ne q p with rfl | hq
    · rw [Function.update_self, Function.update_of_ne hqr.symm]
      exact (proof.others w q r i hqr h hallowed).2
    · rw [Function.update_of_ne hq]
      rcases eq_or_ne r p with rfl | hr
      · rw [Function.update_self]
        exact proof.symm _ _ (proof.others w r q i hq.symm h hallowed).2
      · rw [Function.update_of_ne hr]
        exact h.apart q r hqr

/-- The assertion holds in every state of every run, if it holds at the start. -/
theorem Proof.holds (proof : ps.Proof a) {w w' : World π σ l} (hrun : ps.machine.Reaches w w')
    (h : a.Holds w) : a.Holds w' :=
  hrun.invariant h fun _ _ ht hallowed => proof.holds_turn ht hallowed

end Processes
