import Mathlib.Logic.Basic

/-!
# Runs of a machine

A machine makes one step for each input, and says which inputs are allowed in which states.
`Reaches` is a run over allowed inputs, and `invariant` reasons about all runs by what each step
preserves. `throughout_congr` and `always_iff` say in which runs a property of the steps, or of the
states, holds all along, and `run_simulates` takes the runs of a machine to those of another.
`trace_simulates` does the same with what can be observed of the steps.
-/

/-- A system that takes steps, some of which are excluded. -/
structure Machine (σ ι : Type) where
  step : σ → ι → σ
  Allowed : σ → ι → Prop

namespace Machine

variable {σ ι : Type} {m : Machine σ ι} {s t : σ}

/-- A run of allowed inputs from `s`. -/
inductive Reaches (m : Machine σ ι) (s : σ) : σ → Prop
  | refl : Reaches m s s
  | step {t : σ} (i : ι) (hrun : Reaches m s t) (hallowed : m.Allowed t i) :
      Reaches m s (m.step t i)

/-- What the start has and every step preserves holds in every state of a run. -/
theorem Reaches.invariant {P : σ → Prop} (h : m.Reaches s t) (hstart : P s)
    (hstep : ∀ t i, P t → m.Allowed t i → P (m.step t i)) : P t := by
  induction h with
  | refl => exact hstart
  | step i _ hallowed ih => exact hstep _ i ih hallowed

/-- The state after some inputs. -/
def run (m : Machine σ ι) : σ → List ι → σ
  | s, [] => s
  | s, i :: is => run m (m.step s i) is

/-- Every input is allowed in its turn. -/
def AllowedRun (m : Machine σ ι) : σ → List ι → Prop
  | _, [] => True
  | s, i :: is => m.Allowed s i ∧ AllowedRun m (m.step s i) is

/-- A machine that takes every input has allowed runs only. -/
theorem allowed_run_of_forall {m : Machine σ ι} (h : ∀ s i, m.Allowed s i) (s : σ) (is : List ι) :
    m.AllowedRun s is := by
  induction is generalizing s with
  | nil => trivial
  | cons i is ih => exact ⟨h s i, ih _⟩

/-- Every step of a run has a property. -/
def Throughout (m : Machine σ ι) (P : σ → ι → Prop) : σ → List ι → Prop
  | _, [] => True
  | s, i :: is => P s i ∧ Throughout m P (m.step s i) is

/-- Two properties of steps hold throughout the same runs, if they agree where an invariant holds
that such steps preserve. -/
theorem throughout_congr {I : σ → Prop} {P Q : σ → ι → Prop} {is : List ι}
    (hstep : ∀ s i, I s → m.Allowed s i → (P s i ↔ Q s i))
    (hpreserved : ∀ s i, I s → m.Allowed s i → Q s i → I (m.step s i)) (hs : I s)
    (hallowed : m.AllowedRun s is) : m.Throughout P s is ↔ m.Throughout Q s is := by
  induction is generalizing s with
  | nil => exact .rfl
  | cons i is ih =>
      rw [Throughout, Throughout, hstep s i hs hallowed.1]
      exact and_congr_right fun hq => ih (hpreserved s i hs hallowed.1 hq) hallowed.2

/-- Every state of a run, from the first one on, has a property. -/
def Always (m : Machine σ ι) (P : σ → Prop) : σ → List ι → Prop
  | s, [] => P s
  | s, i :: is => P s ∧ Always m P (m.step s i) is

/-- A property that, beside an invariant, a step preserves exactly under a condition holds in every
state of exactly the runs that keep to the condition. -/
theorem always_iff {I P : σ → Prop} {C : σ → ι → Prop} {is : List ι}
    (hstep : ∀ s i, I s → P s → m.Allowed s i → (P (m.step s i) ↔ C s i))
    (hpreserved : ∀ s i, I s → m.Allowed s i → I (m.step s i)) (hs : I s) (hp : P s)
    (hallowed : m.AllowedRun s is) : m.Always P s is ↔ m.Throughout C s is := by
  induction is generalizing s with
  | nil => exact iff_of_true hp trivial
  | cons i is ih =>
      have hs' := hpreserved s i hs hallowed.1
      constructor
      · rintro ⟨_, hrest⟩
        have hp' : P (m.step s i) := by
          cases is with
          | nil => exact hrest
          | cons _ _ => exact hrest.1
        exact ⟨(hstep s i hs hp hallowed.1).mp hp', (ih hs' hp' hallowed.2).mp hrest⟩
      · rintro ⟨hc, hrest⟩
        have hp' := (hstep s i hs hp hallowed.1).mpr hc
        exact ⟨hp, (ih hs' hp' hallowed.2).mpr hrest⟩

/-- The same where every step is allowed and the property needs no other invariant. -/
theorem always_iff_of_step {P : σ → Prop} {C : σ → ι → Prop} (hallowed : ∀ s i, m.Allowed s i)
    (hstep : ∀ s i, P s → (P (m.step s i) ↔ C s i)) (hp : P s) (is : List ι) :
    m.Always P s is ↔ m.Throughout C s is :=
  always_iff (I := fun _ => True) (fun s i _ h _ => hstep s i h) (fun _ _ _ _ => trivial) trivial hp
    (allowed_run_of_forall hallowed s is)

/-- What the start has and every step preserves holds after a run of a machine that takes every
input. -/
theorem run_invariant {P : σ → Prop} (hstep : ∀ s i, P s → P (m.step s i)) (hs : P s)
    (is : List ι) : P (m.run s is) := by
  induction is generalizing s with
  | nil => exact hs
  | cons i is ih => exact ih (hstep s i hs)

/-- A view of the states that takes each step to a step of another machine takes runs to runs. -/
theorem run_simulates {τ : Type} {m' : Machine τ ι} (view : σ → τ)
    (hstep : ∀ s i, view (m.step s i) = m'.step (view s) i) (s : σ) (is : List ι) :
    view (m.run s is) = m'.run (view s) is := by
  induction is generalizing s with
  | nil => rfl
  | cons i is ih => rw [run, run, ih, hstep]

/-- What can be observed of the steps of a run. -/
def trace {ο : Type} (m : Machine σ ι) (observe : σ → ι → Option ο) : σ → List ι → List ο
  | _, [] => []
  | s, i :: is => (observe s i).toList ++ trace m observe (m.step s i) is

/-- A relation that every step keeps, and that shows the same in each step, shows the same in runs. -/
theorem trace_simulates {τ κ ο : Type} {m' : Machine τ κ} {R : σ → τ → Prop} {f : ι → κ}
    {observe : σ → ι → Option ο} {observe' : τ → κ → Option ο}
    (hstep : ∀ s t i, R s t → observe s i = observe' t (f i) ∧ R (m.step s i) (m'.step t (f i)))
    {s : σ} {t : τ} (h : R s t) (is : List ι) :
    m.trace observe s is = m'.trace observe' t (is.map f) := by
  induction is generalizing s t with
  | nil => rfl
  | cons i is ih =>
      obtain ⟨hobserve, hnext⟩ := hstep s t i h
      rw [List.map_cons, trace, trace, hobserve, ih hnext]

theorem Reaches.run {is : List ι} (h : m.Reaches s t) (hallowed : m.AllowedRun t is) :
    m.Reaches s (m.run t is) := by
  induction is generalizing t with
  | nil => exact h
  | cons i is ih => exact ih (h.step i hallowed.1) hallowed.2

end Machine
