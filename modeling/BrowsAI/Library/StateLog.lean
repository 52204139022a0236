import Mathlib.Data.List.Basic
import Mathlib.Tactic.SplitIfs

/-!
# Logs of states

A log of the states that things enter, each under the key of its thing. `statesOf` is the part of
the log for one key. A log is `Faithful` when for every key it begins with the initial state, lists
the states that were seen, and ends with the current one. `Faithful.append` is the rule for a step
that writes some entries, `Faithful.changes` for one that writes down the changes.
-/

namespace StateLog

variable {κ σ : Type} [DecidableEq κ]

/-- The states that a log lists for a key. -/
def statesOf (k : κ) (log : List (κ × σ)) : List σ :=
  (log.filter fun entry => entry.1 = k).map Prod.snd

@[simp] theorem states_of_nil (k : κ) : statesOf k ([] : List (κ × σ)) = [] := rfl

@[simp] theorem states_of_append (k : κ) (log log' : List (κ × σ)) :
    statesOf k (log ++ log') = statesOf k log ++ statesOf k log' := by
  rw [statesOf, List.filter_append, List.map_append]
  rfl

theorem states_of_singleton (k j : κ) (a : σ) :
    statesOf k [(j, a)] = if j = k then [a] else [] := by
  by_cases hjk : j = k
  · simp [statesOf, hjk]
  · simp [statesOf, hjk]

/-- The state that a thing enters in a step, if it changes. -/
def change [DecidableEq σ] (before after : Option σ) : List σ :=
  if after = before then [] else after.toList

@[simp] theorem change_self [DecidableEq σ] (state : Option σ) : change state state = [] :=
  if_pos rfl

/-- A log of states tells, for each key, the states that it went through. -/
structure Faithful (initial : σ) (log : List (κ × σ)) (seen : κ → List σ)
    (current : κ → Option σ) : Prop where
  first : ∀ k, ∀ a ∈ (statesOf k log).head?, a = initial
  replayed : ∀ k, statesOf k log = seen k
  last : ∀ k, (statesOf k log).getLast? = current k

variable {initial : σ} {log new : List (κ × σ)} {seen seen' : κ → List σ}
  {current current' : κ → Option σ}

theorem faithful_nil : Faithful initial ([] : List (κ × σ)) (fun _ => []) (fun _ => none) where
  first _ _ hhead := nomatch hhead
  replayed _ := rfl
  last _ := rfl

/-- The entries of a step are the states that are seen in it, the last of them is the state after
it, and those of a new thing begin with the initial state. -/
theorem Faithful.append (h : Faithful initial log seen current)
    (hseen : ∀ k, seen' k = seen k ++ statesOf k new)
    (hlast : ∀ k, current' k = (statesOf k new).getLast?.or (current k))
    (hfirst : ∀ k, current k = none → ∀ a ∈ (statesOf k new).head?, a = initial) :
    Faithful initial (log ++ new) seen' current' where
  first k a hhead := by
    rw [states_of_append, List.head?_append] at hhead
    cases hlog : statesOf k log with
    | nil =>
        have hnone : current k = none := by rw [← h.last k, hlog]; rfl
        rw [hlog, List.head?_nil, Option.none_or] at hhead
        exact hfirst k hnone a hhead
    | cons b rest =>
        rw [hlog, List.head?_cons, Option.some_or] at hhead
        exact h.first k a (hlog ▸ hhead)
  replayed k := by rw [states_of_append, h.replayed, hseen]
  last k := by rw [states_of_append, List.getLast?_append, h.last, hlast]

/-- A step that writes down exactly the changes, where no thing disappears and a new one begins in
the initial state. -/
theorem Faithful.changes [DecidableEq σ] (h : Faithful initial log seen current)
    (hnew : ∀ k, statesOf k new = change (current k) (current' k))
    (hkept : ∀ k, current' k = none → current k = none)
    (hfirst : ∀ k, current k = none → ∀ a ∈ current' k, a = initial) :
    Faithful initial (log ++ new) (fun k => seen k ++ change (current k) (current' k))
      current' := by
  refine h.append (fun k => by rw [hnew]) (fun k => ?_) fun k hnone a hhead => ?_
  · rw [hnew, change]
    split_ifs with hsame
    · exact hsame
    · cases hcurrent : current' k with
      | none => exact absurd (hcurrent.trans (hkept k hcurrent).symm) hsame
      | some a => rfl
  · rw [hnew, change] at hhead
    split_ifs at hhead
    · cases hhead
    · cases hcurrent : current' k with
      | none =>
          rw [hcurrent] at hhead
          cases hhead
      | some b =>
          rw [hcurrent] at hhead
          exact hfirst k hnone a (hcurrent ▸ hhead)

end StateLog
