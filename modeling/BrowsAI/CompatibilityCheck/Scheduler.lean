import BrowsAI.CompatibilityCheck.Sites
import BrowsAI.Library.OrdMap
import Mathlib.Algebra.GroupWithZero.Nat
import Mathlib.Data.List.Nodup

/-!
# The scheduler of a check run

`RetryPolicy::should_retry` and `RunScheduler` of `crates/compatibility-check`, and the loop that
executes the batches and hands every result to `retry`. The loop ends, executes every pending site,
and no site again after a result that is not transient. Attempts are counted from 0, so a site with
transient results only is executed once more than `max_attempts`: `ends_in_time_iff`.
-/

namespace BrowsAI.CompatibilityCheck

open Utf8 Std Network

/-! ## The data of a run -/

/-- What a failure is about. -/
inductive FailureCategory where
  | network | dns | tls | http | redirect | engine | html | css | layout | javascript | dom | event
  | input | hitTest | focus | keyboard | pointer | scroll | navigation | history | frame
  | shadowDom | serviceWorker | worker | webSocket | storage | agentTree | structuralIr | semanticIr
  | applicationIr | provenance | stableId | snapshot | diff | security | timeout | hang | crash
  | memory | performance | siteBlock | unsupported | unknown
  deriving DecidableEq

/-- How far a run or a site of it is. -/
inductive CorpusState where
  | pending | running | complete | failed | retryPending
  deriving DecidableEq

/-- How a check of a site or of a part of the browser ends. -/
inductive SiteStatus where
  | pass | passWithWarnings | partially | fail | blocked | timeout | crash | skipped
  deriving DecidableEq

/-- The parts of the browser that are checked. -/
inductive Subsystem where
  | engine | javascript | dom | css | layout | agentTree | structuralIr | semanticIr | applicationIr
  | provenance | input | state | network | storage | stability
  deriving DecidableEq

theorem Subsystem.ctor_idx_injective : Function.Injective Subsystem.ctorIdx := fun a b h => by
  rw [← Subsystem.ofNat_ctorIdx a, h, Subsystem.ofNat_ctorIdx]

theorem SiteStatus.ctor_idx_injective : Function.Injective SiteStatus.ctorIdx := fun a b h => by
  rw [← SiteStatus.ofNat_ctorIdx a, h, SiteStatus.ofNat_ctorIdx]

/-! Statuses and subsystems are ordered as they are declared. -/

instance : Ord Subsystem := ordOn Subsystem.ctorIdx

instance : TransOrd Subsystem := inferInstanceAs <| TransCmp (compareOn Subsystem.ctorIdx)

instance : LawfulEqOrd Subsystem := lawful_eq_ord_on Subsystem.ctor_idx_injective

instance : Ord SiteStatus := ordOn SiteStatus.ctorIdx

instance : TransOrd SiteStatus := inferInstanceAs <| TransCmp (compareOn SiteStatus.ctorIdx)

instance : LawfulEqOrd SiteStatus := lawful_eq_ord_on SiteStatus.ctor_idx_injective

/-- What a site does to a part of the browser. -/
structure SubsystemResult where
  status : SiteStatus
  details : Option Text

/-- A failure, with the fields that the scheduler and the reports read. -/
structure FailureRecord where
  id : Text
  category : FailureCategory
  fingerprint : Text

/-- The result of a site; only its metrics are left out. -/
structure SiteResult (U : Type) where
  site : Option (SiteRecord U)
  status : Option SiteStatus
  state : Option CorpusState
  subsystems : OrdMap Subsystem SubsystemResult
  failures : List FailureRecord

/-- A run, of which the scheduler and the reports read the results of the sites only. -/
structure CheckRun (U : Type) where
  sites : List (SiteResult U)

variable {U : Type}

/-! ## The scheduler -/

/-- Where the sites are that still have to be executed. -/
def CheckRun.pendingSiteIndices (run : CheckRun U) : List Nat :=
  run.sites.zipIdx.filterMap fun (result, index) =>
    if result.state = some .pending ∨ result.state = some .retryPending then some index else none

/-- How often a site may be tried. -/
structure RetryPolicy where
  maxAttempts : UInt32

/-- A timeout, a hang, or a crash is among the failures. -/
def SiteResult.Transient (result : SiteResult U) : Prop :=
  ∃ failure ∈ result.failures, failure.category = .timeout ∨ failure.category = .hang ∨
    failure.category = .crash

instance (result : SiteResult U) : Decidable result.Transient :=
  inferInstanceAs <| Decidable (∃ failure ∈ result.failures, _ ∨ _ ∨ _)

/-- There is an attempt left, and the failure may pass. -/
def RetryPolicy.shouldRetry (policy : RetryPolicy) (attempt : UInt32) (result : SiteResult U) :
    Bool :=
  attempt < policy.maxAttempts && result.failures.any fun failure =>
    failure.category = .timeout ∨ failure.category = .hang ∨ failure.category = .crash

/-- How many sites are executed at once, and how often each. -/
structure SchedulerConfig where
  workers : Nat
  maxAttempts : UInt32

/-- A site that waits, and its attempt. -/
structure ScheduledSite where
  index : Nat
  attempt : UInt32

/-- The sites that wait. -/
structure RunScheduler where
  config : SchedulerConfig
  queue : List ScheduledSite

namespace RunScheduler

/-- All pending sites wait for their first attempt. -/
def fromRun (run : CheckRun U) (config : SchedulerConfig) : RunScheduler where
  config := config
  queue := run.pendingSiteIndices.map fun index => ⟨index, 0⟩

/-- The first sites that wait, one for each worker. -/
def nextBatch (s : RunScheduler) : List ScheduledSite × RunScheduler :=
  let count := min (max s.config.workers 1) s.queue.length
  (s.queue.take count, { s with queue := s.queue.drop count })

/-- Lets a site wait again if it should be retried. -/
def retry (s : RunScheduler) (site : ScheduledSite) (result : SiteResult U) : RunScheduler :=
  let policy : RetryPolicy := ⟨s.config.maxAttempts⟩
  if policy.shouldRetry site.attempt result then
    { s with queue := s.queue ++ [⟨site.index, site.attempt + 1⟩] }
  else s

/-! ## The loop -/

/-- A site that was executed, and its result. -/
structure Execution (U : Type) where
  index : Nat
  result : SiteResult U

/-- How often a site was executed. -/
def executions (log : List (Execution U)) (index : Nat) : Nat :=
  log.countP fun execution => execution.index = index

/-- The execution of a site of a batch. `results` has the results of each site, one after the
other. -/
def execute (results : Nat → Nat → SiteResult U) (s : RunScheduler × List (Execution U))
    (site : ScheduledSite) : RunScheduler × List (Execution U) :=
  let result := results site.index (executions s.2 site.index)
  (s.1.retry site result, s.2 ++ [⟨site.index, result⟩])

/-- The executions when no batch is left, after `fuel` batches at most. -/
def drain (results : Nat → Nat → SiteResult U) :
    Nat → RunScheduler × List (Execution U) → Option (List (Execution U))
  | 0, _ => none
  | fuel + 1, (s, log) =>
      match s.nextBatch with
      | ([], _) => some log
      | (site :: batch, s) => drain results fuel ((site :: batch).foldl (execute results) (s, log))

theorem should_retry_iff (policy : RetryPolicy) (attempt : UInt32) (result : SiteResult U) :
    policy.shouldRetry attempt result = true ↔
      attempt.toNat < policy.maxAttempts.toNat ∧ result.Transient := by
  rw [RetryPolicy.shouldRetry, Bool.and_eq_true, decide_eq_true_iff, UInt32.lt_iff_toNat_lt,
    SiteResult.Transient, List.any_eq_true]
  simp only [decide_eq_true_eq]

theorem executions_append (log : List (Execution U)) (site index : Nat) (result : SiteResult U) :
    executions (log ++ [⟨site, result⟩]) index =
      executions log index + if site = index then 1 else 0 := by
  simp [executions, List.countP_append, List.countP_singleton]

/-- A site that does not come back was executed so often: up to the first result that is not
transient, or once more than the maximum. -/
def Finished (results : Nat → SiteResult U) (maximum count : Nat) : Prop :=
  ∃ last, count = last + 1 ∧ last ≤ maximum ∧ (∀ k < last, (results k).Transient) ∧
    (last = maximum ∨ ¬ (results last).Transient)

/-- What holds between two executions, of the sites that wait for one and of those before. -/
structure Waiting (results : Nat → Nat → SiteResult U) (maximum : Nat) (pending : List Nat)
    (waiting : List ScheduledSite) (log : List (Execution U)) : Prop where
  distinct : (waiting.map ScheduledSite.index).Nodup
  attempt_eq : ∀ site ∈ waiting, site.attempt.toNat = executions log site.index
  attempt_le : ∀ site ∈ waiting, site.attempt.toNat ≤ maximum
  transient : ∀ site ∈ waiting, ∀ k < executions log site.index, (results site.index k).Transient
  told : ∀ execution ∈ log, ∃ k < executions log execution.index,
    execution.result = results execution.index k
  once : log.Pairwise fun earlier later =>
    later.index = earlier.index → earlier.result.Transient
  finished : ∀ index ∈ pending, index ∉ waiting.map ScheduledSite.index →
    Finished (results index) maximum (executions log index)

section Step

variable {results : Nat → Nat → SiteResult U} {maximum : Nat} {pending : List Nat}
  {site : ScheduledSite} {waiting : List ScheduledSite} {log : List (Execution U)}

/-- The next result of a site that waits. -/
abbrev nextResult (results : Nat → Nat → SiteResult U) (site : ScheduledSite)
    (log : List (Execution U)) : SiteResult U :=
  results site.index (executions log site.index)

/-- The log after the execution of a site that waits. -/
abbrev logged (results : Nat → Nat → SiteResult U) (site : ScheduledSite) (log : List (Execution U)) :
    List (Execution U) :=
  log ++ [⟨site.index, nextResult results site log⟩]

theorem executions_logged_of_ne {index : Nat} (h : site.index ≠ index) :
    executions (logged results site log) index = executions log index := by
  rw [logged, executions_append, if_neg h]
  rfl

theorem executions_logged_self :
    executions (logged results site log) site.index = executions log site.index + 1 := by
  rw [logged, executions_append, if_pos rfl]

/-- The execution that is logged is the next result of its site. -/
theorem Waiting.told_logged (h : Waiting results maximum pending (site :: waiting) log) :
    ∀ execution ∈ logged results site log,
      ∃ k < executions (logged results site log) execution.index,
        execution.result = results execution.index k := by
  intro execution hmem
  obtain hmem | hmem := List.mem_append.mp hmem
  · obtain ⟨k, hk, heq⟩ := h.told execution hmem
    refine ⟨k, ?_, heq⟩
    rw [logged, executions_append]
    omega
  · rw [List.mem_singleton.mp hmem]
    exact ⟨executions log site.index, by rw [executions_logged_self]; omega, rfl⟩

/-- A site that waits has had transient results only. -/
theorem Waiting.once_logged (h : Waiting results maximum pending (site :: waiting) log) :
    (logged results site log).Pairwise fun earlier later =>
      later.index = earlier.index → earlier.result.Transient := by
  refine List.pairwise_append.mpr ⟨h.once, List.pairwise_singleton _ _, ?_⟩
  intro earlier hearlier later hlater hsame
  rw [List.mem_singleton.mp hlater] at hsame
  obtain ⟨k, hk, heq⟩ := h.told earlier hearlier
  replace hsame : site.index = earlier.index := hsame
  rw [heq, ← hsame]
  exact h.transient site List.mem_cons_self k (hsame ▸ hk)

/-- The sites behind the one that is executed wait on. -/
theorem Waiting.rest (h : Waiting results maximum pending (site :: waiting) log)
    {other : ScheduledSite} (hother : other ∈ waiting) : site.index ≠ other.index := by
  intro heq
  have hdistinct := h.distinct
  rw [List.map_cons, List.nodup_cons] at hdistinct
  exact hdistinct.1 (heq ▸ List.mem_map_of_mem hother)

/-- A site with a result that is not transient, or without attempts left, does not come back. -/
theorem Waiting.done (h : Waiting results maximum pending (site :: waiting) log)
    (hdone : ¬ (site.attempt.toNat < maximum ∧ (nextResult results site log).Transient)) :
    Waiting results maximum pending waiting (logged results site log) := by
  have hattempt := h.attempt_eq site List.mem_cons_self
  have hle := h.attempt_le site List.mem_cons_self
  refine ⟨(List.nodup_cons.mp h.distinct).2, ?_, ?_, ?_, h.told_logged, h.once_logged, ?_⟩
  · intro other hother
    rw [executions_logged_of_ne (h.rest hother)]
    exact h.attempt_eq other (List.mem_cons_of_mem _ hother)
  · intro other hother
    exact h.attempt_le other (List.mem_cons_of_mem _ hother)
  · intro other hother
    rw [executions_logged_of_ne (h.rest hother)]
    exact h.transient other (List.mem_cons_of_mem _ hother)
  · intro index hindex hnot
    by_cases heq : site.index = index
    · subst heq
      refine ⟨executions log site.index, executions_logged_self, by omega,
        h.transient site List.mem_cons_self, ?_⟩
      by_cases hlast : executions log site.index = maximum
      · exact .inl hlast
      · exact .inr fun htransient => hdone ⟨by omega, htransient⟩
    · rw [executions_logged_of_ne heq]
      refine h.finished index hindex ?_
      rw [List.map_cons, List.mem_cons, not_or]
      exact ⟨Ne.symm heq, hnot⟩

theorem attempt_add_one (hattempt : site.attempt.toNat < maximum) (hmaximum : maximum < 2 ^ 32) :
    (site.attempt + 1).toNat = site.attempt.toNat + 1 := by
  have hone : (1 : UInt32).toNat = 1 := rfl
  rw [UInt32.toNat_add, hone]
  exact Nat.mod_eq_of_lt (by omega)

/-- A site that is retried waits behind the others. -/
theorem Waiting.again (h : Waiting results maximum pending (site :: waiting) log)
    (hattempt : site.attempt.toNat < maximum)
    (htransient : (nextResult results site log).Transient) (hmaximum : maximum < 2 ^ 32) :
    Waiting results maximum pending (waiting ++ [⟨site.index, site.attempt + 1⟩])
      (logged results site log) := by
  have heq := h.attempt_eq site List.mem_cons_self
  have hnext := attempt_add_one hattempt hmaximum
  have hcases : ∀ other ∈ waiting ++ [⟨site.index, site.attempt + 1⟩],
      other ∈ waiting ∨ other = ⟨site.index, site.attempt + 1⟩ := by
    intro other hother
    exact (List.mem_append.mp hother).imp_right List.mem_singleton.mp
  refine ⟨?_, ?_, ?_, ?_, h.told_logged, h.once_logged, ?_⟩
  · rw [List.map_append]
    exact (List.perm_append_singleton _ _).nodup_iff.mpr h.distinct
  · intro other hother
    obtain hother | rfl := hcases other hother
    · rw [executions_logged_of_ne (h.rest hother)]
      exact h.attempt_eq other (List.mem_cons_of_mem _ hother)
    · show (site.attempt + 1).toNat = executions (logged results site log) site.index
      rw [executions_logged_self, hnext, heq]
  · intro other hother
    obtain hother | rfl := hcases other hother
    · exact h.attempt_le other (List.mem_cons_of_mem _ hother)
    · show (site.attempt + 1).toNat ≤ maximum
      omega
  · intro other hother
    obtain hother | rfl := hcases other hother
    · rw [executions_logged_of_ne (h.rest hother)]
      exact h.transient other (List.mem_cons_of_mem _ hother)
    · show ∀ k < executions (logged results site log) site.index, _
      intro k hk
      rw [executions_logged_self] at hk
      obtain hk | rfl := Nat.lt_succ_iff_lt_or_eq.mp hk
      · exact h.transient site List.mem_cons_self k hk
      · exact htransient
  · intro index hindex hnot
    rw [List.map_append, List.mem_append, not_or] at hnot
    have hne : site.index ≠ index := fun hsame => hnot.2 (by simp [hsame])
    rw [executions_logged_of_ne hne]
    refine h.finished index hindex ?_
    rw [List.map_cons, List.mem_cons, not_or]
    exact ⟨Ne.symm hne, hnot.1⟩

end Step

/-! ## A batch -/

@[simp]
theorem retry_config (s : RunScheduler) (site : ScheduledSite) (result : SiteResult U) :
    (s.retry site result).config = s.config := by
  simp only [retry]
  split
  · rfl
  · rfl

/-- A site waits again exactly if an attempt is left and its failure is transient. -/
theorem retry_queue (s : RunScheduler) (site : ScheduledSite) (result : SiteResult U) :
    (s.retry site result).queue =
      if site.attempt.toNat < s.config.maxAttempts.toNat ∧ result.Transient then
        s.queue ++ [⟨site.index, site.attempt + 1⟩]
      else s.queue := by
  have hiff := should_retry_iff ⟨s.config.maxAttempts⟩ site.attempt result
  by_cases h : site.attempt.toNat < s.config.maxAttempts.toNat ∧ result.Transient
  · rw [if_pos h, retry, if_pos (hiff.mpr h)]
  · rw [if_neg h, retry, if_neg fun hretry => h (hiff.mp hretry)]

/-- How many executions the sites that wait can still take. -/
def weight (maximum : Nat) (waiting : List ScheduledSite) : Nat :=
  (waiting.map fun site => maximum + 1 - site.attempt.toNat).sum

theorem weight_cons (maximum : Nat) (site : ScheduledSite) (waiting : List ScheduledSite) :
    weight maximum (site :: waiting) =
      (maximum + 1 - site.attempt.toNat) + weight maximum waiting := rfl

theorem weight_append (maximum : Nat) (first second : List ScheduledSite) :
    weight maximum (first ++ second) = weight maximum first + weight maximum second := by
  rw [weight, List.map_append, List.sum_append]
  rfl

section Batch

variable {results : Nat → Nat → SiteResult U} {pending : List Nat} {s : RunScheduler}
  {log : List (Execution U)}

/-- One execution keeps the invariant, and takes one from the weight at least. -/
theorem Waiting.execute {site : ScheduledSite} {batch : List ScheduledSite}
    (h : Waiting results s.config.maxAttempts.toNat pending (site :: (batch ++ s.queue)) log) :
    let t := execute results (s, log) site
    t.1.config = s.config ∧
      Waiting results s.config.maxAttempts.toNat pending (batch ++ t.1.queue) t.2 ∧
      weight s.config.maxAttempts.toNat (batch ++ t.1.queue) <
        weight s.config.maxAttempts.toNat (site :: (batch ++ s.queue)) := by
  have hle := h.attempt_le site List.mem_cons_self
  refine ⟨retry_config _ _ _, ?_⟩
  show Waiting _ _ _ (batch ++ (s.retry site (nextResult results site log)).queue)
      (logged results site log) ∧
    weight _ (batch ++ (s.retry site (nextResult results site log)).queue) < _
  rw [retry_queue, weight_cons]
  by_cases hretry : site.attempt.toNat < s.config.maxAttempts.toNat ∧
      (nextResult results site log).Transient
  · have hnext := attempt_add_one hretry.1 s.config.maxAttempts.toNat_lt
    rw [if_pos hretry, ← List.append_assoc, weight_append]
    refine ⟨h.again hretry.1 hretry.2 s.config.maxAttempts.toNat_lt, ?_⟩
    show weight _ (batch ++ s.queue) + (_ + 1 - (site.attempt + 1).toNat + 0) < _
    omega
  · rw [if_neg hretry]
    exact ⟨h.done hretry, by omega⟩

/-- A batch keeps the invariant, and takes one from the weight for each of its sites. -/
theorem Waiting.batch (batch : List ScheduledSite)
    (h : Waiting results s.config.maxAttempts.toNat pending (batch ++ s.queue) log) :
    let t := batch.foldl (RunScheduler.execute results) (s, log)
    t.1.config = s.config ∧
      Waiting results s.config.maxAttempts.toNat pending t.1.queue t.2 ∧
      weight s.config.maxAttempts.toNat t.1.queue + batch.length ≤
        weight s.config.maxAttempts.toNat (batch ++ s.queue) := by
  induction batch generalizing s log with
  | nil => exact ⟨rfl, h, Nat.le_refl _⟩
  | cons site batch ih =>
      obtain ⟨hconfig, hwaiting, hweight⟩ := h.execute
      obtain ⟨hconfig', hwaiting', hweight'⟩ := ih (hconfig.symm ▸ hwaiting)
      rw [hconfig] at hwaiting' hweight' hconfig'
      refine ⟨hconfig', hwaiting', ?_⟩
      have hlength : (site :: batch).length = batch.length + 1 := rfl
      have hcons : site :: batch ++ s.queue = site :: (batch ++ s.queue) := rfl
      rw [hcons, hlength]
      exact Nat.succ_le_of_lt (Nat.lt_of_le_of_lt hweight' hweight)

theorem next_batch_append (s : RunScheduler) : s.nextBatch.1 ++ s.nextBatch.2.queue = s.queue :=
  List.take_append_drop _ _

theorem next_batch_ne_nil (h : s.queue ≠ []) : s.nextBatch.1 ≠ [] := by
  have hpos := List.length_pos_iff.mpr h
  have hlength : s.nextBatch.1.length = min (min (max s.config.workers 1) s.queue.length)
      s.queue.length := List.length_take
  rw [← List.length_pos_iff, hlength]
  omega

/-- The loop stops when no site waits. -/
theorem drain_of_nil (fuel : Nat) (h : s.queue = []) :
    drain results (fuel + 1) (s, log) = some log := by
  have hnil : s.nextBatch.1 = [] := by
    show s.queue.take _ = []
    rw [h, List.take_nil]
  unfold drain
  split
  · rfl
  · rename_i heq
    rw [heq] at hnil
    cases hnil

/-- It takes a batch otherwise. -/
theorem drain_of_ne_nil (fuel : Nat) (h : s.queue ≠ []) :
    drain results (fuel + 1) (s, log) =
      drain results fuel (s.nextBatch.1.foldl (execute results) (s.nextBatch.2, log)) := by
  have hne := next_batch_ne_nil h
  rw [drain]
  split
  · rename_i heq
    rw [heq] at hne
    exact absurd rfl hne
  · rename_i heq
    rw [heq]

/-- A turn of the loop. -/
theorem Waiting.turn (h : Waiting results s.config.maxAttempts.toNat pending s.queue log)
    (hne : s.queue ≠ []) :
    let t := s.nextBatch.1.foldl (RunScheduler.execute results) (s.nextBatch.2, log)
    t.1.config = s.config ∧
      Waiting results s.config.maxAttempts.toNat pending t.1.queue t.2 ∧
      weight s.config.maxAttempts.toNat t.1.queue < weight s.config.maxAttempts.toNat s.queue := by
  have hqueue := next_batch_append s
  rw [← hqueue] at h
  have hlength := List.length_pos_iff.mpr (next_batch_ne_nil hne)
  obtain ⟨hconfig, hwaiting, hweight⟩ :=
    Waiting.batch (s := s.nextBatch.2) s.nextBatch.1 h
  rw [hqueue] at hweight
  exact ⟨hconfig, hwaiting, Nat.lt_of_lt_of_le (Nat.lt_add_of_pos_right hlength) hweight⟩

/-- The loop ends: every turn takes from the weight. -/
theorem exists_drain (h : Waiting results s.config.maxAttempts.toNat pending s.queue log) :
    ∃ fuel final, drain results fuel (s, log) = some final := by
  induction hweight : weight s.config.maxAttempts.toNat s.queue using Nat.strongRecOn
    generalizing s log with
  | ind n ih =>
      by_cases hne : s.queue = []
      · exact ⟨1, log, drain_of_nil 0 hne⟩
      · obtain ⟨hconfig, hwaiting, hless⟩ := h.turn hne
        rw [← hconfig] at hwaiting
        obtain ⟨fuel, final, hfinal⟩ :=
          ih _ (by rw [hweight, ← hconfig] at hless; exact hless) hwaiting rfl
        exact ⟨fuel + 1, final, by rw [drain_of_ne_nil fuel hne]; exact hfinal⟩

/-- No site waits when the loop ends. -/
theorem Waiting.drain {final : List (Execution U)} (fuel : Nat)
    (h : Waiting results s.config.maxAttempts.toNat pending s.queue log)
    (hfinal : RunScheduler.drain results fuel (s, log) = some final) :
    Waiting results s.config.maxAttempts.toNat pending [] final := by
  induction fuel generalizing s log with
  | zero => cases hfinal
  | succ fuel ih =>
      by_cases hne : s.queue = []
      · rw [drain_of_nil fuel hne] at hfinal
        rw [hne] at h
        exact Option.some.inj hfinal ▸ h
      · obtain ⟨hconfig, hwaiting, -⟩ := h.turn hne
        rw [drain_of_ne_nil fuel hne] at hfinal
        rw [← hconfig] at hwaiting ⊢
        exact ih hwaiting hfinal

end Batch

/-! ## A run -/

/-- A site is pending once. -/
theorem pending_site_indices_nodup (run : CheckRun U) : run.pendingSiteIndices.Nodup := by
  have hsublist : ∀ entries : List (SiteResult U × Nat),
      (entries.filterMap fun (result, index) =>
        if result.state = some .pending ∨ result.state = some .retryPending then some index
        else none).Sublist (entries.map Prod.snd) := by
    intro entries
    induction entries with
    | nil => exact List.Sublist.slnil
    | cons entry entries ih =>
        rw [List.filterMap_cons, List.map_cons]
        split
        · exact ih.cons _
        · rename_i index heq
          obtain ⟨-, hindex⟩ := Option.ite_none_right_eq_some.mp heq
          rw [← Option.some.inj hindex]
          exact ih.cons_cons _
  refine (hsublist run.sites.zipIdx).nodup ?_
  rw [List.zipIdx_map_snd]
  exact List.nodup_range'

/-- The invariant holds at the start. -/
theorem waiting_from_run (results : Nat → Nat → SiteResult U) (run : CheckRun U)
    (config : SchedulerConfig) :
    Waiting results config.maxAttempts.toNat run.pendingSiteIndices (fromRun run config).queue
      [] := by
  have hindices : (fromRun run config).queue.map ScheduledSite.index = run.pendingSiteIndices := by
    show (run.pendingSiteIndices.map _).map _ = _
    rw [List.map_map]
    exact List.map_id _
  have hattempt : ∀ site ∈ (fromRun run config).queue, site.attempt.toNat = 0 := by
    intro site hsite
    obtain ⟨index, -, rfl⟩ := List.mem_map.mp hsite
    rfl
  refine ⟨hindices ▸ pending_site_indices_nodup run, hattempt, ?_, ?_, ?_, List.Pairwise.nil, ?_⟩
  · intro site hsite
    rw [hattempt site hsite]
    exact Nat.zero_le _
  · intro site hsite k hk
    exact absurd hk (Nat.not_lt_zero k)
  · intro execution hmem
    cases hmem
  · intro index hindex hnot
    exact absurd (hindices ▸ hindex) hnot

/-- A site is not executed too often exactly if a result within the maximum is not transient. -/
theorem Finished.le_max_iff {results : Nat → SiteResult U} {maximum count : Nat}
    (h : Finished results maximum count) :
    count ≤ max 1 maximum ↔ maximum = 0 ∨ ∃ k < maximum, ¬ (results k).Transient := by
  obtain ⟨last, rfl, hle, hbefore, hlast⟩ := h
  constructor
  · intro hcount
    by_cases hzero : maximum = 0
    · exact .inl hzero
    · have hless : last < maximum := by omega
      exact .inr ⟨last, hless, hlast.resolve_left (by omega)⟩
  · intro hcases
    obtain hzero | ⟨k, hk, hnot⟩ := hcases
    · omega
    · have hlast : last ≤ k := Nat.le_of_not_lt fun hless => hnot (hbefore k hless)
      omega

/-- The loop ends, executes every pending site once at least and `max 1 maxAttempts` times at most,
and no site again after a result that is not transient. -/
def EndsInTime (results : Nat → Nat → SiteResult U) (run : CheckRun U) (config : SchedulerConfig) :
    Prop :=
  ∃ fuel log, drain results fuel (fromRun run config, []) = some log ∧
    (∀ index ∈ run.pendingSiteIndices, 1 ≤ executions log index ∧
      executions log index ≤ max 1 config.maxAttempts.toNat) ∧
    log.Pairwise fun earlier later => later.index = earlier.index → earlier.result.Transient

/-- Everything holds but the maximum, and that when no pending site has `maxAttempts` transient
results in a row from the start. -/
theorem ends_in_time_iff (results : Nat → Nat → SiteResult U) (run : CheckRun U)
    (config : SchedulerConfig) :
    EndsInTime results run config ↔
      config.maxAttempts.toNat = 0 ∨ ∀ index ∈ run.pendingSiteIndices,
        ∃ k < config.maxAttempts.toNat, ¬ (results index k).Transient := by
  have hstart := waiting_from_run results run config
  constructor
  · intro h
    obtain ⟨fuel, log, hlog, hcount, -⟩ := h
    have hfinal := hstart.drain fuel hlog
    by_cases hzero : config.maxAttempts.toNat = 0
    · exact .inl hzero
    · refine .inr fun index hindex => ?_
      have hfinished := hfinal.finished index hindex List.not_mem_nil
      exact (hfinished.le_max_iff.mp (hcount index hindex).2).resolve_left hzero
  · intro h
    obtain ⟨fuel, log, hlog⟩ := exists_drain (s := fromRun run config) hstart
    have hfinal := hstart.drain fuel hlog
    refine ⟨fuel, log, hlog, ?_, hfinal.once⟩
    intro index hindex
    have hfinished := hfinal.finished index hindex List.not_mem_nil
    refine ⟨?_, hfinished.le_max_iff.mpr (h.imp_right fun hsites => hsites index hindex)⟩
    obtain ⟨last, hcount, -⟩ := hfinished
    omega

/-- A site that was never executed. -/
def waitingSite : SiteResult PlainUrl :=
  ⟨some (SiteRecord.new "a" ⟨"https", "a.test", "/"⟩), none, some .pending, ∅, []⟩

/-- Its result when the time is over. -/
def timedOut : SiteResult PlainUrl :=
  { waitingSite with status := some .timeout, state := some .failed,
                     failures := [⟨"failure-1", .timeout, "fp-1"⟩] }

/-- With one attempt at most, a site that always times out is executed twice. -/
theorem timeout_executed_twice :
    ¬ EndsInTime (fun _ _ => timedOut) ⟨[waitingSite]⟩ ⟨1, 1⟩ := by
  intro h
  obtain ⟨fuel, log, hlog, hcount, -⟩ := h
  have htwice : log = [⟨0, timedOut⟩, ⟨0, timedOut⟩] := by
    match fuel, hlog with
    | fuel + 3, hlog => exact (Option.some.inj hlog).symm
  have hmost := (hcount 0 (by decide)).2
  rw [htwice] at hmost
  revert hmost
  decide

end RunScheduler

end BrowsAI.CompatibilityCheck
