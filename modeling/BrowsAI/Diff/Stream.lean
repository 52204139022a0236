import BrowsAI.Diff.Tree
import BrowsAI.Library.Runs

/-!
# The stream of differences

`DiffStream` of `crates/diff`, a bounded queue of numbered entries. A difference of the generation
that was published last joins the last entry, and a full queue drops its oldest one. A `History`
keeps what was published and every entry that left the queue. Nothing is lost unseen and nothing is
reordered, until the counter of sequence numbers wraps around.
-/

namespace BrowsAI.Diff

open Utf8

/-- Changes under one number. -/
structure IncrementalDiff (V : Type) where
  sequence : UInt64
  generation : UInt64
  operations : List (DiffOp V)

/-- The changes of a drain, and how many were lost before. -/
structure DiffBatch (V : Type) where
  entries : List (IncrementalDiff V)
  dropped : UInt64

/-- The changes that wait to be drained. -/
structure DiffStream (V : Type) where
  capacity : Nat
  nextSequence : UInt64
  dropped : UInt64
  entries : List (IncrementalDiff V)

namespace DiffStream

variable {V : Type}

/-- An empty stream with room for one entry at least. -/
def bounded (capacity : Nat) : DiffStream V := ⟨max capacity 1, 0, 0, []⟩

/-- `pop_front`, counted, when the stream is full. -/
def makeRoom (s : DiffStream V) : DiffStream V :=
  if s.entries.length = s.capacity then
    { s with entries := s.entries.drop 1, dropped := s.dropped + 1 }
  else s

/-- Adds changes: to the last entry if that is of the same generation, else as a new one, and drops
the oldest when there is no room. -/
def publish (s : DiffStream V) (generation : UInt64) (operations : List (DiffOp V)) :
    UInt64 × DiffStream V :=
  let sequence := s.nextSequence
  -- a number is taken in both cases; the counter wraps around, as a release build does
  let s := { s with nextSequence := s.nextSequence + 1 }
  match s.entries.getLast?.filter fun previous => previous.generation = generation with
  | some previous =>
      (previous.sequence,
        { s with
          entries := s.entries.dropLast ++
            [{ previous with operations := previous.operations ++ operations }] })
  | none =>
      let s := s.makeRoom
      (sequence, { s with entries := s.entries ++ [⟨sequence, generation, operations⟩] })

/-- All that waits, and how many were dropped since the last time. -/
def drainWithLoss (s : DiffStream V) : DiffBatch V × DiffStream V :=
  (⟨s.entries, s.dropped⟩, { s with entries := [], dropped := 0 })

/-- A published difference joins the last entry or is a new one, for which at most one, the oldest,
goes. -/
theorem publish_cases {s : DiffStream V} (hpos : 0 < s.capacity)
    (hbound : s.entries.length ≤ s.capacity) (generation : UInt64)
    (operations : List (DiffOp V)) :
    (∃ init previous, s.entries = init ++ [previous] ∧
      s.publish generation operations =
        (previous.sequence,
          { s with
            nextSequence := s.nextSequence + 1
            entries :=
              init ++ [{ previous with operations := previous.operations ++ operations }] })) ∨
    ∃ gone kept, s.entries = gone ++ kept ∧ gone.length ≤ 1 ∧ kept.length < s.capacity ∧
      s.publish generation operations =
        (s.nextSequence,
          { s with
            nextSequence := s.nextSequence + 1
            dropped := s.dropped + UInt64.ofNat gone.length
            entries := kept ++ [⟨s.nextSequence, generation, operations⟩] }) := by
  cases hlast : s.entries.getLast?.filter fun previous => previous.generation = generation with
  | some previous =>
      obtain ⟨hprevious, _⟩ := Option.filter_eq_some_iff.mp hlast
      obtain ⟨init, hentries⟩ := List.getLast?_eq_some_iff.mp hprevious
      refine .inl ⟨init, previous, hentries, ?_⟩
      simp only [publish, hlast]
      rw [hentries, List.dropLast_concat]
  | none =>
      right
      by_cases hfull : s.entries.length = s.capacity
      · refine ⟨s.entries.take 1, s.entries.drop 1, (List.take_append_drop 1 s.entries).symm,
          List.length_take_le 1 s.entries, ?_, ?_⟩
        · rw [List.length_drop]
          omega
        · have hone : (s.entries.take 1).length = 1 := by
            rw [List.length_take]
            omega
          simp only [publish, hlast, makeRoom, if_pos hfull, hone]
          rfl
      · refine ⟨[], s.entries, rfl, Nat.zero_le 1, by omega, ?_⟩
        simp only [publish, hlast, makeRoom, if_neg hfull]
        simp

end DiffStream

/-! ## Histories -/

/-- A call. -/
inductive Op (V : Type) where
  | publish (generation : UInt64) (operations : List (DiffOp V))
  | drainWithLoss

/-- How an entry left the queue. -/
inductive Fate where
  | delivered | dropped
  deriving DecidableEq

/-- A stream, with the returned number and the operations of every publish call, the entries that
left the queue, in that order, and the sum of the drop counts of the batches. -/
structure History (V : Type) where
  stream : DiffStream V
  published : List (UInt64 × List (DiffOp V))
  departed : List (Fate × IncrementalDiff V)
  reported : Nat

namespace History

variable {V : Type}

/-- Nothing was published. -/
def start (capacity : Nat) : History V := ⟨.bounded capacity, [], [], 0⟩

/-- The entries of a stream that are gone after a step. -/
def gone (s s' : DiffStream V) : List (IncrementalDiff V) :=
  s.entries.filter fun entry => entry.sequence ∉ s'.entries.map IncrementalDiff.sequence

/-- What was published under which number, and the entries that had to go. -/
def publish (h : History V) (generation : UInt64) (operations : List (DiffOp V)) : History V :=
  let (sequence, stream) := h.stream.publish generation operations
  { h with
    stream
    published := h.published ++ [(sequence, operations)]
    departed := h.departed ++ (gone h.stream stream).map fun entry => (.dropped, entry) }

/-- The entries that were delivered, and the losses that were told. -/
def drainWithLoss (h : History V) : History V :=
  let (batch, stream) := h.stream.drainWithLoss
  { h with
    stream
    departed := h.departed ++ batch.entries.map fun entry => (.delivered, entry)
    reported := h.reported + batch.dropped.toNat }

/-- A call, and what it adds to the history. -/
def step (h : History V) : Op V → History V
  | .publish generation operations => h.publish generation operations
  | .drainWithLoss => h.drainWithLoss

/-- The runs in which every publish satisfies a condition. -/
def machine (Publishes : History V → Prop) : Machine (History V) (Op V) where
  step := step
  Allowed h op := ∀ generation operations, op = .publish generation operations → Publishes h

/-- Fewer than 2^64 differences were published so far. -/
def InRange (h : History V) : Prop := h.published.length < 2 ^ 64

/-- All entries: those that left the queue, in that order, and those still in it. -/
def entries (h : History V) : List (IncrementalDiff V) :=
  h.departed.map Prod.snd ++ h.stream.entries

/-- The numbers of all entries. -/
def sequences (h : History V) : List UInt64 := h.entries.map IncrementalDiff.sequence

/-- The entries that left the queue in one way. -/
def left (h : History V) (fate : Fate) : List (IncrementalDiff V) :=
  (h.departed.filter fun departure => departure.1 = fate).map Prod.snd

/-- The operations of the calls that returned a number, in the order of the calls. -/
def operationsOf (sequence : UInt64) (calls : List (UInt64 × List (DiffOp V))) : List (DiffOp V) :=
  (calls.filter fun call => call.1 = sequence).flatMap Prod.snd

/-- Every call has one entry, with its operations between those of the calls before and after it;
the entries are numbered in the order in which they leave the queue. -/
structure Conserved (h : History V) : Prop where
  bounded : h.stream.entries.length ≤ h.stream.capacity
  delivered : ((h.left .delivered).map IncrementalDiff.sequence).Pairwise (· < ·)
  increasing : h.sequences.Pairwise (· < ·)
  placed : ∀ earlier call later, h.published = earlier ++ call :: later →
    ∃ entry ∈ h.entries, entry.sequence = call.1 ∧
      entry.operations = operationsOf call.1 earlier ++ call.2 ++ operationsOf call.1 later ∧
      ∀ other ∈ h.entries, other.sequence = call.1 → other = entry
  complete : ∀ entry ∈ h.entries, entry.operations = operationsOf entry.sequence h.published
  counted : (h.left .dropped).length = h.reported + h.stream.dropped.toNat
  oldest : ∀ earlier entry later, h.departed = earlier ++ (.dropped, entry) :: later →
    ∀ younger ∈ later.map Prod.snd ++ h.stream.entries, entry.sequence < younger.sequence

/-! ## The invariant -/

/-- The invariant: the entries are numbered as they were published, and each that left was delivered
or dropped and counted. -/
structure Sound (h : History V) : Prop where
  capacity_pos : 0 < h.stream.capacity
  bounded : h.stream.entries.length ≤ h.stream.capacity
  next : h.stream.nextSequence = UInt64.ofNat h.published.length
  range : h.published.length ≤ 2 ^ 64
  below : ∀ sequence ∈ h.sequences, sequence.toNat < h.published.length
  increasing : h.sequences.Pairwise (· < ·)
  known : ∀ call ∈ h.published, call.1 ∈ h.sequences
  complete : ∀ entry ∈ h.entries, entry.operations = operationsOf entry.sequence h.published
  counted : (h.left .dropped).length = h.reported + h.stream.dropped.toNat
  fewer : h.entries.length ≤ h.published.length

variable {h : History V}

/-- The operations under a number, call by call. -/
@[simp] theorem operations_of_append (sequence : UInt64)
    (calls calls' : List (UInt64 × List (DiffOp V))) :
    operationsOf sequence (calls ++ calls') =
      operationsOf sequence calls ++ operationsOf sequence calls' := by
  rw [operationsOf, List.filter_append, List.flatMap_append]
  rfl

/-- The entries that are not found again by their number are gone. -/
theorem gone_eq {s s' : DiffStream V} {old kept : List (IncrementalDiff V)}
    (hentries : s.entries = old ++ kept)
    (hold : ∀ entry ∈ old, entry.sequence ∉ s'.entries.map IncrementalDiff.sequence)
    (hkept : ∀ entry ∈ kept, entry.sequence ∈ s'.entries.map IncrementalDiff.sequence) :
    gone s s' = old := by
  rw [gone, hentries, List.filter_append, List.filter_eq_self.mpr, List.filter_eq_nil_iff.mpr,
    List.append_nil]
  · intro entry hmem
    simpa using hkept entry hmem
  · intro entry hmem
    simpa using hold entry hmem

/-- What left with a fate, batch by batch. -/
theorem left_append {departed departed' : List (Fate × IncrementalDiff V)} {stream : DiffStream V}
    {published : List (UInt64 × List (DiffOp V))} {reported : Nat} (fate : Fate) :
    left ⟨stream, published, departed ++ departed', reported⟩ fate =
      left ⟨stream, published, departed, reported⟩ fate ++
        (departed'.filter fun departure => departure.1 = fate).map Prod.snd := by
  rw [left, List.filter_append, List.map_append]
  rfl

/-- What leaves in one way is left in that way, and in no other. -/
theorem filter_map_fate (fate fate' : Fate) (entries : List (IncrementalDiff V)) :
    ((entries.map fun entry => (fate, entry)).filter fun departure => departure.1 = fate').map
      Prod.snd = if fate = fate' then entries else [] := by
  by_cases hfate : fate = fate'
  · simp [List.filter_map, Function.comp_def, hfate]
  · simp [List.filter_map, Function.comp_def, hfate]

theorem left_length_le (h : History V) (fate : Fate) :
    (h.left fate).length ≤ h.departed.length := by
  rw [left, List.length_map]
  exact List.length_filter_le _ _

/-- The operations of an entry after a call that returned a number. -/
theorem operations_of_concat (sequence sequence' : UInt64)
    (calls : List (UInt64 × List (DiffOp V))) (operations : List (DiffOp V)) :
    operationsOf sequence (calls ++ [(sequence', operations)]) =
      if sequence' = sequence then operationsOf sequence calls ++ operations
      else operationsOf sequence calls := by
  rw [operations_of_append]
  split_ifs with heq
  · simp [operationsOf, heq]
  · simp [operationsOf, heq]

/-- It holds at the start. -/
theorem sound_start (capacity : Nat) : (start capacity : History V).Sound where
  capacity_pos := Nat.lt_of_lt_of_le Nat.one_pos (Nat.le_max_right capacity 1)
  bounded := Nat.zero_le _
  next := rfl
  range := Nat.zero_le _
  below _ hmem := nomatch hmem
  increasing := .nil
  known _ hmem := nomatch hmem
  complete _ hmem := nomatch hmem
  counted := rfl
  fewer := Nat.zero_le _

/-! ## Publishing -/

section Joined

variable {generation : UInt64} {operations : List (DiffOp V)} {init : List (IncrementalDiff V)}
  {previous : IncrementalDiff V}

/-- When an entry takes more operations, no entry is gone. -/
theorem publish_joined_eq (hentries : h.stream.entries = init ++ [previous])
    (hpublish : h.stream.publish generation operations =
      (previous.sequence,
        { h.stream with
          nextSequence := h.stream.nextSequence + 1
          entries :=
            init ++ [{ previous with operations := previous.operations ++ operations }] })) :
    h.publish generation operations =
      { h with
        stream := { h.stream with
          nextSequence := h.stream.nextSequence + 1
          entries := init ++ [{ previous with operations := previous.operations ++ operations }] }
        published := h.published ++ [(previous.sequence, operations)] } := by
  have hnone : gone h.stream (h.stream.publish generation operations).2 = [] := by
    rw [hpublish]
    refine gone_eq (List.nil_append h.stream.entries).symm (fun _ hmem => nomatch hmem)
      fun entry hmem => ?_
    have hsequence := List.mem_map_of_mem (f := IncrementalDiff.sequence) hmem
    rw [hentries, List.map_append] at hsequence
    rw [List.map_append]
    exact hsequence
  rw [hpublish] at hnone
  simp only [History.publish, hpublish, hnone, List.map_nil, List.append_nil]

/-- An entry that takes more operations keeps its number and its place. -/
theorem Sound.publish_joined (hs : h.Sound) (hrange : h.InRange)
    (hentries : h.stream.entries = init ++ [previous])
    (hpublish : h.stream.publish generation operations =
      (previous.sequence,
        { h.stream with
          nextSequence := h.stream.nextSequence + 1
          entries :=
            init ++ [{ previous with operations := previous.operations ++ operations }] })) :
    (h.publish generation operations).Sound := by
  have hstep := publish_joined_eq hentries hpublish
  have hall : h.entries = h.departed.map Prod.snd ++ init ++ [previous] := by
    rw [entries, hentries, List.append_assoc]
  have hsame : (h.publish generation operations).sequences = h.sequences := by
    rw [hstep, sequences, sequences, hall]
    simp [entries]
  have hlength : (h.publish generation operations).entries.length = h.entries.length := by
    rw [← List.length_map (f := IncrementalDiff.sequence),
      ← List.length_map (f := IncrementalDiff.sequence)]
    exact congrArg List.length hsame
  have hpublished : (h.publish generation operations).published =
      h.published ++ [(previous.sequence, operations)] := by rw [hstep]
  have hcount : (h.publish generation operations).published.length = h.published.length + 1 := by
    rw [hpublished, List.length_append, List.length_singleton]
  have hlast : previous ∈ h.entries := by
    rw [hall]
    exact List.mem_append_right _ List.mem_cons_self
  constructor
  case capacity_pos => rw [hstep]; exact hs.capacity_pos
  case bounded =>
    have hbound := hs.bounded
    rw [hentries, List.length_append] at hbound
    rw [hstep, List.length_append]
    exact hbound
  case next =>
    rw [hcount, UInt64.ofNat_add, ← hs.next, hstep]
    rfl
  case range => rw [hcount]; exact hrange
  case below =>
    intro sequence hmem
    rw [hsame] at hmem
    have hlt := hs.below sequence hmem
    omega
  case increasing => rw [hsame]; exact hs.increasing
  case known =>
    intro call hmem
    rw [hsame]
    rw [hpublished, List.mem_append, List.mem_singleton] at hmem
    obtain hmem | rfl := hmem
    · exact hs.known call hmem
    · exact List.mem_map_of_mem hlast
  case complete =>
    intro entry hmem
    rw [hpublished, operations_of_concat]
    rw [hstep, entries] at hmem
    dsimp only at hmem
    rw [← List.append_assoc, List.mem_append, List.mem_singleton] at hmem
    obtain hmem | rfl := hmem
    · -- the entries before the last one have smaller numbers
      have hlt : entry.sequence < previous.sequence := by
        have hincreasing := hs.increasing
        rw [sequences, hall, List.map_append, List.pairwise_append] at hincreasing
        exact hincreasing.2.2 _ (List.mem_map_of_mem hmem) _ List.mem_cons_self
      rw [if_neg (UInt64.ne_of_lt hlt).symm]
      exact hs.complete entry (hall ▸ List.mem_append_left _ hmem)
    · rw [if_pos rfl]
      exact congrArg (· ++ operations) (hs.complete previous hlast)
  case counted => rw [hstep]; exact hs.counted
  case fewer =>
    have hfewer := hs.fewer
    omega

end Joined

/-- The next number is that of the call. -/
theorem Sound.next_to_nat (hs : h.Sound) (hrange : h.InRange) :
    h.stream.nextSequence.toNat = h.published.length := by
  rw [hs.next, UInt64.toNat_ofNat', Nat.mod_eq_of_lt hrange]

/-- The next number is above all numbers so far. -/
theorem Sound.lt_next (hs : h.Sound) (hrange : h.InRange) {sequence : UInt64}
    (hmem : sequence ∈ h.sequences) : sequence < h.stream.nextSequence := by
  rw [UInt64.lt_iff_toNat_lt, hs.next_to_nat hrange]
  exact hs.below sequence hmem

theorem Sound.operations_of_next (hs : h.Sound) (hrange : h.InRange) :
    operationsOf h.stream.nextSequence h.published = [] := by
  rw [operationsOf, List.filter_eq_nil_iff.mpr, List.flatMap_nil]
  intro call hcall
  simpa using UInt64.ne_of_lt (hs.lt_next hrange (hs.known call hcall))

section New

variable {generation : UInt64} {operations : List (DiffOp V)} {old kept : List (IncrementalDiff V)}

/-- The count of dropped entries does not wrap around before the numbers do. -/
theorem Sound.dropped_to_nat (hs : h.Sound) (hrange : h.InRange)
    (hentries : h.stream.entries = old ++ kept) :
    (h.stream.dropped + UInt64.ofNat old.length).toNat =
      h.stream.dropped.toNat + old.length := by
  have hfit : h.stream.dropped.toNat + old.length < 2 ^ 64 := by
    have hcounted := hs.counted
    have hfewer := hs.fewer
    have hleft := h.left_length_le .dropped
    rw [entries, hentries, List.length_append, List.length_append, List.length_map] at hfewer
    rw [InRange] at hrange
    omega
  rw [UInt64.toNat_add, UInt64.toNat_ofNat', Nat.add_mod_mod, Nat.mod_eq_of_lt hfit]

/-- When a new entry comes in, the old ones that make room for it are gone. -/
theorem Sound.publish_new_eq (hs : h.Sound) (hrange : h.InRange)
    (hentries : h.stream.entries = old ++ kept)
    (hpublish : h.stream.publish generation operations =
      (h.stream.nextSequence,
        { h.stream with
          nextSequence := h.stream.nextSequence + 1
          dropped := h.stream.dropped + UInt64.ofNat old.length
          entries := kept ++ [⟨h.stream.nextSequence, generation, operations⟩] })) :
    h.publish generation operations =
      { h with
        stream := { h.stream with
          nextSequence := h.stream.nextSequence + 1
          dropped := h.stream.dropped + UInt64.ofNat old.length
          entries := kept ++ [⟨h.stream.nextSequence, generation, operations⟩] }
        published := h.published ++ [(h.stream.nextSequence, operations)]
        departed := h.departed ++ old.map fun entry => (.dropped, entry) } := by
  have hall : h.entries = h.departed.map Prod.snd ++ (old ++ kept) := by rw [entries, hentries]
  have hgone : gone h.stream (h.stream.publish generation operations).2 = old := by
    rw [hpublish]
    refine gone_eq hentries (fun entry hmem => ?_) fun entry hmem => ?_
    · rw [List.map_append, List.mem_append, List.map_singleton, List.mem_singleton, not_or]
      have hmem' := List.mem_map_of_mem (f := IncrementalDiff.sequence) hmem
      constructor
      · intro hagain
        have hincreasing := hs.increasing
        rw [sequences, hall, List.map_append, List.map_append, List.pairwise_append] at hincreasing
        exact UInt64.lt_irrefl _
          ((List.pairwise_append.mp hincreasing.2.1).2.2 _ hmem' _ hagain)
      · refine UInt64.ne_of_lt (hs.lt_next hrange (List.mem_map_of_mem ?_))
        rw [hall]
        exact List.mem_append_right _ (List.mem_append_left _ hmem)
    · rw [List.map_append]
      exact List.mem_append_left _ (List.mem_map_of_mem hmem)
  rw [hpublish] at hgone
  simp only [History.publish, hpublish, hgone]

/-- A new entry has a number of its own, and only the oldest entry can go. -/
theorem Sound.publish_new (hs : h.Sound) (hrange : h.InRange)
    (hentries : h.stream.entries = old ++ kept) (hkept : kept.length < h.stream.capacity)
    (hpublish : h.stream.publish generation operations =
      (h.stream.nextSequence,
        { h.stream with
          nextSequence := h.stream.nextSequence + 1
          dropped := h.stream.dropped + UInt64.ofNat old.length
          entries := kept ++ [⟨h.stream.nextSequence, generation, operations⟩] })) :
    (h.publish generation operations).Sound := by
  have hstep := hs.publish_new_eq hrange hentries hpublish
  have hpublished : (h.publish generation operations).published =
      h.published ++ [(h.stream.nextSequence, operations)] := by rw [hstep]
  have hcount : (h.publish generation operations).published.length = h.published.length + 1 := by
    rw [hpublished, List.length_append, List.length_singleton]
  have hall : (h.publish generation operations).entries =
      h.entries ++ [⟨h.stream.nextSequence, generation, operations⟩] := by
    rw [hstep, entries, entries, hentries]
    simp [Function.comp_def]
  have hsequences : (h.publish generation operations).sequences =
      h.sequences ++ [h.stream.nextSequence] := by
    rw [sequences, hall, List.map_append]
    rfl
  constructor
  case capacity_pos => rw [hstep]; exact hs.capacity_pos
  case bounded =>
    rw [hstep, List.length_append]
    exact hkept
  case next =>
    rw [hcount, UInt64.ofNat_add, ← hs.next, hstep]
    rfl
  case range => rw [hcount]; exact hrange
  case below =>
    intro sequence hmem
    rw [hsequences, List.mem_append, List.mem_singleton] at hmem
    obtain hmem | rfl := hmem
    · have hlt := hs.below sequence hmem
      omega
    · rw [hs.next_to_nat hrange]
      omega
  case increasing =>
    rw [hsequences, List.pairwise_append]
    refine ⟨hs.increasing, List.pairwise_singleton _ _, fun sequence hmem sequence' hmem' => ?_⟩
    rw [List.mem_singleton.mp hmem']
    exact hs.lt_next hrange hmem
  case known =>
    intro call hmem
    rw [hsequences, List.mem_append, List.mem_singleton]
    rw [hpublished, List.mem_append, List.mem_singleton] at hmem
    obtain hmem | rfl := hmem
    · exact .inl (hs.known call hmem)
    · exact .inr rfl
  case complete =>
    intro entry hmem
    rw [hpublished, operations_of_concat]
    rw [hall, List.mem_append, List.mem_singleton] at hmem
    obtain hmem | rfl := hmem
    · rw [if_neg (UInt64.ne_of_lt (hs.lt_next hrange (List.mem_map_of_mem hmem))).symm]
      exact hs.complete entry hmem
    · rw [if_pos rfl, hs.operations_of_next hrange, List.nil_append]
  case counted =>
    rw [hstep, left_append, filter_map_fate, if_pos rfl, List.length_append]
    dsimp only
    rw [hs.dropped_to_nat hrange hentries]
    exact (congrArg (· + old.length) hs.counted).trans (Nat.add_assoc _ _ _)
  case fewer =>
    rw [hall, hcount, List.length_append, List.length_singleton]
    exact Nat.succ_le_succ hs.fewer

end New

theorem Sound.publish (hs : h.Sound) (hrange : h.InRange) (generation : UInt64)
    (operations : List (DiffOp V)) : (h.publish generation operations).Sound := by
  obtain ⟨init, previous, hentries, hpublish⟩ | ⟨old, kept, hentries, -, hkept, hpublish⟩ :=
    DiffStream.publish_cases hs.capacity_pos hs.bounded generation operations
  · exact hs.publish_joined hrange hentries hpublish
  · exact hs.publish_new hrange hentries hkept hpublish

/-- A drain keeps the invariant. -/
theorem Sound.drainWithLoss (hs : h.Sound) : h.drainWithLoss.Sound := by
  have hall : h.drainWithLoss.entries = h.entries := by
    simp [History.drainWithLoss, DiffStream.drainWithLoss, entries, Function.comp_def]
  have hsequences : h.drainWithLoss.sequences = h.sequences := by rw [sequences, hall, sequences]
  constructor
  case capacity_pos => exact hs.capacity_pos
  case bounded => exact Nat.zero_le _
  case next => exact hs.next
  case range => exact hs.range
  case below => rw [hsequences]; exact hs.below
  case increasing => rw [hsequences]; exact hs.increasing
  case known => rw [hsequences]; exact hs.known
  case complete => rw [hall]; exact hs.complete
  case counted =>
    rw [History.drainWithLoss, DiffStream.drainWithLoss, left_append, filter_map_fate,
      if_neg (fun hfate => nomatch hfate), List.append_nil]
    exact hs.counted
  case fewer => rw [hall]; exact hs.fewer

theorem Sound.step (hs : h.Sound) {op : Op V} (hallowed : (machine InRange).Allowed h op) :
    (h.step op).Sound := by
  cases op with
  | publish generation operations =>
      exact hs.publish (hallowed generation operations rfl) generation operations
  | drainWithLoss => exact hs.drainWithLoss

/-! ## Conservation -/

/-- The invariant has every entry once: waiting, delivered or dropped. -/
theorem Sound.conserved (hs : h.Sound) : h.Conserved := by
  have hincreasing : (h.departed.map Prod.snd ++ h.stream.entries).Pairwise
      fun entry entry' => entry.sequence < entry'.sequence :=
    List.pairwise_map.mp hs.increasing
  constructor
  case bounded => exact hs.bounded
  case delivered =>
    refine List.pairwise_map.mpr ?_
    refine (List.pairwise_append.mp hincreasing).1.sublist ?_
    exact List.filter_sublist.map Prod.snd
  case increasing => exact hs.increasing
  case placed =>
    intro earlier call later hpublished
    have hcall : call ∈ h.published := by
      rw [hpublished]
      exact List.mem_append_right _ List.mem_cons_self
    obtain ⟨entry, hentry, hsequence⟩ := List.mem_map.mp (hs.known call hcall)
    refine ⟨entry, hentry, hsequence, ?_, fun other hother heq => ?_⟩
    · have hsplit : h.published = earlier ++ [call] ++ later := by
        rw [hpublished, List.append_assoc, List.singleton_append]
      rw [hs.complete entry hentry, hsequence, hsplit, operations_of_append, operations_of_concat,
        if_pos rfl]
    · have hdistinct : h.sequences.Nodup := hs.increasing.imp UInt64.ne_of_lt
      exact List.inj_on_of_nodup_map hdistinct hother hentry (heq.trans hsequence.symm)
  case complete => exact hs.complete
  case counted => exact hs.counted
  case oldest =>
    intro earlier entry later hdeparted younger hyounger
    rw [hdeparted, List.map_append, List.map_cons, List.append_assoc, List.cons_append,
      List.pairwise_append] at hincreasing
    exact List.rel_of_pairwise_cons hincreasing.2.1 hyounger

/-- In every run that publishes at most 2^64 differences, every operation is in the entry of its
call, and every entry is delivered, still queued, or counted as dropped. -/
theorem reaches_conserved {capacity : Nat}
    (hrun : (machine InRange).Reaches (start capacity : History V) h) : h.Conserved := by
  have hs : h.Sound := hrun.invariant (sound_start capacity) fun _ _ hs hallowed => hs.step hallowed
  exact hs.conserved

/-- The last entry takes an operation, and is dropped for a difference of another generation. -/
def coalescing : List (Op Text) :=
  [.publish 7 [], .publish 7 [.add "/x" "null"], .publish 8 [], .drainWithLoss]

theorem coalescing_conserved : ((machine InRange).run (start 1) coalescing).Conserved :=
  reaches_conserved (Machine.Reaches.run .refl
    ⟨fun _ _ _ => show 0 < 2 ^ 64 by decide, fun _ _ _ => show 1 < 2 ^ 64 by decide,
      fun _ _ _ => show 2 < 2 ^ 64 by decide, fun _ _ hop => (nomatch hop), trivial⟩)

/-! ## A counter that wraps around -/

/-- The first entries, when every difference is drained before the next is published. -/
def firstEntries (n : Nat) : List (IncrementalDiff Text) :=
  (List.range n).map fun i => ⟨UInt64.ofNat i, 0, []⟩

/-- So many entries published and drained one by one. -/
def drained (n : Nat) : History Text :=
  ⟨⟨1, UInt64.ofNat n, 0, []⟩, (firstEntries n).map fun entry => (entry.sequence, []),
    (firstEntries n).map fun entry => (.delivered, entry), 0⟩

/-- A run gets there. -/
theorem drained_reached (n : Nat) : (machine fun _ => True).Reaches (start 1) (drained n) := by
  induction n with
  | zero => exact .refl
  | succ n ih =>
      have hround := (ih.step (.publish 0 []) fun _ _ _ => trivial).step .drainWithLoss
        fun _ _ _ => trivial
      change (machine fun _ => True).Reaches (start 1)
        ⟨⟨1, UInt64.ofNat n + 1, 0, []⟩, (drained n).published ++ [(UInt64.ofNat n, [])],
          (drained n).departed ++ [] ++ [(.delivered, ⟨UInt64.ofNat n, 0, []⟩)], 0⟩ at hround
      have hentries : firstEntries (n + 1) = firstEntries n ++ [⟨UInt64.ofNat n, 0, []⟩] := by
        rw [firstEntries, List.range_succ, List.map_append]
        rfl
      rw [List.append_nil] at hround
      rw [drained, hentries, UInt64.ofNat_add, List.map_append, List.map_append]
      exact hround

/-- The numbers of the first entries. -/
theorem Conserved.drained_lt {n first second : Nat} (hc : (drained n).Conserved)
    (hlt : first < second) (hn : second < n) : UInt64.ofNat first < UInt64.ofNat second := by
  have hincreasing := hc.delivered
  rw [left, drained, filter_map_fate, if_pos rfl, firstEntries, List.map_map, List.pairwise_map,
    List.pairwise_iff_getElem] at hincreasing
  have hpair := hincreasing first second (by simpa using hlt.trans hn) (by simpa using hn) hlt
  simpa using hpair

/-- After 2^64 differences the numbers begin again. -/
theorem not_conserved_always :
    ¬ ∀ (capacity : Nat) (h : History Text),
      (machine fun _ => True).Reaches (start capacity) h → h.Conserved := by
  intro hall
  have hlt := (hall 1 _ (drained_reached (2 ^ 64 + 1))).drained_lt
    (show 0 < 2 ^ 64 by omega) (by omega)
  exact absurd hlt (by decide)

end History

end BrowsAI.Diff
