import BrowsAI.DomObserver.Removal

/-!
# References to nodes

`reference` and `resolve` of `RawDocument`. A call that fails leaves the document as it was and one
that succeeds moves the generation on by one, `Returns.cases`, so a reference resolves exactly until
the next success, `reference_resolves_iff`.
-/

namespace BrowsAI.DomObserver

/-- A node as it was in one generation. -/
structure NodeReference where
  node : EngineNodeId
  generation : UInt64
  deriving DecidableEq

namespace RawDocument

variable (doc : RawDocument)

/-- A reference to a node that is there. -/
def reference (node : EngineNodeId) : Option NodeReference :=
  (doc.node node).map fun _ => ⟨node, doc.generation⟩

/-- The node of a reference, if the document is still of its generation. -/
def resolve (reference : NodeReference) : Except DomObserverError RawNode :=
  if reference.generation ≠ doc.generation then .error .staleReference
  else
    match doc.node reference.node with
    | some node => .ok node
    | none => .error (.missingNode reference.node)

end RawDocument

/-- Calls lead from one document to another, with these results. -/
inductive Trace : RawDocument → List (Except DomObserverError Unit) → RawDocument → Prop where
  | nil (doc : RawDocument) : Trace doc [] doc
  | cons {doc last : RawDocument} {call : Call} {outcome : Outcome}
      {results : List (Except DomObserverError Unit)} (hreturns : Returns doc call outcome)
      (hrest : Trace outcome.2 results last) : Trace doc (outcome.1 :: results) last

/-! ## One call -/

/-- The outcome of a call that failed, or that succeeded and moved the generation on. -/
inductive Moves (doc : RawDocument) : Outcome → Prop where
  | error (e : DomObserverError) : Moves doc (.error e, doc)
  | ok {doc' : RawDocument} (hgeneration : doc'.generation = doc.generation + 1) :
      Moves doc (.ok (), doc')

variable {doc : RawDocument}

/-- An insert is a generation ahead if it succeeds. -/
theorem moves_insert (doc : RawDocument) (node : RawNode) : Moves doc (doc.insert node) := by
  unfold RawDocument.insert
  cases doc.nodes.contains node.id with
  | true => exact .error _
  | false =>
      cases node.parent with
      | some parent =>
          dsimp only
          cases doc.nodes.contains parent with
          | true => exact .ok rfl
          | false => exact .error _
      | none =>
          cases doc.root.isSome with
          | true => exact .error _
          | false => exact .ok rfl

theorem moves_update (doc : RawDocument) (node : EngineNodeId) (change : RawNode → RawNode) :
    Moves doc (doc.update node change) := by
  unfold RawDocument.update
  split_ifs
  · exact .ok rfl
  · exact .error _

/-- So is a removal. -/
theorem moves_remove {depth : Nat} {node : EngineNodeId} {outcome : Outcome}
    (h : doc.remove depth node = some outcome) : Moves doc outcome := by
  unfold RawDocument.remove at h
  cases hnode : doc.node node with
  | none =>
      rw [hnode] at h
      obtain rfl := Option.some.inj h
      exact .error _
  | some removed =>
      rw [hnode] at h
      obtain ⟨ids, _, houtcome⟩ := Option.bind_eq_some_iff.mp h
      obtain rfl := Option.some.inj houtcome
      exact .ok rfl

/-- Every mutation either fails before it writes or ends with one move of the generation. -/
theorem moves_apply {depth : Nat} {mutation : DomMutation} {outcome : Outcome}
    (h : doc.apply depth mutation = some outcome) : Moves doc outcome := by
  unfold RawDocument.apply at h
  split_ifs at h
  · obtain rfl := Option.some.inj h
    exact .error _
  · cases mutation with
    | insert node =>
        obtain rfl := Option.some.inj h
        exact moves_insert doc node
    | remove node => exact moves_remove h
    | setAttribute node | removeAttribute node | setText node | addEventListener node
    | removeEventListener node =>
        obtain rfl := Option.some.inj h
        exact moves_update doc node _

theorem Returns.moves {call : Call} {outcome : Outcome} (h : Returns doc call outcome) :
    Moves doc outcome := by
  cases h with
  | apply depth happly => exact moves_apply happly
  | advanceLifecycle lifecycle => exact .ok rfl
  | beginNavigation url => exact .ok rfl

/-! ## Runs -/

/-- The number of calls that succeeded. -/
def successes (results : List (Except DomObserverError Unit)) : Nat :=
  results.countP Except.isOk

/-- A run moves the generation on by one for each success. -/
theorem Trace.generation {results : List (Except DomObserverError Unit)} {last : RawDocument}
    (h : Trace doc results last) :
    last.generation.toNat = (doc.generation.toNat + successes results) % 2 ^ 64 := by
  induction h with
  | nil doc => exact (Nat.mod_eq_of_lt doc.generation.toNat_lt).symm
  | @cons doc last call outcome results hreturns _ ih =>
      rw [ih]
      cases hreturns.moves with
      | error e => rfl
      | @ok doc' hgeneration =>
          have hnext : doc'.generation.toNat = (doc.generation.toNat + 1) % 2 ^ 64 := by
            rw [hgeneration, UInt64.toNat_add]
            rfl
          have hcount : successes (.ok () :: results) = successes results + 1 :=
            List.countP_cons_of_pos rfl
          rw [hcount]
          show (doc'.generation.toNat + successes results) % 2 ^ 64 = _
          omega

/-- Without a success the document is as it was. -/
theorem Trace.eq_of_failures {results : List (Except DomObserverError Unit)} {last : RawDocument}
    (h : Trace doc results last) (hfail : successes results = 0) : last = doc := by
  induction h with
  | nil doc => rfl
  | @cons doc last call outcome results hreturns _ ih =>
      cases hreturns.moves with
      | error e => exact ih hfail
      | ok hgeneration =>
          have hcount : successes (.ok () :: results) = successes results + 1 :=
            List.countP_cons_of_pos rfl
          have hzero : successes (.ok () :: results) = 0 := hfail
          omega

theorem successes_eq_zero_iff {results : List (Except DomObserverError Unit)} :
    successes results = 0 ↔ ∀ result ∈ results, result ≠ .ok () := by
  rw [successes, List.countP_eq_zero]
  refine forall₂_congr fun result _ => ?_
  cases result with
  | error e => exact iff_of_true (fun h => by cases h) fun h => by cases h
  | ok u => exact iff_of_false (fun h => h rfl) fun h => h rfl

theorem resolve_of_reference {node : EngineNodeId} {reference : NodeReference}
    (h : doc.reference node = some reference) :
    reference.generation = doc.generation ∧ ∃ raw, doc.resolve reference = .ok raw := by
  obtain ⟨raw, hraw, rfl⟩ := Option.map_eq_some_iff.mp h
  refine ⟨rfl, raw, ?_⟩
  rw [RawDocument.resolve, if_neg (fun hne => hne rfl), hraw]

/-- A call that fails leaves the document as it was, and a reference resolves exactly until the
first call after it that succeeds. -/
theorem reference_resolves_iff :
    (∀ (doc : RawDocument) (mutation : DomMutation) (outcome : Outcome) (e : DomObserverError),
      Returns doc (.apply mutation) outcome → outcome.1 = .error e → outcome.2 = doc) ∧
    ∀ (doc last : RawDocument) (node : EngineNodeId) (reference : NodeReference)
      (results : List (Except DomObserverError Unit)),
      doc.reference node = some reference → Trace doc results last →
        doc.generation.toNat + successes results < 2 ^ 64 →
          ((∃ raw, last.resolve reference = .ok raw) ↔
            ∀ result ∈ results, result ≠ .ok ()) := by
  refine ⟨fun doc mutation outcome e hreturns herror => ?_,
    fun doc last node reference results href htrace hwrap => ?_⟩
  · cases hreturns.moves with
    | error e => rfl
    | ok hgeneration => cases herror
  · obtain ⟨hgeneration, hresolves⟩ := resolve_of_reference href
    rw [← successes_eq_zero_iff]
    by_cases hfail : successes results = 0
    · rw [htrace.eq_of_failures hfail]
      exact iff_of_true hresolves hfail
    · refine iff_of_false ?_ hfail
      rintro ⟨raw, hraw⟩
      -- the generation has moved on, and has not come round to the old one
      have hmoved : reference.generation ≠ last.generation := by
        rw [hgeneration]
        intro hsame
        have hafter := htrace.generation
        rw [← hsame, Nat.mod_eq_of_lt hwrap] at hafter
        omega
      rw [RawDocument.resolve, if_pos hmoved] at hraw
      cases hraw

/-- The page after its button got a text. -/
def labelledPage : RawDocument :=
  (buttonPage.update 2 fun node => { node with text := some "Save" }).2

theorem labelled_page_trace :
    Trace buttonPage [.error (.missingNode 3), .ok ()] labelledPage := by
  have hfails : Returns buttonPage (.apply (.remove 3)) (.error (.missingNode 3), buttonPage) :=
    .apply 0 rfl
  have hlabels : Returns buttonPage (.apply (.setText 2 "Save")) (.ok (), labelledPage) :=
    .apply 0 rfl
  exact .cons hfails (.cons hlabels (.nil labelledPage))

/-- A reference that a later change outdates. -/
theorem button_reference_stale :
    (∃ raw, labelledPage.resolve ⟨2, 2⟩ = .ok raw) ↔
      ∀ result ∈ ([.error (.missingNode 3), .ok ()] : List (Except DomObserverError Unit)),
        result ≠ .ok () :=
  reference_resolves_iff.2 buttonPage labelledPage 2 ⟨2, 2⟩ [.error (.missingNode 3), .ok ()] rfl
    labelled_page_trace (by decide)

end BrowsAI.DomObserver
