import BrowsAI.Audit.Journal
import Mathlib.Data.List.DropRight

/-!
# What a journal retains

A journal is an append-only list of which only the end is kept: `appended` are the entries of a run
and `kept` is how many of them are left. Every call keeps the chain intact, so the journal of every
run verifies, and holds the last entries.
-/

namespace BrowsAI.Audit

open Utf8
open Recovery (Bytes)

namespace AuditJournal

variable {F : Type} [FloatText F] {hash : Bytes → UInt64} {j : AuditJournal F}
  {records : List (AuditRecord F)} {previous : UInt64}

/-! ## Verification -/

/-- The chain of the records. -/
def chain (hash : Bytes → UInt64) : HashChain (AuditRecord F) Bytes UInt64 where
  content := tuple
  hash := hash
  digest := AuditRecord.integrity
  previous := AuditRecord.previousIntegrity

/-- The loop accepts a chain whose records have consecutive numbers. -/
theorem verify_iff (previous : UInt64) (expected : Nat) (records : List (AuditRecord F)) :
    verify hash previous expected records = true ↔ (chain hash).Chained previous records ∧
      ∀ i record, records[i]? = some record → record.sequence = UInt64.ofNat (expected + i) := by
  induction records generalizing previous expected with
  | nil =>
      refine iff_of_true rfl ⟨trivial, fun i record hget => ?_⟩
      cases hget
  | cons record records ih =>
      rw [verify, HashChain.Chained]
      by_cases hbad : record.sequence ≠ UInt64.ofNat expected ∨
          record.previousIntegrity ≠ previous ∨ integrity hash record ≠ record.integrity
      · rw [if_pos hbad]
        refine iff_of_false Bool.false_ne_true ?_
        rintro ⟨⟨hprevious, hintegrity, _⟩, hsequence⟩
        rcases hbad with hbad | hbad | hbad
        · exact hbad (hsequence 0 record rfl)
        · exact hbad hprevious
        · exact hbad hintegrity
      · rw [if_neg hbad, ih]
        simp only [not_or, not_not] at hbad
        obtain ⟨hsequence, hprevious, hintegrity⟩ := hbad
        constructor
        · rintro ⟨hchained, hrest⟩
          refine ⟨⟨hprevious, hintegrity, hchained⟩, fun i other hget => ?_⟩
          cases i with
          | zero =>
              obtain rfl := Option.some.inj hget
              exact hsequence
          | succ i =>
              rw [hrest i other hget]
              congr 1
              omega
        · rintro ⟨⟨_, _, hchained⟩, hall⟩
          refine ⟨hchained, fun i other hget => ?_⟩
          rw [hall (i + 1) other hget]
          congr 1
          omega

theorem verify_integrity_iff : j.verifyIntegrity hash = true ↔
    verify hash 0 0 j.records = true ∧ j.nextSequence = UInt64.ofNat j.records.length := by
  rw [verifyIntegrity, Bool.and_eq_true, decide_eq_true_iff]

/-! ## The calls -/

/-- A record that is appended is sealed, linked and numbered. -/
theorem verify_append (h : j.verifyIntegrity hash = true) (auditId : Text) (event : AuditEvent F) :
    (j.append hash auditId event).verifyIntegrity hash = true := by
  obtain ⟨hverify, hnext⟩ := verify_integrity_iff.mp h
  obtain ⟨hchained, hsequence⟩ := (verify_iff 0 0 j.records).mp hverify
  refine verify_integrity_iff.mpr ⟨(verify_iff 0 0 _).mpr ⟨?_, fun i record hget => ?_⟩, ?_⟩
  · exact HashChain.chained_append.mpr ⟨hchained, rfl, rfl, trivial⟩
  · rw [append, List.getElem?_append] at hget
    split_ifs at hget with hi
    · exact hsequence i record hget
    · have hzero : i - j.records.length = 0 := by
        have hlt := (List.getElem?_eq_some_iff.mp hget).1
        rw [List.length_singleton] at hlt
        omega
      rw [hzero] at hget
      obtain rfl := Option.some.inj hget
      show j.nextSequence = UInt64.ofNat (0 + i)
      rw [hnext]
      congr 1
      omega
  · show j.nextSequence + 1 = UInt64.ofNat (j.records ++ [_]).length
    rw [hnext, List.length_append, UInt64.ofNat_add]
    rfl

theorem verify_relink (previous : UInt64) (sequence : Nat) (records : List (AuditRecord F)) :
    verify hash previous sequence (relink hash previous sequence records) = true := by
  induction records generalizing previous sequence with
  | nil => rfl
  | cons record records ih =>
      rw [relink, verify]
      refine (if_neg fun hbad => ?_).trans (ih _ _)
      rcases hbad with hbad | hbad | hbad <;> exact hbad rfl

theorem entries_relink (previous : UInt64) (sequence : Nat) (records : List (AuditRecord F)) :
    (relink hash previous sequence records).map (fun record => (record.auditId, record.event)) =
      records.map fun record => (record.auditId, record.event) := by
  induction records generalizing previous sequence with
  | nil => rfl
  | cons record records ih => rw [relink, List.map_cons, List.map_cons, ih]

theorem verify_retain_last (h : j.verifyIntegrity hash = true) (maxRecords : Nat) :
    (j.retainLast hash maxRecords).2.verifyIntegrity hash = true := by
  rw [retainLast]
  dsimp only
  split_ifs
  · exact h
  · exact verify_integrity_iff.mpr ⟨verify_relink _ _ _, rfl⟩

theorem entries_retain_last (j : AuditJournal F) (maxRecords : Nat) :
    (j.retainLast hash maxRecords).2.entries = j.entries.rtake maxRecords := by
  rw [List.rtake, retainLast]
  dsimp only
  split_ifs with hremoved
  · rw [entries, List.length_map, hremoved, List.drop_zero]
  · rw [entries, entries, entries_relink, List.length_map, List.map_drop]

/-- Loading a verified journal from its text gives it back, if its confidences are finite. -/
theorem from_json_of_verified {json : Json F} (h : j.verifyIntegrity hash = true)
    (hread : j.ReadBy json) :
    fromJson hash json j.toJson = if j.isFinite then .ok j else .error .serialization := by
  rw [fromJson, hread]
  split_ifs with hfinite
  · dsimp only
    rw [h, Bool.not_true, if_neg Bool.false_ne_true]
  · rfl

/-! ## Runs -/

/-- The entries that a run appends. -/
def appended : List (Op F) → List (Text × AuditEvent F) :=
  List.filterMap fun op => match op with
    | .append auditId event => some (auditId, event)
    | _ => none

/-- How many entries are left, of `k` before. -/
def keptFrom (k : Nat) : List (Op F) → Nat
  | [] => k
  | .append _ _ :: ops => keptFrom (k + 1) ops
  | .retainLast maxRecords :: ops => keptFrom (min maxRecords k) ops
  | .reload :: ops => keptFrom k ops

/-- How many entries a run leaves. -/
def kept (ops : List (Op F)) : Nat := keptFrom 0 ops

theorem rtake_rtake {α : Type} (l : List α) (m n : Nat) :
    (l.rtake n).rtake m = l.rtake (min m n) := by
  rw [List.rtake_eq_reverse_take_reverse, List.rtake_eq_reverse_take_reverse,
    List.rtake_eq_reverse_take_reverse, List.reverse_reverse, List.take_take]

/-- A run goes on from the last of some entries. -/
theorem run_from {json : Json F} {ops : List (Op F)} {before : List (Text × AuditEvent F)} {k : Nat}
    (hverified : j.verifyIntegrity hash = true) (hentries : j.entries = before.rtake k)
    (hallowed : (machine hash json).AllowedRun j ops) :
    ((machine hash json).run j ops).verifyIntegrity hash = true ∧
      ((machine hash json).run j ops).entries =
        (before ++ appended ops).rtake (keptFrom k ops) := by
  induction ops generalizing j before k with
  | nil =>
      refine ⟨hverified, ?_⟩
      show j.entries = (before ++ []).rtake k
      rw [List.append_nil, hentries]
  | cons op ops ih =>
      cases op with
      | append auditId event =>
          have hstep : (j.append hash auditId event).entries =
              (before ++ [(auditId, event)]).rtake (k + 1) := by
            rw [List.rtake_concat_succ, ← hentries]
            exact List.map_append
          have hrest := ih (verify_append hverified auditId event) hstep hallowed.2
          rw [List.append_assoc] at hrest
          exact hrest
      | retainLast maxRecords =>
          have hstep : (j.retainLast hash maxRecords).2.entries =
              before.rtake (min maxRecords k) := by
            rw [entries_retain_last, hentries, rtake_rtake]
          exact ih (verify_retain_last hverified maxRecords) hstep hallowed.2
      | reload =>
          have hsame : perform hash json j .reload = j := by
            rw [perform, from_json_of_verified hverified hallowed.1]
            split_ifs <;> rfl
          have hallowed' : (machine hash json).AllowedRun (perform hash json j .reload) ops :=
            hallowed.2
          rw [hsame] at hallowed'
          show ((machine hash json).run (perform hash json j .reload) ops).verifyIntegrity hash =
              true ∧ ((machine hash json).run (perform hash json j .reload) ops).entries = _
          rw [hsame]
          exact ih hverified hentries hallowed'

/-- The journal of a run verifies and replays, and holds the last of the appended entries, as many as
the run has kept. It loads again from its text exactly if all its confidences are finite. -/
theorem run_retains (hash : Bytes → UInt64) (json : Json F) (ops : List (Op F))
    (hallowed : (machine hash json).AllowedRun empty ops) :
    ((machine hash json).run empty ops).verifyIntegrity hash = true ∧
      ((machine hash json).run empty ops).entries = (appended ops).rtake (kept ops) ∧
      (∀ (σ : Type) (receive : σ → AuditRecord F → σ) (s : σ),
        ((machine hash json).run empty ops).replay hash receive s =
          (.ok (), ((machine hash json).run empty ops).records.foldl receive s)) ∧
      (((machine hash json).run empty ops).ReadBy json →
        fromJson hash json ((machine hash json).run empty ops).toJson =
          if ((machine hash json).run empty ops).isFinite then
            .ok ((machine hash json).run empty ops)
          else .error .serialization) := by
  have hempty : (empty : AuditJournal F).entries = List.rtake [] 0 := rfl
  obtain ⟨hverified, hentries⟩ := run_from rfl hempty hallowed
  refine ⟨hverified, hentries, fun σ receive s => ?_, from_json_of_verified hverified⟩
  rw [replay, hverified, Bool.not_true, if_neg Bool.false_ne_true]

/-! ## A journal -/

/-- A confidence in tenths, or none that is a number. -/
inductive Tenths where
  | of (count : Fin 11)
  | nan
  deriving DecidableEq

instance : FloatText Tenths where
  toText
    | .of count => some (ofNat (count / 10) ++ '.' :: ofNat (count % 10))
    | .nan => none

/-- A journal with two records. -/
def visits : AuditJournal Tenths :=
  (empty.append Recovery.defaultHash "audit-1" (.navigation "https://a.example/")).append
    Recovery.defaultHash "audit-2" (.recovery "session" "ok")

/-- A reader of the text of one journal, in which it wants all numbers. -/
def readerOf (value : AuditJournal Tenths) : Json Tenths where
  fromStr text := if text = value.toJson ∧ value.isFinite then some value else none

theorem read_by_reader_of (value : AuditJournal Tenths) : value.ReadBy (readerOf value) := by
  rw [ReadBy, readerOf]
  simp only [true_and]

/-- Two records, saved and loaded, a third one, and the last two of them. -/
def visitOps : List (Op Tenths) :=
  [.append "audit-1" (.navigation "https://a.example/"),
    .append "audit-2" (.recovery "session" "ok"), .reload,
    .append "audit-3" (.navigation "https://b.example/"), .retainLast 2]

/-- The journal of two visits, with the last two of its entries kept. -/
theorem visits_retained :
    ((machine Recovery.defaultHash (readerOf visits)).run empty visitOps).entries =
      ([("audit-2", .recovery "session" "ok"), ("audit-3", .navigation "https://b.example/")] :
        List (Text × AuditEvent Tenths)) := by
  have hallowed : (machine Recovery.defaultHash (readerOf visits)).AllowedRun empty visitOps :=
    ⟨trivial, trivial, read_by_reader_of visits, trivial, trivial, trivial⟩
  exact (run_retains Recovery.defaultHash (readerOf visits) visitOps hallowed).2.1

/-- A click whose classification has no number for its confidence. -/
def unsureClick : AuditEvent Tenths :=
  .action
    ⟨"action-1", "click", "button-1", none, 3, .read, .localReversible, .allow, none, none, none,
      none⟩
    ⟨.read, .localReversible, .allow, "read-only", .nan⟩ [] 3

/-- A journal with this click verifies, and is not loaded from its own text. -/
theorem unsure_not_loaded :
    let json := readerOf (empty.append Recovery.defaultHash "audit-1" unsureClick)
    let journal := (machine Recovery.defaultHash json).run empty [.append "audit-1" unsureClick]
    (machine Recovery.defaultHash json).AllowedRun empty [.append "audit-1" unsureClick] ∧
      journal.ReadBy json ∧ journal.verifyIntegrity Recovery.defaultHash = true ∧
      fromJson Recovery.defaultHash json journal.toJson = .error .serialization := by
  intro json journal
  have hverified : journal.verifyIntegrity Recovery.defaultHash = true := verify_append rfl _ _
  have hread : journal.ReadBy json := read_by_reader_of _
  refine ⟨⟨trivial, trivial⟩, hread, hverified, ?_⟩
  exact (from_json_of_verified hverified hread).trans (if_neg (by decide))

end AuditJournal

end BrowsAI.Audit

/-!
## What the last integrity value commits to

The text that is hashed for a record ends with the integrity value of the record before. The journal
is therefore a hash chain whose contents determine the links, and the last value commits to the
contents of all records.
-/

namespace BrowsAI.Audit

open Utf8
open Recovery (Bytes)
open JsonPrint (quote object array)

theorem bytes_injective {t t' : Text} (h : Recovery.Codec.bytes t = Recovery.Codec.bytes t') :
    t = t' := by
  have hencoded : t.utf8Encode = t'.utf8Encode := congrArg List.toByteArray h
  have hdecoded := congrArg ByteArray.utf8Decode? hencoded
  rw [List.utf8Decode?_utf8Encode, List.utf8Decode?_utf8Encode, Option.some.injEq] at hdecoded
  exact congrArg Array.toList hdecoded

variable {F : Type} [FloatText F]

/-- The hashed text determines the integrity value of the record before. -/
theorem previous_of_tuple {a b : AuditRecord F} (h : tuple a = tuple b) :
    a.previousIntegrity = b.previousIntegrity := by
  have htext : ∀ r : AuditRecord F, ∃ front, array [ofNat r.sequence.toNat, quote r.auditId,
      Json.event r.event, ofNat r.previousIntegrity.toNat] =
        front ++ ',' :: (ofNat r.previousIntegrity.toNat ++ [']']) := by
    intro r
    refine ⟨'[' :: (ofNat r.sequence.toNat ++ ',' :: (quote r.auditId ++ ',' ::
      Json.event r.event)), ?_⟩
    simp [array, List.intercalate, List.intersperse]
  have hcomma : ∀ n, ',' ∉ ofNat n ++ [']'] := by
    intro n hmem
    rcases List.mem_append.mp hmem with hdigit | hbracket
    · exact not_mem_of_nat (by decide) n hdigit
    · exact absurd hbracket (by decide)
  obtain ⟨front, hfront⟩ := htext a
  obtain ⟨front', hfront'⟩ := htext b
  have heq := bytes_injective h
  rw [hfront, hfront'] at heq
  have hback := append_cons_inj_right (hcomma _) (hcomma _) heq
  exact UInt64.toNat_inj.mp (of_nat_inj (List.append_cancel_right hback.2))

namespace AuditJournal

/-- The byte strings that are hashed in a journal. -/
def hashed (j : AuditJournal F) : List Bytes := j.records.map tuple

/-- Two verified journals of one length that end in one integrity value hash the same bytes at every
position, or two of the byte strings they hash collide. -/
theorem verified_commits (hash : Bytes → UInt64) (j j' : AuditJournal F)
    (hj : j.verifyIntegrity hash = true) (hj' : j'.verifyIntegrity hash = true)
    (hlength : j.records.length = j'.records.length)
    (hlast : j.records.getLast?.map AuditRecord.integrity =
      j'.records.getLast?.map AuditRecord.integrity) :
    j.hashed = j'.hashed ∨ ∃ bytes ∈ j.hashed ++ j'.hashed, ∃ bytes' ∈ j.hashed ++ j'.hashed,
      bytes ≠ bytes' ∧ hash bytes = hash bytes' := by
  have hchained := ((verify_iff 0 0 j.records).mp (verify_integrity_iff.mp hj).1).1
  have hchained' := ((verify_iff 0 0 j'.records).mp (verify_integrity_iff.mp hj').1).1
  have hdigest : (chain hash).last 0 j.records = (chain hash).last 0 j'.records :=
    congrArg (Option.getD · 0) hlast
  rcases hchained.commits (fun _ _ => previous_of_tuple) hchained' hlength hdigest with
    hsame | ⟨a, ha, b, hb, hne, hcollision⟩
  · exact Or.inl hsame
  · have hmem : ∀ r ∈ j.records ++ j'.records, tuple r ∈ j.hashed ++ j'.hashed := by
      intro r hr
      rw [hashed, hashed, ← List.map_append]
      exact List.mem_map_of_mem hr
    exact Or.inr ⟨tuple a, hmem a ha, tuple b, hmem b hb, hne, hcollision⟩

/-! ## Two journals -/

/-- A journal from which the first of three records has been dropped. -/
def retained (hash : Bytes → UInt64) : AuditJournal Tenths :=
  ((((empty.append hash "audit-1" (.navigation "https://a.example/")).append hash "audit-2"
    (.recovery "session" "ok")).append hash "audit-3" (.navigation "https://b.example/")).retainLast
    hash 2).2

/-- A journal that has had the two other records only. -/
def short (hash : Bytes → UInt64) : AuditJournal Tenths :=
  (empty.append hash "audit-2" (.recovery "session" "ok")).append hash "audit-3"
    (.navigation "https://b.example/")

theorem retained_verified (hash : Bytes → UInt64) : (retained hash).verifyIntegrity hash = true :=
  verify_retain_last (verify_append (verify_append (verify_append rfl _ _) _ _) _ _) 2

theorem short_verified (hash : Bytes → UInt64) : (short hash).verifyIntegrity hash = true :=
  verify_append (verify_append rfl _ _) _ _

theorem retained_length (hash : Bytes → UInt64) :
    (retained hash).records.length = (short hash).records.length := rfl

theorem retained_last (hash : Bytes → UInt64) :
    (retained hash).records.getLast?.map AuditRecord.integrity =
      (short hash).records.getLast?.map AuditRecord.integrity := rfl

/-- A journal and a shorter one that hash the same bytes, or two texts with one hash. -/
theorem retained_commits :
    (retained Recovery.defaultHash).hashed = (short Recovery.defaultHash).hashed ∨
      ∃ bytes ∈ (retained Recovery.defaultHash).hashed ++ (short Recovery.defaultHash).hashed,
        ∃ bytes' ∈ (retained Recovery.defaultHash).hashed ++ (short Recovery.defaultHash).hashed,
          bytes ≠ bytes' ∧ Recovery.defaultHash bytes = Recovery.defaultHash bytes' :=
  verified_commits Recovery.defaultHash (retained Recovery.defaultHash)
    (short Recovery.defaultHash) (retained_verified _) (short_verified _) (retained_length _)
    (retained_last _)

end AuditJournal

end BrowsAI.Audit
