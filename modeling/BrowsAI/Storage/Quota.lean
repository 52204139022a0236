import BrowsAI.Storage.Generations

/-!
# Quotas

The bytes of an area are the lengths of its keys and values. `set_with_quota` compares with the
quota what the area would hold after the write, and a cloned namespace holds what its source does,
so histories that write under one quota keep every area within it.
-/

namespace BrowsAI.Storage

open Utf8 Std Profiles

/-! ## The bytes of an area -/

/-- The bytes of the keys and values of an area. -/
def areaBytes (area : OrdMap Text Text) : Nat :=
  (area.toList.map fun entry => len entry.1 + len entry.2).sum

@[simp] theorem area_bytes_empty : areaBytes ∅ = 0 := rfl

theorem area_bytes_erase (area : OrdMap Text Text) (key : Text) :
    areaBytes (area.erase key) = OriginStorage.bytesWithout key area := by
  rw [areaBytes, OriginStorage.bytesWithout, OrdMap.to_list_erase]
  refine congrArg (fun entries => (List.map _ entries).sum) (List.filter_congr fun entry _ => ?_)
  rw [bne, beq_eq_decide, decide_not]

theorem area_bytes_insert (area : OrdMap Text Text) (key value : Text) :
    areaBytes (area.insert key value) =
      OriginStorage.bytesWithout key area + len key + len value := by
  have hperm := (OrdMap.to_list_insert_perm_erase area key value).map fun entry =>
    len entry.1 + len entry.2
  rw [areaBytes, hperm.sum_nat, List.map_cons, List.sum_cons, ← areaBytes, area_bytes_erase]
  show len key + len value + _ = _
  omega

theorem area_bytes_erase_le (area : OrdMap Text Text) (key : Text) :
    areaBytes (area.erase key) ≤ areaBytes area := by
  have hperm := (List.filter_append_perm (fun entry => decide (entry.1 ≠ key))
    area.toList).map fun entry => len entry.1 + len entry.2
  rw [areaBytes, areaBytes, OrdMap.to_list_erase, ← hperm.sum_nat, List.map_append,
    List.sum_append_nat]
  exact Nat.le_add_right _ _

namespace OriginStorage

/-- A write that is refused changes nothing. -/
theorem set_with_quota_of_error {s : OriginStorage} {request : StorageWriteRequest}
    {error : StorageError} (h : (s.setWithQuota request).1 = .error error) :
    (s.setWithQuota request).2 = s := by
  rw [set_with_quota_eq] at h ⊢
  by_cases hfits : request.Fits s
  · rw [if_pos hfits] at h
    cases h
  · rw [if_neg hfits]

/-! ## Histories under one quota -/

/-- Every area is within the quota. -/
def Within (quota : Nat) (s : OriginStorage) : Prop :=
  ∀ area, areaBytes (s.contents area) ≤ quota

end OriginStorage

/-- A write under this quota, a removal or a clone. -/
def Operation.Under (quota : Nat) : Operation → Prop
  | .set .. => False
  | .setWithQuota request => request.quotaBytes = quota
  | .remove .. => True
  | .cloneSessionNamespace .. => True

namespace OriginStorage

variable {quota : Nat} {s s' : OriginStorage}

theorem within_empty : empty.Within quota := by
  intro area
  have hempty : empty.contents area = ∅ := by simp [contents, empty]
  rw [hempty, area_bytes_empty]
  exact Nat.zero_le _

/-- A step that writes to one area is as good as what it writes there. -/
theorem Within.writes {area : StorageKey} {values : OrdMap Text Text} {generation : UInt64}
    (h : s.Within quota) (hwrites : Writes s s' area values generation)
    (hvalues : areaBytes values ≤ quota) : s'.Within quota := by
  intro other
  by_cases hother : other = area
  · rw [hother, hwrites.contents_self]
    exact hvalues
  · rw [hwrites.contents_frame other hother]
    exact h other

/-- An operation under the quota keeps every area within it. -/
theorem Within.apply {op : Operation} (h : s.Within quota) (hop : op.Under quota) :
    (s.apply op).Within quota := by
  cases op with
  | set profile origin nameSpace kind key value => exact hop.elim
  | setWithQuota request =>
      by_cases hfits : request.Fits s
      · refine h.writes (s.apply_set_with_quota_of_fits hfits) ?_
        rw [area_bytes_insert]
        exact (show _ ≤ request.quotaBytes from hfits).trans_eq hop
      · rw [s.apply_set_with_quota_of_not_fits hfits]
        exact h
  | remove profile origin nameSpace kind key =>
      let area : StorageKey := ⟨profile, origin, nameSpace, kind⟩
      cases hvalue : (s.contents area)[key]? with
      | none =>
          rw [s.apply_remove_of_none area hvalue]
          exact h
      | some value =>
          exact h.writes (s.apply_remove_of_some area hvalue)
            ((area_bytes_erase_le _ _).trans (h area))
  | cloneSessionNamespace profile origin source destination =>
      by_cases hsource : s.values[(⟨profile, origin, source, .session⟩ : StorageKey)]? = none
      · rw [s.apply_clone_of_none profile origin source destination hsource]
        exact h
      · exact h.writes (s.apply_clone_of_some profile origin source destination hsource) (h _)

theorem within_foldl {operations : List Operation} (h : s.Within quota)
    (hops : ∀ op ∈ operations, op.Under quota) : (operations.foldl OriginStorage.apply s).Within quota := by
  induction operations generalizing s with
  | nil => exact h
  | cons op operations ih =>
      exact ih (h.apply (hops op List.mem_cons_self)) fun other hother =>
        hops other (List.mem_cons_of_mem _ hother)

/-- After every history of writes under one quota, removals and clones, every area is within the
quota, and a write that is refused there changes nothing. -/
theorem run_within_one_quota {operations : List Operation}
    (hops : ∀ op ∈ operations, op.Under quota) :
    (∀ area, areaBytes ((run operations).contents area) ≤ quota) ∧
      ∀ request error, ((run operations).setWithQuota request).1 = .error error →
        ((run operations).setWithQuota request).2 = run operations :=
  ⟨within_foldl within_empty hops, fun _ _ => set_with_quota_of_error⟩

/-- A write of three bytes into a session namespace, which is then cloned. -/
def threeBytesCloned : List Operation :=
  [.setWithQuota ⟨7, "https://a.example", "tab", .session, "k", "vv", 3⟩,
    .cloneSessionNamespace 7 "https://a.example" "tab" "copy"]

/-- An area of three bytes and its copy. -/
theorem three_bytes_within_quota :
    (∀ area, areaBytes ((run threeBytesCloned).contents area) ≤ 3) ∧
      ∀ request error, ((run threeBytesCloned).setWithQuota request).1 = .error error →
        ((run threeBytesCloned).setWithQuota request).2 = run threeBytesCloned :=
  run_within_one_quota fun op hop => by
    simp only [threeBytesCloned, List.mem_cons, List.not_mem_nil, or_false] at hop
    obtain rfl | rfl := hop
    · rfl
    · trivial

example : areaBytes ((run threeBytesCloned).contents
    ⟨7, "https://a.example", "copy", .session⟩) = 3 := by decide

end OriginStorage

end BrowsAI.Storage
