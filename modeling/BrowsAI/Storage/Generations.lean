import BrowsAI.Storage.OriginStorage

/-!
# Generations and contents

A reader of an area that remembers its generation sees a change only through a larger generation.
`bumped_iff` says for which calls a change of the contents comes with a larger generation: for
every write and removal as long as the counter has room, and for a cloned session namespace only
when the generation it brings is larger than the one it overwrites.
-/

namespace BrowsAI.Storage

open Utf8 Std Profiles

/-! ## What one call writes -/

/-- The step from `s` to `s'` writes these contents and this generation to one area. -/
structure Writes (s s' : OriginStorage) (area : StorageKey) (values : OrdMap Text Text)
    (generation : UInt64) : Prop where
  contents_self : s'.contents area = values
  generation_self : s'.generationOf area = generation
  contents_frame : ∀ other ≠ area, s'.contents other = s.contents other
  generation_frame : ∀ other ≠ area, s'.generationOf other = s.generationOf other

/-- Updating both maps at one key writes there. -/
theorem writes_insert (s : OriginStorage) (area : StorageKey) (values : OrdMap Text Text)
    (generation : UInt64) (events : List StorageEvent) :
    Writes s ⟨s.values.insert area values, s.generations.insert area generation, events⟩ area
      values generation where
  contents_self := by simp [OriginStorage.contents]
  generation_self := by simp [OriginStorage.generation_of_eq]
  contents_frame other hne := by
    simp only [OriginStorage.contents, OrdMap.get_insert_ne s.values hne.symm]
  generation_frame other hne := by
    simp only [OriginStorage.generation_of_eq, OrdMap.get_insert_ne s.generations hne.symm]

namespace StorageWriteRequest

/-- The area that the request writes to. -/
def area (request : StorageWriteRequest) : StorageKey :=
  ⟨request.profile, request.origin, request.nameSpace, request.kind⟩

/-- The write stays within its quota. -/
def Fits (request : StorageWriteRequest) (s : OriginStorage) : Prop :=
  OriginStorage.bytesWithout request.key (s.contents request.area) + len request.key +
    len request.value ≤ request.quotaBytes

instance (request : StorageWriteRequest) (s : OriginStorage) : Decidable (request.Fits s) :=
  inferInstanceAs (Decidable (_ ≤ _))

end StorageWriteRequest

namespace OriginStorage

variable (s : OriginStorage)

theorem apply_set (area : StorageKey) (key value : Text) :
    Writes s (s.apply (.set area.profile area.origin area.nameSpace area.kind key value)) area
      ((s.contents area).insert key value) (s.generationOf area + 1) :=
  writes_insert s area _ _ _

/-- A write is done if it fits, and refused otherwise. -/
theorem set_with_quota_eq (request : StorageWriteRequest) :
    s.setWithQuota request =
      if request.Fits s then
        (.ok (), s.set request.profile request.origin request.nameSpace request.kind request.key
          request.value)
      else (.error .quotaExceeded, s) := by
  have hcurrent : (s.values[request.area]?.map (bytesWithout request.key)).getD 0 =
      bytesWithout request.key (s.contents request.area) := by
    unfold contents
    cases s.values[request.area]? with
    | none => rfl
    | some values => rfl
  simp only [setWithQuota, StorageWriteRequest.Fits, ← hcurrent]
  split_ifs with hover hfits hfits
  · exact absurd hfits (Nat.not_le.mpr hover)
  · rfl
  · rfl
  · exact absurd (Nat.not_lt.mp hover) hfits

/-- A write that fits sets one key, and bumps its area. -/
theorem apply_set_with_quota_of_fits {request : StorageWriteRequest} (hfits : request.Fits s) :
    Writes s (s.apply (.setWithQuota request)) request.area
      ((s.contents request.area).insert request.key request.value)
      (s.generationOf request.area + 1) := by
  simp only [apply, set_with_quota_eq, if_pos hfits]
  exact s.apply_set request.area request.key request.value

theorem apply_set_with_quota_of_not_fits {request : StorageWriteRequest}
    (hfits : ¬ request.Fits s) : s.apply (.setWithQuota request) = s := by
  simp only [apply, set_with_quota_eq, if_neg hfits]

theorem apply_remove_of_none (area : StorageKey) {key : Text}
    (hkey : (s.contents area)[key]? = none) :
    s.apply (.remove area.profile area.origin area.nameSpace area.kind key) = s := by
  simp only [apply, remove]
  simp only [contents] at hkey
  cases hvalues : s.values[area]? with
  | none => rfl
  | some values => simp_all

/-- So does a removal of a key that is there. -/
theorem apply_remove_of_some (area : StorageKey) {key value : Text}
    (hkey : (s.contents area)[key]? = some value) :
    Writes s (s.apply (.remove area.profile area.origin area.nameSpace area.kind key)) area
      ((s.contents area).erase key) (s.generationOf area + 1) := by
  simp only [apply, remove]
  simp only [contents] at hkey ⊢
  cases hvalues : s.values[area]? with
  | none => simp [hvalues] at hkey
  | some values =>
      simp only [hvalues, Option.getD_some] at hkey ⊢
      simp only [hkey]
      exact writes_insert s area _ _ _

section Clone

variable (profile : ProfileId) (origin source destination : Text)

theorem apply_clone_of_none (hsource : s.values[(⟨profile, origin, source, .session⟩ :
    StorageKey)]? = none) :
    s.apply (.cloneSessionNamespace profile origin source destination) = s := by
  simp only [apply, cloneSessionNamespace, hsource]

/-- A clone writes the whole area, with the generation of its source. -/
theorem apply_clone_of_some (hsource : s.values[(⟨profile, origin, source, .session⟩ :
    StorageKey)]? ≠ none) :
    Writes s (s.apply (.cloneSessionNamespace profile origin source destination))
      ⟨profile, origin, destination, .session⟩ (s.contents ⟨profile, origin, source, .session⟩)
      (s.generationOf ⟨profile, origin, source, .session⟩) := by
  obtain ⟨values, hvalues⟩ := Option.ne_none_iff_exists'.mp hsource
  simp only [apply, cloneSessionNamespace, contents, hvalues, Option.getD_some]
  exact writes_insert s _ _ _ _

end Clone

end OriginStorage

/-! ## Changes and generations -/

/-- Every area whose contents change gets a larger generation. -/
def Bumped (s s' : OriginStorage) : Prop :=
  ∀ area, s.contents area ≠ s'.contents area → s.generationOf area < s'.generationOf area

/-- A step that writes one area only has to bump that one. -/
theorem Writes.bumped_iff {s s' : OriginStorage} {area : StorageKey} {values : OrdMap Text Text}
    {generation : UInt64} (h : Writes s s' area values generation) :
    Bumped s s' ↔ s.contents area = values ∨ s.generationOf area < generation := by
  constructor
  · intro hbumped
    by_cases hsame : s.contents area = values
    · exact .inl hsame
    · have hlt := hbumped area (by rwa [h.contents_self])
      rw [h.generation_self] at hlt
      exact .inr hlt
  · intro hor other hchanged
    by_cases hother : other = area
    · subst hother
      rw [h.contents_self] at hchanged
      rw [h.generation_self]
      exact hor.resolve_left hchanged
    · exact absurd (h.contents_frame other hother).symm hchanged

theorem bumped_self (s : OriginStorage) : Bumped s s :=
  fun _ hchanged => absurd rfl hchanged

/-- The counter of the area is not at its last value. -/
def HasRoom (s : OriginStorage) (area : StorageKey) : Prop :=
  (s.generationOf area).toNat + 1 < 2 ^ 64

theorem lt_add_one_iff (generation : UInt64) :
    generation < generation + 1 ↔ generation.toNat + 1 < 2 ^ 64 := by
  rw [UInt64.lt_iff_toNat_lt, UInt64.toNat_add]
  have := generation.toNat_lt
  simp only [UInt64.toNat_one]
  omega

/-- The condition on the state before the call: it changes nothing, or the generation that it
leaves behind is larger. -/
def Operation.Bumps (s : OriginStorage) : Operation → Prop
  | .set profile origin nameSpace kind key value =>
      let area : StorageKey := ⟨profile, origin, nameSpace, kind⟩
      (s.contents area)[key]? = some value ∨ HasRoom s area
  | .setWithQuota request =>
      request.Fits s →
        (s.contents request.area)[request.key]? = some request.value ∨ HasRoom s request.area
  | .remove profile origin nameSpace kind key =>
      let area : StorageKey := ⟨profile, origin, nameSpace, kind⟩
      (s.contents area)[key]? = none ∨ HasRoom s area
  | .cloneSessionNamespace profile origin sourceNamespace destinationNamespace =>
      let source : StorageKey := ⟨profile, origin, sourceNamespace, .session⟩
      let destination : StorageKey := ⟨profile, origin, destinationNamespace, .session⟩
      s.values[source]? = none ∨ s.contents destination = s.contents source ∨
        s.generationOf destination < s.generationOf source

theorem bumped_insert_iff {s s' : OriginStorage} {area : StorageKey} {key value : Text}
    (h : Writes s s' area ((s.contents area).insert key value) (s.generationOf area + 1)) :
    Bumped s s' ↔ (s.contents area)[key]? = some value ∨ HasRoom s area := by
  rw [h.bumped_iff, lt_add_one_iff, eq_comm, OrdMap.insert_eq_self_iff, HasRoom]

/-- Which operations bump what they change. -/
theorem bumped_apply_iff (s : OriginStorage) (operation : Operation) :
    Bumped s (s.apply operation) ↔ operation.Bumps s := by
  cases operation with
  | set profile origin nameSpace kind key value =>
      exact bumped_insert_iff (s.apply_set ⟨profile, origin, nameSpace, kind⟩ key value)
  | setWithQuota request =>
      by_cases hfits : request.Fits s
      · simp only [Operation.Bumps, hfits, forall_const]
        exact bumped_insert_iff (s.apply_set_with_quota_of_fits hfits)
      · simp only [s.apply_set_with_quota_of_not_fits hfits, bumped_self, Operation.Bumps, hfits,
          false_imp_iff]
  | remove profile origin nameSpace kind key =>
      simp only [Operation.Bumps]
      cases hkey : (s.contents ⟨profile, origin, nameSpace, kind⟩)[key]? with
      | none =>
          rw [s.apply_remove_of_none ⟨profile, origin, nameSpace, kind⟩ hkey]
          simp [bumped_self]
      | some value =>
          rw [(s.apply_remove_of_some ⟨profile, origin, nameSpace, kind⟩ hkey).bumped_iff,
            lt_add_one_iff, eq_comm, OrdMap.erase_eq_self_iff, hkey, HasRoom]
  | cloneSessionNamespace profile origin source destination =>
      simp only [Operation.Bumps]
      -- an unknown source clones nothing, a known one takes its own generation along
      by_cases hsource : s.values[(⟨profile, origin, source, .session⟩ : StorageKey)]? = none
      · simp only [s.apply_clone_of_none profile origin source destination hsource, bumped_self,
          hsource, true_or]
      · rw [(s.apply_clone_of_some profile origin source destination hsource).bumped_iff]
        simp only [hsource, false_or]

/-- After any history of calls, the next call changes contents only together with a larger
generation exactly when `Bumps` holds of it. -/
theorem run_bumped_iff (history : List Operation) (operation : Operation) :
    Bumped (.run history) ((OriginStorage.run history).apply operation) ↔
      operation.Bumps (.run history) :=
  bumped_apply_iff _ operation

/-- Two writes to a namespace, one to another, and the second cloned over the first. -/
def overwritingClone : List Operation :=
  [.set 1 "https://a.example" "tab-1" .session "k" "old",
    .set 1 "https://a.example" "tab-1" .session "k" "new",
    .set 1 "https://a.example" "tab-2" .session "k" "other"]

/-- Cloning a namespace over one that was written more often changes it under a smaller
generation. -/
theorem clone_not_bumped :
    ¬ ∀ (history : List Operation) (operation : Operation),
      Bumped (.run history) ((OriginStorage.run history).apply operation) := by
  intro h
  have hbumped := h overwritingClone
    (.cloneSessionNamespace 1 "https://a.example" "tab-2" "tab-1")
  have hlt := hbumped ⟨1, "https://a.example", "tab-1", .session⟩ (by
    intro hsame
    have hvalue := congrArg (fun values : OrdMap Text Text => values[("k" : Text)]?) hsame
    revert hvalue
    decide)
  revert hlt
  decide

end BrowsAI.Storage
