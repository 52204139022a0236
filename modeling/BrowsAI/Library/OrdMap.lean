import Mathlib.Logic.Basic
import Mathlib.Logic.ExistsUnique
import Mathlib.Logic.Function.Basic
import Mathlib.Tactic.SplitIfs
import Mathlib.Tactic.Tauto
import Std.Data.ExtTreeMap

/-!
# Ordered maps

`OrdMap` is an extensional ordered map whose keys are compared by equality, and `orDefault` is the
update of an entry that starts from the default value when the key is new. The lemmas read a map
after each update with a condition on the keys themselves.
-/

open Std

/-- Pairs in lexicographic order, as tuples are ordered. -/
instance instOrdPair {α β : Type} [Ord α] [Ord β] : Ord (α × β) :=
  ⟨compareLex (compareOn Prod.fst) (compareOn Prod.snd)⟩

instance instTransOrdPair {α β : Type} [Ord α] [Ord β] [TransOrd α] [TransOrd β] :
    TransOrd (α × β) :=
  inferInstanceAs <| TransCmp (compareLex _ _)

instance instLawfulEqOrdPair {α β : Type} [Ord α] [Ord β] [LawfulEqOrd α] [LawfulEqOrd β] :
    LawfulEqOrd (α × β) where
  compare_self := by
    intro a
    show compareLex _ _ _ _ = _
    simp only [compareLex_eq_eq, compareOn, compare_self, and_self]
  eq_of_compare {a b} h := by
    change compareLex _ _ _ _ = _ at h
    simp only [compareLex_eq_eq, compareOn] at h
    exact Prod.ext (LawfulEqOrd.eq_of_compare h.1) (LawfulEqOrd.eq_of_compare h.2)

/-- Values ordered by their images. -/
@[reducible] def ordOn {α β : Type} [Ord β] (f : α → β) : Ord α := ⟨compareOn f⟩

theorem lawful_eq_ord_on {α β : Type} [Ord β] [LawfulEqOrd β] {f : α → β}
    (hf : Function.Injective f) : LawfulEqCmp (compareOn f) where
  compare_self := compare_self
  eq_of_compare h := hf (LawfulEqOrd.eq_of_compare h)

/-- A map with ordered keys. -/
abbrev OrdMap (κ α : Type) [Ord κ] := ExtTreeMap κ α compare

namespace OrdMap

variable {κ α : Type} [Ord κ] [TransOrd κ]

/-- `*m.entry(k).or_default()` replaced by its image under `f`. -/
def orDefault [Inhabited α] (m : OrdMap κ α) (k : κ) (f : α → α) : OrdMap κ α :=
  m.insert k (f (m[k]?.getD default))

theorem exists_head_keys (m : OrdMap κ α) (h : 0 < m.size) : ∃ k, m.keys.head? = some k := by
  refine Option.ne_none_iff_exists'.mp fun hnone => ?_
  have hlength := congrArg List.length (List.head?_eq_none_iff.mp hnone)
  rw [ExtTreeMap.length_keys, List.length_nil] at hlength
  omega

variable [LawfulEqOrd κ]

theorem size_erase_head {m : OrdMap κ α} {k : κ} (h : m.keys.head? = some k) :
    (m.erase k).size = m.size - 1 := by
  have hmem : k ∈ m := ExtTreeMap.mem_keys.mp (List.mem_of_head? h)
  rw [ExtTreeMap.size_erase, if_pos (ExtTreeMap.mem_iff_contains.mp hmem)]

theorem get_insert [DecidableEq κ] (m : OrdMap κ α) (k : κ) (a : α) (j : κ) :
    (m.insert k a)[j]? = if k = j then some a else m[j]? := by
  simp [ExtTreeMap.getElem?_insert]

@[simp] theorem get_insert_self (m : OrdMap κ α) (k : κ) (a : α) : (m.insert k a)[k]? = some a := by
  simp

theorem get_insert_ne (m : OrdMap κ α) {k j : κ} (hkj : k ≠ j) (a : α) :
    (m.insert k a)[j]? = m[j]? := by
  simp [ExtTreeMap.getElem?_insert, hkj]

theorem get_erase [DecidableEq κ] (m : OrdMap κ α) (k j : κ) :
    (m.erase k)[j]? = if k = j then none else m[j]? := by
  simp [ExtTreeMap.getElem?_erase]

theorem get_modify [DecidableEq κ] (m : OrdMap κ α) (k : κ) (f : α → α) (j : κ) :
    (m.modify k f)[j]? = if k = j then m[k]?.map f else m[j]? := by
  simp [ExtTreeMap.getElem?_modify]

/-- Erasing a list of keys leaves the entries of the other keys. -/
theorem get_foldl_erase [DecidableEq κ] (m : OrdMap κ α) (ks : List κ) (j : κ) :
    (ks.foldl ExtTreeMap.erase m)[j]? = if j ∈ ks then none else m[j]? := by
  induction ks generalizing m with
  | nil => simp
  | cons k ks ih =>
      rw [List.foldl_cons, ih, get_erase]
      by_cases hks : j ∈ ks <;> simp [hks, eq_comm]

/-- Inserting what is already there changes nothing. -/
theorem insert_eq_self {m : OrdMap κ α} {k : κ} {a : α} (h : m[k]? = some a) :
    m.insert k a = m := by
  refine ExtTreeMap.ext_getElem? fun j => ?_
  by_cases hkj : k = j
  · subst hkj
    simp [h]
  · exact get_insert_ne m hkj a

/-- Inserting changes the map unless the value was already there. -/
theorem insert_eq_self_iff {m : OrdMap κ α} {k : κ} {a : α} :
    m.insert k a = m ↔ m[k]? = some a :=
  ⟨fun h => h ▸ get_insert_self m k a, insert_eq_self⟩

/-- A value that is taken out and put back. -/
theorem insert_erase_eq_self [DecidableEq κ] {m : OrdMap κ α} {k : κ} {a : α}
    (h : m[k]? = some a) : (m.erase k).insert k a = m := by
  refine ExtTreeMap.ext_getElem? fun j => ?_
  rw [get_insert, get_erase]
  split_ifs with hj
  · rw [← hj, h]
  · rfl

/-- Erasing changes the map exactly when the key is there. -/
theorem erase_eq_self_iff {m : OrdMap κ α} {k : κ} : m.erase k = m ↔ m[k]? = none := by
  constructor
  · intro h
    rw [← h]
    simp
  · intro h
    refine ExtTreeMap.ext_getElem? fun j => ?_
    by_cases hkj : k = j
    · subst hkj
      simp [h]
    · simp [ExtTreeMap.getElem?_erase, hkj]

/-- An update is an insertion where the key is there, and nothing elsewhere. -/
theorem modify_eq [DecidableEq κ] (m : OrdMap κ α) (k : κ) (f : α → α) :
    m.modify k f = match m[k]? with
      | none => m
      | some a => m.insert k (f a) := by
  refine ExtTreeMap.ext_getElem? fun j => ?_
  rw [get_modify]
  cases hk : m[k]? with
  | none =>
      split_ifs with hj
      · rw [← hj, hk, Option.map_none]
      · rfl
  | some a =>
      dsimp only
      rw [get_insert, Option.map_some]

theorem insert_if_new_eq [DecidableEq κ] (m : OrdMap κ α) (k : κ) (a : α) :
    m.insertIfNew k a = m.insert k (m[k]?.getD a) := by
  refine ExtTreeMap.ext_getElem? fun j => ?_
  rw [get_insert]
  simp only [ExtTreeMap.getElem?_insertIfNew, LawfulEqCmp.compare_eq_iff_eq,
    ExtTreeMap.mem_iff_isSome_getElem?]
  by_cases hj : k = j
  · subst hj
    cases m[k]? <;> simp
  · simp [hj]

/-! ## Values that name their keys -/

/-- Every value is stored under the key that it names. -/
def KeyedBy (f : α → κ) (m : OrdMap κ α) : Prop := ∀ (k : κ) (a : α), m[k]? = some a → f a = k

section KeyedBy

variable {f : α → κ} {m : OrdMap κ α}

theorem KeyedBy.insert [DecidableEq κ] (h : m.KeyedBy f) {k : κ} {a : α} (hk : f a = k) :
    KeyedBy f (m.insert k a) := by
  intro j b hb
  rw [get_insert] at hb
  split_ifs at hb with hj
  · rw [← Option.some.inj hb, hk, hj]
  · exact h j b hb

theorem KeyedBy.erase [DecidableEq κ] (h : m.KeyedBy f) (k : κ) : KeyedBy f (m.erase k) := by
  intro j b hb
  rw [get_erase] at hb
  split_ifs at hb
  exact h j b hb

omit [LawfulEqOrd κ] in
/-- An update of every value that leaves the keys that they name alone. -/
theorem KeyedBy.map {β : Type} {f' : β → κ} {m' : OrdMap κ β} {g : α → β} (h : m.KeyedBy f)
    (hget : ∀ k : κ, m'[k]? = m[k]?.map g) (hg : ∀ a, f' (g a) = f a) : m'.KeyedBy f' := by
  intro k b hb
  rw [hget, Option.map_eq_some_iff] at hb
  obtain ⟨a, ha, rfl⟩ := hb
  rw [hg, h k a ha]

end KeyedBy

/-! ## Values with a property -/

/-- Every value has a property. -/
def All (P : α → Prop) (m : OrdMap κ α) : Prop := ∀ (k : κ) (a : α), m[k]? = some a → P a

section All

variable {P : α → Prop} {m : OrdMap κ α}

/-- An insertion is as good as the new value. -/
theorem All.insert_iff [DecidableEq κ] (h : All P m) (k : κ) (a : α) :
    All P (m.insert k a) ↔ P a := by
  constructor
  · intro hall
    exact hall k a (get_insert_self m k a)
  · intro ha j b hb
    rw [get_insert] at hb
    split_ifs at hb
    · exact Option.some.inj hb ▸ ha
    · exact h j b hb

theorem All.erase [DecidableEq κ] (h : All P m) (k : κ) : All P (m.erase k) := by
  intro j b hb
  rw [get_erase] at hb
  split_ifs at hb
  exact h j b hb

/-- An update of one value is as good as what it makes of the value that is there. -/
theorem All.modify_iff [DecidableEq κ] (h : All P m) (k : κ) (f : α → α) :
    All P (m.modify k f) ↔ ∀ a, m[k]? = some a → P (f a) := by
  constructor
  · intro hall a ha
    refine hall k (f a) ?_
    rw [get_modify, if_pos rfl, ha, Option.map_some]
  · intro hf j b hb
    rw [get_modify] at hb
    split_ifs at hb
    · obtain ⟨a, ha, rfl⟩ := Option.map_eq_some_iff.mp hb
      exact hf a ha
    · exact h j b hb

theorem all_map_iff {β : Type} {Q : β → Prop} (f : α → β) :
    All Q (m.map fun _ => f) ↔ All (fun a => Q (f a)) m := by
  constructor
  · intro hall k a ha
    refine hall k (f a) ?_
    rw [ExtTreeMap.getElem?_map, ha, Option.map_some]
  · intro hall k b hb
    rw [ExtTreeMap.getElem?_map] at hb
    obtain ⟨a, ha, rfl⟩ := Option.map_eq_some_iff.mp hb
    exact hall k a ha

end All

/-! ## Images of the values -/

section Map

variable {β : Type} {m : OrdMap κ α} {g : α → β}

theorem map_modify [DecidableEq κ] {f : α → α} {f' : β → β} (h : ∀ a, g (f a) = f' (g a)) (k : κ) :
    (m.modify k f).map (fun _ => g) = (m.map fun _ => g).modify k f' := by
  refine ExtTreeMap.ext_getElem? fun j => ?_
  rw [ExtTreeMap.getElem?_map, get_modify, get_modify, ExtTreeMap.getElem?_map,
    ExtTreeMap.getElem?_map]
  split_ifs
  · rw [Option.map_map, Option.map_map]
    exact congrArg (Option.map · m[k]?) (funext h)
  · rfl

theorem map_erase [DecidableEq κ] (k : κ) :
    (m.erase k).map (fun _ => g) = (m.map fun _ => g).erase k := by
  refine ExtTreeMap.ext_getElem? fun j => ?_
  rw [ExtTreeMap.getElem?_map, get_erase, get_erase, ExtTreeMap.getElem?_map]
  split_ifs <;> rfl

theorem map_insert [DecidableEq κ] (k : κ) (a : α) :
    (m.insert k a).map (fun _ => g) = (m.map fun _ => g).insert k (g a) := by
  refine ExtTreeMap.ext_getElem? fun j => ?_
  rw [ExtTreeMap.getElem?_map, get_insert, get_insert, ExtTreeMap.getElem?_map]
  split_ifs <;> rfl

end Map

theorem keys_modify [DecidableEq κ] (m : OrdMap κ α) (k : κ) (f : α → α) :
    (m.modify k f).keys = m.keys := by
  have hkeys : (m.modify k f).map (fun _ _ => ()) = m.map fun _ _ => () := by
    refine ExtTreeMap.ext_getElem? fun j => ?_
    rw [ExtTreeMap.getElem?_map, get_modify, ExtTreeMap.getElem?_map]
    split_ifs with hj
    · rw [hj, Option.map_map]
    · rfl
  rw [← ExtTreeMap.keys_map (f := fun _ _ => ()), hkeys, ExtTreeMap.keys_map]

/-! ## Sets of keys -/

/-- The keys of a list in order, each once. -/
def keySet (keys : List κ) : List κ :=
  (keys.foldl (fun (m : OrdMap κ Unit) k => m.insert k ()) ∅).keys

/-- A list has the keys of its set. -/
theorem mem_key_set {keys : List κ} {k : κ} : k ∈ keySet keys ↔ k ∈ keys := by
  have hfold : ∀ m : OrdMap κ Unit,
      k ∈ keys.foldl (fun (m : OrdMap κ Unit) k => m.insert k ()) m ↔ k ∈ keys ∨ k ∈ m := by
    induction keys with
    | nil => simp
    | cons j keys ih =>
        intro m
        rw [List.foldl_cons, ih, ExtTreeMap.mem_insert, LawfulEqCmp.compare_eq_iff_eq,
          List.mem_cons, eq_comm]
        tauto
  rw [keySet, ExtTreeMap.mem_keys, hfold]
  simp

/-! ## Entries in order -/

omit [LawfulEqOrd κ] in
theorem values_eq (m : OrdMap κ α) : m.values = m.toList.map Prod.snd := by
  obtain ⟨inner⟩ := m
  induction inner using ExtDTreeMap.inductionOn with
  | mk t =>
      show t.inner.values = (DTreeMap.Internal.Impl.Const.toList t.inner).map Prod.snd
      rw [DTreeMap.Internal.Impl.values_eq_map_snd,
        DTreeMap.Internal.Impl.Const.toList_eq_toListModel_map]
      simp

/-- The values are those that some key leads to. -/
theorem mem_values {m : OrdMap κ α} {a : α} :
    a ∈ m.toList.map Prod.snd ↔ ∃ k : κ, m[k]? = some a := by
  simp only [List.mem_map, Prod.exists, ExtTreeMap.mem_toList_iff_getElem?_eq_some,
    exists_eq_right]

theorem nodup_to_list (m : OrdMap κ α) : m.toList.Nodup := by
  refine ExtTreeMap.distinct_keys_toList.imp fun {a b} hdistinct hab => hdistinct ?_
  rw [hab]
  exact compare_self

/-- The entries of a map stand in the order of their keys. -/
theorem not_lt_of_index_le [DecidableEq (κ × α)] {m : OrdMap κ α} {a b : κ × α}
    (ha : a ∈ m.toList) (hb : b ∈ m.toList) (h : m.toList.idxOf a ≤ m.toList.idxOf b) :
    compare b.1 a.1 ≠ .lt := by
  intro hlt
  have hlta := List.idxOf_lt_length_of_mem ha
  have hltb := List.idxOf_lt_length_of_mem hb
  have hgeta := List.getElem_idxOf hlta
  have hgetb := List.getElem_idxOf hltb
  obtain heq | hless := Nat.eq_or_lt_of_le h
  · have hsame : a = b := by
      rw [← hgeta, ← hgetb]
      simp only [heq]
    rw [hsame, compare_self] at hlt
    cases hlt
  · have hordered := List.pairwise_iff_getElem.mp (ExtTreeMap.ordered_keys_toList (t := m))
      _ _ hlta hltb hless
    rw [hgeta, hgetb] at hordered
    have hswap : compare b.1 a.1 = (compare a.1 b.1).swap := OrientedCmp.eq_swap
    rw [hswap, hordered] at hlt
    cases hlt

/-- Two maps that agree on some of the keys have the same entries there, in the same order. -/
theorem filter_to_list_congr {p : κ → Bool} {m m' : OrdMap κ α}
    (h : ∀ k, p k → m[k]? = m'[k]?) :
    (m.toList.filter fun entry => p entry.1) = m'.toList.filter fun entry => p entry.1 := by
  have hmem : ∀ entry, (entry ∈ m.toList.filter fun entry => p entry.1) ↔
      entry ∈ m'.toList.filter fun entry => p entry.1 := by
    rintro ⟨k, a⟩
    simp only [List.mem_filter, ExtTreeMap.mem_toList_iff_getElem?_eq_some]
    exact ⟨fun hk => ⟨h k hk.2 ▸ hk.1, hk.2⟩, fun hk => ⟨(h k hk.2).symm ▸ hk.1, hk.2⟩⟩
  have hperm := (List.perm_ext_iff_of_nodup (m.nodup_to_list.filter _)
    (m'.nodup_to_list.filter _)).mpr hmem
  refine List.Perm.eq_of_pairwise ?_ (m.ordered_keys_toList.filter _)
    (m'.ordered_keys_toList.filter _) hperm
  intro a b _ _ hab hba
  have hswap : compare a.1 b.1 = (compare b.1 a.1).swap := OrientedCmp.eq_swap
  rw [hab, hba] at hswap
  cases hswap

/-- A map has at most one entry for a key. -/
theorem filter_to_list_key [DecidableEq κ] (m : OrdMap κ α) (k : κ) :
    (m.toList.filter fun entry => entry.1 = k) = (m[k]?.map fun a => (k, a)).toList := by
  have hmem : ∀ entry, entry ∈ (m.toList.filter fun entry => entry.1 = k) ↔
      m[k]? = some entry.2 ∧ entry.1 = k := by
    rintro ⟨j, b⟩
    rw [List.mem_filter, ExtTreeMap.mem_toList_iff_getElem?_eq_some, decide_eq_true_iff]
    exact and_congr_left fun hj => by rw [show j = k from hj]
  cases hk : m[k]? with
  | none =>
      refine List.eq_nil_iff_forall_not_mem.mpr fun entry hentry => ?_
      rw [hmem, hk] at hentry
      cases hentry.1
  | some a =>
      refine List.perm_singleton.mp ((List.perm_ext_iff_of_nodup (m.nodup_to_list.filter _)
        (List.pairwise_singleton _ _)).mpr fun entry => ?_)
      rw [hmem, hk, Option.some.injEq, List.mem_singleton, Prod.ext_iff]
      exact ⟨fun h => ⟨h.2, h.1.symm⟩, fun h => ⟨h.2.symm, h.1⟩⟩

/-- One key with a property makes one entry with it. -/
theorem length_filter_to_list [DecidableEq κ] {m : OrdMap κ α} {p : α → Bool}
    (h : ∃! k : κ, ∃ a, m[k]? = some a ∧ p a = true) :
    (m.toList.filter fun entry => p entry.2).length = 1 := by
  obtain ⟨k, ⟨a, hk, ha⟩, hunique⟩ := h
  have hfilter : (m.toList.filter fun entry => p entry.2) =
      m.toList.filter fun entry => entry.1 = k := by
    refine List.filter_congr fun entry hentry => ?_
    have hget := ExtTreeMap.mem_toList_iff_getElem?_eq_some.mp hentry
    rw [Bool.eq_iff_iff, decide_eq_true_iff]
    constructor
    · intro hp
      exact hunique _ ⟨_, hget, hp⟩
    · intro heq
      rw [heq, hk] at hget
      rwa [← Option.some.inj hget]
  rw [hfilter, filter_to_list_key, hk]
  rfl

/-- A new key adds one entry. -/
theorem to_list_insert_perm [DecidableEq κ] {m : OrdMap κ α} {k : κ} (hk : m[k]? = none) (a : α) :
    (m.insert k a).toList.Perm ((k, a) :: m.toList) := by
  have hnew : (k, a) ∉ m.toList := by simp [ExtTreeMap.mem_toList_iff_getElem?_eq_some, hk]
  refine (List.perm_ext_iff_of_nodup (nodup_to_list _)
    (List.nodup_cons.mpr ⟨hnew, m.nodup_to_list⟩)).mpr ?_
  rintro ⟨j, b⟩
  rw [ExtTreeMap.mem_toList_iff_getElem?_eq_some, get_insert, List.mem_cons,
    ExtTreeMap.mem_toList_iff_getElem?_eq_some]
  by_cases hkj : k = j
  · subst hkj
    simp [hk, eq_comm]
  · simp [hkj, Ne.symm hkj]

/-- Erasing a key leaves the entries of the other keys. -/
theorem to_list_erase [DecidableEq κ] (m : OrdMap κ α) (k : κ) :
    (m.erase k).toList = m.toList.filter fun entry => entry.1 ≠ k := by
  have hother : ∀ entry ∈ (m.erase k).toList, decide (entry.1 ≠ k) = true := by
    intro entry hentry
    have hget := ExtTreeMap.mem_toList_iff_getElem?_eq_some.mp hentry
    rw [get_erase] at hget
    split_ifs at hget with heq
    exact decide_eq_true fun h => heq h.symm
  rw [← List.filter_eq_self.mpr hother]
  refine filter_to_list_congr (p := fun j => decide (j ≠ k)) fun j hj => ?_
  rw [get_erase, if_neg fun heq => of_decide_eq_true hj heq.symm]

/-- An insertion puts one entry in the place of those of its key. -/
theorem to_list_insert_perm_erase [DecidableEq κ] (m : OrdMap κ α) (k : κ) (a : α) :
    (m.insert k a).toList.Perm ((k, a) :: (m.erase k).toList) := by
  have hinsert : m.insert k a = (m.erase k).insert k a := by
    refine ExtTreeMap.ext_getElem? fun j => ?_
    rw [get_insert, get_insert, get_erase]
    split_ifs <;> rfl
  rw [hinsert]
  exact to_list_insert_perm (by rw [get_erase, if_pos rfl]) a

/-- A search for the only entry with a property finds it. -/
theorem find_to_list {m : OrdMap κ α} {p : α → Bool} {k : κ} {a : α} (hk : m[k]? = some a)
    (hp : p a = true) (hunique : ∀ (j : κ) (b : α), m[j]? = some b → p b = true → j = k) :
    m.toList.find? (fun entry => p entry.2) = some (k, a) := by
  have hmem : (k, a) ∈ m.toList := ExtTreeMap.mem_toList_iff_getElem?_eq_some.mpr hk
  cases hfind : m.toList.find? (fun entry => p entry.2) with
  | none => exact absurd hp (List.find?_eq_none.mp hfind _ hmem)
  | some found =>
      obtain ⟨j, b⟩ := found
      have hj := ExtTreeMap.mem_toList_iff_getElem?_eq_some.mp (List.mem_of_find?_eq_some hfind)
      have hb := List.find?_some (p := fun entry : κ × α => p entry.2) hfind
      cases hunique j b hj hb
      rw [hk] at hj
      cases hj
      rfl

/-- Inserting the entries of a map into an empty one, in any order, gives the map back. -/
theorem foldl_insert_of_perm [DecidableEq κ] {m : OrdMap κ α} {entries : List (κ × α)}
    (h : entries.Perm m.toList) :
    entries.foldl (fun m' entry => m'.insert entry.1 entry.2) ∅ = m := by
  rw [← ExtTreeMap.ofList_eq_foldl]
  have hdistinct : entries.Pairwise fun a b => ¬ compare a.1 b.1 = .eq :=
    (h.pairwise_iff fun hab hba => hab (OrientedCmp.eq_symm hba)).mpr m.distinct_keys_toList
  refine ExtTreeMap.ext_getElem? fun k => ?_
  cases hk : m[k]? with
  | some a =>
      exact ExtTreeMap.getElem?_ofList_of_mem compare_self hdistinct
        (h.mem_iff.mpr (ExtTreeMap.mem_toList_iff_getElem?_eq_some.mpr hk))
  | none =>
      refine ExtTreeMap.getElem?_ofList_of_contains_eq_false ?_
      have hnot : ∀ a, (k, a) ∉ entries := by
        intro a ha
        rw [h.mem_iff, ExtTreeMap.mem_toList_iff_getElem?_eq_some, hk] at ha
        cases ha
      simpa using hnot

theorem foldl_insert_to_list [DecidableEq κ] (m : OrdMap κ α) :
    m.toList.foldl (fun m' entry => m'.insert entry.1 entry.2) ∅ = m :=
  foldl_insert_of_perm (List.Perm.refl _)

end OrdMap

/-!
## Sizes of maps

What a change of one key does to the number of entries, by what was found under the key.
-/

namespace OrdMap

open Std

variable {κ α : Type} [Ord κ] [TransOrd κ] {m : OrdMap κ α} {k : κ} {a : α}

theorem contains_of_get (h : m[k]? = some a) : m.contains k = true := by
  rw [ExtTreeMap.contains_eq_isSome_getElem?, h]
  rfl

theorem not_contains_of_get (h : m[k]? = none) : ¬ m.contains k = true := by
  rw [ExtTreeMap.contains_eq_isSome_getElem?, h]
  exact Bool.false_ne_true

theorem size_insert_of_some (h : m[k]? = some a) (b : α) : (m.insert k b).size = m.size := by
  rw [ExtTreeMap.size_insert, if_pos (contains_of_get h)]

theorem size_insert_of_none (h : m[k]? = none) (b : α) : (m.insert k b).size = m.size + 1 := by
  rw [ExtTreeMap.size_insert, if_neg (not_contains_of_get h)]

theorem size_erase_of_some (h : m[k]? = some a) : (m.erase k).size + 1 = m.size := by
  have hpos : m.size ≠ 0 := fun hzero => by
    have hempty : m = ∅ := ExtTreeMap.eq_empty_iff_size_eq_zero.mpr hzero
    rw [hempty] at h
    simp at h
  rw [ExtTreeMap.size_erase, if_pos (contains_of_get h), Nat.sub_add_cancel (Nat.pos_of_ne_zero hpos)]

end OrdMap
