import BrowsAI.Navigation.History
import BrowsAI.Tabs.Focus

/-!
# Loaded histories

The calls keep the position of every tab inside its history, and index the history there.
`from_json` repairs the focus of a loaded manager and takes the histories as they are in the
document.
-/

namespace BrowsAI.Tabs

open Std Utf8 Network Navigation Profiles

namespace TabManager

variable {U : Type} {m m' : TabManager U} {id : TabId} {tab : Tab U}

/-- Every tab is at a position in its history, and shows the URL there. -/
def Placed (m : TabManager U) : Prop :=
  ∀ (id : TabId) (tab : Tab U), m.tabs[id]? = some tab → tab.navigation.Placed

/-! ## The calls -/

theorem Placed.insert (h : m.Placed) {navigation : NavigationState U} (hplaced : navigation.Placed)
    (htab : tab.navigation = navigation) (active : Option TabId) :
    Placed ⟨m.tabs.insert id tab, active⟩ :=
  (OrdMap.All.insert_iff (P := fun tab : Tab U => tab.navigation.Placed) h id tab).mpr
    (htab ▸ hplaced)

theorem Placed.arrive (h : m.Placed) {navigation : NavigationState U}
    (hplaced : navigation.Placed) (id : TabId) (tab : Tab U) :
    (m.arrive id tab navigation).Placed :=
  h.insert (show navigation.complete.Placed from hplaced) rfl _

/-- An activation leaves the histories alone. -/
theorem Placed.activate (h : m.Placed) (id : TabId) : (m.activate id).2.Placed := by
  cases htab : m.tabs[id]? with
  | none =>
      have hmem : ¬ m.tabs.contains id = true := by
        rw [ExtTreeMap.contains_eq_isSome_getElem?, htab]
        exact Bool.false_ne_true
      rw [TabManager.activate, if_neg hmem]
      exact h
  | some tab =>
      intro j other hother
      rw [get_activate htab, Option.map_eq_some_iff] at hother
      obtain ⟨before, hbefore, rfl⟩ := hother
      exact h j before hbefore

theorem Placed.close (h : m.Placed) (id : TabId) : (m.close id).2.Placed := by
  have herase : ∀ active : Option TabId, Placed ⟨m.tabs.erase id, active⟩ := fun _ =>
    OrdMap.All.erase (P := fun tab : Tab U => tab.navigation.Placed) h id
  rw [TabManager.close]
  split_ifs
  · dsimp only
    cases (m.tabs.erase id).keys.head? with
    | none => exact herase none
    | some active => exact (herase (some active)).activate active
  · exact herase m.active

theorem Placed.openTab (h : m.Placed) (id : TabId) (profile : ProfileId) (url : U) :
    (m.openTab id profile url).Placed :=
  h.insert (NavigationState.represents_new url).placed rfl _

/-- `back` and `forward` from a position in the history. -/
theorem Placed.travel (h : m.Placed)
    {move : NavigationState U → Option (Option U × NavigationState U)}
    (hmove : ∀ s : NavigationState U, s.Placed → ∃ url s', move s = some (url, s') ∧ s'.Placed)
    (id : TabId) : ∃ url m', m.travel move id = some (url, m') ∧ m'.Placed := by
  rw [TabManager.travel]
  cases htab : m.tabs[id]? with
  | none => exact ⟨none, m, rfl, h⟩
  | some tab =>
      obtain ⟨url, s', hmoved, hs'⟩ := hmove tab.navigation (h id tab htab)
      dsimp only
      rw [hmoved, Option.map_some]
      cases url with
      | none => exact ⟨none, m, rfl, h⟩
      | some url => exact ⟨some url, _, rfl, h.arrive hs' id tab⟩

section Runs

variable [PageUrl U] [DecidableEq U]

theorem Placed.navigate (h : m.Placed) (id : TabId) (url : U) :
    ∃ result m', m.navigate id url = some (result, m') ∧ m'.Placed := by
  rw [TabManager.navigate]
  cases htab : m.tabs[id]? with
  | none => exact ⟨none, m, rfl, h⟩
  | some tab =>
      obtain ⟨s', hstart, hs'⟩ := (h id tab htab).start url
      dsimp only
      rw [hstart, Option.map_some]
      exact ⟨some url, _, rfl, h.arrive hs' id tab⟩

/-- No call panics, and every call keeps the positions. -/
theorem Placed.perform (h : m.Placed) (op : Op U) : ∃ m', m.perform op = some m' ∧ m'.Placed := by
  cases op with
  | openTab id profile url => exact ⟨_, rfl, h.openTab id profile url⟩
  | navigate id url =>
      obtain ⟨result, m', hcall, hm'⟩ := h.navigate id url
      exact ⟨m', by rw [TabManager.perform, hcall, Option.map_some], hm'⟩
  | back id =>
      obtain ⟨result, m', hcall, hm'⟩ := h.travel (fun _ hs => hs.back) id
      exact ⟨m', by rw [TabManager.perform, TabManager.back, hcall, Option.map_some], hm'⟩
  | forward id =>
      obtain ⟨result, m', hcall, hm'⟩ := h.travel (fun _ hs => hs.forward) id
      exact ⟨m', by rw [TabManager.perform, TabManager.forward, hcall, Option.map_some], hm'⟩
  | activate id => exact ⟨_, rfl, h.activate id⟩
  | close id => exact ⟨_, rfl, h.close id⟩

end Runs

/-! ## Loading -/

/-- The loader changes no history. -/
theorem placed_normalize_active_iff (m : TabManager U) : m.normalizeActive.Placed ↔ m.Placed := by
  constructor
  · intro h id tab htab
    have hget := get_normalize_active m id
    rw [htab, Option.map_some] at hget
    have hplaced := h id _ hget
    exact hplaced
  · intro h id tab' htab'
    rw [get_normalize_active, Option.map_eq_some_iff] at htab'
    obtain ⟨tab, htab, rfl⟩ := htab'
    exact h id tab htab

/-- In every later state of a loaded manager every call returns and every tab is in its history,
exactly when every tab in the document is. -/
theorem recovered_placed_iff [PageUrl U] [DecidableEq U] (json : Json U) (text : Text) :
    (∀ m m', fromJson json text = some m → machine.Reaches m m' →
        m'.Placed ∧ ∀ op, (m'.perform op).isSome = true) ↔
      ∀ document, json.fromStr text = some document → document.Placed := by
  constructor
  · intro h document hdocument
    have hloaded : fromJson json text = some document.normalizeActive := by
      rw [fromJson, hdocument, Option.map_some]
    exact document.placed_normalize_active_iff.mp (h _ _ hloaded .refl).1
  · intro hplaced m m' hloaded hrun
    obtain ⟨document, hdocument, rfl⟩ := Option.map_eq_some_iff.mp hloaded
    have hstart := document.placed_normalize_active_iff.mpr (hplaced document hdocument)
    have hm' : m'.Placed := by
      refine hrun.invariant (P := Placed) hstart fun t op ht _ => ?_
      obtain ⟨t', hperform, ht'⟩ := ht.perform op
      show ((t.perform op).getD t).Placed
      rw [hperform]
      exact ht'
    refine ⟨hm', fun op => ?_⟩
    obtain ⟨next, hperform, _⟩ := hm'.perform op
    rw [hperform]
    rfl

/-- A tab with a URL and no history. -/
def lostTab : Tab PlainUrl :=
  { firstTab with navigation := { firstTab.navigation with history := [] } }

/-- The tab without its history. -/
def lost : TabManager PlainUrl := ⟨(∅ : OrdMap TabId (Tab PlainUrl)).insert 1 lostTab, some 1⟩

/-- The loaded tab panics when it navigates, also to the URL that it shows. -/
theorem lost_not_placed :
    (lost.normalizeActive.navigate 1 lostTab.navigation.current).isNone = true ∧
      ¬ ∀ m m', fromJson (.printed lost) (Json.manager lost) = some m → machine.Reaches m m' →
        m'.Placed ∧ ∀ op, (m'.perform op).isSome = true := by
  have hget : lost.normalizeActive.tabs[(1 : TabId)]? = some (lostTab.setActive true) := by
    rw [get_normalize_active, lost]
    dsimp only
    rw [OrdMap.get_insert_self]
    rfl
  refine ⟨?_, fun h => ?_⟩
  · rw [TabManager.navigate, hget]
    rfl
  · have hloaded : fromJson (.printed lost) (Json.manager lost) = some lost.normalizeActive := by
      rw [fromJson, Json.printed]
      dsimp only
      rw [if_pos rfl, Option.map_some]
    obtain ⟨entry, hentry, _⟩ := (h _ _ hloaded .refl).1 1 _ hget
    cases hentry

end TabManager

end BrowsAI.Tabs
