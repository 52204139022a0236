import BrowsAI.Library.Json
import BrowsAI.Tabs.Manager
import Mathlib.Logic.ExistsUnique

/-!
# The focused tab

In a `Focused` manager the keys, the flags of the tabs and the recorded id agree on one active tab.
Every call preserves that. `from_json` establishes it exactly when the keys in the document are the
ids of their tabs, because it compares the recorded key with the id inside each tab.
-/

namespace BrowsAI.Tabs

open Std Utf8 Network Navigation Profiles

namespace TabManager

variable {U : Type} {m m' : TabManager U} {id : TabId} {tab : Tab U}

/-- The tab is flagged as active. -/
def ActiveAt (m : TabManager U) (id : TabId) : Prop :=
  ∃ tab, m.tabs[id]? = some tab ∧ tab.active = true

/-- Tabs are stored under their ids. -/
def Keyed (m : TabManager U) : Prop :=
  ∀ (id : TabId) (tab : Tab U), m.tabs[id]? = some tab → tab.id = id

/-- One tab is active when there is any, the recorded one, and the others are in the background. -/
structure Focused (m : TabManager U) : Prop where
  keyed : m.Keyed
  single : ∀ (id : TabId) (tab : Tab U), m.tabs[id]? = some tab → ∃! active, m.ActiveAt active
  recorded : ∀ id, m.active = some id ↔ m.ActiveAt id
  background : ∀ (id : TabId) (tab : Tab U), m.tabs[id]? = some tab →
    tab.background = !tab.active

/-- The flags of every tab say whether its key is the recorded one. -/
def Flagged (m : TabManager U) : Prop :=
  ∀ (id : TabId) (tab : Tab U), m.tabs[id]? = some tab →
    tab.active = decide (m.active = some id) ∧ tab.background = !tab.active

/-- The recorded key is that of a tab, and there is one if there are tabs. -/
def Chosen (m : TabManager U) : Prop :=
  match m.active with
  | some id => ∃ tab, m.tabs[id]? = some tab
  | none => ∀ id : TabId, m.tabs[id]? = none

/-- The flagged tab is the chosen one. -/
theorem active_at_iff (hflagged : m.Flagged) (hchosen : m.Chosen) :
    m.active = some id ↔ m.ActiveAt id := by
  constructor
  · intro hactive
    rw [Chosen, hactive] at hchosen
    obtain ⟨tab, htab⟩ := hchosen
    refine ⟨tab, htab, ?_⟩
    rw [(hflagged id tab htab).1, hactive]
    exact decide_eq_true rfl
  · rintro ⟨tab, htab, hactive⟩
    rw [(hflagged id tab htab).1] at hactive
    exact of_decide_eq_true hactive

/-- The three parts of the focus. -/
theorem focused_of (hkeyed : m.Keyed) (hflagged : m.Flagged) (hchosen : m.Chosen) : m.Focused where
  keyed := hkeyed
  single id tab htab := by
    cases hactive : m.active with
    | none =>
        rw [Chosen, hactive] at hchosen
        exact nomatch htab.symm.trans (hchosen id)
    | some active =>
        refine ⟨active, (active_at_iff hflagged hchosen).mp hactive, fun other hother => ?_⟩
        have hother := (active_at_iff hflagged hchosen).mpr hother
        exact Option.some.inj (hother.symm.trans hactive)
  recorded _ := active_at_iff hflagged hchosen
  background id tab htab := (hflagged id tab htab).2

theorem Focused.flagged (h : m.Focused) : m.Flagged := by
  intro id tab htab
  refine ⟨?_, h.background id tab htab⟩
  rw [Bool.eq_iff_iff, decide_eq_true_iff, h.recorded]
  constructor
  · exact fun hactive => ⟨tab, htab, hactive⟩
  · rintro ⟨tab', htab', hactive⟩
    rwa [← Option.some.inj (htab'.symm.trans htab)]

/-- There is a chosen tab if there is any. -/
theorem Focused.chosen (h : m.Focused) : m.Chosen := by
  rw [Chosen]
  cases hactive : m.active with
  | none =>
      intro id
      cases htab : m.tabs[id]? with
      | none => rfl
      | some tab =>
          obtain ⟨active, hat, _⟩ := h.single id tab htab
          exact nomatch hactive.symm.trans ((h.recorded active).mpr hat)
  | some id =>
      obtain ⟨tab, htab, _⟩ := (h.recorded id).mp hactive
      exact ⟨tab, htab⟩

/-! ## What the calls do to the flags -/

/-- Setting every flag by whether the key is the recorded one. -/
theorem focused_of_set_active (hkeyed : m.Keyed) (hchosen : m'.Chosen)
    (htabs : ∀ id : TabId, m'.tabs[id]? =
      m.tabs[id]?.map fun tab => tab.setActive (decide (m'.active = some id))) :
    m'.Focused := by
  refine focused_of (fun id tab' htab' => ?_) (fun id tab' htab' => ?_) hchosen
  · -- the flag depends on the key, so this is no map of the values alone
    rw [htabs, Option.map_eq_some_iff] at htab'
    obtain ⟨tab, htab, rfl⟩ := htab'
    exact hkeyed id tab htab
  · rw [htabs, Option.map_eq_some_iff] at htab'
    obtain ⟨tab, htab, rfl⟩ := htab'
    exact ⟨rfl, rfl⟩

/-- What an activation does to each tab. -/
theorem get_activate (htab : m.tabs[id]? = some tab) (j : TabId) :
    (m.activate id).2.tabs[j]? =
      m.tabs[j]?.map fun tab => tab.setActive (decide ((m.activate id).2.active = some j)) := by
  have hmem : m.tabs.contains id = true := by
    rw [ExtTreeMap.contains_eq_isSome_getElem?, htab]
    rfl
  rw [activate, if_pos hmem]
  dsimp only
  rw [OrdMap.get_modify, ExtTreeMap.getElem?_map, ExtTreeMap.getElem?_map]
  by_cases hj : id = j
  · subst hj
    rw [if_pos rfl, htab, decide_eq_true rfl]
    rfl
  · rw [if_neg hj, decide_eq_false fun h => hj (Option.some.inj h)]

theorem active_activate (htab : m.tabs[id]? = some tab) : (m.activate id).2.active = some id := by
  have hmem : m.tabs.contains id = true := by
    rw [ExtTreeMap.contains_eq_isSome_getElem?, htab]
    rfl
  rw [activate, if_pos hmem]

theorem Keyed.activate (h : m.Keyed) (htab : m.tabs[id]? = some tab) :
    (m.activate id).2.Focused := by
  refine focused_of_set_active h ?_ (get_activate htab)
  rw [Chosen, active_activate htab]
  have hget := get_activate htab id
  rw [htab] at hget
  exact ⟨_, hget⟩

theorem Focused.activate (h : m.Focused) (id : TabId) : (m.activate id).2.Focused := by
  cases htab : m.tabs[id]? with
  | some tab => exact h.keyed.activate htab
  | none =>
      have hmem : ¬ m.tabs.contains id = true := by
        rw [ExtTreeMap.contains_eq_isSome_getElem?, htab]
        exact Bool.false_ne_true
      rw [TabManager.activate, if_neg hmem]
      exact h

theorem Keyed.erase (h : m.Keyed) (id : TabId) (active : Option TabId) :
    Keyed ⟨m.tabs.erase id, active⟩ :=
  OrdMap.KeyedBy.erase (f := Tab.id) h id

/-- The first key is that of a tab, and there is none only without tabs. -/
theorem chosen_head (tabs : OrdMap TabId (Tab U)) : Chosen ⟨tabs, tabs.keys.head?⟩ := by
  rw [Chosen]
  dsimp only
  cases hhead : tabs.keys.head? with
  | none =>
      intro id
      have hempty : tabs = ∅ := ExtTreeMap.keys_eq_nil_iff.mp (List.head?_eq_none_iff.mp hhead)
      rw [hempty]
      simp
  | some id =>
      have hmem : id ∈ tabs := ExtTreeMap.mem_keys.mp (List.mem_of_head? hhead)
      exact Option.isSome_iff_exists.mp (ExtTreeMap.isSome_getElem?_iff_mem.mpr hmem)

/-- Closing a tab keeps the focus. -/
theorem Focused.close (h : m.Focused) (id : TabId) : (m.close id).2.Focused := by
  rw [TabManager.close]
  split_ifs with hactive
  · have hkeyed : Keyed ⟨m.tabs.erase id, (m.tabs.erase id).keys.head?⟩ := h.keyed.erase id _
    have hchosen := chosen_head (m.tabs.erase id)
    dsimp only
    cases hhead : (m.tabs.erase id).keys.head? with
    | none =>
        rw [hhead] at hkeyed hchosen
        exact focused_of hkeyed (fun j tab htab => nomatch htab.symm.trans (hchosen j)) hchosen
    | some active =>
        rw [hhead] at hkeyed hchosen
        obtain ⟨tab, htab⟩ := hchosen
        exact hkeyed.activate htab
  · refine focused_of (h.keyed.erase id m.active) (fun j tab htab => ?_) ?_
    · dsimp only at htab
      rw [OrdMap.get_erase] at htab
      split_ifs at htab
      exact h.flagged j tab htab
    · have hchosen := h.chosen
      rw [Chosen] at hchosen ⊢
      dsimp only
      cases hrecorded : m.active with
      | none =>
          rw [hrecorded] at hchosen
          intro j
          rw [OrdMap.get_erase, hchosen j, ite_self]
      | some active =>
          rw [hrecorded] at hchosen hactive
          have hne : id ≠ active := fun heq => hactive (congrArg some heq.symm)
          obtain ⟨tab, htab⟩ := hchosen
          exact ⟨tab, by rw [OrdMap.get_erase, if_neg hne, htab]⟩

/-- So does opening one. -/
theorem Focused.openTab (h : m.Focused) (hfresh : m.tabs[id]? = none) (profile : ProfileId)
    (url : U) : (m.openTab id profile url).Focused := by
  have hchosen := h.chosen
  have hkeyed : (m.openTab id profile url).Keyed :=
    OrdMap.KeyedBy.insert (f := Tab.id) h.keyed rfl
  refine focused_of hkeyed (fun j tab htab => ?_) ?_
  · rw [TabManager.openTab] at htab ⊢
    dsimp only at htab ⊢
    rw [OrdMap.get_insert] at htab
    by_cases hj : id = j
    · rw [if_pos hj] at htab
      rw [← Option.some.inj htab, ← hj]
      cases hactive : m.active with
      | none => simp
      | some active =>
          -- the recorded tab is there, so it is not the new one
          rw [Chosen, hactive] at hchosen
          obtain ⟨tab', htab'⟩ := hchosen
          have hne : active ≠ id := by
            rintro rfl
            exact nomatch htab'.symm.trans hfresh
          simp [hne]
    · rw [if_neg hj] at htab
      cases hactive : m.active with
      | none =>
          rw [Chosen, hactive] at hchosen
          exact nomatch htab.symm.trans (hchosen j)
      | some active =>
          have hflags := h.flagged j tab htab
          rw [hactive] at hflags
          exact hflags
  · rw [Chosen, TabManager.openTab]
    dsimp only
    cases hactive : m.active with
    | none => exact ⟨_, OrdMap.get_insert_self _ _ _⟩
    | some active =>
        rw [Chosen, hactive] at hchosen
        obtain ⟨tab, htab⟩ := hchosen
        have hne : id ≠ active := by
          rintro rfl
          exact nomatch htab.symm.trans hfresh
        exact ⟨tab, (OrdMap.get_insert_ne _ hne _).trans htab⟩

/-- So does a tab that arrives at a page. -/
theorem Focused.arrive (h : m.Focused) (htab : m.tabs[id]? = some tab)
    (navigation : NavigationState U) : (m.arrive id tab navigation).Focused := by
  have hget : ∀ j : TabId, (m.arrive id tab navigation).tabs[j]? = if id = j then
      some { tab with navigation := navigation.complete, generation := tab.generation + 1 }
      else m.tabs[j]? := OrdMap.get_insert _ _ _
  have hchosen := h.chosen
  have hkeyed : (m.arrive id tab navigation).Keyed :=
    OrdMap.KeyedBy.insert (f := Tab.id) h.keyed (h.keyed id tab htab)
  refine focused_of hkeyed (fun j tab' htab' => ?_) ?_
  · rw [hget] at htab'
    split_ifs at htab' with hj
    · rw [← Option.some.inj htab', ← hj]
      exact h.flagged id tab htab
    · exact h.flagged j tab' htab'
  · rw [Chosen] at hchosen ⊢
    show match m.active with | some id => _ | none => _
    cases hactive : m.active with
    | none =>
        rw [hactive] at hchosen
        exact nomatch htab.symm.trans (hchosen id)
    | some active =>
        rw [hactive] at hchosen
        obtain ⟨tab', htab'⟩ := hchosen
        by_cases hj : id = active
        · exact ⟨_, (hget active).trans (if_pos hj)⟩
        · exact ⟨tab', (hget active).trans ((if_neg hj).trans htab')⟩

/-- So does a move in its history. -/
theorem Focused.travel (h : m.Focused)
    {move : NavigationState U → Option (Option U × NavigationState U)} {url : Option U}
    (hmoved : m.travel move id = some (url, m')) : m'.Focused := by
  rw [TabManager.travel] at hmoved
  cases htab : m.tabs[id]? with
  | none =>
      rw [htab] at hmoved
      cases hmoved
      exact h
  | some tab =>
      rw [htab] at hmoved
      obtain ⟨⟨_ | url', navigation⟩, _, hresult⟩ := Option.map_eq_some_iff.mp hmoved
      · cases hresult
        exact h
      · cases hresult
        exact h.arrive htab navigation

section Runs

variable [PageUrl U] [DecidableEq U]

/-- So does a navigation. -/
theorem Focused.navigate (h : m.Focused) {url : U} {result : Option U}
    (hnavigated : m.navigate id url = some (result, m')) : m'.Focused := by
  rw [TabManager.navigate] at hnavigated
  cases htab : m.tabs[id]? with
  | none =>
      rw [htab] at hnavigated
      cases hnavigated
      exact h
  | some tab =>
      rw [htab] at hnavigated
      obtain ⟨navigation, _, hresult⟩ := Option.map_eq_some_iff.mp hnavigated
      cases hresult
      exact h.arrive htab navigation

/-- Every call that returns leaves a focused manager focused. -/
theorem Focused.step (h : m.Focused) (op : Op U) (hallowed : machine.Allowed m op) :
    (machine.step m op).Focused := by
  obtain ⟨m', hm'⟩ := Option.isSome_iff_exists.mp hallowed.1
  have hstep : machine.step m op = m' := by
    show (m.perform op).getD m = m'
    rw [hm']
    rfl
  rw [hstep]
  cases op with
  | openTab id profile url =>
      obtain rfl := Option.some.inj hm'
      exact h.openTab (hallowed.2 id profile url rfl) profile url
  | navigate id url =>
      obtain ⟨⟨_, _⟩, hcall, rfl⟩ := Option.map_eq_some_iff.mp hm'
      exact h.navigate hcall
  | back id | forward id =>
      obtain ⟨⟨_, _⟩, hcall, rfl⟩ := Option.map_eq_some_iff.mp hm'
      exact h.travel hcall
  | activate id =>
      obtain rfl := Option.some.inj hm'
      exact h.activate id
  | close id =>
      obtain rfl := Option.some.inj hm'
      exact h.close id

end Runs

/-! ## Loading -/

theorem get_normalize_active (m : TabManager U) (id : TabId) :
    m.normalizeActive.tabs[id]? =
      m.tabs[id]?.map fun tab => tab.setActive (decide (m.normalizeActive.active = some tab.id)) :=
  ExtTreeMap.getElem?_map

/-- A recovered manager has a chosen tab. -/
theorem chosen_normalize_active (m : TabManager U) : m.normalizeActive.Chosen := by
  have hget : ∀ id : TabId, m.normalizeActive.tabs[id]? = none ↔ m.tabs[id]? = none := fun id => by
    rw [get_normalize_active, Option.map_eq_none_iff]
  have hchosen := chosen_head m.tabs
  rw [Chosen] at hchosen ⊢
  show match (m.active.filter m.tabs.contains).or m.tabs.keys.head? with
    | some id => _
    | none => _
  cases hactive : m.active.filter m.tabs.contains with
  | some id =>
      obtain ⟨_, hmem⟩ := Option.filter_eq_some_iff.mp hactive
      rw [ExtTreeMap.contains_eq_isSome_getElem?] at hmem
      refine Option.ne_none_iff_exists'.mp fun hnone => ?_
      rw [(hget id).mp hnone] at hmem
      cases hmem
  | none =>
      rw [Option.none_or]
      dsimp only at hchosen
      cases hhead : m.tabs.keys.head? with
      | none =>
          rw [hhead] at hchosen
          exact fun id => (hget id).mpr (hchosen id)
      | some id =>
          rw [hhead] at hchosen
          obtain ⟨tab, htab⟩ := hchosen
          refine Option.ne_none_iff_exists'.mp fun hnone => ?_
          exact nomatch htab.symm.trans ((hget id).mp hnone)

/-- The loader repairs the flags exactly when the keys are the ids. -/
theorem focused_normalize_active_iff (m : TabManager U) :
    m.normalizeActive.Focused ↔ m.Keyed := by
  constructor
  · intro h id tab htab
    have hget := get_normalize_active m id
    rw [htab, Option.map_some] at hget
    have hid := h.keyed id _ hget
    exact hid
  · intro hkeyed
    refine focused_of_set_active hkeyed m.chosen_normalize_active fun id => ?_
    rw [get_normalize_active]
    cases htab : m.tabs[id]? with
    | none => rfl
    | some tab => rw [Option.map_some, Option.map_some, hkeyed id tab htab]

/-- Every later state of a loaded manager is focused exactly when every key in the document is the
id of its tab. -/
theorem recovered_focused_iff [PageUrl U] [DecidableEq U] (json : Json U) (text : Text) :
    (∀ m m', fromJson json text = some m → machine.Reaches m m' → m'.Focused) ↔
      ∀ document, json.fromStr text = some document → document.Keyed := by
  constructor
  · intro h document hdocument
    have hloaded : fromJson json text = some document.normalizeActive := by
      rw [fromJson, hdocument, Option.map_some]
    exact document.focused_normalize_active_iff.mp (h _ _ hloaded .refl)
  · intro hkeyed m m' hloaded hrun
    obtain ⟨document, hdocument, rfl⟩ := Option.map_eq_some_iff.mp hloaded
    have hstart := document.focused_normalize_active_iff.mpr (hkeyed document hdocument)
    exact hrun.invariant (P := Focused) hstart fun _ op h hallowed => h.step op hallowed

end TabManager

/-! ## JSON text -/

namespace Json

open JsonPrint (quote object array bool orNull)

/-- The JSON of a number. -/
def number (n : UInt64) : Text := ofNat n.toNat

/-- The JSON of a status. -/
def status : NavigationStatus → Text
  | .idle => quote "Idle"
  | .loading => quote "Loading"
  | .stopped => quote "Stopped"
  | .failed reason => object [("Failed", quote reason)]

variable [Url U]

/-- The JSON of a history entry. -/
def entry (entry : HistoryEntry U) : Text :=
  object [("url", quote (Url.asStr entry.url)), ("title", orNull (entry.title.map quote))]

/-- The JSON of a history. -/
def navigation (s : NavigationState U) : Text :=
  object [("current", quote (Url.asStr s.current)), ("history", array (s.history.map entry)),
    ("index", number s.index), ("status", status s.status), ("generation", number s.generation)]

/-- The JSON of a policy. -/
def execution (policy : TabExecutionPolicy) : Text :=
  object [("max_tasks_per_tick", ofNat policy.maxTasksPerTick.toNat),
    ("minimum_timer_interval_millis", ofNat policy.minimumTimerIntervalMillis.toNat)]

/-- The JSON of a tab. -/
def tab (tab : Tab U) : Text :=
  object [("id", quote (hyphenated tab.id)), ("profile", quote (hyphenated tab.profile)),
    ("navigation", navigation tab.navigation), ("active", bool tab.active),
    ("background", bool tab.background), ("generation", number tab.generation),
    ("execution", execution tab.execution)]

/-- The JSON of a manager. -/
def manager (m : TabManager U) : Text :=
  object [("tabs", object (m.tabs.toList.map fun (id, t) => (hyphenated id, tab t))),
    ("active", orNull (m.active.map fun id => quote (hyphenated id)))]

/-- A reader of the text of one manager. -/
def printed (value : TabManager U) : Json U where
  fromStr text := if text = manager value then some value else none

end Json

namespace TabManager

/-- A tab. -/
def firstTab : Tab PlainUrl where
  id := 1
  profile := 7
  navigation := .new ⟨"https", "a.example", "/"⟩
  active := true
  background := false
  generation := 0
  execution := .foreground

/-- The same tab under two keys. -/
def twice : TabManager PlainUrl :=
  ⟨((∅ : OrdMap TabId (Tab PlainUrl)).insert 1 firstTab).insert 2 firstTab, some 1⟩

/-- Two focused tabs after loading. -/
theorem twice_not_focused :
    twice.normalizeActive.ActiveAt 1 ∧ twice.normalizeActive.ActiveAt 2 ∧
      ¬ ∀ m m', fromJson (.printed twice) (Json.manager twice) = some m →
        machine.Reaches m m' → m'.Focused := by
  have hget : ∀ id : TabId, twice.tabs[id]? = some firstTab → twice.normalizeActive.ActiveAt id :=
    fun id hid => ⟨firstTab.setActive true, by
      rw [get_normalize_active, hid]
      rfl, rfl⟩
  refine ⟨hget 1 rfl, hget 2 rfl, fun h => ?_⟩
  have hloaded : fromJson (.printed twice) (Json.manager twice) = some twice.normalizeActive := by
    rw [fromJson, Json.printed]
    dsimp only
    rw [if_pos rfl, Option.map_some]
  have hkeyed := twice.focused_normalize_active_iff.mp (h _ _ hloaded .refl)
  exact absurd (hkeyed 2 firstTab rfl) (by decide)

end TabManager

end BrowsAI.Tabs
