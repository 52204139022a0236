import BrowsAI.Workspaces.State
import Mathlib.Data.List.Nodup

/-!
# Restoring a workspace

What `from_checkpoint` requires of a workspace is kept by every call, with one exception: closing a
tab leaves its id in the window that lists it. A workspace can be restored all along exactly when no
listed tab is closed.
-/

namespace BrowsAI.Workspaces

open Std Utf8 Network Profiles Tabs

namespace Workspace

variable {U : Type} {w w' : Workspace U} {windows windows' : OrdMap WindowId Window}
  {profile : ProfileId}

/-! ## The id and the profile of a tab -/

/-- The two fields of a tab that do not change. -/
def identity (m : TabManager U) (id : TabId) : Option (TabId × ProfileId) :=
  m.tabs[id]?.map fun tab => (tab.id, tab.profile)

theorem identity_openTab (m : TabManager U) (id : TabId) (profile : ProfileId) (url : U)
    (j : TabId) : identity (m.openTab id profile url) j =
      if id = j then some (id, profile) else identity m j := by
  rw [identity, TabManager.openTab]
  dsimp only
  rw [OrdMap.get_insert]
  split_ifs <;> rfl

/-- An activation leaves ids and profiles alone. -/
theorem identity_activate (m : TabManager U) (id j : TabId) :
    identity (m.activate id).2 j = identity m j := by
  cases htab : m.tabs[id]? with
  | none =>
      have hmem : ¬ m.tabs.contains id = true := by
        rw [ExtTreeMap.contains_eq_isSome_getElem?, htab]
        exact Bool.false_ne_true
      rw [TabManager.activate, if_neg hmem]
  | some tab =>
      rw [identity, TabManager.get_activate htab, Option.map_map]
      rfl

/-- Closing a tab takes its own only. -/
theorem identity_close (m : TabManager U) (id j : TabId) :
    identity (m.close id).2 j = if id = j then none else identity m j := by
  have herase : ∀ active : Option TabId, identity ⟨m.tabs.erase id, active⟩ j =
      if id = j then none else identity m j := by
    intro active
    rw [identity]
    dsimp only
    rw [OrdMap.get_erase]
    split_ifs <;> rfl
  rw [TabManager.close]
  by_cases hactive : m.active = some id
  · rw [if_pos hactive]
    dsimp only
    cases (m.tabs.erase id).keys.head? with
    | none => exact herase none
    | some active => exact (identity_activate _ active j).trans (herase _)
  · rw [if_neg hactive]
    exact herase m.active

/-! ## What a checkpoint needs -/

/-- The tabs that a window lists. -/
def listing (windows : OrdMap WindowId Window) (id : WindowId) : Option (List TabId) :=
  windows[id]?.map Window.tabs

/-- No tab is listed twice. -/
structure Separate (windows : OrdMap WindowId Window) : Prop where
  nodup : ∀ id tabs, listing windows id = some tabs → tabs.Nodup
  disjoint : ∀ i j first second tab, listing windows i = some first →
    listing windows j = some second → tab ∈ first → tab ∈ second → i = j

/-- The window has the focus. -/
def FocusedAt (windows : OrdMap WindowId Window) (id : WindowId) : Prop :=
  ∃ window, windows[id]? = some window ∧ window.focused = true

/-- One window is focused when there is any. -/
def OneFocused (windows : OrdMap WindowId Window) : Prop :=
  windows = ∅ ∨ ∃! id, FocusedAt windows id

/-- What all calls keep. -/
structure Sound (profile : ProfileId) (w : Workspace U) : Prop where
  owner : w.profile = profile
  tabs : ∀ id i p, identity w.tabs id = some (i, p) → i = id ∧ p = profile
  separate : Separate w.windows
  focus : OneFocused w.windows

/-- Some window lists the tab. -/
def Lists (w : Workspace U) (tab : TabId) : Prop :=
  ∃ id tabs, listing w.windows id = some tabs ∧ tab ∈ tabs

/-- The windows list tabs only. -/
def Linked (w : Workspace U) : Prop := ∀ tab, w.Lists tab → (identity w.tabs tab).isSome

/-- `from_checkpoint` gives the workspace back. -/
def Restorable (profile : ProfileId) (w : Workspace U) : Prop :=
  fromCheckpoint w.checkpoint profile = .ok w

/-- The loop accepts a list without repetitions of tabs. -/
theorem attach_iff (tabIds attached : ExtTreeSet TabId) (tabs : List TabId) :
    attach tabIds attached tabs = true ↔
      tabs.Nodup ∧ ∀ tab ∈ tabs, tab ∈ tabIds ∧ tab ∉ attached := by
  induction tabs generalizing attached with
  | nil => exact iff_of_true rfl ⟨List.nodup_nil, fun _ h => absurd h List.not_mem_nil⟩
  | cons tab tabs ih =>
      rw [attach]
      by_cases hbad : tab ∉ tabIds ∨ tab ∈ attached
      · rw [if_pos hbad]
        refine iff_of_false Bool.false_ne_true fun h => ?_
        obtain ⟨hid, hnew⟩ := (List.forall_mem_cons.mp h.2).1
        exact hbad.elim (fun hout => hout hid) hnew
      · rw [if_neg hbad, ih, List.nodup_cons, List.forall_mem_cons]
        obtain ⟨hid, hnew⟩ := not_or.mp hbad
        simp only [ExtTreeSet.mem_insert, Std.compare_eq_iff_eq, not_or]
        constructor
        · intro ⟨hnodup, hrest⟩
          exact ⟨⟨fun hmem => (hrest tab hmem).2.1 rfl, hnodup⟩, ⟨not_not.mp hid, hnew⟩,
            fun other hother => ⟨(hrest other hother).1, (hrest other hother).2.2⟩⟩
        · intro ⟨⟨hnotmem, hnodup⟩, _, hrest⟩
          refine ⟨hnodup, fun other hother => ⟨(hrest other hother).1, ?_, (hrest other hother).2⟩⟩
          rintro rfl
          exact hnotmem hother

/-- The ids that are compared are those of the tabs. -/
theorem mem_tab_ids {m : TabManager U} {tab : TabId} (hkeyed : ∀ id i p,
    identity m id = some (i, p) → i = id) :
    tab ∈ ExtTreeSet.ofList (m.tabs.toList.map fun (_, tab) => tab.id) compare ↔
      (identity m tab).isSome := by
  rw [ExtTreeSet.mem_ofList, List.contains_iff_mem, List.mem_map, Option.isSome_iff_exists]
  constructor
  · rintro ⟨⟨id, record⟩, hentry, rfl⟩
    have hget := ExtTreeMap.mem_toList_iff_getElem?_eq_some.mp hentry
    have hidentity : identity m id = some (record.id, record.profile) := by
      rw [identity, hget]
      rfl
    exact ⟨_, (congrArg (identity m) (hkeyed _ _ _ hidentity)).trans hidentity⟩
  · rintro ⟨⟨i, p⟩, hidentity⟩
    obtain ⟨record, hget, hrecord⟩ := Option.map_eq_some_iff.mp hidentity
    refine ⟨(tab, record), ExtTreeMap.mem_toList_iff_getElem?_eq_some.mpr hget, ?_⟩
    rw [← hkeyed _ _ _ hidentity]
    exact congrArg Prod.fst hrecord

/-- No tab is listed twice. -/
theorem Separate.nodup_listed (h : Separate windows) :
    (windows.toList.flatMap fun (_, window) => window.tabs).Nodup := by
  have hlisting : ∀ entry ∈ windows.toList, listing windows entry.1 = some entry.2.tabs := by
    intro ⟨id, window⟩ hentry
    rw [listing, ExtTreeMap.mem_toList_iff_getElem?_eq_some.mp hentry]
    rfl
  rw [List.nodup_flatMap]
  constructor
  · exact fun entry hentry => h.nodup _ _ (hlisting entry hentry)
  · refine List.Pairwise.imp_of_mem ?_ ExtTreeMap.distinct_keys_toList
    intro first second hfirst hsecond hne tab htab htab'
    exact hne (Std.compare_eq_iff_eq.mpr
      (h.disjoint _ _ _ _ tab (hlisting first hfirst) (hlisting second hsecond) htab htab'))

/-- The tabs that are compared are those that are listed. -/
theorem mem_listed {tab : TabId} :
    tab ∈ (w.windows.toList.flatMap fun (_, window) => window.tabs) ↔ w.Lists tab := by
  rw [List.mem_flatMap]
  constructor
  · intro ⟨⟨id, window⟩, hentry, htab⟩
    refine ⟨id, window.tabs, ?_, htab⟩
    rw [listing, ExtTreeMap.mem_toList_iff_getElem?_eq_some.mp hentry]
    rfl
  · intro ⟨id, tabs, hlisting, htab⟩
    obtain ⟨window, hget, rfl⟩ := Option.map_eq_some_iff.mp hlisting
    exact ⟨(id, window), ExtTreeMap.mem_toList_iff_getElem?_eq_some.mpr hget, htab⟩

/-- The count of the focused windows passes. -/
theorem OneFocused.counted (h : OneFocused windows) :
    ¬ (1 < (windows.toList.filter fun (_, window) => window.focused).length ∨
      (windows.toList.filter fun (_, window) => window.focused).length = 0 ∧
        ¬ windows.isEmpty = true) := by
  rcases h with rfl | hone
  · decide
  · have hlength := OrdMap.length_filter_to_list (p := Window.focused) hone
    have hcount : (windows.toList.filter fun (_, window) => window.focused).length = 1 := hlength
    omega

/-- A sound workspace can be restored exactly if all listed tabs exist. -/
theorem Sound.restorable_iff (h : w.Sound profile) :
    w.Restorable profile ↔ w.Linked := by
  have hkeyed : ∀ id i p, identity w.tabs id = some (i, p) → i = id := fun id i p hid =>
    (h.tabs id i p hid).1
  have hprofiles : ¬ (w.tabs.tabs.toList.any fun (_, tab) => tab.profile ≠ profile) = true := by
    rw [List.any_eq_true]
    intro ⟨⟨id, tab⟩, hentry, hne⟩
    have hget := ExtTreeMap.mem_toList_iff_getElem?_eq_some.mp hentry
    have hidentity : identity w.tabs id = some (tab.id, tab.profile) := by
      rw [identity, hget]
      rfl
    exact of_decide_eq_true hne (h.tabs _ _ _ hidentity).2
  have hlinked : attach (.ofList (w.tabs.tabs.toList.map fun (_, tab) => tab.id)) ∅
      (w.windows.toList.flatMap fun (_, window) => window.tabs) = true ↔ w.Linked := by
    rw [attach_iff, and_iff_right h.separate.nodup_listed]
    simp only [mem_listed, mem_tab_ids hkeyed, ExtTreeSet.not_mem_empty, not_false_eq_true,
      and_true]
    rfl
  rw [Restorable, fromCheckpoint, checkpoint]
  dsimp only
  rw [if_neg (not_not.mpr h.owner), if_neg hprofiles, ← hlinked]
  cases attach (.ofList (w.tabs.tabs.toList.map fun (_, tab) => tab.id)) ∅
      (w.windows.toList.flatMap fun (_, window) => window.tabs) with
  | false => exact iff_of_false (fun heq => by cases heq) Bool.false_ne_true
  | true =>
      rw [Bool.not_true, if_neg Bool.false_ne_true, if_neg h.focus.counted]
      exact iff_of_true rfl rfl

/-! ## The windows after a call -/

/-- Every window of the second map lists what it lists in the first, or nothing. -/
def ListsNoMore (windows windows' : OrdMap WindowId Window) : Prop :=
  ∀ id tabs, listing windows' id = some tabs → tabs = [] ∨ listing windows id = some tabs

/-- Windows that list no more stay separate. -/
theorem Separate.of_listing (h : Separate windows) (hlisting : ListsNoMore windows windows') :
    Separate windows' where
  nodup id tabs htabs := by
    rcases hlisting id tabs htabs with rfl | hold
    · exact List.nodup_nil
    · exact h.nodup id tabs hold
  disjoint i j first second tab hfirst hsecond htab htab' := by
    rcases hlisting i first hfirst with rfl | hi
    · exact absurd htab List.not_mem_nil
    · rcases hlisting j second hsecond with rfl | hj
      · exact absurd htab' List.not_mem_nil
      · exact h.disjoint i j first second tab hi hj htab htab'

theorem focused_at_insert {id j : WindowId} {window : Window} :
    FocusedAt (windows.insert id window) j ↔
      if id = j then window.focused = true else FocusedAt windows j := by
  rw [FocusedAt, OrdMap.get_insert]
  split_ifs
  · simp only [Option.some.injEq, exists_eq_left']
  · rfl

theorem listing_create_window (w : Workspace U) (id : WindowId) (width height : UInt32)
    (j : WindowId) : listing (w.createWindow id width height).windows j =
      if id = j then some [] else listing w.windows j := by
  rw [listing, createWindow]
  dsimp only
  rw [OrdMap.get_insert]
  split_ifs <;> rfl

/-- The first window gets the focus. -/
theorem OneFocused.create_window (h : OneFocused w.windows) {id : WindowId}
    (hfresh : w.windows[id]? = none) (width height : UInt32) :
    OneFocused (w.createWindow id width height).windows := by
  rw [createWindow]
  refine Or.inr ?_
  rcases h with hempty | ⟨active, ⟨window, hget, hfocused⟩, hunique⟩
  · rw [hempty]
    refine ⟨id, focused_at_insert.mpr (by rw [if_pos rfl]; rfl), fun j hj => ?_⟩
    have hj := focused_at_insert.mp hj
    split_ifs at hj with heq
    · exact heq.symm
    · obtain ⟨window, hget, _⟩ := hj
      rw [ExtTreeMap.getElem?_empty] at hget
      cases hget
  · have hnonempty : w.windows.isEmpty = false := by
      rw [ExtTreeMap.isEmpty_eq_false_iff]
      intro hempty
      rw [hempty, ExtTreeMap.getElem?_empty] at hget
      cases hget
    have hne : id ≠ active := by
      rintro rfl
      exact Option.some_ne_none _ (hget.symm.trans hfresh)
    refine ⟨active, focused_at_insert.mpr ?_, fun j hj => ?_⟩
    · rw [if_neg hne]
      exact ⟨window, hget, hfocused⟩
    · have hj := focused_at_insert.mp hj
      split_ifs at hj
      · dsimp only at hj
        rw [hnonempty] at hj
        cases hj
      · exact hunique j hj

/-- What a focus does to each window. -/
theorem get_focus_window {id : WindowId} (hmem : w.windows.contains id = true) (j : WindowId) :
    (w.focusWindow id).2.windows[j]? =
      w.windows[j]?.map fun window => { window with focused := decide (id = j) } := by
  rw [focusWindow, if_pos hmem]
  dsimp only
  rw [OrdMap.get_modify, ExtTreeMap.getElem?_map, ExtTreeMap.getElem?_map]
  by_cases hj : id = j
  · subst hj
    rw [if_pos rfl, Option.map_map, decide_eq_true rfl]
    rfl
  · rw [if_neg hj, decide_eq_false hj]

theorem listing_focus_window (w : Workspace U) (id j : WindowId) :
    listing (w.focusWindow id).2.windows j = listing w.windows j := by
  by_cases hmem : w.windows.contains id = true
  · rw [listing, get_focus_window hmem, Option.map_map]
    rfl
  · rw [focusWindow, if_neg hmem]

/-- One window has the focus then. -/
theorem one_focused_focus_window {id : WindowId} (hmem : w.windows.contains id = true) :
    OneFocused (w.focusWindow id).2.windows := by
  have hfocused : ∀ j, FocusedAt (w.focusWindow id).2.windows j ↔ j = id := by
    intro j
    rw [FocusedAt, get_focus_window hmem]
    constructor
    · intro ⟨window, hget, hwindow⟩
      obtain ⟨before, _, rfl⟩ := Option.map_eq_some_iff.mp hget
      exact (of_decide_eq_true hwindow).symm
    · rintro rfl
      rw [ExtTreeMap.contains_eq_isSome_getElem?] at hmem
      obtain ⟨window, hget⟩ := Option.isSome_iff_exists.mp hmem
      rw [hget]
      exact ⟨_, rfl, decide_eq_true rfl⟩
  exact Or.inr ⟨id, (hfocused id).mpr rfl, fun j hj => (hfocused j).mp hj⟩

theorem OneFocused.focus_window (h : OneFocused w.windows) (id : WindowId) :
    OneFocused (w.focusWindow id).2.windows := by
  by_cases hmem : w.windows.contains id = true
  · exact one_focused_focus_window hmem
  · rw [focusWindow, if_neg hmem]
    exact h

/-- The focus and a closed window concern the windows only. -/
theorem focus_window_eq (w : Workspace U) (id : WindowId) :
    (w.focusWindow id).2 = { w with windows := (w.focusWindow id).2.windows } := by
  rw [focusWindow]
  split_ifs <;> rfl

theorem close_window_eq (w : Workspace U) (id : WindowId) :
    (w.closeWindow id).2 = { w with windows := (w.closeWindow id).2.windows } := by
  rw [closeWindow]
  dsimp only
  split_ifs
  · cases (w.windows.erase id).keys.head? with
    | none => rfl
    | some next => exact focus_window_eq _ next
  · rfl

/-- Closing a window takes its own list only. -/
theorem listing_close_window (w : Workspace U) (id j : WindowId) :
    listing (w.closeWindow id).2.windows j = if id = j then none else listing w.windows j := by
  have herase : listing (w.windows.erase id) j = if id = j then none else listing w.windows j := by
    rw [listing, OrdMap.get_erase]
    split_ifs <;> rfl
  rw [closeWindow, ← herase]
  dsimp only
  split_ifs
  · cases (w.windows.erase id).keys.head? with
    | none => rfl
    | some next => exact listing_focus_window _ next j
  · rfl

/-- The focus of a closed window passes to the first one left. -/
theorem OneFocused.close_window (h : OneFocused w.windows) (id : WindowId) :
    OneFocused (w.closeWindow id).2.windows := by
  rw [closeWindow]
  dsimp only
  split_ifs with hremoved
  · cases hhead : (w.windows.erase id).keys.head? with
    | none =>
        exact Or.inl (ExtTreeMap.keys_eq_nil_iff.mp (List.head?_eq_none_iff.mp hhead))
    | some next =>
        have hmem : next ∈ w.windows.erase id :=
          ExtTreeMap.mem_keys.mp (List.mem_of_head? hhead)
        exact one_focused_focus_window (w := { w with windows := w.windows.erase id }) hmem
  · dsimp only
    rcases h with hempty | ⟨active, ⟨window, hget, hfocused⟩, hunique⟩
    · refine Or.inl ?_
      rw [hempty]
      rfl
    · have hne : id ≠ active := by
        rintro rfl
        rw [hget] at hremoved
        exact hremoved hfocused
      refine Or.inr ⟨active, ⟨window, (OrdMap.get_erase _ _ _).trans ?_, hfocused⟩, ?_⟩
      · rw [if_neg hne, hget]
      · intro j ⟨window', hget', hfocused'⟩
        rw [OrdMap.get_erase] at hget'
        split_ifs at hget'
        exact hunique j ⟨window', hget', hfocused'⟩

/-- A tab is attached when it is one of the tabs and no window lists it. -/
theorem attach_tab_cases (w : Workspace U) (window : WindowId) (tab : TabId) :
    (w.attachTab window tab).2 = w ∨
      (identity w.tabs tab).isSome = true ∧ ¬ w.Lists tab ∧
        (w.attachTab window tab).2 = { w with windows := w.windows.modify window fun window =>
          { window with tabs := window.tabs ++ [tab] } } := by
  rw [attachTab]
  cases htab : w.tabs.tabs[tab]? with
  | none => exact Or.inl rfl
  | some tabRecord =>
      dsimp only
      split_ifs with hprofile hlisted
      · exact Or.inl rfl
      · exact Or.inl rfl
      · refine Or.inr ⟨by rw [identity, htab]; rfl, fun hlists => hlisted ?_, rfl⟩
        obtain ⟨entry, hentry, hmem⟩ := List.mem_flatMap.mp (mem_listed.mpr hlists)
        exact List.any_eq_true.mpr ⟨entry, hentry, List.contains_iff_mem.mpr hmem⟩

theorem listing_attach (windows : OrdMap WindowId Window) (window : WindowId) (tab : TabId)
    (j : WindowId) :
    listing (windows.modify window fun window => { window with tabs := window.tabs ++ [tab] }) j =
      if window = j then (listing windows j).map (· ++ [tab]) else listing windows j := by
  rw [listing, OrdMap.get_modify]
  split_ifs with hj
  · rw [hj, listing, Option.map_map, Option.map_map]
    rfl
  · rfl

/-- A tab that was not listed keeps the windows separate. -/
theorem Separate.attach (h : Separate w.windows) {tab : TabId} (hnew : ¬ w.Lists tab)
    (window : WindowId) :
    Separate (w.windows.modify window fun window =>
      { window with tabs := window.tabs ++ [tab] }) := by
  -- every list is an old one, or the changed one with the new tab at its end
  have hcases : ∀ j tabs', listing (w.windows.modify window fun window =>
      { window with tabs := window.tabs ++ [tab] }) j = some tabs' →
      ∃ tabs, listing w.windows j = some tabs ∧
        (tabs' = tabs ∨ j = window ∧ tabs' = tabs ++ [tab]) := by
    intro j tabs' htabs'
    rw [listing_attach] at htabs'
    split_ifs at htabs' with hj
    · obtain ⟨tabs, htabs, rfl⟩ := Option.map_eq_some_iff.mp htabs'
      exact ⟨tabs, htabs, Or.inr ⟨hj.symm, rfl⟩⟩
    · exact ⟨tabs', htabs', Or.inl rfl⟩
  constructor
  · intro j tabs' htabs'
    obtain ⟨tabs, htabs, rfl | ⟨_, rfl⟩⟩ := hcases j tabs' htabs'
    · exact h.nodup j tabs' htabs
    · refine List.nodup_append.mpr ⟨h.nodup j tabs htabs, List.nodup_singleton _, ?_⟩
      intro a ha b hb hab
      rw [List.mem_singleton.mp hb] at hab
      exact hnew ⟨j, tabs, htabs, hab ▸ ha⟩
  · intro i j first' second' a hfirst' hsecond' ha hb
    obtain ⟨first, hfirst, hfirsts⟩ := hcases i first' hfirst'
    obtain ⟨second, hsecond, hseconds⟩ := hcases j second' hsecond'
    have hold : a ∈ first → a ∈ second → i = j := h.disjoint i j first second a hfirst hsecond
    have hfirstmem : a ∈ first ∨ i = window ∧ a = tab := by
      rcases hfirsts with rfl | ⟨hi, rfl⟩
      · exact Or.inl ha
      · exact (List.mem_append.mp ha).imp_right fun h => ⟨hi, List.mem_singleton.mp h⟩
    have hsecondmem : a ∈ second ∨ j = window ∧ a = tab := by
      rcases hseconds with rfl | ⟨hj, rfl⟩
      · exact Or.inl hb
      · exact (List.mem_append.mp hb).imp_right fun h => ⟨hj, List.mem_singleton.mp h⟩
    rcases hfirstmem with hin | ⟨hi, rfl⟩
    · rcases hsecondmem with hin' | ⟨hj, rfl⟩
      · exact hold hin hin'
      · exact absurd ⟨i, first, hfirst, hin⟩ hnew
    · rcases hsecondmem with hin' | ⟨hj, _⟩
      · exact absurd ⟨j, second, hsecond, hin'⟩ hnew
      · exact hi.trans hj.symm

/-- It leaves the focus alone. -/
theorem OneFocused.attach (h : OneFocused windows) (window : WindowId) (tab : TabId) :
    OneFocused (windows.modify window fun window =>
      { window with tabs := window.tabs ++ [tab] }) := by
  have hfocused : ∀ j, FocusedAt (windows.modify window fun window =>
      { window with tabs := window.tabs ++ [tab] }) j ↔ FocusedAt windows j := by
    intro j
    rw [FocusedAt, OrdMap.get_modify, FocusedAt]
    split_ifs with hj
    · rw [← hj]
      cases windows[window]? <;> simp
    · rfl
  rcases h with rfl | hone
  · exact Or.inl rfl
  · refine Or.inr ?_
    simp only [hfocused]
    exact hone

/-! ## Every call -/

theorem create_window_lists_no_more (w : Workspace U) (id : WindowId) (width height : UInt32) :
    ListsNoMore w.windows (w.createWindow id width height).windows := by
  intro j tabs hj
  rw [listing_create_window] at hj
  split_ifs at hj
  · exact Or.inl (Option.some.inj hj).symm
  · exact Or.inr hj

theorem focus_window_lists_no_more (w : Workspace U) (id : WindowId) :
    ListsNoMore w.windows (w.focusWindow id).2.windows :=
  fun j _ hj => Or.inr (listing_focus_window w id j ▸ hj)

theorem close_window_lists_no_more (w : Workspace U) (id : WindowId) :
    ListsNoMore w.windows (w.closeWindow id).2.windows := by
  intro j tabs hj
  rw [listing_close_window] at hj
  split_ifs at hj
  exact Or.inr hj

/-- A new workspace is sound. -/
theorem Sound.new (id : WorkspaceId) (profile : ProfileId) :
    (Workspace.new id profile : Workspace U).Sound profile := by
  have hempty : ∀ j, listing (Workspace.new id profile : Workspace U).windows j = none := by
    intro j
    rw [listing, Workspace.new, ExtTreeMap.getElem?_empty]
    rfl
  refine ⟨rfl, fun j i p hidentity => ?_, ⟨fun j tabs htabs => ?_, ?_⟩, Or.inl rfl⟩
  · rw [identity, Workspace.new, ExtTreeMap.getElem?_empty] at hidentity
    cases hidentity
  · rw [hempty] at htabs
    cases htabs
  · intro i j first second tab hfirst
    rw [hempty] at hfirst
    cases hfirst

/-- Every step keeps it sound. -/
theorem Sound.step (h : w.Sound profile) (op : Op U) (hallowed : machine.Allowed w op) :
    (machine.step w op).Sound profile := by
  obtain ⟨howner, htabs, hseparate, hfocus⟩ := h
  cases op with
  | createWindow id width height =>
      exact ⟨howner, htabs, hseparate.of_listing (create_window_lists_no_more w id width height),
        hfocus.create_window hallowed width height⟩
  | attachTab window tab =>
      show (w.attachTab window tab).2.Sound profile
      rcases attach_tab_cases w window tab with hsame | ⟨_, hnew, hattached⟩
      · rw [hsame]
        exact ⟨howner, htabs, hseparate, hfocus⟩
      · rw [hattached]
        exact ⟨howner, htabs, hseparate.attach hnew window, hfocus.attach window tab⟩
  | focusWindow id =>
      show (w.focusWindow id).2.Sound profile
      rw [focus_window_eq]
      exact ⟨howner, htabs, hseparate.of_listing (focus_window_lists_no_more w id),
        hfocus.focus_window id⟩
  | closeWindow id =>
      show (w.closeWindow id).2.Sound profile
      rw [close_window_eq]
      exact ⟨howner, htabs, hseparate.of_listing (close_window_lists_no_more w id),
        hfocus.close_window id⟩
  | acquireLock | releaseLock | grantPermission | revokePermission =>
      exact ⟨howner, htabs, hseparate, hfocus⟩
  | openTab id url =>
      refine ⟨howner, fun j i p hj => ?_, hseparate, hfocus⟩
      have hj := (identity_openTab w.tabs id w.profile url j).symm.trans hj
      split_ifs at hj with heq
      · obtain ⟨rfl, rfl⟩ := Prod.mk.inj (Option.some.inj hj)
        exact ⟨heq, howner⟩
      · exact htabs j i p hj
  | activateTab id =>
      exact ⟨howner, fun j i p hj => htabs j i p ((identity_activate w.tabs id j).symm.trans hj),
        hseparate, hfocus⟩
  | closeTab id =>
      refine ⟨howner, fun j i p hj => ?_, hseparate, hfocus⟩
      have hj := (identity_close w.tabs id j).symm.trans hj
      split_ifs at hj
      exact htabs j i p hj

/-! ## Closing a listed tab -/

/-- A tab that a window lists is not closed. -/
def KeepsListed (w : Workspace U) : Op U → Prop
  | .closeTab id => ¬ w.Lists id
  | _ => True

/-- Windows that list no more, over the same tabs. -/
theorem Linked.of_listing (h : w.Linked) (htabs : w'.tabs = w.tabs)
    (hlisting : ListsNoMore w.windows w'.windows) : w'.Linked := by
  intro tab ⟨id, tabs, hid, hmem⟩
  rw [htabs]
  rcases hlisting id tabs hid with rfl | hold
  · exact absurd hmem List.not_mem_nil
  · exact h tab ⟨id, tabs, hold, hmem⟩

/-- A tab that is attached exists. -/
theorem Linked.attach_tab (h : w.Linked) (window : WindowId) (tab : TabId) :
    (w.attachTab window tab).2.Linked := by
  rcases attach_tab_cases w window tab with hsame | ⟨hsome, _, hattached⟩
  · rw [hsame]
    exact h
  · rw [hattached]
    intro other ⟨j, tabs, hj, hmem⟩
    have hj := (listing_attach w.windows window tab j).symm.trans hj
    split_ifs at hj
    · obtain ⟨before, hbefore, rfl⟩ := Option.map_eq_some_iff.mp hj
      rcases List.mem_append.mp hmem with hin | hlast
      · exact h other ⟨j, before, hbefore, hin⟩
      · rw [List.mem_singleton.mp hlast]
        exact hsome
    · exact h other ⟨j, tabs, hj, hmem⟩

theorem Linked.open_tab (h : w.Linked) (id : TabId) (url : U) :
    (machine.step w (.openTab id url)).Linked := by
  intro tab hlists
  show (identity (w.tabs.openTab id w.profile url) tab).isSome = true
  rw [identity_openTab]
  split_ifs
  · rfl
  · exact h tab hlists

/-- The closed tab is the one that may dangle. -/
theorem Linked.close_tab_iff (h : w.Linked) (id : TabId) :
    (machine.step w (.closeTab id)).Linked ↔ ¬ w.Lists id := by
  have hidentity : ∀ tab, identity (machine.step w (.closeTab id)).tabs tab =
      if id = tab then none else identity w.tabs tab := identity_close w.tabs id
  constructor
  · intro hlinked hlists
    have hsome := hlinked id hlists
    rw [hidentity, if_pos rfl] at hsome
    cases hsome
  · intro hkeeps tab hlists
    rw [hidentity, if_neg fun heq : id = tab => hkeeps (heq ▸ hlists)]
    exact h tab hlists

/-- A call leaves the windows without dangling ids exactly when it closes no listed tab. -/
theorem Linked.step_iff (h : w.Linked) (op : Op U) :
    (machine.step w op).Linked ↔ w.KeepsListed op := by
  cases op with
  | createWindow id width height =>
      exact iff_of_true (h.of_listing rfl (create_window_lists_no_more w id width height)) trivial
  | attachTab window tab => exact iff_of_true (h.attach_tab window tab) trivial
  | focusWindow id =>
      refine iff_of_true ?_ trivial
      show (w.focusWindow id).2.Linked
      rw [focus_window_eq]
      exact h.of_listing rfl (focus_window_lists_no_more w id)
  | closeWindow id =>
      refine iff_of_true ?_ trivial
      show (w.closeWindow id).2.Linked
      rw [close_window_eq]
      exact h.of_listing rfl (close_window_lists_no_more w id)
  | acquireLock | releaseLock | grantPermission | revokePermission => exact iff_of_true h trivial
  | openTab id url => exact iff_of_true (h.open_tab id url) trivial
  | activateTab id =>
      refine iff_of_true (fun tab hlists => ?_) trivial
      show (identity (w.tabs.activate id).2 tab).isSome = true
      rw [identity_activate]
      exact h tab hlists
  | closeTab id => exact h.close_tab_iff id

/-- Every workspace of a run can be restored from its checkpoint exactly when the run closes no tab
that a window lists. -/
theorem always_restorable_iff (id : WorkspaceId) (profile : ProfileId) (ops : List (Op U))
    (hallowed : machine.AllowedRun (new id profile) ops) :
    machine.Always (Restorable profile) (new id profile) ops ↔
      machine.Throughout KeepsListed (new id profile) ops := by
  have hnew : (new id profile : Workspace U).Sound profile := .new id profile
  refine Machine.always_iff (I := fun w : Workspace U => w.Sound profile)
    (fun w op hsound hrestorable hop => ?_) (fun w op hsound hop => hsound.step op hop) hnew
    (hnew.restorable_iff.mpr ?_) hallowed
  · rw [(hsound.step op hop).restorable_iff]
    exact (hsound.restorable_iff.mp hrestorable).step_iff op
  · intro tab ⟨j, tabs, hj, _⟩
    rw [listing, new, ExtTreeMap.getElem?_empty] at hj
    cases hj

/-- A window with a tab, and a second window that gets the focus and is closed. -/
def handOff : List (Op PlainUrl) :=
  [.createWindow 2 800 600, .openTab 3 ⟨"https", "a.example", "/"⟩, .attachTab 2 3,
    .createWindow 4 800 600, .focusWindow 4, .closeWindow 4]

theorem hand_off_restorable : machine.Always (Restorable 7) (new 1 7) handOff :=
  (always_restorable_iff 1 7 handOff ⟨rfl, rfl, trivial, rfl, trivial, trivial, trivial⟩).mpr
    ⟨trivial, trivial, trivial, trivial, trivial, trivial, trivial⟩

/-- A window lists a tab, and the tab is closed. -/
def closeListed : List (Op PlainUrl) :=
  [.createWindow 2 800 600, .openTab 3 ⟨"https", "a.example", "/"⟩, .attachTab 2 3, .closeTab 3]

/-- The checkpoint of a reachable workspace is refused. -/
theorem close_listed_not_restorable :
    fromCheckpoint (machine.run (new 1 7) closeListed).checkpoint 7 =
        .error .invalidCheckpoint ∧
      ¬ ∀ (id : WorkspaceId) (profile : ProfileId) (ops : List (Op PlainUrl)),
        machine.AllowedRun (new id profile) ops →
          machine.Always (Restorable profile) (new id profile) ops := by
  have hrefused : fromCheckpoint (machine.run (new 1 7) closeListed).checkpoint 7 =
      .error .invalidCheckpoint := rfl
  refine ⟨hrefused, fun h => ?_⟩
  have hlast := (h 1 7 closeListed ⟨rfl, rfl, trivial, trivial, trivial⟩).2.2.2.2
  have hrestored : fromCheckpoint (machine.run (new 1 7) closeListed).checkpoint 7 = .ok _ := hlast
  rw [hrefused] at hrestored
  cases hrestored

end Workspace

end BrowsAI.Workspaces
