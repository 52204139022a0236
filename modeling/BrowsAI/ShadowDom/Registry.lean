import BrowsAI.Library.OrdMap
import BrowsAI.Library.Runs
import BrowsAI.Library.Utf8
import BrowsAI.Profiles.Identity

/-!
# The shadow roots

`ShadowDomRegistry` of `crates/shadow-dom`. Each host has one root, and every entry of the index of
selectors belongs to a child of its root (`WellFormed`), however the roots and their children come
and go.
-/

namespace BrowsAI.ShadowDom

open Utf8 Std Profiles

/-- Whether a root can be looked into. -/
inductive ShadowRootMode where
  | open | closed
  deriving DecidableEq

/-- A root and the nodes below it. -/
structure ShadowRoot where
  id : Uuid
  hostNode : UInt64
  mode : ShadowRootMode
  children : List UInt64
  deriving DecidableEq

/-- What is told of roots. -/
inductive ShadowEvent where
  | rootAttached (rootId : Uuid) (hostNode : UInt64)
  | childAdded (rootId : Uuid) (node : UInt64)
  | childRemoved (rootId : Uuid) (node : UInt64)
  deriving DecidableEq

/-- The roots by id, and the selectors of their nodes. -/
structure ShadowDomRegistry where
  roots : OrdMap Uuid ShadowRoot
  selectors : OrdMap (Uuid × UInt64) (List Text)
  events : List ShadowEvent

/-- `ShadowDomRegistry::default()`. -/
instance : Inhabited ShadowDomRegistry := ⟨⟨∅, ∅, []⟩⟩

namespace ShadowDomRegistry

variable (registry : ShadowDomRegistry)

/-- The first root of a host. -/
def rootForHost (hostNode : UInt64) : Option ShadowRoot :=
  registry.roots.values.find? fun root => root.hostNode = hostNode

/-- `newV4` is the id that `Uuid::new_v4` makes. -/
def attach (hostNode : UInt64) (mode : ShadowRootMode) (newV4 : Uuid) :
    Uuid × ShadowDomRegistry :=
  match registry.rootForHost hostNode with
  | some existing => (existing.id, registry)
  | none =>
      (newV4, { registry with
        roots := registry.roots.insert newV4 ⟨newV4, hostNode, mode, []⟩
        events := registry.events ++ [.rootAttached newV4 hostNode] })

/-- Adds a node below a root, once. -/
def addChild (root : Uuid) (node : UInt64) : Bool × ShadowDomRegistry :=
  match registry.roots[root]? with
  | none => (false, registry)
  | some found =>
      if found.children.contains node then (false, registry)
      else
        (true, { registry with
          roots := registry.roots.insert root { found with children := found.children ++ [node] }
          events := registry.events ++ [.childAdded root node] })

/-- Removes a node with its selectors. -/
def removeChild (root : Uuid) (node : UInt64) : Bool × ShadowDomRegistry :=
  match registry.roots[root]? with
  | none => (false, registry)
  | some found =>
      let children := found.children.filter fun child => child ≠ node
      let roots := registry.roots.insert root { found with children }
      if children.length ≠ found.children.length then
        (true, { roots
                 selectors := registry.selectors.erase (root, node)
                 events := registry.events ++ [.childRemoved root node] })
      else (false, { registry with roots })

/-- The nodes below a root, if it is open or the reader is privileged. -/
def exposedChildren (root : Uuid) (privileged : Bool) : Option (List UInt64) :=
  registry.roots[root]?.map fun root =>
    if root.mode = .open ∨ privileged then root.children else []

/-- A node without an entry gets one only together with its first selector. -/
def addSelector (root : Uuid) (node : UInt64) (selector : Text) : Bool × ShadowDomRegistry :=
  match registry.roots[root]? with
  | none => (false, registry)
  | some shadowRoot =>
      if !shadowRoot.children.contains node then (false, registry)
      else
        let selectors := registry.selectors[(root, node)]?.getD []
        if selectors.contains selector then (false, registry)
        else
          (true, { registry with
            selectors := registry.selectors.insert (root, node) (selectors ++ [selector]) })

/-- Those with a selector. -/
def querySelector (root : Uuid) (selector : Text) (privileged : Bool) : Option (List UInt64) :=
  (registry.exposedChildren root privileged).map fun children =>
    children.filter fun node =>
      registry.selectors[(root, node)]?.any fun selectors => selectors.contains selector

/-! ## Well-formed registries -/

/-- Roots are stored under their ids, a host has one root at most, and only nodes below a root have
selectors. -/
structure WellFormed : Prop where
  keyed : OrdMap.KeyedBy ShadowRoot.id registry.roots
  oneRoot : ∀ (id id' : Uuid) (root root' : ShadowRoot), registry.roots[id]? = some root →
    registry.roots[id']? = some root' → root.hostNode = root'.hostNode → id = id'
  selectors : ∀ (id : Uuid) (node : UInt64) (selectors : List Text),
    registry.selectors[(id, node)]? = some selectors →
    ∃ root, registry.roots[id]? = some root ∧ node ∈ root.children

variable {registry}

theorem root_for_host_mem {hostNode : UInt64} {root : ShadowRoot}
    (h : registry.rootForHost hostNode = some root) :
    (∃ id : Uuid, registry.roots[id]? = some root) ∧ root.hostNode = hostNode := by
  have hmem := List.mem_of_find?_eq_some h
  rw [OrdMap.values_eq, OrdMap.mem_values] at hmem
  exact ⟨hmem, by simpa using List.find?_some h⟩

/-- A host without a root. -/
theorem root_for_host_eq_none {hostNode : UInt64} :
    registry.rootForHost hostNode = none ↔
      ∀ (id : Uuid) (root : ShadowRoot), registry.roots[id]? = some root →
        root.hostNode ≠ hostNode := by
  rw [rootForHost, List.find?_eq_none]
  constructor
  · intro h id root hroot
    have hmem : root ∈ registry.roots.values := by
      rw [OrdMap.values_eq, OrdMap.mem_values]
      exact ⟨id, hroot⟩
    simpa using h root hmem
  · intro h root hmem
    rw [OrdMap.values_eq, OrdMap.mem_values] at hmem
    obtain ⟨id, hroot⟩ := hmem
    simpa using h id root hroot

/-- A host leads to its root. -/
theorem WellFormed.root_for_host (h : registry.WellFormed) {id : Uuid} {root : ShadowRoot}
    (hroot : registry.roots[id]? = some root) :
    registry.rootForHost root.hostNode = some root := by
  cases hfind : registry.rootForHost root.hostNode with
  | none => exact absurd rfl (root_for_host_eq_none.mp hfind id root hroot)
  | some found =>
      obtain ⟨⟨id', hfound⟩, hhost⟩ := root_for_host_mem hfind
      obtain rfl := h.oneRoot id id' root found hroot hfound hhost.symm
      exact hfound.symm.trans hroot

theorem well_formed_default : (default : ShadowDomRegistry).WellFormed where
  keyed _ _ hroot := by
    cases ExtTreeMap.getElem?_empty.symm.trans hroot
  oneRoot _ _ _ _ hroot := by
    cases ExtTreeMap.getElem?_empty.symm.trans hroot
  selectors _ _ _ hselectors := by
    cases ExtTreeMap.getElem?_empty.symm.trans hselectors

/-- Other children for a root: those that still have selectors have to be among them. -/
theorem WellFormed.set_children (h : registry.WellFormed) {id : Uuid} {root : ShadowRoot}
    (hroot : registry.roots[id]? = some root) {children : List UInt64}
    {selectors : OrdMap (Uuid × UInt64) (List Text)} {events : List ShadowEvent}
    (hselectors : ∀ (other : Uuid) (node : UInt64) (entry : List Text),
      selectors[(other, node)]? = some entry →
      registry.selectors[(other, node)]? = some entry ∧ (other = id → node ∈ children)) :
    WellFormed ⟨registry.roots.insert id { root with children }, selectors, events⟩ where
  keyed := h.keyed.insert (h.keyed id root hroot)
  oneRoot first second found found' hfound hfound' hhost := by
    have hold : ∀ (key : Uuid) (held : ShadowRoot),
        (registry.roots.insert id { root with children })[key]? = some held →
        ∃ before, registry.roots[key]? = some before ∧ before.hostNode = held.hostNode := by
      intro key held hheld
      rw [OrdMap.get_insert] at hheld
      split_ifs at hheld with hkey
      · cases hheld
        exact ⟨root, hkey ▸ hroot, rfl⟩
      · exact ⟨held, hheld, rfl⟩
    obtain ⟨before, hbefore, hhost₁⟩ := hold first found hfound
    obtain ⟨before', hbefore', hhost₂⟩ := hold second found' hfound'
    exact h.oneRoot first second before before' hbefore hbefore'
      (hhost₁.trans (hhost.trans hhost₂.symm))
  selectors other node entry hentry := by
    obtain ⟨hentry, hmem⟩ := hselectors other node entry hentry
    by_cases hother : id = other
    · exact ⟨_, by rw [OrdMap.get_insert, if_pos hother], hmem hother.symm⟩
    · obtain ⟨found, hfound, hnode⟩ := h.selectors other node entry hentry
      exact ⟨found, by rw [OrdMap.get_insert, if_neg hother, hfound], hnode⟩

/-- A new root keeps the registry well formed. -/
theorem WellFormed.attach (h : registry.WellFormed) (hostNode : UInt64) (mode : ShadowRootMode)
    {newV4 : Uuid} (hnew : registry.roots[newV4]? = none) :
    (registry.attach hostNode mode newV4).2.WellFormed := by
  rw [ShadowDomRegistry.attach]
  cases hfind : registry.rootForHost hostNode with
  | some existing => exact h
  | none =>
      have hother := root_for_host_eq_none.mp hfind
      refine ⟨h.keyed.insert rfl, fun id id' root root' hroot hroot' hhost => ?_,
        fun id node selectors hselectors => ?_⟩
      · rw [OrdMap.get_insert] at hroot hroot'
        split_ifs at hroot hroot' with hid hid'
        · exact hid.symm.trans hid'
        · cases hroot
          exact absurd hhost.symm (hother id' root' hroot')
        · cases hroot'
          exact absurd hhost (hother id root hroot)
        · exact h.oneRoot id id' root root' hroot hroot' hhost
      · obtain ⟨root, hroot, hmem⟩ := h.selectors id node selectors hselectors
        have hid : newV4 ≠ id := by
          rintro rfl
          rw [hnew] at hroot
          cases hroot
        exact ⟨root, by rw [OrdMap.get_insert, if_neg hid, hroot], hmem⟩

/-- So does a new node. -/
theorem WellFormed.add_child (h : registry.WellFormed) (root : Uuid) (node : UInt64) :
    (registry.addChild root node).2.WellFormed := by
  rw [addChild]
  cases hroot : registry.roots[root]? with
  | none => exact h
  | some found =>
      dsimp only
      split_ifs
      · exact h
      · refine h.set_children hroot fun other child entry hentry => ⟨hentry, ?_⟩
        rintro rfl
        obtain ⟨found', hfound', hmem⟩ := h.selectors other child entry hentry
        cases hroot.symm.trans hfound'
        exact List.mem_append_left _ hmem

/-- So does one that is removed. -/
theorem WellFormed.remove_child (h : registry.WellFormed) (root : Uuid) (node : UInt64) :
    (registry.removeChild root node).2.WellFormed := by
  rw [removeChild]
  cases hroot : registry.roots[root]? with
  | none => exact h
  | some found =>
      have hchild : ∀ child entry, registry.selectors[(root, child)]? = some entry →
          child ∈ found.children := by
        intro child entry hentry
        obtain ⟨found', hfound', hmem⟩ := h.selectors root child entry hentry
        cases hroot.symm.trans hfound'
        exact hmem
      dsimp only
      split_ifs with hlength
      · refine h.set_children hroot fun other child entry hentry => ?_
        rw [OrdMap.get_erase] at hentry
        split_ifs at hentry with hkey
        refine ⟨hentry, ?_⟩
        rintro rfl
        have hne : child ≠ node := fun hne => hkey (by rw [hne])
        exact List.mem_filter.mpr ⟨hchild child entry hentry, by simpa using hne⟩
      · -- nothing was removed, so the list of children is as it was
        have hsame := List.filter_sublist.eq_of_length (not_not.mp hlength)
        refine h.set_children hroot fun other child entry hentry => ⟨hentry, ?_⟩
        rintro rfl
        rw [hsame]
        exact hchild child entry hentry

/-- So does a selector. -/
theorem WellFormed.add_selector (h : registry.WellFormed) (root : Uuid) (node : UInt64)
    (selector : Text) : (registry.addSelector root node selector).2.WellFormed := by
  rw [addSelector]
  cases hroot : registry.roots[root]? with
  | none => exact h
  | some found =>
      dsimp only
      split_ifs with hchild
      · exact h
      · exact h
      · refine ⟨h.keyed, h.oneRoot, fun id child entry hentry => ?_⟩
        rw [OrdMap.get_insert] at hentry
        split_ifs at hentry with hkey
        · cases hkey
          exact ⟨found, hroot, by simpa using hchild⟩
        · exact h.selectors id child entry hentry

end ShadowDomRegistry

/-! ## Runs -/

/-- A call. -/
inductive Call where
  | attach (hostNode : UInt64) (mode : ShadowRootMode) (newV4 : Uuid)
  | addChild (root : Uuid) (node : UInt64)
  | removeChild (root : Uuid) (node : UInt64)
  | addSelector (root : Uuid) (node : UInt64) (selector : Text)

/-- The registry after a call. -/
def Call.apply (registry : ShadowDomRegistry) : Call → ShadowDomRegistry
  | .attach hostNode mode newV4 => (registry.attach hostNode mode newV4).2
  | .addChild root node => (registry.addChild root node).2
  | .removeChild root node => (registry.removeChild root node).2
  | .addSelector root node selector => (registry.addSelector root node selector).2

/-- `Uuid::new_v4` makes an id that no root has. -/
def Call.Fresh (registry : ShadowDomRegistry) : Call → Prop
  | .attach _ _ newV4 => registry.roots[newV4]? = none
  | _ => True

/-- The calls in any order. -/
def machine : Machine ShadowDomRegistry Call where
  step := Call.apply
  Allowed := Call.Fresh

theorem well_formed_of_reaches {registry : ShadowDomRegistry}
    (h : machine.Reaches default registry) : registry.WellFormed := by
  refine h.invariant ShadowDomRegistry.well_formed_default fun _ call hwell hfresh => ?_
  cases call with
  | attach hostNode mode newV4 => exact hwell.attach hostNode mode hfresh
  | addChild root node => exact hwell.add_child root node
  | removeChild root node => exact hwell.remove_child root node
  | addSelector root node selector => exact hwell.add_selector root node selector

end BrowsAI.ShadowDom
