import BrowsAI.ShadowDom.Registry

/-!
# Reads without privilege

What `root_for_host`, and `exposed_children` and `query_selector` without privilege, tell of a
registry. `SameOutside` relates two registries that differ in the children and selectors of closed
roots only. Read `reads_guarded_iff` first: a read gives the same in both, unless it asks for the
root of a host and that root is closed.
-/

namespace BrowsAI.ShadowDom

open Utf8 Std Profiles ShadowDomRegistry

/-! ## Two registries that differ inside closed roots -/

/-- A root, without its children if it is closed. -/
def ShadowRoot.outside (root : ShadowRoot) : ShadowRoot :=
  if root.mode = .open then root else { root with children := [] }

/-- Roots look alike from outside exactly if they differ in the children of closed roots at most. -/
theorem ShadowRoot.outside_eq_iff {root other : ShadowRoot} :
    root.outside = other.outside ↔
      root.id = other.id ∧ root.hostNode = other.hostNode ∧ root.mode = other.mode ∧
        (root.mode = .open → root.children = other.children) := by
  obtain ⟨id, hostNode, mode, children⟩ := root
  obtain ⟨id', hostNode', mode', children'⟩ := other
  cases mode <;> cases mode' <;> simp [outside]

/-- Two registries look alike from outside. -/
structure SameOutside (registry other : ShadowDomRegistry) : Prop where
  roots : ∀ id : Uuid,
    registry.roots[id]?.map ShadowRoot.outside = other.roots[id]?.map ShadowRoot.outside
  selectors : ∀ (id : Uuid) (root : ShadowRoot), registry.roots[id]? = some root →
    root.mode = .open → ∀ node : UInt64,
      registry.selectors[(id, node)]? = other.selectors[(id, node)]?

section

variable {registry other : ShadowDomRegistry} {id : Uuid} {root : ShadowRoot}

/-- A root of one registry is in the other, with the same children if it is open. -/
theorem SameOutside.exists_root (h : SameOutside registry other)
    (hroot : registry.roots[id]? = some root) :
    ∃ root', other.roots[id]? = some root' ∧ root.outside = root'.outside := by
  have hsame := h.roots id
  rw [hroot, Option.map_some] at hsame
  obtain ⟨root', hroot', heq⟩ := Option.map_eq_some_iff.mp hsame.symm
  exact ⟨root', hroot', heq.symm⟩

theorem SameOutside.get_eq_none (h : SameOutside registry other)
    (hroot : registry.roots[id]? = none) : other.roots[id]? = none := by
  have hsame := h.roots id
  rw [hroot, Option.map_none] at hsame
  exact Option.map_eq_none_iff.mp hsame.symm

theorem SameOutside.exists_root' (h : SameOutside registry other)
    (hroot : other.roots[id]? = some root) :
    ∃ root', registry.roots[id]? = some root' ∧ root'.outside = root.outside := by
  have hsame := h.roots id
  rw [hroot, Option.map_some] at hsame
  exact Option.map_eq_some_iff.mp hsame

/-- Other children and selectors of a closed root. -/
theorem same_outside_of_closed (hroot : registry.roots[id]? = some root)
    (hclosed : root.mode = .closed) {children : List UInt64}
    {selectors : OrdMap (Uuid × UInt64) (List Text)} {events : List ShadowEvent}
    (hselectors : ∀ (key : Uuid) (node : UInt64), id ≠ key →
      registry.selectors[(key, node)]? = selectors[(key, node)]?) :
    SameOutside registry
      ⟨registry.roots.insert id { root with children }, selectors, events⟩ where
  roots key := by
    rw [OrdMap.get_insert]
    split_ifs with hkey
    · subst hkey
      rw [hroot, Option.map_some, Option.map_some, Option.some.injEq, ShadowRoot.outside_eq_iff]
      exact ⟨rfl, rfl, rfl, fun hopen => nomatch hclosed.symm.trans hopen⟩
    · rfl
  selectors key found hfound hopen node := by
    refine hselectors key node ?_
    rintro rfl
    cases hroot.symm.trans hfound
    cases hclosed.symm.trans hopen

end

/-! ## The reads -/

/-- What can be read without privilege. -/
inductive Read where
  | rootForHost (hostNode : UInt64)
  | exposedChildren (root : Uuid)
  | querySelector (root : Uuid) (selector : Text)

/-- What is then told. -/
inductive Answer where
  | root (root : Option ShadowRoot)
  | nodes (nodes : Option (List UInt64))
  deriving DecidableEq

/-- What a read without privilege gives. -/
def Read.answer (registry : ShadowDomRegistry) : Read → Answer
  | .rootForHost hostNode => .root (registry.rootForHost hostNode)
  | .exposedChildren root => .nodes (registry.exposedChildren root false)
  | .querySelector root selector => .nodes (registry.querySelector root selector false)

/-- The read gives the same in every registry that differs inside closed roots only. -/
def Read.Independent (registry : ShadowDomRegistry) (read : Read) : Prop :=
  ∀ other, machine.Reaches default other → SameOutside registry other →
    read.answer other = read.answer registry

/-- The read does not ask for the root of a host whose root is closed. -/
def Read.Guarded (registry : ShadowDomRegistry) : Read → Prop
  | .rootForHost hostNode => ∀ (id : Uuid) (root : ShadowRoot),
      registry.roots[id]? = some root → root.hostNode = hostNode → root.mode = .open
  | .exposedChildren _ | .querySelector _ _ => True

section

variable {registry other : ShadowDomRegistry}

/-- The children that are told are the same. -/
theorem exposed_children_eq (h : SameOutside registry other) (id : Uuid) :
    other.exposedChildren id false = registry.exposedChildren id false := by
  rw [exposedChildren, exposedChildren]
  cases hroot : registry.roots[id]? with
  | none => rw [h.get_eq_none hroot]
  | some root =>
      obtain ⟨root', hroot', heq⟩ := h.exists_root hroot
      obtain ⟨-, -, hmode, hchildren⟩ := ShadowRoot.outside_eq_iff.mp heq
      rw [hroot', Option.map_some, Option.map_some, Option.some.injEq, ← hmode]
      by_cases hopen : root.mode = .open
      · rw [if_pos (.inl hopen), if_pos (.inl hopen), hchildren hopen]
      · have hclosed : ¬(root.mode = .open ∨ false = true) := by simpa using hopen
        rw [if_neg hclosed, if_neg hclosed]

/-- So are the nodes with a selector. -/
theorem query_selector_eq (h : SameOutside registry other) (id : Uuid) (selector : Text) :
    other.querySelector id selector false = registry.querySelector id selector false := by
  rw [querySelector, querySelector, exposed_children_eq h]
  cases hroot : registry.roots[id]? with
  | none => rw [exposedChildren, hroot]; rfl
  | some root =>
      rw [exposedChildren, hroot, Option.map_some, Option.map_some, Option.map_some]
      by_cases hopen : root.mode = .open
      · simp only [h.selectors id root hroot hopen]
      · have hclosed : ¬(root.mode = .open ∨ false = true) := by simpa using hopen
        rw [if_neg hclosed, List.filter_nil, List.filter_nil]

/-- So is the root of a host, if it is open. -/
theorem root_for_host_eq (hother : other.WellFormed) (h : SameOutside registry other)
    {hostNode : UInt64}
    (hopen : (Read.rootForHost hostNode).Guarded registry) :
    other.rootForHost hostNode = registry.rootForHost hostNode := by
  cases hfind : registry.rootForHost hostNode with
  | none =>
      refine root_for_host_eq_none.mpr fun id root hroot hhost => ?_
      obtain ⟨root', hroot', heq⟩ := h.exists_root' hroot
      exact root_for_host_eq_none.mp hfind id root' hroot'
        ((ShadowRoot.outside_eq_iff.mp heq).2.1.trans hhost)
  | some root =>
      obtain ⟨⟨id, hroot⟩, hhost⟩ := root_for_host_mem hfind
      obtain ⟨root', hroot', heq⟩ := h.exists_root hroot
      obtain ⟨hid, hhost', hmode, hchildren⟩ := ShadowRoot.outside_eq_iff.mp heq
      have hsame : root = root' := by
        cases root
        cases root'
        simp only at hid hhost' hmode hchildren
        rw [hid, hhost', hmode, hchildren (hopen id _ hroot hhost)]
      rw [← hhost, hhost', hother.root_for_host hroot', hsame]

/-- Some call gives a root other children, and touches no selectors but those of the root. -/
theorem exists_call_of_root {id : Uuid} {root : ShadowRoot}
    (hroot : registry.roots[id]? = some root) :
    ∃ (call : Call) (children : List UInt64) (selectors : OrdMap (Uuid × UInt64) (List Text))
      (events : List ShadowEvent), call.Fresh registry ∧
      call.apply registry = ⟨registry.roots.insert id { root with children }, selectors, events⟩ ∧
      children ≠ root.children ∧ ∀ (key : Uuid) (node : UInt64), id ≠ key →
        registry.selectors[(key, node)]? = selectors[(key, node)]? := by
  cases hchildren : root.children with
  | nil =>
      refine ⟨.addChild id 0, [0], registry.selectors, registry.events ++ [.childAdded id 0],
        trivial, ?_, List.cons_ne_nil _ _, fun _ _ _ => rfl⟩
      rw [Call.apply, addChild, hroot]
      dsimp only
      rw [hchildren]
      rfl
  | cons child rest =>
      have hlength : (root.children.filter fun node => node ≠ child).length ≠
          root.children.length := by
        intro hlength
        have hall := List.length_filter_eq_length_iff.mp hlength
        exact absurd rfl (of_decide_eq_true (hall child (hchildren ▸ List.mem_cons_self)))
      refine ⟨.removeChild id child, root.children.filter fun node => node ≠ child,
        registry.selectors.erase (id, child), registry.events ++ [.childRemoved id child], trivial,
        ?_, ?_, fun key node hkey => ?_⟩
      · rw [Call.apply, removeChild, hroot]
        dsimp only
        rw [if_pos hlength]
      · rw [← hchildren]
        exact fun heq => hlength (congrArg List.length heq)
      · rw [OrdMap.get_erase, if_neg fun heq => hkey (Prod.mk.inj heq).1]

/-- The root of a host tells what is in it, so a closed root may only be read with privilege. -/
theorem guarded_of_independent (hregistry : machine.Reaches default registry) {hostNode : UInt64}
    (h : (Read.rootForHost hostNode).Independent registry) :
    (Read.rootForHost hostNode).Guarded registry := by
  intro id root hroot hhost
  by_contra hopen
  have hclosed : root.mode = .closed := by
    cases hmode : root.mode
    · exact absurd hmode hopen
    · rfl
  obtain ⟨call, children, selectors, events, hfresh, hcall, hchildren, hselectors⟩ :=
    exists_call_of_root hroot
  have hother := hregistry.step call hfresh
  rw [show machine.step registry call = _ from hcall] at hother
  have hanswer := h _ hother (same_outside_of_closed hroot hclosed hselectors)
  have hfound := (well_formed_of_reaches hother).root_for_host (OrdMap.get_insert_self _ _ _)
  rw [Read.answer, Read.answer, ← hhost, (well_formed_of_reaches hregistry).root_for_host hroot,
    hfound, Answer.root.injEq, Option.some.injEq] at hanswer
  exact hchildren (congrArg ShadowRoot.children hanswer)

end

/-- In every registry that some calls lead to, each host has one root and the index of selectors
lists children only, and a read without privilege does not depend on what is inside closed roots,
exactly if it does not ask for the root of a host whose root is closed. -/
theorem reads_guarded_iff {registry : ShadowDomRegistry}
    (h : machine.Reaches default registry) (read : Read) :
    registry.WellFormed ∧ read.Independent registry ↔ read.Guarded registry := by
  have hwell := well_formed_of_reaches h
  constructor
  · rintro ⟨-, hindependent⟩
    cases read with
    | rootForHost hostNode => exact guarded_of_independent h hindependent
    | exposedChildren | querySelector => trivial
  · intro hguarded
    refine ⟨hwell, fun other hother hsame => ?_⟩
    cases read with
    | rootForHost hostNode =>
        exact congrArg Answer.root
          (root_for_host_eq (well_formed_of_reaches hother) hsame hguarded)
    | exposedChildren root => exact congrArg Answer.nodes (exposed_children_eq hsame root)
    | querySelector root selector =>
        exact congrArg Answer.nodes (query_selector_eq hsame root selector)

/-- A closed root with a child. -/
def closedRoot : ShadowDomRegistry :=
  machine.run default [.attach 1 .closed 7, .addChild 7 2]

theorem closed_root_reached : machine.Reaches default closedRoot :=
  Machine.Reaches.refl.run (show machine.AllowedRun default [.attach 1 .closed 7, .addChild 7 2]
    from ⟨rfl, trivial, trivial⟩)

/-- The children of the closed root are not told without privilege. -/
theorem reads_guarded_closed_root :
    closedRoot.WellFormed ∧ (Read.exposedChildren 7).Independent closedRoot ↔
      (Read.exposedChildren 7).Guarded closedRoot :=
  reads_guarded_iff closed_root_reached _

/-- The root of the host tells its child. -/
theorem root_for_host_tells_children :
    ¬ ∀ registry, machine.Reaches default registry →
      registry.WellFormed ∧ ∀ read : Read, read.Independent registry := by
  intro h
  have hguarded := guarded_of_independent closed_root_reached
    ((h closedRoot closed_root_reached).2 (.rootForHost 1))
  exact nomatch hguarded 7 ⟨7, 1, .closed, [2]⟩ rfl rfl

end BrowsAI.ShadowDom
