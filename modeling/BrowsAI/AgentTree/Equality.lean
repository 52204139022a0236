import BrowsAI.AgentTree.Basic

/-!
# Equality of nodes

`PartialEq` of `AgentNode` compares its floats as floats: a NaN is equal to nothing, not even to
itself, and the two zeros are equal. Nodes that compare equal agree up to the sign of their zeros,
`normalized_eq_of_partial_eq`.
-/

namespace BrowsAI.AgentTree

/-- The float with the sign of a zero forgotten. -/
def F64.normalized : F64 → F64
  | .negativeZero => .finite 0
  | x => x

/-- `==` of `f64`. -/
def F64.partialEq (x y : F64) : Bool :=
  x != .nan && x.normalized == y.normalized

/-- `<` of `f64`. -/
def F64.lt (x y : F64) : Bool :=
  match x.normalized, y.normalized with
  | .finite p, .finite q => p < q
  | .infinity negative, .finite _ => negative
  | .finite _, .infinity negative => !negative
  | .infinity negative, .infinity negative' => negative && !negative'
  | _, _ => false

/-- `<=` of `f64`. -/
def F64.le (x y : F64) : Bool := x.lt y || x.partialEq y

/-- `+` without rounding. -/
def F64.exactAdd (x y : F64) : F64 :=
  match x.normalized, y.normalized with
  | .finite p, .finite q => .finite (p + q)
  | .infinity negative, .finite _ => .infinity negative
  | .finite _, .infinity negative => .infinity negative
  | .infinity negative, .infinity negative' =>
      if negative = negative' then .infinity negative else .nan
  | _, _ => .nan

/-- `==` of an `Option`, for `==` of its values. -/
def optionEq {α : Type} (eq : α → α → Bool) : Option α → Option α → Bool
  | none, none => true
  | some a, some b => eq a b
  | _, _ => false

/-- The value with both zeros taken for one. -/
def AgentValue.normalized : AgentValue → AgentValue
  | .number n => .number n.normalized
  | value => value

/-- `==` of `AgentValue`. -/
def AgentValue.partialEq : AgentValue → AgentValue → Bool
  | .number m, .number n => m.partialEq n
  | value, other => value == other

/-- The box with both zeros taken for one. -/
def Geometry.normalized (box : Geometry) : Geometry :=
  ⟨box.x.normalized, box.y.normalized, box.width.normalized, box.height.normalized⟩

/-- `==` of `Geometry`. -/
def Geometry.partialEq (box other : Geometry) : Bool :=
  box.x.partialEq other.x && box.y.partialEq other.y && box.width.partialEq other.width &&
    box.height.partialEq other.height

/-- The confidence with both zeros taken for one. -/
def Confidence.normalized (confidence : Confidence) : Confidence :=
  ⟨confidence.value.normalized⟩

/-- `==` of `Confidence`. -/
def Confidence.partialEq (confidence other : Confidence) : Bool :=
  confidence.value.partialEq other.value

namespace AgentNode

/-- The node with the signs of its zeros forgotten. -/
def normalized (node : AgentNode) : AgentNode :=
  { node with
    value := node.value.map .normalized
    geometry := node.geometry.map .normalized
    confidence := node.confidence.normalized }

/-- `==` of `AgentNode`: every field is compared. -/
def partialEq (node other : AgentNode) : Bool :=
  node.id == other.id && node.origin == other.origin && node.identityKey == other.identityKey &&
    node.structuralRole == other.structuralRole && node.semanticRole == other.semanticRole &&
    node.applicationType == other.applicationType && node.name == other.name &&
    optionEq AgentValue.partialEq node.value other.value &&
    node.description == other.description && node.state == other.state &&
    optionEq Geometry.partialEq node.geometry other.geometry &&
    node.relationships == other.relationships && node.actions == other.actions &&
    node.children == other.children && node.provenance == other.provenance &&
    node.confidence.partialEq other.confidence && node.generation == other.generation

end AgentNode

/-! ## What equality says -/

theorem F64.normalized_eq_of_partial_eq {x y : F64} (h : x.partialEq y) :
    x.normalized = y.normalized := by
  simp only [F64.partialEq, Bool.and_eq_true, beq_iff_eq] at h
  exact h.2

/-- Options that are equal as the code compares them have equal images. -/
theorem map_eq_of_option_eq {α : Type} {eq : α → α → Bool} {f : α → α}
    {a b : Option α} (h : optionEq eq a b) (hf : ∀ {a b}, eq a b → f a = f b) :
    a.map f = b.map f := by
  cases a with
  | none =>
      cases b with
      | none => rfl
      | some b => cases h
  | some a =>
      cases b with
      | none => cases h
      | some b => exact congrArg some (hf h)

theorem AgentValue.normalized_eq_of_partial_eq {value other : AgentValue}
    (h : value.partialEq other) : value.normalized = other.normalized := by
  unfold AgentValue.partialEq at h
  split at h
  · exact congrArg AgentValue.number (F64.normalized_eq_of_partial_eq h)
  · rw [beq_iff_eq.mp h]

theorem Geometry.normalized_eq_of_partial_eq {box other : Geometry} (h : box.partialEq other) :
    box.normalized = other.normalized := by
  simp only [Geometry.partialEq, Bool.and_eq_true] at h
  obtain ⟨⟨⟨hx, hy⟩, hwidth⟩, hheight⟩ := h
  simp only [Geometry.normalized, F64.normalized_eq_of_partial_eq hx,
    F64.normalized_eq_of_partial_eq hy, F64.normalized_eq_of_partial_eq hwidth,
    F64.normalized_eq_of_partial_eq hheight]

/-- Equal nodes are the same up to the sign of a zero. -/
theorem AgentNode.normalized_eq_of_partial_eq {node other : AgentNode}
    (h : node.partialEq other) : node.normalized = other.normalized := by
  simp only [AgentNode.partialEq, Bool.and_eq_true, beq_iff_eq, and_assoc] at h
  obtain ⟨hid, horigin, hkey, hrole, hsemantic, happlication, hname, hvalue, hdescription, hstate,
    hgeometry, hrelationships, hactions, hchildren, hprovenance, hconfidence, hgeneration⟩ := h
  have hvalue := map_eq_of_option_eq hvalue AgentValue.normalized_eq_of_partial_eq
  have hgeometry := map_eq_of_option_eq hgeometry Geometry.normalized_eq_of_partial_eq
  have hconfidence : node.confidence.normalized = other.confidence.normalized :=
    congrArg Confidence.mk (F64.normalized_eq_of_partial_eq hconfidence)
  simp only [AgentNode.normalized, AgentNode.mk.injEq]
  exact ⟨hid, horigin, hkey, hrole, hsemantic, happlication, hname, hvalue, hdescription, hstate,
    hgeometry, hrelationships, hactions, hchildren, hprovenance, hconfidence, hgeneration⟩

/-- Nodes of two generations are never equal. -/
theorem AgentNode.not_partial_eq {node other : AgentNode}
    (h : node.generation ≠ other.generation) : ¬ node.partialEq other := by
  intro heq
  have hnormalized := congrArg AgentNode.generation (AgentNode.normalized_eq_of_partial_eq heq)
  exact h hnormalized

end BrowsAI.AgentTree
