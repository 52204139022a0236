import BrowsAI.Ipc.Router
import BrowsAI.Library.Words

/-!
# Redaction of audit entries

`TakeoverManager::redact` of `crates/agent-runtime`: what is stored under a key that names a secret
is replaced, in objects and arrays at any depth. `AgreeOutside` relates two values that differ
under such keys only. Read `redact_eq_iff` first: redaction forgets exactly that difference.
-/

namespace BrowsAI.Agents

open Utf8 Ipc

/-! ## The redaction -/

/-- The key is one whose value is replaced. -/
def isRedacted (key : Text) : Bool :=
  (["password", "secret", "token", "card", "private"] : List Text).any fun part =>
    contains part (asciiLower key)

/-- What stands in place of a secret. -/
def redacted : Value := .string "[REDACTED]"

mutual

/-- The value with every value under a redacted key replaced, at any depth. -/
def redact : Value → Value
  | .object fields => .object (redactFields fields)
  | .array values => .array (redactValues values)
  | other => other

/-- The fields of an object with those of redacted keys replaced. -/
def redactFields : List (Text × Value) → List (Text × Value)
  | [] => []
  | (key, value) :: fields =>
      (key, if isRedacted key then redacted else redact value) :: redactFields fields

/-- The elements of an array, each redacted. -/
def redactValues : List Value → List Value
  | [] => []
  | value :: values => redact value :: redactValues values

end

theorem redact_fields_eq (fields : List (Text × Value)) :
    redactFields fields = fields.map fun (key, value) =>
      (key, if isRedacted key then redacted else redact value) := by
  induction fields with
  | nil => rfl
  | cons field fields ih => rw [redactFields, ih, List.map_cons]

theorem redact_values_eq (values : List Value) : redactValues values = values.map redact := by
  induction values with
  | nil => rfl
  | cons value values ih => rw [redactValues, ih, List.map_cons]

/-! ## Agreement outside the secrets -/

/-- The key has one of the words in it, in any letter case. -/
def NamesSecret (key : Text) : Prop :=
  ∃ word ∈ (["password", "secret", "token", "card", "private"] : List Text),
    ∃ part, part <:+: key ∧ eqIgnoreAsciiCase part word = true

theorem is_redacted_iff (key : Text) : isRedacted key = true ↔ NamesSecret key := by
  have hlower : ∀ word ∈ (["password", "secret", "token", "card", "private"] : List Text),
      asciiLower word = word := by
    simp only [List.forall_mem_cons]
    exact ⟨rfl, rfl, rfl, rfl, rfl, List.forall_mem_nil _⟩
  rw [isRedacted, any_contains_iff, NamesSecret]
  refine exists_congr fun word => and_congr_right fun hword => ?_
  simp only [infix_ascii_lower_iff, eqIgnoreAsciiCase, beq_iff_eq, hlower word hword]

mutual

/-- Two values are the same but for what is stored under keys that name a secret. -/
inductive AgreeOutside : Value → Value → Prop
  | null : AgreeOutside .null .null
  | bool (value : Bool) : AgreeOutside (.bool value) (.bool value)
  | integer (value : Int) : AgreeOutside (.integer value) (.integer value)
  | float (value : AgentTree.F64) : AgreeOutside (.float value) (.float value)
  | string (value : Text) : AgreeOutside (.string value) (.string value)
  | array {values others : List Value} :
      ValuesAgree values others → AgreeOutside (.array values) (.array others)
  | object {fields others : List (Text × Value)} :
      FieldsAgree fields others → AgreeOutside (.object fields) (.object others)

/-- Two arrays agree element by element. -/
inductive ValuesAgree : List Value → List Value → Prop
  | nil : ValuesAgree [] []
  | cons {value other : Value} {values others : List Value} :
      AgreeOutside value other → ValuesAgree values others →
      ValuesAgree (value :: values) (other :: others)

/-- Two objects have the same keys, and agree under each that names no secret. -/
inductive FieldsAgree : List (Text × Value) → List (Text × Value) → Prop
  | nil : FieldsAgree [] []
  | secret {key : Text} (value other : Value) {fields others : List (Text × Value)} :
      NamesSecret key → FieldsAgree fields others →
      FieldsAgree ((key, value) :: fields) ((key, other) :: others)
  | plain (key : Text) {value other : Value} {fields others : List (Text × Value)} :
      AgreeOutside value other → FieldsAgree fields others →
      FieldsAgree ((key, value) :: fields) ((key, other) :: others)

end

mutual

/-- Values that agree are redacted to the same value. -/
theorem redact_eq_of_agree : {v w : Value} → AgreeOutside v w → redact v = redact w
  | _, _, .null => rfl
  | _, _, .bool _ => rfl
  | _, _, .integer _ => rfl
  | _, _, .float _ => rfl
  | _, _, .string _ => rfl
  | _, _, .array h => by rw [redact, redact, redact_values_eq_of_agree h]
  | _, _, .object h => by rw [redact, redact, redact_fields_eq_of_agree h]

/-- Arrays that agree outside of redacted keys are redacted to the same one. -/
theorem redact_values_eq_of_agree :
    {vs ws : List Value} → ValuesAgree vs ws → redactValues vs = redactValues ws
  | _, _, .nil => rfl
  | _, _, .cons hvalue hvalues => by
      rw [redactValues, redactValues, redact_eq_of_agree hvalue, redact_values_eq_of_agree hvalues]

/-- So are objects. -/
theorem redact_fields_eq_of_agree :
    {fs gs : List (Text × Value)} → FieldsAgree fs gs → redactFields fs = redactFields gs
  | _, _, .nil => rfl
  | _, _, .secret _ _ hkey hfields => by
      rw [redactFields, redactFields, if_pos ((is_redacted_iff _).mpr hkey),
        if_pos ((is_redacted_iff _).mpr hkey), redact_fields_eq_of_agree hfields]
  | _, _, .plain _ hvalue hfields => by
      rw [redactFields, redactFields, redact_eq_of_agree hvalue, redact_fields_eq_of_agree hfields]

end

mutual

/-- Values that are redacted to the same value agree. -/
theorem agree_of_redact_eq : (v w : Value) → redact v = redact w → AgreeOutside v w
  | .object fields, .object others, h => by
      rw [redact, redact, Value.object.injEq] at h
      exact .object (fields_agree_of_redact_eq fields others h)
  | .array values, .array others, h => by
      rw [redact, redact, Value.array.injEq] at h
      exact .array (values_agree_of_redact_eq values others h)
  | .null, .null, _ => .null
  | .bool _, .bool _, h => by cases h; exact .bool _
  | .integer _, .integer _, h => by cases h; exact .integer _
  | .float _, .float _, h => by cases h; exact .float _
  | .string _, .string _, h => by cases h; exact .string _

/-- Arrays that are redacted to the same one agree outside of redacted keys. -/
theorem values_agree_of_redact_eq :
    (vs ws : List Value) → redactValues vs = redactValues ws → ValuesAgree vs ws
  | [], [], _ => .nil
  | value :: values, other :: others, h => by
      rw [redactValues, redactValues, List.cons.injEq] at h
      exact .cons (agree_of_redact_eq value other h.1) (values_agree_of_redact_eq values others h.2)

/-- So do objects. -/
theorem fields_agree_of_redact_eq :
    (fs gs : List (Text × Value)) → redactFields fs = redactFields gs → FieldsAgree fs gs
  | [], [], _ => .nil
  | (key, value) :: fields, (key', other) :: others, h => by
      rw [redactFields, redactFields, List.cons.injEq, Prod.mk.injEq] at h
      obtain ⟨⟨rfl, hvalue⟩, hfields⟩ := h
      have hrest := fields_agree_of_redact_eq fields others hfields
      by_cases hkey : isRedacted key = true
      · exact .secret value other ((is_redacted_iff key).mp hkey) hrest
      · rw [if_neg hkey, if_neg hkey] at hvalue
        exact .plain key (agree_of_redact_eq value other hvalue) hrest

end

/-- Redaction forgets what is stored under keys that name a secret, and nothing else. -/
theorem redact_eq_iff (v w : Value) : redact v = redact w ↔ AgreeOutside v w :=
  ⟨agree_of_redact_eq v w, redact_eq_of_agree⟩

mutual

/-- A value and its redaction differ under keys that name a secret only. -/
theorem agree_redact : (v : Value) → AgreeOutside v (redact v)
  | .object fields => by
      rw [redact]
      exact .object (fields_agree_redact fields)
  | .array values => by
      rw [redact]
      exact .array (values_agree_redact values)
  | .null => .null
  | .bool _ => .bool _
  | .integer _ => .integer _
  | .float _ => .float _
  | .string _ => .string _

theorem values_agree_redact : (vs : List Value) → ValuesAgree vs (redactValues vs)
  | [] => .nil
  | value :: values => .cons (agree_redact value) (values_agree_redact values)

/-- An object agrees with what it is redacted to. -/
theorem fields_agree_redact : (fs : List (Text × Value)) → FieldsAgree fs (redactFields fs)
  | [] => .nil
  | (key, value) :: fields => by
      rw [redactFields]
      by_cases hkey : isRedacted key = true
      · exact .secret _ _ ((is_redacted_iff key).mp hkey) (fields_agree_redact fields)
      · rw [if_neg hkey]
        exact .plain key (agree_redact value) (fields_agree_redact fields)

end

theorem redact_noninterference (v w : Value) :
    (redact v = redact w ↔ AgreeOutside v w) ∧ AgreeOutside v (redact v) ∧
      redact (redact v) = redact v :=
  ⟨redact_eq_iff v w, agree_redact v, ((redact_eq_iff v (redact v)).mpr (agree_redact v)).symm⟩

end BrowsAI.Agents
