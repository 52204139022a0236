import BrowsAI.Agents.Redaction

/-!
# The secret-safe logger

`SecretSafeLogger` of `crates/logging`, which replaces the fields of an event that are named as
secrets are, and the words it goes by beside those of the other two lists: the keys that
`contains_raw_secret_field` refuses in a message, and the keys that `TakeoverManager::redact`
replaces.
-/

namespace BrowsAI.Logging

open Utf8 Std Ipc Agents Profiles

/-! ## The logger -/

/-- How much an event matters. -/
inductive LogLevel where
  | trace | debug | info | warn | error
  deriving DecidableEq

/-- An event as it is kept. -/
structure LogEvent where
  level : LogLevel
  correlationId : Uuid
  message : Text
  fields : OrdMap Text Text

/-- The events so far. -/
structure SecretSafeLogger where
  events : List LogEvent

/-- `SecretSafeLogger::default()`. -/
instance : Inhabited SecretSafeLogger := ⟨⟨[]⟩⟩

/-- The field is one whose value is not logged. -/
def isSensitive (key : Text) : Bool :=
  (["password", "secret", "token", "private_key", "card_number", "totp"] : List Text).any
    fun name => contains name (asciiLower key)

/-- The message, unless it names a secret. -/
def redactMessage (message : Text) : Text :=
  if (["password", "secret", "token", "private key", "card number", "totp"] : List Text).any
      fun name => contains name (asciiLower message) then "[REDACTED]"
  else message

/-- Keeps an event with its message and the values of sensitive fields redacted. -/
def SecretSafeLogger.log (logger : SecretSafeLogger) (level : LogLevel) (correlationId : Uuid)
    (message : Text) (fields : OrdMap Text Text) : SecretSafeLogger where
  events := logger.events ++
    [{ level, correlationId
       message := redactMessage message
       fields := fields.map fun key value => if isSensitive key then "[REDACTED]" else value }]

/-! ## What the three lists do with a key -/

/-- An object with a field of this name does not pass the check of a message, whatever else it
holds. -/
def IsRawSecret (key : Text) : Prop :=
  ∀ (fields : List (Text × Value)) (value : Value), (key, value) ∈ fields →
    containsRawSecretField (.object fields) = true

/-- The value of a field of this name is not logged. -/
def LogRedacts (key : Text) : Prop :=
  ∀ (logger : SecretSafeLogger) (level : LogLevel) (correlationId : Uuid) (message : Text)
    (fields : OrdMap Text Text) (value : Text), fields[key]? = some value →
    ∃ event, (logger.log level correlationId message fields).events = logger.events ++ [event] ∧
      event.fields[key]? = some ("[REDACTED]" : Text)

/-- The value has a field at some depth. -/
inductive FieldAt (key : Text) (held : Value) : Value → Prop
  | here {fields : List (Text × Value)} : (key, held) ∈ fields → FieldAt key held (.object fields)
  | field {fields : List (Text × Value)} (name : Text) {value : Value} :
      (name, value) ∈ fields → FieldAt key held value → FieldAt key held (.object fields)
  | element {values : List Value} {value : Value} :
      value ∈ values → FieldAt key held value → FieldAt key held (.array values)

/-- No field of this name keeps its value, at any depth. -/
def RedactReplaces (key : Text) : Prop :=
  ∀ (value held : Value), FieldAt key held (redact value) → held = redacted

theorem any_raw_secret_field_of_mem {key : Text} (hkey : Ipc.isSensitive key = true)
    {fields : List (Text × Value)} {value : Value} (h : (key, value) ∈ fields) :
    anyRawSecretField fields = true := by
  induction fields with
  | nil => cases h
  | cons field fields ih =>
      rw [anyRawSecretField]
      rcases List.mem_cons.mp h with rfl | h
      · simp [hkey]
      · simp [ih h]

theorem is_raw_secret_iff (key : Text) : IsRawSecret key ↔ Ipc.isSensitive key = true := by
  constructor
  · intro h
    have hfield := h [(key, .null)] .null (List.mem_singleton.mpr rfl)
    simpa [containsRawSecretField, anyRawSecretField] using hfield
  · intro hkey fields value h
    rw [containsRawSecretField]
    exact any_raw_secret_field_of_mem hkey h

/-- The logger redacts the values of sensitive keys, and of no others. -/
theorem log_redacts_iff (key : Text) : LogRedacts key ↔ isSensitive key = true := by
  constructor
  · intro h
    obtain ⟨event, hevents, hevent⟩ := h default .info 0 [] ((∅ : OrdMap Text Text).insert key [])
      [] ExtTreeMap.getElem?_insert_self
    obtain rfl := List.singleton_inj.mp (List.append_cancel_left hevents)
    by_contra hkey
    rw [ExtTreeMap.getElem?_map, ExtTreeMap.getElem?_insert_self, Option.map_some,
      if_neg hkey] at hevent
    cases hevent
  · intro hkey logger level correlationId message fields value hvalue
    exact ⟨_, rfl, by rw [ExtTreeMap.getElem?_map, hvalue, Option.map_some, if_pos hkey]⟩

/-- A redacted value has nothing but the mark under a key that is redacted. -/
theorem eq_redacted_of_field_at {key : Text} (hkey : isRedacted key = true) {held shown : Value}
    (h : FieldAt key held shown) : ∀ value, shown = redact value → held = redacted := by
  induction h with
  | here hmem =>
      intro value hvalue
      cases value <;> rw [redact] at hvalue <;> cases hvalue
      rw [redact_fields_eq] at hmem
      obtain ⟨⟨name, stored⟩, -, hfield⟩ := List.mem_map.mp hmem
      obtain ⟨rfl, hheld⟩ := Prod.mk.inj hfield
      rw [← hheld, if_pos hkey]
  | field name hmem hfield ih =>
      intro value hvalue
      cases value <;> rw [redact] at hvalue <;> cases hvalue
      rw [redact_fields_eq] at hmem
      obtain ⟨⟨name', stored⟩, -, hstored⟩ := List.mem_map.mp hmem
      dsimp only at hstored
      split_ifs at hstored with hname
      · -- nothing stands below the mark
        cases hstored
        cases hfield
      · exact ih stored (Prod.mk.inj hstored).2.symm
  | element hmem _ ih =>
      intro value hvalue
      cases value <;> rw [redact] at hvalue <;> cases hvalue
      rw [redact_values_eq] at hmem
      obtain ⟨stored, -, rfl⟩ := List.mem_map.mp hmem
      exact ih stored rfl

theorem redact_replaces_iff (key : Text) : RedactReplaces key ↔ isRedacted key = true := by
  constructor
  · intro h
    by_contra hkey
    have hfield : FieldAt key .null (redact (.object [(key, .null)])) := by
      simp only [redact, redactFields, if_neg hkey]
      exact .here (List.mem_singleton.mpr rfl)
    cases h _ _ hfield
  · exact fun hkey value held h => eq_redacted_of_field_at hkey h value rfl

/-! ## Where the lists agree -/

/-- The key, with its letters made small, has a word that both redactors know, or one word of
each. -/
def Spelled (key : Text) : Prop :=
  (∃ word ∈ (["password", "secret", "token", "private_key", "card_number"] : List Text),
    word <:+: asciiLower key) ∨
  ("totp" : Text) <:+: asciiLower key ∧
    ∃ word ∈ (["card", "private"] : List Text), word <:+: asciiLower key

/-- Without its separators, the key has a word that a message may not have. -/
def SpelledApart (key : Text) : Prop :=
  ∃ word ∈ (["password", "secret", "token", "seed", "privatekey", "cardnumber", "cvv"] : List Text),
    word <:+: (asciiLower key).filter fun c => !(['_', '-', '.'].contains c)

/-- A word that the log knows beside `totp` has one in it that the audit knows. -/
theorem exists_part_of_word :
    ∀ word ∈ (["password", "secret", "token", "private_key", "card_number"] : List Text),
      ∃ part ∈ (["password", "secret", "token", "card", "private"] : List Text),
        part <:+: word := by
  simp only [List.forall_mem_cons]
  exact ⟨⟨_, .head _, List.infix_refl _⟩, ⟨_, .tail _ (.head _), List.infix_refl _⟩,
    ⟨_, .tail _ (.tail _ (.head _)), List.infix_refl _⟩,
    ⟨"private", .tail _ (.tail _ (.tail _ (.tail _ (.head _)))), [], "_key", rfl⟩,
    ⟨"card", .tail _ (.tail _ (.tail _ (.head _))), [], "_number", rfl⟩, List.forall_mem_nil _⟩

/-- The keys that both lists have. -/
theorem spelled_iff (key : Text) :
    isSensitive key = true ∧ isRedacted key = true ↔ Spelled key := by
  rw [isSensitive, isRedacted, any_contains_iff, any_contains_iff, Spelled]
  constructor
  · rintro ⟨⟨word, hword, h⟩, other, hother, hfound⟩
    have hword : word ∈ (["password", "secret", "token", "private_key", "card_number"] :
        List Text) ++ (["totp"] : List Text) := hword
    have hother : other ∈ (["password", "secret", "token"] : List Text) ++
        (["card", "private"] : List Text) := hother
    rcases List.mem_append.mp hword with hword | hword
    · exact .inl ⟨word, hword, h⟩
    · cases List.mem_singleton.mp hword
      rcases List.mem_append.mp hother with hother | hother
      · exact .inl ⟨other,
          List.mem_append_left (["private_key", "card_number"] : List Text) hother, hfound⟩
      · exact .inr ⟨h, other, hother, hfound⟩
  · rintro (⟨word, hword, h⟩ | ⟨htotp, word, hword, h⟩)
    · obtain ⟨part, hpart, hinfix⟩ := exists_part_of_word word hword
      exact ⟨⟨word, List.mem_append_left (["totp"] : List Text) hword, h⟩, part, hpart,
        hinfix.trans h⟩
    · exact ⟨⟨"totp", List.mem_append_right
          (["password", "secret", "token", "private_key", "card_number"] : List Text) (.head _),
          htotp⟩,
        word, List.mem_append_right (["password", "secret", "token"] : List Text) hword, h⟩

/-- The log and the audit entries leave out every key that a message may not have, exactly if the
key is spelled as they know it or is none that a message may not have. -/
theorem redactors_cover_iff (key : Text) :
    (IsRawSecret key → LogRedacts key ∧ RedactReplaces key) ↔ Spelled key ∨ ¬ SpelledApart key := by
  have happart : Ipc.isSensitive key = true ↔ SpelledApart key := any_contains_iff
  rw [is_raw_secret_iff, log_redacts_iff, redact_replaces_iff, spelled_iff, happart, imp_iff_or_not]

/-- A message with a seed is refused, and the log and the audit entries show the seed. -/
theorem seed_not_covered :
    ¬ ∀ key, IsRawSecret key → LogRedacts key ∧ RedactReplaces key := by
  intro h
  have hseed := h "seed" ((is_raw_secret_iff "seed").mpr rfl)
  exact absurd ((log_redacts_iff "seed").mp hseed.1) (by decide)

end BrowsAI.Logging
