import BrowsAI.Library.Json
import BrowsAI.Permissions.Manager

/-!
# Permissions on the wire

`to_json` and `from_json` of `crates/permissions`, up to the library that turns the list of wire
entries into JSON text and back: `Json` is a parameter, and `ReadsBack` what is expected of it.
-/

namespace BrowsAI.Permissions

open Std Utf8 Profiles

/-- A decision as it is written. -/
structure PermissionWire where
  profile : ProfileId
  origin : Text
  permission : Permission
  decision : PermissionDecision
  grant : Option PermissionGrant
  deriving DecidableEq

/-- `serde_json::to_string` and `serde_json::from_str` at lists of `PermissionWire`. -/
structure Json where
  toString : List PermissionWire → Option Text
  fromStr : Text → Option (List PermissionWire)

/-- The text of a list is read as that list. -/
def Json.ReadsBack (json : Json) (entries : List PermissionWire) : Prop :=
  ∃ text, json.toString entries = some text ∧ json.fromStr text = some entries

namespace PermissionManager

/-- The entry of a key. -/
def wireEntry (m : PermissionManager) (key : PermissionKey) : PermissionWire where
  profile := key.profile
  origin := key.origin
  permission := key.permission
  decision := m.decisions[key]?.getD .granted
  grant := m.grants[key]?

/-- The entries that `to_json` writes. -/
def toWire (m : PermissionManager) : List PermissionWire :=
  (OrdMap.keySet (m.grants.keys ++ m.decisions.keys)).map m.wireEntry

/-- The JSON of a manager. -/
def toJson (json : Json) (m : PermissionManager) : Option Text := json.toString m.toWire

/-- One turn of the loop of `from_json`. -/
def restoreEntry (m : PermissionManager) (entry : PermissionWire) : PermissionManager :=
  let key : PermissionKey := ⟨entry.profile, entry.origin, entry.permission⟩
  { m with
    decisions := m.decisions.insert key entry.decision
    grants := match entry.grant with
      | some grant => m.grants.insert key grant
      | none => m.grants }

/-- The manager that `from_json` makes of the entries. -/
def fromWire (entries : List PermissionWire) : PermissionManager :=
  entries.foldl restoreEntry default

/-- The manager of a text. -/
def fromJson (json : Json) (text : Text) : Option PermissionManager :=
  (json.fromStr text).map fromWire

variable (m : PermissionManager)

theorem mem_wire_keys (key : PermissionKey) :
    key ∈ OrdMap.keySet (m.grants.keys ++ m.decisions.keys) ↔
      key ∈ m.grants ∨ key ∈ m.decisions := by
  rw [OrdMap.mem_key_set, List.mem_append, ExtTreeMap.mem_keys, ExtTreeMap.mem_keys]

/-- The decisions of the entries are restored. -/
theorem restored_decisions (keys : List PermissionKey) (t : PermissionManager)
    (key : PermissionKey) :
    ((keys.map m.wireEntry).foldl restoreEntry t).decisions[key]? =
      if key ∈ keys then some (m.decisions[key]?.getD .granted) else t.decisions[key]? := by
  induction keys generalizing t with
  | nil => simp
  | cons first keys ih =>
      have hfirst : (restoreEntry t (m.wireEntry first)).decisions[key]? =
          if first = key then some (m.decisions[key]?.getD .granted) else t.decisions[key]? := by
        show (t.decisions.insert first (m.wireEntry first).decision)[key]? = _
        rw [OrdMap.get_insert]
        split_ifs with hkey
        · rw [← hkey]
          rfl
        · rfl
      rw [List.map_cons, List.foldl_cons, ih, hfirst]
      by_cases hkey : first = key
      · simp [hkey]
      · simp [hkey, Ne.symm hkey]

/-- So are their grants. -/
theorem restored_grants (keys : List PermissionKey) (t : PermissionManager) (key : PermissionKey) :
    ((keys.map m.wireEntry).foldl restoreEntry t).grants[key]? =
      if key ∈ keys then m.grants[key]?.or t.grants[key]? else t.grants[key]? := by
  induction keys generalizing t with
  | nil => simp
  | cons first keys ih =>
      have hfirst : (restoreEntry t (m.wireEntry first)).grants[key]? =
          if first = key then m.grants[key]?.or t.grants[key]? else t.grants[key]? := by
        show (match m.grants[first]? with
          | some grant => t.grants.insert first grant
          | none => t.grants)[key]? = _
        by_cases hkey : first = key
        · subst hkey
          cases m.grants[first]? with
          | none => simp
          | some grant => simp
        · cases m.grants[first]? with
          | none => simp [hkey]
          | some grant => simp [OrdMap.get_insert, hkey]
      rw [List.map_cons, List.foldl_cons, ih, hfirst]
      by_cases hkey : first = key
      · cases m.grants[key]? with
        | none => simp [hkey]
        | some grant => simp [hkey]
      · simp [hkey, Ne.symm hkey]

/-- The wire keeps the grants. -/
theorem grants_from_wire (key : PermissionKey) :
    (fromWire m.toWire).grants[key]? = m.grants[key]? := by
  have hempty : default.grants[key]? = none := by simp [default]
  rw [fromWire, toWire, restored_grants, hempty, Option.or_none]
  split_ifs with hkey
  · rfl
  · rw [mem_wire_keys, not_or] at hkey
    exact (ExtTreeMap.getElem?_eq_none hkey.1).symm

/-- The wire keeps the decisions, when there is one beside every grant. -/
theorem decisions_from_wire {key : PermissionKey}
    (hdecided : m.decisions[key]? = none → m.grants[key]? = none) :
    (fromWire m.toWire).decisions[key]? = m.decisions[key]? := by
  have hempty : default.decisions[key]? = none := by simp [default]
  rw [fromWire, toWire, restored_decisions, hempty]
  cases hdecision : m.decisions[key]? with
  | some decision =>
      have hkey : key ∈ OrdMap.keySet (m.grants.keys ++ m.decisions.keys) := by
        rw [mem_wire_keys]
        refine .inr ?_
        rw [← ExtTreeMap.isSome_getElem?_iff_mem, hdecision]
        rfl
      rw [if_pos hkey]
      rfl
  | none =>
      have hkey : key ∉ OrdMap.keySet (m.grants.keys ++ m.decisions.keys) := by
        rw [mem_wire_keys, ← ExtTreeMap.isSome_getElem?_iff_mem,
          ← ExtTreeMap.isSome_getElem?_iff_mem, hdecision, hdecided hdecision]
        simp
      rw [if_neg hkey]

end PermissionManager

/-! ## JSON text -/

namespace Json

open JsonPrint (quote object array orNull)

/-- The name of a permission. -/
def permission : Permission → Text
  | .files => "Files"
  | .clipboardRead => "ClipboardRead"
  | .clipboardWrite => "ClipboardWrite"
  | .downloads => "Downloads"
  | .uploads => "Uploads"
  | .network => "Network"
  | .geolocation => "Geolocation"
  | .notifications => "Notifications"
  | .camera => "Camera"
  | .microphone => "Microphone"
  | .certificates => "Certificates"
  | .proxy => "Proxy"
  | .device => "Device"

/-- The name of a decision. -/
def decision : PermissionDecision → Text
  | .granted => "Granted"
  | .denied => "Denied"
  | .prompt => "Prompt"

/-- The JSON of a grant. -/
def grant (grant : PermissionGrant) : Text :=
  object [("origin", quote grant.origin), ("permission", quote (permission grant.permission)),
    ("expires_at_unix_seconds",
      orNull (grant.expiresAtUnixSeconds.map fun seconds => ofNat seconds.toNat))]

/-- The JSON of an entry. -/
def entry (entry : PermissionWire) : Text :=
  object [("profile", quote (hyphenated entry.profile)), ("origin", quote entry.origin),
    ("permission", quote (permission entry.permission)),
    ("decision", quote (decision entry.decision)), ("grant", orNull (entry.grant.map grant))]

/-- The JSON of all entries. -/
def entries (entries : List PermissionWire) : Text := array (entries.map entry)

/-- The printer above, and a reader of the text of one list. -/
def printed (value : List PermissionWire) : Json where
  toString list := some (entries list)
  fromStr text := if text = entries value then some value else none

theorem printed_reads_back (value : List PermissionWire) : (printed value).ReadsBack value :=
  ⟨entries value, rfl, if_pos rfl⟩

end Json

end BrowsAI.Permissions
