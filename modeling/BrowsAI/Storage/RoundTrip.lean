import BrowsAI.Library.Json
import BrowsAI.Storage.Generations
import BrowsAI.Storage.OriginStorage

/-!
# Storage on the wire

`to_json` and `from_json` of `crates/storage`, up to the library that turns a `StorageWire` into
JSON text and back: `Json` is a parameter, and `ReadsBack` what is expected of it.
-/

namespace BrowsAI.Storage

open Utf8 Std Profiles

/-- An area as it is written. -/
structure StorageEntry where
  profile : ProfileId
  origin : Text
  nameSpace : Text
  kind : StorageKind
  values : OrdMap Text Text
  generation : UInt64

/-- The storage as it is written. -/
structure StorageWire where
  entries : List StorageEntry

/-- `serde_json::to_string` and `serde_json::from_str` at `StorageWire`. -/
structure Json where
  toString : StorageWire → Option Text
  fromStr : Text → Option StorageWire

/-- The text of a value is read as that value. -/
def Json.ReadsBack (json : Json) (wire : StorageWire) : Prop :=
  ∃ text, json.toString wire = some text ∧ json.fromStr text = some wire

namespace OriginStorage

/-- The keys of both maps, in order. -/
def wireKeys (s : OriginStorage) : List StorageKey :=
  let keys : OrdMap StorageKey Unit :=
    (s.values.keys ++ s.generations.keys).foldl (fun keys key => keys.insert key ()) ∅
  keys.keys

/-- The entry of an area. -/
def entry (s : OriginStorage) (key : StorageKey) : StorageEntry :=
  { profile := key.profile
    origin := key.origin
    nameSpace := key.nameSpace
    kind := key.kind
    values := s.values[key]?.getD ∅
    generation := s.generations[key]?.getD 0 }

/-- The value that `to_json` writes. -/
def toWire (s : OriginStorage) : StorageWire := ⟨s.wireKeys.map s.entry⟩

/-- The JSON of a storage. -/
def toJson (json : Json) (s : OriginStorage) : Option Text := json.toString s.toWire

/-- One turn of the loop of `from_json`. -/
def restoreEntry (s : OriginStorage) (entry : StorageEntry) : OriginStorage :=
  let key : StorageKey := ⟨entry.profile, entry.origin, entry.nameSpace, entry.kind⟩
  { s with
    -- an area without values gets a generation only
    values := if entry.values.isEmpty then s.values else s.values.insert key entry.values
    generations := s.generations.insert key entry.generation }

/-- The storage that `from_json` makes of a value. -/
def fromWire (wire : StorageWire) : OriginStorage := wire.entries.foldl restoreEntry empty

/-- The storage of a text. -/
def fromJson (json : Json) (text : Text) : Option OriginStorage :=
  (json.fromStr text).map fromWire

end OriginStorage

/-! ## What a caller sees -/

/-- A call, with its arguments. -/
inductive Call where
  | operation (operation : Operation)
  | get (profile : ProfileId) (origin nameSpace : Text) (kind : StorageKind) (key : Text)
  | generation (profile : ProfileId) (origin nameSpace : Text) (kind : StorageKind)
  deriving DecidableEq

/-- The result of a call. -/
inductive Reply where
  | done
  | written (result : Except StorageError Unit)
  | value (value : Option Text)
  | cloned (found : Bool)
  | generation (generation : UInt64)

namespace OriginStorage

/-- The result of a call. -/
def reply (s : OriginStorage) : Call → Reply
  | .operation (.set _ _ _ _ _ _) => .done
  | .operation (.setWithQuota request) => .written (s.setWithQuota request).1
  | .operation (.remove profile origin nameSpace kind key) =>
      .value (s.remove profile origin nameSpace kind key).1
  | .operation (.cloneSessionNamespace profile origin source destination) =>
      .cloned (s.cloneSessionNamespace profile origin source destination).1
  | .get profile origin nameSpace kind key => .value (s.get profile origin nameSpace kind key)
  | .generation profile origin nameSpace kind =>
      .generation (s.generation profile origin nameSpace kind)

/-- The storage after a call. -/
def after (s : OriginStorage) : Call → OriginStorage
  | .operation operation => s.apply operation
  | _ => s

/-- The results of calls one after the other. -/
def replies (s : OriginStorage) : List Call → List Reply
  | [] => []
  | call :: calls => s.reply call :: (s.after call).replies calls

/-- No calls tell the two storages apart. -/
def Equivalent (s s' : OriginStorage) : Prop := ∀ calls, s.replies calls = s'.replies calls

end OriginStorage

end BrowsAI.Storage

/-!
## Writing a storage and reading it back

Calls read a storage through the contents of its areas, their generations, and, in a clone, whether
the source area is there: storages that are `Alike` in these three give the same results,
`Alike.replies_eq`. The wire keeps the contents and the generations of every area. An area that is
there but empty is not restored, and `equivalent_restored_iff` says that only a clone from it tells.
-/

namespace BrowsAI.Storage

open Utf8 Std Profiles

/-- The same to every call: contents, generations, and which session areas are there. -/
structure Alike (s s' : OriginStorage) : Prop where
  contents : ∀ area, s.contents area = s'.contents area
  generation : ∀ area, s.generationOf area = s'.generationOf area
  present : ∀ area : StorageKey, area.kind = .session →
    (s.values[area]? = none ↔ s'.values[area]? = none)

namespace OriginStorage

/-- The common effect of the operations: new contents and a new generation for one area. -/
def write (s : OriginStorage) (area : StorageKey) (values : OrdMap Text Text)
    (generation : UInt64) (event : StorageEvent) : OriginStorage :=
  ⟨s.values.insert area values, s.generations.insert area generation, s.events ++ [event]⟩

variable (s : OriginStorage)

/-- A set writes its area. -/
theorem set_eq (area : StorageKey) (key value : Text) :
    s.set area.profile area.origin area.nameSpace area.kind key value =
      s.write area ((s.contents area).insert key value) (s.generationOf area + 1)
        (.set area.profile area.origin area.nameSpace area.kind key) := rfl

/-- A removal writes its area, if the key is there. -/
theorem remove_eq (area : StorageKey) (key : Text) :
    s.remove area.profile area.origin area.nameSpace area.kind key =
      match (s.contents area)[key]? with
      | none => (none, s)
      | some value =>
          (some value, s.write area ((s.contents area).erase key) (s.generationOf area + 1)
            (.removed area.profile area.origin area.nameSpace area.kind key)) := by
  simp only [remove, contents]
  cases hvalues : s.values[area]? with
  | none => simp
  | some values => rfl

/-- A clone writes its destination, if there is a source. -/
theorem clone_eq (profile : ProfileId) (origin source destination : Text) :
    s.cloneSessionNamespace profile origin source destination =
      if s.values[(⟨profile, origin, source, .session⟩ : StorageKey)]? = none then (false, s)
      else
        (true, s.write ⟨profile, origin, destination, .session⟩
          (s.contents ⟨profile, origin, source, .session⟩)
          (s.generationOf ⟨profile, origin, source, .session⟩)
          (.sessionCloned profile origin source destination)) := by
  simp only [cloneSessionNamespace, contents]
  cases hvalues : s.values[(⟨profile, origin, source, .session⟩ : StorageKey)]? with
  | none => rfl
  | some values => rfl

end OriginStorage

namespace Alike

variable {s s' : OriginStorage}

/-- Storages that are alike stay so behind a write. -/
theorem write (h : Alike s s') (area : StorageKey) (values : OrdMap Text Text)
    (generation : UInt64) (event event' : StorageEvent) :
    Alike (s.write area values generation event) (s'.write area values generation event') := by
  have hwrites := writes_insert s area values generation (s.events ++ [event])
  have hwrites' := writes_insert s' area values generation (s'.events ++ [event'])
  refine ⟨fun other => ?_, fun other => ?_, fun other hsession => ?_⟩
  · by_cases hother : other = area
    · exact hother ▸ hwrites.contents_self.trans hwrites'.contents_self.symm
    · exact (hwrites.contents_frame other hother).trans ((h.contents other).trans
        (hwrites'.contents_frame other hother).symm)
  · by_cases hother : other = area
    · exact hother ▸ hwrites.generation_self.trans hwrites'.generation_self.symm
    · exact (hwrites.generation_frame other hother).trans ((h.generation other).trans
        (hwrites'.generation_frame other hother).symm)
  · simp only [OriginStorage.write, OrdMap.get_insert]
    split_ifs
    · simp
    · exact h.present other hsession

theorem set (h : Alike s s') (area : StorageKey) (key value : Text) :
    Alike (s.set area.profile area.origin area.nameSpace area.kind key value)
      (s'.set area.profile area.origin area.nameSpace area.kind key value) := by
  rw [OriginStorage.set_eq, OriginStorage.set_eq, h.contents, h.generation]
  exact h.write _ _ _ _ _

/-- One call: the same result, and alike afterwards. -/
theorem call (h : Alike s s') (c : Call) :
    s.reply c = s'.reply c ∧ Alike (s.after c) (s'.after c) := by
  cases c with
  | get profile origin nameSpace kind key =>
      refine ⟨congrArg Reply.value ?_, h⟩
      rw [s.get_eq ⟨profile, origin, nameSpace, kind⟩ key,
        s'.get_eq ⟨profile, origin, nameSpace, kind⟩ key, h.contents]
  | generation profile origin nameSpace kind =>
      exact ⟨congrArg Reply.generation (h.generation ⟨profile, origin, nameSpace, kind⟩), h⟩
  | operation operation =>
      cases operation with
      | set profile origin nameSpace kind key value =>
          exact ⟨rfl, h.set ⟨profile, origin, nameSpace, kind⟩ key value⟩
      | setWithQuota request =>
          -- the quota is checked against the contents, which are the same
          have hfits : request.Fits s ↔ request.Fits s' := by
            rw [StorageWriteRequest.Fits, StorageWriteRequest.Fits, h.contents]
          simp only [OriginStorage.reply, OriginStorage.after, OriginStorage.apply,
            OriginStorage.set_with_quota_eq, hfits]
          split_ifs
          · exact ⟨rfl, h.set request.area request.key request.value⟩
          · exact ⟨rfl, h⟩
      | remove profile origin nameSpace kind key =>
          have hremove := s.remove_eq ⟨profile, origin, nameSpace, kind⟩ key
          have hremove' := s'.remove_eq ⟨profile, origin, nameSpace, kind⟩ key
          rw [h.contents, h.generation] at hremove
          simp only [OriginStorage.reply, OriginStorage.after, OriginStorage.apply, hremove,
            hremove']
          cases (s'.contents ⟨profile, origin, nameSpace, kind⟩)[key]? with
          | none => exact ⟨rfl, h⟩
          | some value => exact ⟨rfl, h.write _ _ _ _ _⟩
      | cloneSessionNamespace profile origin source destination =>
          have hpresent := h.present ⟨profile, origin, source, .session⟩ rfl
          simp only [OriginStorage.reply, OriginStorage.after, OriginStorage.apply,
            OriginStorage.clone_eq, hpresent, h.contents, h.generation]
          split_ifs
          · exact ⟨rfl, h⟩
          · exact ⟨rfl, h.write _ _ _ _ _⟩

/-- Any calls: the same results. -/
theorem replies_eq (h : Alike s s') (calls : List Call) : s.replies calls = s'.replies calls := by
  induction calls generalizing s s' with
  | nil => rfl
  | cons c calls ih =>
      obtain ⟨hreply, halike⟩ := h.call c
      rw [OriginStorage.replies, OriginStorage.replies, hreply, ih halike]

end Alike

/-! ## The restored storage -/

namespace OriginStorage

variable (s : OriginStorage)

theorem mem_wire_keys (key : StorageKey) :
    key ∈ s.wireKeys ↔ key ∈ s.values ∨ key ∈ s.generations := by
  show key ∈ OrdMap.keySet (s.values.keys ++ s.generations.keys) ↔ _
  rw [OrdMap.mem_key_set, List.mem_append, ExtTreeMap.mem_keys, ExtTreeMap.mem_keys]

/-- The areas of the entries are restored, unless they are empty. -/
theorem restored_values (keys : List StorageKey) (t : OriginStorage) (key : StorageKey) :
    ((keys.map s.entry).foldl restoreEntry t).values[key]? =
      if key ∈ keys ∧ s.contents key ≠ ∅ then some (s.contents key) else t.values[key]? := by
  induction keys generalizing t with
  | nil => simp
  | cons first keys ih =>
      have hfirst : (restoreEntry t (s.entry first)).values[key]? =
          if first = key ∧ s.contents key ≠ ∅ then some (s.contents key) else t.values[key]? := by
        have hentry : (s.entry first).values = s.contents first := rfl
        simp only [restoreEntry, hentry, ExtTreeMap.isEmpty_iff]
        by_cases hempty : s.contents first = ∅
        · rw [if_pos hempty]
          by_cases hkey : first = key
          · simp [← hkey, hempty]
          · simp [hkey]
        · rw [if_neg hempty, OrdMap.get_insert]
          by_cases hkey : first = key
          · simp [entry, ← hkey, hempty]
          · simp [entry, hkey]
      rw [List.map_cons, List.foldl_cons, ih, hfirst]
      by_cases hkey : first = key
      · by_cases hempty : s.contents key = ∅ <;> simp [hkey, hempty]
      · simp [hkey, Ne.symm hkey]

/-- All their generations are. -/
theorem restored_generations (keys : List StorageKey) (t : OriginStorage) (key : StorageKey) :
    ((keys.map s.entry).foldl restoreEntry t).generations[key]? =
      if key ∈ keys then some (s.generationOf key) else t.generations[key]? := by
  induction keys generalizing t with
  | nil => simp
  | cons first keys ih =>
      have hfirst : (restoreEntry t (s.entry first)).generations[key]? =
          if first = key then some (s.generationOf key) else t.generations[key]? := by
        simp only [restoreEntry, OrdMap.get_insert]
        by_cases hkey : first = key
        · simp [entry, hkey, generation_of_eq]
        · simp [entry, hkey]
      rw [List.map_cons, List.foldl_cons, ih, hfirst]
      by_cases hkey : first = key
      · simp [hkey]
      · simp [hkey, Ne.symm hkey]

/-- An area is there exactly if it is not empty. -/
theorem restored_present (key : StorageKey) :
    (fromWire s.toWire).values[key]? =
      if s.contents key = ∅ then none else some (s.contents key) := by
  have hvalues := s.restored_values s.wireKeys empty key
  have hempty : empty.values[key]? = none := by simp [empty]
  rw [fromWire, toWire, hvalues, hempty]
  by_cases hcontents : s.contents key = ∅
  · simp [hcontents]
  · have hpresent : key ∈ s.values := by
      by_contra habsent
      exact hcontents (by simp [contents, ExtTreeMap.getElem?_eq_none habsent])
    simp [hcontents, mem_wire_keys, hpresent]

/-- The wire keeps the contents and the generations. -/
theorem restored_contents (key : StorageKey) :
    (fromWire s.toWire).contents key = s.contents key := by
  rw [contents, restored_present]
  split_ifs with hempty
  · exact hempty.symm
  · rfl

theorem restored_generation (key : StorageKey) :
    (fromWire s.toWire).generationOf key = s.generationOf key := by
  have hgenerations := s.restored_generations s.wireKeys empty key
  have hempty : empty.generations[key]? = none := by simp [empty]
  rw [generation_of_eq, fromWire, toWire, hgenerations, hempty]
  split_ifs with hkey
  · rfl
  · rw [mem_wire_keys, not_or] at hkey
    simp [generation_of_eq, ExtTreeMap.getElem?_eq_none hkey.2]

/-- No session area is there without entries. -/
def NoEmptySession (s : OriginStorage) : Prop :=
  ∀ area : StorageKey, area.kind = .session → s.values[area]? ≠ some ∅

/-- The restored storage is equivalent when no emptied session area is left behind: a clone from
such an area finds it before the round trip, and does not find it afterwards. -/
theorem equivalent_restored_iff : s.Equivalent (fromWire s.toWire) ↔ s.NoEmptySession := by
  constructor
  · intro hequivalent area hsession hempty
    obtain ⟨profile, origin, nameSpace, kind⟩ := area
    obtain rfl : kind = .session := hsession
    have hcontents : s.contents ⟨profile, origin, nameSpace, .session⟩ = ∅ := by
      rw [contents, hempty, Option.getD_some]
    have hclone := hequivalent [.operation (.cloneSessionNamespace profile origin nameSpace
      nameSpace)]
    simp [replies, reply, clone_eq, hempty, restored_present, hcontents] at hclone
  · intro hnone
    have halike : Alike s (fromWire s.toWire) := by
      refine ⟨fun area => (s.restored_contents area).symm,
        fun area => (s.restored_generation area).symm, fun area hsession => ?_⟩
      rw [restored_present]
      cases hvalues : s.values[area]? with
      | none => simp [contents, hvalues]
      | some values =>
          have hne : values ≠ ∅ := fun hempty => hnone area hsession (hempty ▸ hvalues)
          simp [contents, hvalues, hne]
    exact halike.replies_eq

/-- With a library that reads back what it writes, the round trip is the one over the wire. -/
theorem round_trip_of_reads_back {json : Json} (hjson : json.ReadsBack s.toWire) :
    (∃ text restored, toJson json s = some text ∧ fromJson json text = some restored ∧
        s.Equivalent restored) ↔ s.Equivalent (fromWire s.toWire) := by
  obtain ⟨text, htext, hwire⟩ := hjson
  constructor
  · rintro ⟨text', restored, htext', hrestored, hequivalent⟩
    obtain rfl : text = text' := Option.some.inj (htext.symm.trans htext')
    rw [fromJson, hwire, Option.map_some] at hrestored
    rwa [Option.some.inj hrestored]
  · intro hequivalent
    exact ⟨text, _, htext, by rw [fromJson, hwire, Option.map_some], hequivalent⟩

/-- After any calls the storage is written and read back, to one that no later calls tell apart,
exactly when no session area is left without entries. -/
theorem round_trip_iff (json : Json) (history : List Operation)
    (hjson : json.ReadsBack (run history).toWire) :
    (∃ text restored, toJson json (run history) = some text ∧
        fromJson json text = some restored ∧ (run history).Equivalent restored) ↔
      (run history).NoEmptySession :=
  ((run history).round_trip_of_reads_back hjson).trans (run history).equivalent_restored_iff

end OriginStorage

/-! ## JSON text -/

namespace Json

open JsonPrint (quote object array)

/-- The JSON of an entry. -/
def entry (entry : StorageEntry) : Text :=
  object [("profile", quote (hyphenated entry.profile)), ("origin", quote entry.origin),
    ("namespace", quote entry.nameSpace),
    ("kind", quote (match entry.kind with | .local => "Local" | .session => "Session")),
    ("values", object (entry.values.toList.map fun (key, value) => (key, quote value))),
    ("generation", ofNat entry.generation.toNat)]

/-- The JSON of a written storage. -/
def wire (wire : StorageWire) : Text :=
  object [("entries", array (wire.entries.map entry))]

/-- The printer above, and a reader of the text of one value. -/
def printed (value : StorageWire) : Json where
  toString storage := some (wire storage)
  fromStr text := if text = wire value then some value else none

theorem printed_reads_back (value : StorageWire) : (printed value).ReadsBack value :=
  ⟨wire value, rfl, if_pos rfl⟩

end Json

/-- A local area with one entry. -/
def themeHistory : List Operation := [.set 1 "https://a.example" "app" .local "theme" "dark"]

example : Json.wire (OriginStorage.run themeHistory).toWire =
    "\x7b\"entries\":[\x7b\"profile\":\"00000000-0000-0000-0000-000000000001\"," ++
      "\"origin\":\"https://a.example\",\"namespace\":\"app\",\"kind\":\"Local\"," ++
      "\"values\":\x7b\"theme\":\"dark\"\x7d,\"generation\":1\x7d]\x7d" := by
  decide +kernel

/-- A storage with a theme in it. -/
theorem theme_round_trip : ∃ text restored,
    OriginStorage.toJson (.printed (OriginStorage.run themeHistory).toWire)
        (.run themeHistory) = some text ∧
      OriginStorage.fromJson (.printed (OriginStorage.run themeHistory).toWire) text =
        some restored ∧
      (OriginStorage.run themeHistory).Equivalent restored := by
  refine (OriginStorage.round_trip_iff _ themeHistory (Json.printed_reads_back _)).mpr ?_
  intro area hsession hempty
  have hlocal : (⟨1, "https://a.example", "app", .local⟩ : StorageKey) ≠ area := by
    intro harea
    rw [← harea] at hsession
    cases hsession
  have hvalues : (OriginStorage.run themeHistory).values[area]? = none := by
    have hrun : OriginStorage.run themeHistory =
        OriginStorage.empty.set 1 "https://a.example" "app" .local "theme" "dark" := rfl
    rw [hrun, OriginStorage.set, OrdMap.orDefault, OrdMap.get_insert_ne _ hlocal]
    simp [OriginStorage.empty]
  rw [hvalues] at hempty
  cases hempty

/-- A session area whose only entry is removed. -/
def emptiedHistory : List Operation :=
  [.set 1 "https://a.example" "tab-1" .session "k" "v",
    .remove 1 "https://a.example" "tab-1" .session "k"]

/-- The emptied area can be cloned before the round trip only. -/
theorem emptied_not_restored :
    ¬ ∀ (json : Json) (history : List Operation),
      json.ReadsBack (OriginStorage.run history).toWire →
        ∃ text restored, OriginStorage.toJson json (.run history) = some text ∧
          OriginStorage.fromJson json text = some restored ∧
          (OriginStorage.run history).Equivalent restored := by
  intro h
  have hjson := Json.printed_reads_back (OriginStorage.run emptiedHistory).toWire
  have hequivalent := ((OriginStorage.run emptiedHistory).round_trip_of_reads_back hjson).mp
    (h _ _ hjson)
  have hnone := (OriginStorage.equivalent_restored_iff _).mp hequivalent
    ⟨1, "https://a.example", "tab-1", .session⟩ rfl
  have hthere : ((OriginStorage.run emptiedHistory).values[(⟨1, "https://a.example", "tab-1",
      .session⟩ : StorageKey)]?.map ExtTreeMap.isEmpty) = some true := by decide
  obtain ⟨values, hvalues, hempty⟩ := Option.map_eq_some_iff.mp hthere
  exact hnone (ExtTreeMap.isEmpty_iff.mp hempty ▸ hvalues)

end BrowsAI.Storage
