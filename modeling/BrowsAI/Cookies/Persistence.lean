import BrowsAI.Cookies.CookieJar
import BrowsAI.Library.Json
import BrowsAI.Library.Runs

/-!
# The jar over time

`purge_expired`, `to_json` and `from_json` of `crates/cookies`. The library that turns the entries
into JSON text and back is a parameter, and `ReadsBack` what is expected of it. Neither a purge nor
a reload changes a later header, `purged_header` and `reloaded_header`, but one jar never holds two
cookies of one name and domain: `never_keeps_both`.
-/

namespace BrowsAI.Cookies

open Std Utf8 Network Profiles

/-- A cookie as it is written. -/
structure CookieEntry where
  profile : ProfileId
  topLevelSite : Text
  cookie : Cookie
  deriving DecidableEq

/-- A jar as it is written. -/
structure CookieJarWire where
  entries : List CookieEntry
  deriving DecidableEq

/-- `serde_json::to_string` and `serde_json::from_str` at `CookieJarWire`. -/
structure Json where
  toString : CookieJarWire → Option Text
  fromStr : Text → Option CookieJarWire

/-- The text of the entries is read as those entries. -/
def Json.ReadsBack (json : Json) (wire : CookieJarWire) : Prop :=
  ∃ text, json.toString wire = some text ∧ json.fromStr text = some wire

namespace Json

open JsonPrint (quote object array bool ofInt orNull)

/-- The JSON of a cookie. -/
def cookie (cookie : Cookie) : Text :=
  object [("name", quote cookie.name), ("value", quote cookie.value),
    ("domain", quote cookie.domain), ("host_only", bool cookie.hostOnly),
    ("path", quote cookie.path), ("secure", bool cookie.secure),
    ("http_only", bool cookie.httpOnly),
    ("same_site", orNull (cookie.sameSite.map quote)),
    ("expires", orNull (cookie.expires.map ofInt))]

/-- The JSON of an entry. -/
def entry (entry : CookieEntry) : Text :=
  object [("profile", quote (hyphenated entry.profile)),
    ("top_level_site", quote entry.topLevelSite), ("cookie", cookie entry.cookie)]

/-- The JSON of a written jar. -/
def wire (wire : CookieJarWire) : Text := object [("entries", array (wire.entries.map entry))]

/-- The printer above, and a reader of the text of one jar. -/
def printed (value : CookieJarWire) : Json where
  toString jar := some (wire jar)
  fromStr text := if text = wire value then some value else none

theorem printed_reads_back (value : CookieJarWire) : (printed value).ReadsBack value :=
  ⟨wire value, rfl, if_pos rfl⟩

end Json

/-- The cookie has not expired. -/
def Cookie.live (now : Int) (cookie : Cookie) : Bool := cookie.expires.all (now < ·)

namespace CookieJar

/-- The jar without the expired cookies, and how many these were. -/
def purgeExpired (jar : CookieJar) (now : Int) : CookieJar × Nat :=
  let values := jar.values.filter fun _ cookie => cookie.live now
  ({ values }, jar.values.size - values.size)

/-- The calls of `set` with these arguments, in order. -/
def setAll (jar : CookieJar) (entries : List CookieEntry) : CookieJar :=
  entries.foldl (fun jar entry => jar.set entry.profile entry.topLevelSite entry.cookie) jar

/-- The entries that `to_json` writes. -/
def toWire (jar : CookieJar) : CookieJarWire where
  entries := jar.values.toList.map fun ((profile, topLevelSite, _, _), cookie) =>
    { profile, topLevelSite, cookie }

/-- The JSON of a jar. -/
def toJson (json : Json) (jar : CookieJar) : Option Text := json.toString jar.toWire

/-- The jar of a text: its entries set one after the other. -/
def fromJson (json : Json) (text : Text) : Option CookieJar :=
  (json.fromStr text).map fun wire => setAll default wire.entries

/-! ## Purges -/

section Purge

variable {jar jar' : CookieJar} {now t : Int}

/-- A cookie that lives at a time lived before. -/
theorem live_of_le (h : now ≤ t) {cookie : Cookie} (hlive : cookie.live t) : cookie.live now := by
  cases hexpires : cookie.expires with
  | none => simp [Cookie.live, hexpires]
  | some expires =>
      simp only [Cookie.live, hexpires, Option.all_some, decide_eq_true_eq] at hlive ⊢
      omega

theorem get_purged (jar : CookieJar) (now : Int) (key : CookieKey) :
    (jar.purgeExpired now).1.values[key]? = jar.values[key]?.filter (Cookie.live now) :=
  ExtTreeMap.getElem?_filter'

/-- Two jars are the same behind a purge exactly if their live cookies are. -/
theorem purged_eq_iff :
    (jar.purgeExpired now).1 = (jar'.purgeExpired now).1 ↔
      ∀ key : CookieKey, jar.values[key]?.filter (Cookie.live now) =
        jar'.values[key]?.filter (Cookie.live now) := by
  constructor
  · intro h key
    rw [← get_purged, h, get_purged]
  · intro h
    have hvalues : (jar.purgeExpired now).1.values = (jar'.purgeExpired now).1.values := by
      refine ExtTreeMap.ext_getElem? fun key => ?_
      rw [get_purged, h key, get_purged]
    exact congrArg CookieJar.mk hvalues

theorem purged_purged (jar : CookieJar) (now : Int) :
    ((jar.purgeExpired now).1.purgeExpired now).1 = (jar.purgeExpired now).1 := by
  rw [purged_eq_iff]
  intro key
  rw [get_purged, Option.filter_filter]
  simp

/-- What two jars still hold after a purge is the same after one more cookie. -/
theorem purged_set (h : (jar.purgeExpired now).1 = (jar'.purgeExpired now).1)
    (profile : ProfileId) (topLevelSite : Text) (cookie : Cookie) :
    ((jar.set profile topLevelSite cookie).purgeExpired now).1 =
      ((jar'.set profile topLevelSite cookie).purgeExpired now).1 := by
  rw [purged_eq_iff] at h ⊢
  intro key
  show ((jar.values.insert _ cookie)[key]?).filter _ =
    ((jar'.values.insert _ cookie)[key]?).filter _
  rw [OrdMap.get_insert, OrdMap.get_insert]
  split_ifs
  · rfl
  · exact h key

theorem purged_set_all (h : (jar.purgeExpired now).1 = (jar'.purgeExpired now).1)
    (entries : List CookieEntry) :
    ((jar.setAll entries).purgeExpired now).1 = ((jar'.setAll entries).purgeExpired now).1 := by
  induction entries generalizing jar jar' with
  | nil => exact h
  | cons entry entries ih => exact ih (purged_set h _ _ _)

end Purge

/-! ## Headers -/

section Header

variable {U : Type} [Url U]

/-- The entries that `header_for_at` writes. -/
def shown (jar : CookieJar) (profile : ProfileId) (topLevelSite : Text) (url : U) (now : Int) :
    List (CookieKey × Cookie) :=
  let sameSite := (Url.parse (U := U) topLevelSite).any fun site =>
    Url.hostStr site == Url.hostStr url
  jar.values.toList.filter fun ((stored, site, _, _), cookie) =>
    stored == profile && site == topLevelSite && cookie.matchesAt url now sameSite

/-- The header joins the cookies that are shown. -/
theorem header_for_at_eq (jar : CookieJar) (profile : ProfileId) (topLevelSite : Text) (url : U)
    (now : Int) :
    jar.headerForAt profile topLevelSite url now =
      List.intercalate ("; " : Text) ((jar.shown profile topLevelSite url now).map
        fun ((_, _, _, name), cookie) => name ++ "=" ++ cookie.value) := rfl

/-- A purge does not change the headers of later times. -/
theorem purged_header {now t : Int} (h : now ≤ t) (jar : CookieJar) (profile : ProfileId)
    (topLevelSite : Text) (url : U) :
    (jar.purgeExpired now).1.headerForAt profile topLevelSite url t =
      jar.headerForAt profile topLevelSite url t := by
  have hshown : (jar.purgeExpired now).1.shown profile topLevelSite url t =
      jar.shown profile topLevelSite url t := by
    show List.filter _ (jar.values.filter _).toList = _
    rw [ExtTreeMap.toList_filter, List.filter_filter]
    refine List.filter_congr fun entry _ => ?_
    cases hlive : entry.2.live now with
    | true => rw [Bool.and_true]
    | false =>
        -- an entry that the purge removes has expired at the later time too
        have hexpired : entry.2.live t = false :=
          Bool.eq_false_iff.mpr fun hlater => by simp [live_of_le h hlater] at hlive
        have hmatches : ∀ sameSite, entry.2.matchesAt url t sameSite = false := by
          intro sameSite
          show (_ && entry.2.live t && _) = false
          rw [hexpired, Bool.and_false, Bool.false_and]
        simp only [hmatches, Bool.and_false]
  rw [header_for_at_eq, header_for_at_eq, hshown]

/-- Jars that agree after a purge have the same headers from then on. -/
theorem header_of_purged_eq {jar jar' : CookieJar} {now t : Int} (ht : now ≤ t)
    (h : (jar.purgeExpired now).1 = (jar'.purgeExpired now).1) (profile : ProfileId)
    (topLevelSite : Text) (url : U) :
    jar.headerForAt profile topLevelSite url t = jar'.headerForAt profile topLevelSite url t := by
  rw [← purged_header ht jar, h, purged_header ht jar']

end Header

/-! ## Reloads -/

/-- The keys are those that `set` gives to their cookies. -/
def Keyed (jar : CookieJar) : Prop :=
  ∀ (key : CookieKey) (cookie : Cookie), jar.values[key]? = some cookie →
    key = (key.1, key.2.1, cookie.domain, cookie.name)

theorem Keyed.set {jar : CookieJar} (h : jar.Keyed) (profile : ProfileId) (topLevelSite : Text)
    (cookie : Cookie) : (jar.set profile topLevelSite cookie).Keyed := by
  intro key stored hstored
  replace hstored : (jar.values.insert (profile, topLevelSite, cookie.domain, cookie.name)
    cookie)[key]? = some stored := hstored
  rw [OrdMap.get_insert] at hstored
  split_ifs at hstored with hkey
  · cases hstored
    rw [← hkey]
  · exact h key stored hstored

theorem Keyed.set_all {jar : CookieJar} (h : jar.Keyed) (entries : List CookieEntry) :
    (jar.setAll entries).Keyed := by
  induction entries generalizing jar with
  | nil => exact h
  | cons entry entries ih => exact ih (h.set _ _ _)

theorem Keyed.purge_expired {jar : CookieJar} (h : jar.Keyed) (now : Int) :
    (jar.purgeExpired now).1.Keyed := by
  intro key cookie hcookie
  rw [get_purged, Option.filter_eq_some_iff] at hcookie
  exact h key cookie hcookie.1

theorem keyed_default : (default : CookieJar).Keyed := by
  intro key cookie hcookie
  have hempty : (default : CookieJar).values[key]? = none := by simp [default]
  rw [hempty] at hcookie
  cases hcookie

/-- The keys that the wire leaves out are made again. -/
theorem set_all_to_wire {jar : CookieJar} (h : jar.Keyed) :
    setAll default jar.toWire.entries = jar := by
  have hfold : ∀ (entries : List (CookieKey × Cookie)) (start : CookieJar),
      (∀ entry ∈ entries, jar.values[entry.1]? = some entry.2) →
      (setAll start (entries.map fun ((profile, topLevelSite, _, _), cookie) =>
        { profile, topLevelSite, cookie })).values =
          entries.foldl (fun values entry => values.insert entry.1 entry.2) start.values := by
    intro entries
    induction entries with
    | nil =>
        intro start _
        rfl
    | cons entry entries ih =>
        intro start hentries
        have hkey := h entry.1 entry.2 (hentries entry List.mem_cons_self)
        refine (ih _ fun other hother => hentries other (List.mem_cons_of_mem _ hother)).trans ?_
        rw [List.foldl_cons]
        congr 1
        show start.values.insert (entry.1.1, entry.1.2.1, entry.2.domain, entry.2.name) entry.2 = _
        rw [← hkey]
  have hvalues : (setAll default jar.toWire.entries).values = jar.values := by
    refine (hfold jar.values.toList default fun entry hentry =>
      ExtTreeMap.mem_toList_iff_getElem?_eq_some.mp hentry).trans ?_
    exact OrdMap.foldl_insert_to_list jar.values
  exact congrArg CookieJar.mk hvalues

/-- A jar whose JSON text reads back is itself again. -/
theorem reloaded {json : Json} {jar : CookieJar} (h : jar.Keyed)
    (hjson : json.ReadsBack jar.toWire) : (jar.toJson json).bind (fromJson json) = some jar := by
  obtain ⟨text, htext, hread⟩ := hjson
  rw [toJson, htext, Option.bind_some, fromJson, hread, Option.map_some, set_all_to_wire h]

/-- Neither a purge nor a reload of a jar that `set` filled changes a header of that time or later,
whatever both jars are given after it. -/
theorem purged_and_reloaded_headers {U : Type} [Url U] (json : Json)
    (entries later : List CookieEntry) (now t : Int) (profile : ProfileId) (topLevelSite : Text)
    (url : U) (hjson : json.ReadsBack (setAll default entries).toWire) (ht : now ≤ t) :
    let jar := setAll default entries
    let header := fun jar : CookieJar =>
      (jar.setAll later).headerForAt profile topLevelSite url t
    header (jar.purgeExpired now).1 = header jar ∧
      ∃ restored, (jar.toJson json).bind (fromJson json) = some restored ∧
        header restored = header jar := by
  intro jar header
  refine ⟨?_, jar, reloaded (keyed_default.set_all entries) hjson, rfl⟩
  exact header_of_purged_eq ht (purged_set_all (purged_purged jar now) later) _ _ _

/-- A cookie of `shop.test` with a path. -/
def pathCookie (value path : Text) (expires : Option Int) : Cookie :=
  ⟨"sid", value, "shop.test", true, path, false, false, none, expires⟩

theorem path_cookies_alike (value path value' path' : Text) :
    (pathCookie value path none).name = (pathCookie value' path' none).name ∧
      (pathCookie value path none).domain = (pathCookie value' path' none).domain :=
  ⟨rfl, rfl⟩

/-- What `sid=a; Path=/a` and `sid=b; Path=/b` set in one partition. -/
def pathEntries : List CookieEntry :=
  [⟨1, "https://shop.test", pathCookie "a" "/a" none⟩,
    ⟨1, "https://shop.test", pathCookie "b" "/b" none⟩]

/-- A cookie that expires at 60, and one that does not. -/
def sessionEntries : List CookieEntry :=
  [⟨1, "https://shop.test", pathCookie "gone" "/" (some 60)⟩,
    ⟨2, "https://shop.test", pathCookie "b" "/b" none⟩]

/-- A purge and a reload leave the header of a session as it is. -/
theorem session_headers_kept :
    let jar := setAll default sessionEntries
    let header := fun jar : CookieJar =>
      (jar.setAll pathEntries).headerForAt 2 "https://shop.test"
        (⟨"https", "shop.test", "/b"⟩ : PlainUrl) 60
    header (jar.purgeExpired 60).1 = header jar ∧
      ∃ restored, (jar.toJson (.printed jar.toWire)).bind
          (fromJson (.printed jar.toWire)) = some restored ∧
        header restored = header jar :=
  purged_and_reloaded_headers _ sessionEntries pathEntries 60 60 2 "https://shop.test" _
    (Json.printed_reads_back _) (Int.le_refl _)

/-! ## Cookies of one name -/

/-- A call that changes the jar. `load` is `from_json`, of the text of this jar or of another. -/
inductive Operation
  | set (entry : CookieEntry)
  | purgeExpired (now : Int)
  | load (text : Text)

/-- The jar in use. -/
def machine (json : Json) : Machine CookieJar Operation where
  step jar
    | .set entry => jar.set entry.profile entry.topLevelSite entry.cookie
    | .purgeExpired now => (jar.purgeExpired now).1
    | .load text => (fromJson json text).getD jar
  Allowed _ _ := True

/-- The cookie is in the partition. -/
def Holds (jar : CookieJar) (profile : ProfileId) (topLevelSite : Text) (cookie : Cookie) : Prop :=
  ∃ entry ∈ jar.values.toList,
    entry.1.1 = profile ∧ entry.1.2.1 = topLevelSite ∧ entry.2 = cookie

/-- Both cookies are in the partition, and the header has each exactly when that cookie matches. -/
structure KeepsBoth (U : Type) [Url U] (jar : CookieJar) (profile : ProfileId)
    (topLevelSite : Text) (first second : Cookie) : Prop where
  holds_first : jar.Holds profile topLevelSite first
  holds_second : jar.Holds profile topLevelSite second
  sent : ∀ cookie ∈ [first, second], ∀ (url : U) (now : Int),
    (∃ entry ∈ jar.shown profile topLevelSite url now, entry.2 = cookie) ↔
      cookie.matchesAt url now ((Url.parse (U := U) topLevelSite).any fun site =>
        Url.hostStr site == Url.hostStr url)

/-- Cookies stay under their own domains and names. -/
theorem Keyed.run (json : Json) {jar : CookieJar} (h : jar.Keyed) (history : List Operation) :
    ((machine json).run jar history).Keyed := by
  induction history generalizing jar with
  | nil => exact h
  | cons operation history ih =>
      refine ih (?_ : ((machine json).step jar operation).Keyed)
      cases operation with
      | set entry => exact h.set _ _ _
      | purgeExpired now => exact h.purge_expired now
      | load text =>
          show ((fromJson json text).getD jar).Keyed
          cases hload : json.fromStr text with
          | none =>
              rw [fromJson, hload]
              exact h
          | some wire =>
              rw [fromJson, hload]
              exact keyed_default.set_all wire.entries

/-- A partition has one cookie of a name and domain. -/
theorem Keyed.eq_of_holds {jar : CookieJar} (h : jar.Keyed) {profile : ProfileId}
    {topLevelSite : Text} {first second : Cookie} (hname : first.name = second.name)
    (hdomain : first.domain = second.domain) (hfirst : jar.Holds profile topLevelSite first)
    (hsecond : jar.Holds profile topLevelSite second) : first = second := by
  have hget : ∀ cookie, jar.Holds profile topLevelSite cookie →
      jar.values[(profile, topLevelSite, cookie.domain, cookie.name)]? = some cookie := by
    intro cookie hholds
    obtain ⟨entry, hentry, hprofile, hsite, heq⟩ := hholds
    replace hentry := ExtTreeMap.mem_toList_iff_getElem?_eq_some.mp hentry
    have hkey := h entry.1 entry.2 hentry
    rw [hprofile, hsite, heq] at hkey
    rw [← hkey, hentry, heq]
  have hsame := hget first hfirst
  rw [hname, hdomain, hget second hsecond] at hsame
  exact (Option.some.inj hsame).symm

/-- No history leaves two cookies of one name and domain that differ in their paths. -/
theorem never_keeps_both {U : Type} [Url U] (json : Json) (history : List Operation)
    (profile : ProfileId) (topLevelSite : Text) (first second : Cookie)
    (hname : first.name = second.name) (hdomain : first.domain = second.domain)
    (hpath : first.path ≠ second.path) :
    ¬ KeepsBoth U ((machine json).run default history) profile topLevelSite first second := by
  intro h
  have heq := (keyed_default.run json history).eq_of_holds hname hdomain h.holds_first
    h.holds_second
  exact hpath (congrArg Cookie.path heq)

example :
    (Cookie.parseAt "sid=a; Path=/a" (⟨"https", "shop.test", "/"⟩ : PlainUrl) 0,
      Cookie.parseAt "sid=b; Path=/b" (⟨"https", "shop.test", "/"⟩ : PlainUrl) 0) =
    (some (pathCookie "a" "/a" none), some (pathCookie "b" "/b" none)) := by
  decide

theorem path_cookies_not_kept :
    let json := Json.printed ⟨pathEntries⟩
    ¬ KeepsBoth PlainUrl
      ((machine json).run default (pathEntries.map .set)) 1 "https://shop.test"
      (pathCookie "a" "/a" none) (pathCookie "b" "/b" none) :=
  have halike := path_cookies_alike "a" "/a" "b" "/b"
  never_keeps_both _ _ _ _ _ _ halike.1 halike.2 (by decide)

/-- The first of two cookies is gone, and the header of its path is empty. -/
theorem first_path_cookie_lost :
    (¬ ∀ (json : Json) (history : List Operation) (profile : ProfileId)
        (topLevelSite : Text) (first second : Cookie),
        .set ⟨profile, topLevelSite, first⟩ ∈ history →
        .set ⟨profile, topLevelSite, second⟩ ∈ history → first.name = second.name →
        first.domain = second.domain → first.path ≠ second.path →
          KeepsBoth PlainUrl ((machine json).run default history) profile
            topLevelSite first second) ∧
      (setAll default pathEntries).headerForAt 1 "https://shop.test"
        (⟨"https", "shop.test", "/a"⟩ : PlainUrl) 0 = [] := by
  refine ⟨?_, by decide⟩
  intro h
  have halike := path_cookies_alike "a" "/a" "b" "/b"
  have hkeeps := h (Json.printed ⟨pathEntries⟩) (pathEntries.map .set) 1 "https://shop.test"
    (pathCookie "a" "/a" none) (pathCookie "b" "/b" none) List.mem_cons_self
    (List.mem_cons_of_mem _ List.mem_cons_self) halike.1 halike.2 (by decide)
  obtain ⟨entry, hentry, -, -, heq⟩ := hkeeps.holds_first
  have hvalues : ∀ entry ∈ (setAll default pathEntries).values.toList,
      entry.2 ≠ pathCookie "a" "/a" none := by
    decide
  exact hvalues entry hentry heq

end CookieJar

end BrowsAI.Cookies
