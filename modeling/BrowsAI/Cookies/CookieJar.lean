import BrowsAI.Library.LastOf
import BrowsAI.Library.OrdMap
import BrowsAI.Library.Saturating
import BrowsAI.Network.Url
import BrowsAI.Profiles.Identity

/-!
# Cookies

`Cookie` and `CookieJar` of `crates/cookies`. Where the source reads the system clock, the time in
Unix seconds is an argument.
-/

namespace BrowsAI.Cookies

open Utf8 Network Profiles Saturating

/-- A cookie as it is stored. -/
structure Cookie where
  name : Text
  value : Text
  domain : Text
  hostOnly : Bool
  path : Text
  secure : Bool
  httpOnly : Bool
  sameSite : Option Text
  expires : Option Int
  deriving DecidableEq

namespace Cookie

/-- One turn of the attribute loop of `parse_at`. -/
def applyAttribute (now : Int) (cookie : Cookie) (part : Text) : Option Cookie :=
  let (key, value) := (splitOnce '=' part).getD (part, [])
  let key := asciiLower key
  if key = "domain" then
    -- the domain is not compared with the host
    some { cookie with
      domain := asciiLower (value.dropWhile (· = '.'))
      hostOnly := false }
  else if key = "path" ∧ value ≠ [] then some { cookie with path := value }
  else if key = "secure" then some { cookie with secure := true }
  else if key = "httponly" then some { cookie with httpOnly := true }
  else if key = "max-age" then do
    let seconds ← parseI64 value
    some { cookie with
      expires := some (if seconds ≤ 0 then now else saturatingAddSigned 63 now seconds) }
  else if key = "samesite" ∧ value ≠ [] then
    some { cookie with sameSite := some (asciiLower value) }
  else some cookie

section Url

variable {U : Type} [Url U]

/-- The cookie of a header that came with a request. -/
def parseAt (header : Text) (request : U) (now : Int) : Option Cookie := do
  let parts := (split ';' header).map trim
  let (name, value) ← parts.head?.bind (splitOnce '=')
  let host ← Url.hostStr request
  let cookie : Cookie :=
    { name, value, domain := host, hostOnly := true, path := "/", secure := false,
      httpOnly := false, sameSite := none, expires := none }
  parts.tail.foldlM (applyAttribute now) cookie

/-- `matches`. -/
def matchesUrl (cookie : Cookie) (url : U) : Bool :=
  match Url.hostStr url with
  | none => false
  | some host =>
      let host := asciiLower host
      let domain := asciiLower cookie.domain
      let domainMatch :=
        if cookie.hostOnly then host == domain
        else host == domain || (("." : Text) ++ domain).isSuffixOf host
      let pathMatch :=
        if cookie.path = "/" then true
        else
          Url.path url == cookie.path ||
            (cookie.path.rdropWhile (· = '/') ++ "/").isPrefixOf (Url.path url)
      domainMatch && pathMatch && (!cookie.secure || Url.scheme url == "https")

/-- The cookie is sent to a URL: it matches, has not expired, and its policy allows it. -/
def matchesAt (cookie : Cookie) (url : U) (now : Int) (sameSite : Bool) : Bool :=
  cookie.matchesUrl url && cookie.expires.all (now < ·) &&
    cookie.sameSite.all fun policy : Text =>
      if policy = "strict" ∨ policy = "lax" then sameSite
      else if policy = "none" then cookie.secure
      else true

end Url

end Cookie

/-- Profile, top-level site, domain, and name. -/
abbrev CookieKey := ProfileId × Text × Text × Text

instance instTransOrdCookieKey : Std.TransOrd CookieKey := instTransOrdPair

/-- The cookies by profile, top-level site, domain and name. -/
structure CookieJar where
  values : OrdMap CookieKey Cookie

/-- `CookieJar::default()`. -/
instance : Inhabited CookieJar := ⟨⟨∅⟩⟩

namespace CookieJar

/-- Stores a cookie. -/
def set (jar : CookieJar) (profile : ProfileId) (topLevelSite : Text) (cookie : Cookie) :
    CookieJar :=
  { values := jar.values.insert (profile, topLevelSite, cookie.domain, cookie.name) cookie }

/-- The header for a URL: the cookies of the site that are sent to it. -/
def headerForAt {U : Type} [Url U] (jar : CookieJar) (profile : ProfileId) (topLevelSite : Text)
    (url : U) (now : Int) : Text :=
  let sameSite := (Url.parse (U := U) topLevelSite).any fun site =>
    Url.hostStr site == Url.hostStr url
  let shown := jar.values.toList.filter fun ((stored, site, _, _), cookie) =>
    stored == profile && site == topLevelSite && cookie.matchesAt url now sameSite
  List.intercalate ("; " : Text) <| shown.map fun ((_, _, _, name), cookie) =>
    name ++ "=" ++ cookie.value

end CookieJar

end BrowsAI.Cookies

/-!
## The domain of a cookie

The stored domain is the one of the last `Domain` attribute of the header, `parse_at_domain`, and
the host that sent the header does not have to belong to it. `sent_within_domain_iff` says for which
headers it does.
-/

namespace BrowsAI.Cookies

open Utf8 LastOf Network

/-- The host is the domain, or ends with a dot and the domain. -/
def DomainMatches (host domain : Text) : Prop := host = domain ∨ ("." : Text) ++ domain <:+ host

instance (host domain : Text) : Decidable (DomainMatches host domain) :=
  inferInstanceAs <| Decidable (_ ∨ _)

namespace Cookie

/-- The name of an attribute in lower case, and its value. -/
def readAttribute (part : Text) : Text × Text :=
  let (key, value) := (splitOnce '=' part).getD (part, [])
  (asciiLower key, value)

/-- The attributes of a header. -/
def attributes (header : Text) : List (Text × Text) :=
  ((split ';' header).map trim).tail.map readAttribute

/-- The domain that a `Domain` attribute stands for. -/
def domainOf (value : Text) : Text := asciiLower (value.dropWhile (· = '.'))

/-- The last `Domain` attribute of the header, if it has one, is a domain of the host. -/
def OwnDomain (host header : Text) : Prop :=
  ∀ value, lastOf ("domain" : Text) (attributes header) = some value →
    DomainMatches host (domainOf value)

/-- Only a domain attribute changes the domain. -/
theorem domain_apply_attribute {now : Int} {cookie cookie' : Cookie} {part : Text}
    (h : applyAttribute now cookie part = some cookie') :
    cookie'.domain =
      if (readAttribute part).1 = "domain" then domainOf (readAttribute part).2
      else cookie.domain := by
  simp only [applyAttribute] at h
  have hkey : (readAttribute part).1 = asciiLower ((splitOnce '=' part).getD (part, [])).1 := rfl
  by_cases hdomain : (readAttribute part).1 = "domain"
  · rw [if_pos hdomain]
    rw [← hkey, if_pos hdomain] at h
    cases h
    rfl
  rw [if_neg hdomain]
  rw [← hkey, if_neg hdomain] at h
  split_ifs at h with hpath hsecure hhttp hage hsite
  · cases h
    rfl
  · cases h
    rfl
  · cases h
    rfl
  · obtain ⟨seconds, -, h⟩ := Option.bind_eq_some_iff.mp h
    cases h
    rfl
  · cases h
    rfl
  · cases h
    rfl

/-- The last `Domain` attribute decides. -/
theorem domain_apply_attributes {now : Int} (parts : List Text) {cookie cookie' : Cookie}
    (h : parts.foldlM (applyAttribute now) cookie = some cookie') :
    cookie'.domain =
      ((lastOf ("domain" : Text) (parts.map readAttribute)).map domainOf).getD cookie.domain := by
  induction parts generalizing cookie with
  | nil =>
      cases h
      rfl
  | cons part parts ih =>
      rw [List.foldlM_cons] at h
      obtain ⟨next, hfirst, hrest⟩ := Option.bind_eq_some_iff.mp h
      -- a later `Domain` wins, so this part counts only when none follows
      rw [ih hrest, domain_apply_attribute hfirst, List.map_cons, lastOf]
      cases lastOf ("domain" : Text) (parts.map readAttribute) with
      | some value => rfl
      | none =>
          rw [Option.none_or]
          by_cases hdomain : (readAttribute part).1 = "domain"
          · rw [if_pos hdomain, if_pos hdomain]
            rfl
          · rw [if_neg hdomain, if_neg hdomain]

variable {U : Type} [Url U]

/-- The stored domain: of the last `Domain` attribute, or the host itself. -/
theorem parse_at_domain {header host : Text} {request : U} {now : Int} {cookie : Cookie}
    (hparse : parseAt header request now = some cookie) (hhost : Url.hostStr request = some host) :
    cookie.domain = ((lastOf ("domain" : Text) (attributes header)).map domainOf).getD host := by
  simp only [parseAt, hhost, Option.bind_eq_bind, Option.bind_some] at hparse
  obtain ⟨⟨name, value⟩, -, hfold⟩ := Option.bind_eq_some_iff.mp hparse
  exact domain_apply_attributes _ hfold

/-- The domain that a cookie sent to a later URL is stored for is one of the host that set it exactly
if the last `Domain` attribute of its header, if it has one, is such a domain. -/
theorem sent_within_domain_iff (header host : Text) (request later : U) (now : Int)
    (cookie : Cookie) (hparse : parseAt header request now = some cookie)
    (hhost : Url.hostStr request = some host) (_hsent : cookie.matchesUrl later) :
    DomainMatches host cookie.domain ↔ OwnDomain host header := by
  rw [parse_at_domain hparse hhost, OwnDomain]
  cases lastOf ("domain" : Text) (attributes header) with
  | none => simp [DomainMatches]
  | some value => simp

end Cookie

/-- A cookie of `shop.test` and the hosts below. -/
def shopCookie : Cookie :=
  ⟨"sid", "abc", "shop.test", false, "/", false, false, none, none⟩

/-- The cookie of a shop is sent within its domain. -/
theorem shop_cookie_within_domain :
    shopCookie.matchesUrl (⟨"https", "pay.shop.test", "/"⟩ : PlainUrl) ∧
      DomainMatches "www.shop.test" shopCookie.domain := by
  have hmatches : shopCookie.matchesUrl (⟨"https", "pay.shop.test", "/"⟩ : PlainUrl) := by
    decide
  refine ⟨hmatches, (Cookie.sent_within_domain_iff "sid=abc; Domain=.shop.test" "www.shop.test"
    (⟨"https", "www.shop.test", "/"⟩ : PlainUrl) ⟨"https", "pay.shop.test", "/"⟩ 0 shopCookie
    (by decide) rfl hmatches).mpr fun value hvalue => ?_⟩
  have hdomain : lastOf ("domain" : Text) (Cookie.attributes "sid=abc; Domain=.shop.test") =
      some ".shop.test" := by
    decide
  cases Option.some.inj (hvalue.symm.trans hdomain)
  decide

/-- A host sets a cookie that is sent to another one. -/
theorem evil_cookie_sent :
    ¬ ∀ (header host : Text) (request later : PlainUrl) (now : Int) (cookie : Cookie),
      Cookie.parseAt header request now = some cookie → Url.hostStr request = some host →
        cookie.matchesUrl later → DomainMatches host cookie.domain := by
  intro h
  have hmatches := h "sid=abc; Domain=shop.test" "evil.test" ⟨"https", "evil.test", "/"⟩
    ⟨"https", "shop.test", "/"⟩ 0 shopCookie (by decide) rfl (by decide)
  revert hmatches
  decide

end BrowsAI.Cookies
