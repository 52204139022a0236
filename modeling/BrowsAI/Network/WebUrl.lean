import BrowsAI.Network.Url
import Mathlib.Tactic.SplitIfs

/-!
# URLs with a fragment or an opaque origin

`DocumentUrl` and `OriginUrl` add what the url library says about fragments and origins to the
parameter `Url`, with its documented laws as named hypotheses. `WebUrl` is a small URL type that has
both.
-/

namespace BrowsAI.Network

open Utf8

/-- With the URL without its fragment. -/
class DocumentUrl (U : Type) extends PageUrl U where
  document : U → U

/-- Path and query are not in the fragment, and the fragment is all that the document leaves out. -/
structure DocumentUrl.Lawful (U : Type) [DocumentUrl U] : Prop where
  path : ∀ a b : U, document a = document b → Url.path a = Url.path b
  query : ∀ a b : U, document a = document b → PageUrl.query a = PageUrl.query b
  ext : ∀ a b : U, document a = document b → PageUrl.fragment a = PageUrl.fragment b → a = b

/-- An origin that is not opaque. -/
structure TupleOrigin where
  scheme : Text
  host : Text
  port : UInt16
  deriving DecidableEq

/-- With the origin of the URL, `none` for an opaque one, and the text of an origin. -/
class OriginUrl (U : Type) extends Url U where
  origin : U → Option TupleOrigin
  asciiSerialization : Option TupleOrigin → Text

/-- All opaque origins have one text, and a tuple origin has a text of its own. -/
structure OriginUrl.Lawful (U : Type) [OriginUrl U] : Prop where
  opaque_eq : asciiSerialization U none = "null"
  tuple_ne : ∀ (url : U) (o : TupleOrigin), origin url = some o →
    asciiSerialization U (some o) ≠ "null"
  tuple_injective : ∀ (a b : U) (o o' : TupleOrigin), origin a = some o → origin b = some o' →
    asciiSerialization U (some o) = asciiSerialization U (some o') → o = o'

/-- A URL on the default port of its scheme. -/
structure WebUrl where
  scheme : Text
  username : Text
  host : Option Text
  path : Text
  query : Option Text
  fragment : Option Text
  deriving DecidableEq

namespace WebUrl

/-- The URL as a text. -/
def asStr (url : WebUrl) : Text :=
  let username := if url.username = [] then [] else url.username ++ ['@']
  let authority := (url.host.map fun host => '/' :: '/' :: username ++ host).getD []
  url.scheme ++ ':' :: authority ++ url.path ++ (url.query.map ('?' :: ·)).getD [] ++
    (url.fragment.map ('#' :: ·)).getD []

/-- The text before and behind a separator. -/
def cut (separator : Char) (text : Text) : Text × Option Text :=
  match splitOnce separator text with
  | some (front, back) => (front, some back)
  | none => (text, none)

/-- The parts of a text, from the last one on. -/
def parse (text : Text) : Option WebUrl := do
  let (text, fragment) := cut '#' text
  let (text, query) := cut '?' text
  let (scheme, rest) ← splitOnce ':' text
  match stripPrefix "//" rest with
  | none => some ⟨scheme, [], none, rest, query, fragment⟩
  | some rest =>
      let (authority, path) := cut '/' rest
      let (username, host) := (splitOnce '@' authority).getD ([], authority)
      some ⟨scheme, username, some host, "/" ++ path.getD [], query, fragment⟩

/-- The port of a scheme. -/
def defaultPort (scheme : Text) : Option UInt16 :=
  if scheme = "http" ∨ scheme = "ws" then some 80
  else if scheme = "https" ∨ scheme = "wss" then some 443
  else if scheme = "ftp" then some 21
  else none

/-- The schemes with a tuple origin are those with a default port. -/
def origin (url : WebUrl) : Option TupleOrigin := do
  some ⟨url.scheme, ← url.host, ← defaultPort url.scheme⟩

instance : Url WebUrl where
  asStr := asStr
  scheme := WebUrl.scheme
  hostStr := WebUrl.host
  path := WebUrl.path
  portOrKnownDefault url := defaultPort url.scheme
  parse := parse
  join url location :=
    match location with
    | '#' :: fragment => some { url with fragment := some fragment }
    | '/' :: path => some { url with path := '/' :: path, query := none, fragment := none }
    | _ => parse location

instance : DocumentUrl WebUrl where
  query := WebUrl.query
  fragment := WebUrl.fragment
  sameOrigin a b := a.origin.isSome && a.origin = b.origin
  document url := { url with fragment := none }

instance : OriginUrl WebUrl where
  origin := origin
  asciiSerialization
    | none => "null"
    | some o =>
        let text := o.scheme ++ ':' :: '/' :: '/' :: o.host
        if defaultPort o.scheme = some o.port then text else text ++ ':' :: ofNat o.port.toNat

theorem origin_eq_some {url : WebUrl} {o : TupleOrigin} (h : OriginUrl.origin url = some o) :
    defaultPort o.scheme = some o.port ∧ OriginUrl.asciiSerialization WebUrl (some o) =
      o.scheme ++ ':' :: '/' :: '/' :: o.host := by
  obtain ⟨host, _, h⟩ := Option.bind_eq_some_iff.mp h
  obtain ⟨port, hport, h⟩ := Option.bind_eq_some_iff.mp h
  obtain rfl := Option.some.inj h
  exact ⟨hport, if_pos hport⟩

theorem colon_not_mem_scheme {scheme : Text} {port : UInt16} (h : defaultPort scheme = some port) :
    ':' ∉ scheme := by
  unfold defaultPort at h
  split_ifs at h with hhttp hhttps hftp
  · rcases hhttp with rfl | rfl <;> decide
  · rcases hhttps with rfl | rfl <;> decide
  · subst hftp
    decide

/-- Origins are as documented. -/
theorem origin_lawful : OriginUrl.Lawful WebUrl where
  opaque_eq := rfl
  tuple_ne url o h hnull := by
    have hcolon : ':' ∈ OriginUrl.asciiSerialization WebUrl (some o) := by
      rw [(origin_eq_some h).2]
      exact List.mem_append_right _ List.mem_cons_self
    rw [hnull] at hcolon
    exact absurd hcolon (by decide)
  tuple_injective a b o o' ha hb htext := by
    obtain ⟨hport, ho⟩ := origin_eq_some ha
    obtain ⟨hport', ho'⟩ := origin_eq_some hb
    rw [ho, ho'] at htext
    -- the scheme is what stands before the first colon
    have hscheme : ∀ (scheme rest : Text), ':' ∉ scheme →
        (scheme ++ ':' :: rest).takeWhile (· ≠ ':') = scheme := by
      intro scheme rest hcolon
      have hpos : ∀ c ∈ scheme, decide (c ≠ ':') = true := by
        intro c hc
        refine decide_eq_true ?_
        rintro rfl
        exact hcolon hc
      rw [List.takeWhile_append_of_pos hpos]
      simp
    have htake := congrArg (List.takeWhile (· ≠ ':')) htext
    rw [hscheme _ _ (colon_not_mem_scheme hport), hscheme _ _ (colon_not_mem_scheme hport')]
      at htake
    rw [htake] at htext hport
    obtain ⟨scheme, host, port⟩ := o
    obtain ⟨scheme', host', port'⟩ := o'
    obtain rfl : scheme = scheme' := htake
    obtain rfl : port = port' := Option.some.inj (hport.symm.trans hport')
    have hhost := List.append_cancel_left htext
    cases hhost
    rfl

/-- Documents are as documented. -/
theorem document_lawful : DocumentUrl.Lawful WebUrl where
  path a b h := by
    have hpath := congrArg WebUrl.path h
    exact hpath
  query a b h := by
    have hquery := congrArg WebUrl.query h
    exact hquery
  ext a b hdocument hfragment := by
    obtain ⟨scheme, username, host, path, query, fragment⟩ := a
    obtain ⟨scheme', username', host', path', query', fragment'⟩ := b
    cases hdocument
    cases hfragment
    rfl

end WebUrl

end BrowsAI.Network
