import BrowsAI.Library.Utf8

/-!
# URLs

The URL type comes from a library outside the repository. It is a parameter: `Url U` lists the
operations that the repository calls on it, and assumes nothing about them.
-/

namespace BrowsAI.Network

open Utf8

/-- What the code asks of a URL. -/
class Url (U : Type) where
  asStr : U → Text
  scheme : U → Text
  hostStr : U → Option Text
  path : U → Text
  portOrKnownDefault : U → Option UInt16
  parse : Text → Option U
  join : U → Text → Option U

/-- With the credentials of the URL, which its origin does not include. -/
class CredentialUrl (U : Type) extends Url U where
  username : U → Text
  password : U → Option Text

/-- With the parts of the URL that tell documents apart. Opaque origins are never the same. -/
class PageUrl (U : Type) extends Url U where
  query : U → Option Text
  fragment : U → Option Text
  sameOrigin : U → U → Bool

/-- A URL of a scheme, a host, and a path in normal form. -/
structure PlainUrl where
  scheme : Text
  host : Text
  path : Text
  deriving DecidableEq

namespace PlainUrl

/-- A scheme, a host and a path. -/
def parse (text : Text) : Option PlainUrl := do
  let (scheme, rest) ← splitOnce ':' text
  let rest ← stripPrefix "//" rest
  let (host, path) := (splitOnce '/' rest).getD (rest, [])
  if host = [] then none else some ⟨scheme, host, "/" ++ path⟩

instance : Url PlainUrl where
  asStr url := url.scheme ++ "://" ++ url.host ++ url.path
  scheme url := url.scheme
  hostStr url := some url.host
  path url := url.path
  portOrKnownDefault url :=
    if url.scheme = "http" then some 80 else if url.scheme = "https" then some 443 else none
  parse := parse
  join url location :=
    if location.head? = some '/' then some { url with path := location } else parse location

instance : CredentialUrl PlainUrl where
  username _ := []
  password _ := none

instance : PageUrl PlainUrl where
  query _ := none
  fragment _ := none
  sameOrigin url other :=
    (Url.portOrKnownDefault url).isSome && url.scheme = other.scheme && url.host = other.host

end PlainUrl

end BrowsAI.Network
