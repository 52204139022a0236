import BrowsAI.Library.Utf8

/-!
# Profile identities

The id of a profile, and the part of `ProfileIdentity` of `crates/engine-api` that the network
layer copies into request headers.
-/

namespace BrowsAI.Profiles

open Utf8

/-- A UUID, ordered by its bytes. -/
abbrev Uuid := BitVec 128

instance instTransOrdUuid : Std.TransOrd Uuid := BitVec.instTransOrd

/-- The UUID in lower-case hexadecimal, with hyphens. -/
def hyphenated (id : Uuid) : Text :=
  let digits := Nat.toDigits 16 id.toNat
  let padded := List.replicate (32 - digits.length) '0' ++ digits
  List.intercalate ("-" : Text) [padded.take 8, (padded.drop 8).take 4, (padded.drop 12).take 4,
    (padded.drop 16).take 4, padded.drop 20]

/-- The id of a profile, drawn at random. -/
abbrev ProfileId := Uuid

/-- A brand with its version. -/
structure SecChUaBrand where
  brand : Text
  version : Text
  deriving DecidableEq

/-- What the headers tell of a profile. -/
structure ProfileIdentity where
  userAgent : Text
  platform : Text
  brands : List SecChUaBrand
  acceptLanguage : Text
  deriving DecidableEq

namespace ProfileIdentity

/-- The header with the brands. A NUL is dropped, quotes are not escaped. -/
def secChUa (identity : ProfileIdentity) : Text :=
  List.intercalate (", " : Text) <| identity.brands.map fun brand =>
    "\"" ++ replace (Char.ofNat 0) [] brand.brand ++ "\";v=\"" ++ brand.version ++ "\""

/-- The header that tells whether it is a phone. -/
def secChUaMobile (identity : ProfileIdentity) : Text :=
  let platform := asciiLower identity.platform
  if contains "android" platform ∨ contains "iphone" platform ∨ contains "ipad" platform then "?1"
  else "?0"

/-- The header with the platform. -/
def secChUaPlatform (identity : ProfileIdentity) : Text := "\"" ++ identity.platform ++ "\""

end ProfileIdentity

end BrowsAI.Profiles
