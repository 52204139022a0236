import BrowsAI.Library.Utf8

/-!
# The text of JSON

The texts that `serde_json` writes for strings, numbers, arrays and objects, without blanks. A number
that is not finite is no JSON; it is written as `null`, like an absent value.
-/

namespace JsonPrint

open Utf8

/-- A string with its quotes and escapes. -/
def quote (t : Text) : Text :=
  let escape (c : Char) : Text :=
    if c.toNat = 34 then "\\\""
    else if c.toNat = 92 then "\\\\"
    else if c = '\n' then "\\n"
    else if c = '\r' then "\\r"
    else if c = '\t' then "\\t"
    else if c.toNat = 8 then "\\b"
    else if c.toNat = 12 then "\\f"
    else if c.toNat < 16 then "\\u000" ++ Nat.toDigits 16 c.toNat
    else if c.toNat < 32 then "\\u00" ++ Nat.toDigits 16 c.toNat
    else [c]
  "\"" ++ t.flatMap escape ++ "\""

/-- An object with these members. -/
def object (members : List (Text × Text)) : Text :=
  "\x7b" ++ List.intercalate ("," : Text) (members.map fun (name, value) =>
    quote name ++ ":" ++ value) ++ "\x7d"

/-- An array of these values. -/
def array (values : List Text) : Text := "[" ++ List.intercalate ("," : Text) values ++ "]"

/-- A truth value. -/
def bool (b : Bool) : Text := if b then "true" else "false"

/-- An integer. -/
def ofInt (n : Int) : Text := if n < 0 then "-" ++ ofNat (-n).toNat else ofNat n.toNat

/-- A value that may be absent. -/
def orNull (value : Option Text) : Text := value.getD "null"

end JsonPrint
