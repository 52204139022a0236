import BrowsAI.AgentTree.Basic

/-!
# The texts of a node

The option set, the tags, and the pure functions of `crates/page-text` that read one node: the
text of a block, the body of a widget, the attributes of a tag, the URL a link or an image
resolves to, and the level of a heading. Nothing here looks at the rest of the tree.
-/

namespace BrowsAI.PageText

open Utf8 AgentTree

/-- With tags, or the text only. -/
inductive PageTextFormat where
  | markdown
  | plain
  deriving DecidableEq

/-- What is printed. -/
structure MarkdownOptions where
  format : PageTextFormat
  /-- Emit nodes whose `state.visible` is false. -/
  includeInvisible : Bool
  /-- Emit nodes whose `state.enabled` is false. -/
  includeDisabled : Bool
  /-- Truncate any single piece of node text to this many bytes. -/
  maxTextBytes : Nat
  /-- Heading depth past which a heading is demoted. -/
  maxHeadingLevel : Nat
  /-- Omit the `<page-content trust="untrusted">` envelope. -/
  raw : Bool
  deriving DecidableEq

/-- `MarkdownOptions::default()`. -/
instance : Inhabited MarkdownOptions := ⟨⟨.markdown, false, true, 500, 6, false⟩⟩

/-- The tags. -/
inductive MarkdownTag where
  | link | button | textbox | checkbox | radio | select | option | image | heading | region
  | dialog | challenge | form | list | listItem | table | row | cell
  deriving DecidableEq

/-- The name of a tag. -/
def MarkdownTag.asStr : MarkdownTag → Text
  | .link => "link"
  | .button => "button"
  | .textbox => "textbox"
  | .checkbox => "checkbox"
  | .radio => "radio"
  | .select => "select"
  | .option => "option"
  | .image => "image"
  | .heading => "heading"
  | .region => "region"
  | .dialog => "dialog"
  | .challenge => "challenge"
  | .form => "form"
  | .list => "list"
  | .listItem => "listitem"
  | .table => "table"
  | .row => "row"
  | .cell => "cell"

/-! ## Truncation and escaping -/

/-- The largest character boundary that is at most `cut`, found by counting down. -/
def floorBoundary (s : Text) : Nat → Nat
  | 0 => 0
  | cut + 1 => if isCharBoundary s (cut + 1) then cut + 1 else floorBoundary s cut

/-- The text, or its start with dots behind it. -/
def truncate (s : Text) (max : Nat) : Text :=
  if len s ≤ max then s else takeBytes (floorBoundary s max) s ++ "..."

/-- The characters that mean something in a tag, by name. -/
def escapeChar : Char → Text
  | '"' => "&quot;"
  | '&' => "&amp;"
  | '<' => "&lt;"
  | '>' => "&gt;"
  | c => [c]

/-- `escape_attr_inline`, which is `push_attr_escaped` on an empty buffer. -/
def escapeAttrInline (s : Text) : Text := s.flatMap escapeChar

/-- The text with its bars escaped. -/
def escapePipes (s : Text) : Text := replace '|' "\\|" s

/-! ## URLs -/

/-- The characters that end a URL found in running text. -/
def endsUrl (c : Char) : Bool :=
  isWhitespace c || c == '"' || c == '\'' || c == '<' || c == '>'

/-- The http URL that starts at an occurrence of `http`, given the text before it. -/
def httpUrlAt (before rest : Text) : Option Text :=
  if before.getLast?.any (fun c => c.isAlphanum || c == '_' || c == '-') then none
  else
    match stripPrefix "https://" rest <|> stripPrefix "http://" rest with
    | none => none
    | some afterScheme =>
        let candidate := afterScheme.takeWhile fun c => !endsUrl c
        if candidate = [] then none
        else some (rest.take (rest.length - afterScheme.length) ++ candidate)

/-- The scheme-relative URL that starts at an occurrence of `//` after white space. -/
def relativeUrlAt (before rest : Text) : Option Text :=
  if before.getLast?.any isAsciiWhitespace then
    let candidate := (rest.drop 2).takeWhile fun c => !endsUrl c
    if candidate = [] then none else some ("//" ++ candidate)
  else none

/-- `extract_url`: the first http URL in the text, or any path-shaped URL. -/
def extractUrl (text : Text) : Option Text :=
  let trimmed := trim text
  if trimmed = [] then none
  else
    (matchIndices "http" trimmed).findSome? (fun m => httpUrlAt m.1 m.2) <|>
    (matchIndices "//" trimmed).findSome? (fun m => relativeUrlAt m.1 m.2) <|>
    if trimmed.head? = some '/' ∧ !trimmed.any isWhitespace ∧ 1 < len trimmed then some trimmed
    else none

/-- The trimmed URL value, when the node has one that is not blank. -/
def urlValue (node : AgentNode) : Option Text :=
  match node.value with
  | some (.url u) => if trim u = [] then none else some (trim u)
  | _ => none

/-- The address of a link, wherever the node has one. -/
def linkHref (node : AgentNode) : Option Text :=
  urlValue node <|> node.description.bind extractUrl <|>
  (match node.value with
    | some (.text text) => extractUrl text
    | _ => none) <|>
  node.name.bind extractUrl

/-- The address of an image. -/
def imageSrc (node : AgentNode) : Option Text :=
  urlValue node <|> node.description.bind extractUrl

/-- The URL for which `emit_actionable` uses the link syntax instead of a tag. -/
def resolvedUrl (node : AgentNode) : MarkdownTag → Option Text
  | .link => linkHref node
  | .image => imageSrc node
  | _ => none

/-! ## Texts -/

section Texts

variable [F64Display]

/-- What a node says. -/
def nodeText (node : AgentNode) (opts : MarkdownOptions) : Text :=
  let raw : Text := match node.value with
    | some (.text s) => s
    | some (.url s) => s
    | some (.secretReference _) => "(secret)"
    | some (.number n) => F64Display.display n
    | some (.boolean b) => if b then "true" else "false"
    | none => node.name.getD []
  truncate raw opts.maxTextBytes

/-- What stands between the tags of a node. -/
def actionableBodyText (node : AgentNode) (tag : MarkdownTag) (opts : MarkdownOptions) : Text :=
  let raw : Text := match tag with
    | .link | .image => node.name.getD []
    | .textbox =>
        match node.value with
        | some (.text s) => s
        | some (.number n) => F64Display.display n
        | _ => node.name.getD []
    | .checkbox | .radio =>
        match node.value with
        | some (.text s) => if s = [] then node.name.getD [] else s
        | _ => node.name.getD []
    | _ => nodeText node opts
  truncate raw opts.maxTextBytes

end Texts

/-- The text or URL that an option of a select stands for. -/
def optionValue (node : AgentNode) : Option Text :=
  match node.value with
  | some (.text s) => some s
  | some (.url s) => some s
  | _ => none

/-! ## Attributes -/

/-- An attribute of a tag. -/
structure Attribute where
  key : Text
  value : Text
  deriving DecidableEq

/-- `push_attr`: the attribute as it is pushed. -/
def Attribute.markup (a : Attribute) : Text :=
  " " ++ a.key ++ "=\"" ++ escapeAttrInline a.value ++ "\""

/-- An attribute with the value `true` when the condition holds. -/
def flag (condition : Bool) (key : Text) : List Attribute :=
  if condition then [⟨key, "true"⟩] else []

/-- An attribute whose value may be missing. -/
def attrOf (key : Text) (value : Option Text) : List Attribute :=
  value.toList.map (Attribute.mk key)

/-- `placeholder`: the description, unless it is empty. -/
def placeholder (node : AgentNode) : Option Text :=
  node.description.filter (· ≠ [])

/-- The attributes that `emit_extra_attrs` pushes, in order. -/
def extraAttrs (node : AgentNode) (tag : MarkdownTag) : List Attribute :=
  let named := if tag = .region ∨ tag = .dialog ∨ tag = .select then [] else attrOf "name" node.name
  let own := match tag with
    | .link => attrOf "href" (linkHref node)
    | .button => flag (!node.state.enabled) "disabled"
    | .textbox =>
        attrOf "placeholder" (placeholder node) ++ flag (!node.state.enabled) "disabled"
    | .checkbox | .radio =>
        flag (!node.state.enabled) "disabled" ++ flag node.state.selected "checked"
    | .image => attrOf "src" (imageSrc node)
    | _ => []
  -- the challenge marker is surfaced regardless of the structural role
  let challenge := if node.semanticRole = some .challenge then
      [⟨"provider", node.description.getD "unknown"⟩]
    else []
  named ++ own ++ challenge

/-! ## Heading levels -/

/-- `str::parse::<u8>`: an optional plus sign and decimal digits, at most 255. -/
def parseU8 (s : Text) : Option Nat :=
  let digits := match s with
    | '+' :: rest => rest
    | s => s
  (parseDigits digits).filter (· ≤ 255)

/-- `(y / 64.0).floor() as i32`: the cast saturates, and sends a NaN to zero. -/
def floorDiv64 : F64 → Int
  | .nan => 0
  | .infinity negative => if negative then -2 ^ 31 else 2 ^ 31 - 1
  | .negativeZero => 0
  | .finite y => max (-2 ^ 31) (min (2 ^ 31 - 1) ⌊y / 64⌋)

/-- Addition of `i32` values, which wraps around in a release build. -/
def wrappingAddI32 (a b : Int) : Int := (a + b + 2 ^ 31) % 2 ^ 32 - 2 ^ 31

/-- The level that the description names, or one that the size suggests. -/
def headingLevel (node : AgentNode) (max : Nat) : Nat :=
  let named := node.description.bind fun desc =>
    (stripPrefix "H" desc <|> stripPrefix "h" desc).bind parseU8
  match named with
  | some n => min (Nat.max n 1) (Nat.max max 1)
  | none =>
      match node.geometry with
      | some geom =>
          let approx := (Max.max (wrappingAddI32 (floorDiv64 geom.y) 1) 1).toNat % 256
          min approx (Nat.max max 1)
      | none => 2

end BrowsAI.PageText
