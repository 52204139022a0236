import BrowsAI.Library.TextLines
import BrowsAI.Network.Url

/-!
# The sites of a check

`load_sites_csv` of `crates/compatibility-check`. The columns of a row are found by the header line,
and only the URL is looked for with a check: a row that ends before another column panics, unless
its URL or its priority is refused first. `loads_safely_iff` says for which contents nothing panics.
-/

namespace BrowsAI.CompatibilityCheck

open Utf8 Network

/-- With the domain of a URL, and the text of the error for a text that is none. -/
class SiteUrl (U : Type) extends Url U where
  domain : U → Option Text
  parseError : Text → Text

/-- A site to be checked. -/
structure SiteRecord (U : Type) where
  id : Text
  url : U
  domain : Text
  category : Text
  priority : UInt32
  region : Option Text
  expectedTechnology : Option Text
  notes : Option Text
  enabled : Bool

/-- Why a file is not read. -/
inductive CheckStoreError where
  | io (message : Text)
  | serialization (message : Text)
  | invalid (message : Text)
  deriving DecidableEq

/-- `s.parse::<u32>()`. -/
def parseU32 (s : Text) : Option UInt32 := (parseUnsigned (2 ^ 32) s).map UInt32.ofNat

variable {U : Type} [SiteUrl U]

/-- A site with everything but its id and URL left open. -/
def SiteRecord.new (id : Text) (url : U) : SiteRecord U where
  id := id
  url := url
  domain := (SiteUrl.domain url).getD []
  category := "uncategorized"
  priority := 0
  region := none
  expectedTechnology := none
  notes := none
  enabled := true

/-- The columns that a file must have. -/
def required : List Text := ["id", "url", "domain", "category", "priority", "enabled"]

/-- `values[index(field)]`. -/
def valueAt (columns values : List Text) (field : Text) : Option Text := do
  let index ← columns.idxOf? field
  values[index]?

/-- How the message of a row starts. The rows are counted from 0, behind the header. -/
def lineLabel (row : Nat) : Text := "line " ++ ofNat (row + 2) ++ ": "

/-- The body of the loop for a line that is not blank; `none` is a panic. -/
def readRow (columns : List Text) (row : Nat) (line : Text) :
    Option (Except CheckStoreError (SiteRecord U)) := do
  let values := fields line
  let urlIndex ← columns.idxOf? ("url" : Text)
  let urlText := values[urlIndex]?.getD []
  match Url.parse urlText with
  | none => some (.error (.invalid (lineLabel row ++ SiteUrl.parseError U urlText)))
  | some (url : U) =>
      let id ← valueAt columns values "id"
      let domain ← valueAt columns values "domain"
      let category ← valueAt columns values "category"
      let priorityText ← valueAt columns values "priority"
      match parseU32 priorityText with
      | none => some (.error (.invalid (lineLabel row ++ "invalid priority")))
      | some priority =>
          let enabled ← valueAt columns values "enabled"
          some (.ok { SiteRecord.new id url with
            domain
            category
            priority
            enabled := [("1" : Text), "true", "yes"].contains (asciiLower enabled) })

/-- The loop over the lines, up to the first that is refused or panics. -/
def readRows (columns : List Text) :
    Nat → List Text → List (SiteRecord U) → Option (Except CheckStoreError (List (SiteRecord U)))
  | _, [], sites => some (.ok sites)
  | row, line :: rest, sites =>
      if (trim line).isEmpty then readRows columns (row + 1) rest sites
      else
        match readRow columns row line with
        | none => none
        | some (.error error) => some (.error error)
        | some (.ok site) => readRows columns (row + 1) rest (sites ++ [site])

/-- The columns that the first line names. -/
def columnsOf (contents : Text) : List Text := fields ((lines contents).head?.getD [])

/-- `load_sites_csv` from the contents of the file on. -/
def loadSitesCsv (contents : Text) : Option (Except CheckStoreError (List (SiteRecord U))) :=
  let columns := columnsOf contents
  if required.all fun field => columns.contains field then
    readRows columns 0 (lines contents).tail []
  else some (.error (.invalid "sites.csv is missing required columns"))

/-! ## Rows -/

section Rows

variable (U : Type) [SiteUrl U] (columns : List Text)

/-- Every required column is in the line. -/
def Complete (columns : List Text) (line : Text) : Prop :=
  ∀ field ∈ required, (valueAt columns (fields line) field).isSome

/-- The URL of the line, which is read as empty if it is missing. -/
def urlText (columns : List Text) (line : Text) : Text :=
  (valueAt columns (fields line) "url").getD []

/-- The priority of the line is a number. -/
def HasPriority (columns : List Text) (line : Text) : Prop :=
  ∃ text, valueAt columns (fields line) "priority" = some text ∧ (parseU32 text).isSome

/-- The line is a site. -/
def Accepted (line : Text) : Prop :=
  Complete columns line ∧ (Url.parse (urlText columns line) : Option U).isSome ∧
    HasPriority columns line

/-- The line is refused before a column is missed: it has no URL, or it has the columns up to the
priority and this is no number. -/
def Refused (line : Text) : Prop :=
  (Url.parse (urlText columns line) : Option U) = none ∨
    (∀ field ∈ [("id" : Text), "domain", "category", "priority"],
      (valueAt columns (fields line) field).isSome) ∧ ¬ HasPriority columns line

/-- The loop goes on behind the line. -/
def Passed (line : Text) : Prop := trim line = [] ∨ Accepted U columns line

end Rows

section ReadRow

variable {columns : List Text} {row : Nat} {line : Text}

theorem url_text_eq (hurl : ("url" : Text) ∈ columns) (line : Text) :
    ∃ index, columns.idxOf? ("url" : Text) = some index ∧
      (fields line)[index]?.getD [] = urlText columns line := by
  obtain ⟨index, hindex⟩ := Option.isSome_iff_exists.mp (List.isSome_idxOf?.mpr hurl)
  refine ⟨index, hindex, ?_⟩
  rw [urlText, valueAt, hindex]
  rfl

/-- A line without a URL is refused, whatever else is missing. -/
theorem read_row_of_no_url (hurl : ("url" : Text) ∈ columns)
    (hparse : (Url.parse (urlText columns line) : Option U) = none) :
    readRow columns row line = some (.error (.invalid
      (lineLabel row ++ SiteUrl.parseError U (urlText columns line))) :
        Except CheckStoreError (SiteRecord U)) := by
  obtain ⟨index, hindex, htext⟩ := url_text_eq hurl line
  simp only [readRow, hindex, Option.bind_eq_bind, Option.bind_some, htext, hparse]

/-- The columns that are read of a line with a URL. -/
theorem read_row_eq (hurl : ("url" : Text) ∈ columns) {url : U}
    (hparse : Url.parse (urlText columns line) = some url) :
    readRow columns row line = (do
      let id ← valueAt columns (fields line) "id"
      let domain ← valueAt columns (fields line) "domain"
      let category ← valueAt columns (fields line) "category"
      let priorityText ← valueAt columns (fields line) "priority"
      match parseU32 priorityText with
      | none => some (.error (.invalid (lineLabel row ++ "invalid priority")))
      | some priority =>
          let enabled ← valueAt columns (fields line) "enabled"
          some (.ok { SiteRecord.new id url with
            domain
            category
            priority
            enabled := [("1" : Text), "true", "yes"].contains (asciiLower enabled) })) := by
  obtain ⟨index, hindex, htext⟩ := url_text_eq hurl line
  simp only [readRow, hindex, Option.bind_eq_bind, Option.bind_some, htext, hparse]

/-- A line that is accepted is a site. -/
theorem read_row_of_accepted (hurl : ("url" : Text) ∈ columns) (h : Accepted U columns line)
    (row : Nat) :
    ∃ site : SiteRecord U, readRow columns row line = some (.ok site) := by
  obtain ⟨hcomplete, hparse, priorityText, hpriority, hnumber⟩ := h
  obtain ⟨url, hparse⟩ := Option.isSome_iff_exists.mp hparse
  obtain ⟨priority, hnumber⟩ := Option.isSome_iff_exists.mp hnumber
  obtain ⟨id, hid⟩ := Option.isSome_iff_exists.mp (hcomplete "id" (by decide))
  obtain ⟨domain, hdomain⟩ := Option.isSome_iff_exists.mp (hcomplete "domain" (by decide))
  obtain ⟨category, hcategory⟩ := Option.isSome_iff_exists.mp (hcomplete "category" (by decide))
  obtain ⟨enabled, henabled⟩ := Option.isSome_iff_exists.mp (hcomplete "enabled" (by decide))
  rw [read_row_eq hurl hparse]
  simp only [hid, hdomain, hcategory, hpriority, hnumber, henabled, Option.bind_eq_bind,
    Option.bind_some]
  exact ⟨_, rfl⟩

/-- A line that is refused is told by its number. -/
theorem read_row_of_refused (hurl : ("url" : Text) ∈ columns) (h : Refused U columns line)
    (row : Nat) :
    ∃ message, (readRow columns row line : Option (Except CheckStoreError (SiteRecord U))) =
      some (.error (.invalid message)) ∧ lineLabel row <+: message := by
  cases hparse : (Url.parse (urlText columns line) : Option U) with
  | none => exact ⟨_, read_row_of_no_url hurl hparse, List.prefix_append _ _⟩
  | some url =>
      obtain ⟨hpresent, hno⟩ := h.resolve_left (by rw [hparse]; exact Option.some_ne_none url)
      obtain ⟨id, hid⟩ := Option.isSome_iff_exists.mp (hpresent "id" (by decide))
      obtain ⟨domain, hdomain⟩ := Option.isSome_iff_exists.mp (hpresent "domain" (by decide))
      obtain ⟨category, hcategory⟩ := Option.isSome_iff_exists.mp (hpresent "category" (by decide))
      obtain ⟨text, htext⟩ := Option.isSome_iff_exists.mp (hpresent "priority" (by decide))
      have hnumber : parseU32 text = none :=
        Option.not_isSome_iff_eq_none.mp fun hsome => hno ⟨text, htext, hsome⟩
      rw [read_row_eq hurl hparse]
      simp only [hid, hdomain, hcategory, htext, hnumber, Option.bind_eq_bind, Option.bind_some]
      exact ⟨_, rfl, List.prefix_append _ _⟩

/-- Any other line ends in a panic. -/
theorem read_row_of_missing (hempty : (Url.parse [] : Option U) = none)
    (hurl : ("url" : Text) ∈ columns) (haccepted : ¬ Accepted U columns line)
    (hrefused : ¬ Refused U columns line) :
    (readRow columns row line : Option (Except CheckStoreError (SiteRecord U))) = none := by
  rw [Refused, not_or] at hrefused
  obtain ⟨url, hparse⟩ := Option.ne_none_iff_exists'.mp hrefused.1
  rw [read_row_eq hurl hparse]
  have hpresent {field value : Text} (h : valueAt columns (fields line) field = some value) :
      (valueAt columns (fields line) field).isSome := Option.isSome_iff_exists.mpr ⟨value, h⟩
  cases hid : valueAt columns (fields line) "id" with
  | none => rfl
  | some id =>
  cases hdomain : valueAt columns (fields line) "domain" with
  | none => rfl
  | some domain =>
  cases hcategory : valueAt columns (fields line) "category" with
  | none => rfl
  | some category =>
  cases htext : valueAt columns (fields line) "priority" with
  | none => rfl
  | some text =>
  cases hnumber : parseU32 text with
  | none =>
      refine absurd ⟨?_, ?_⟩ hrefused.2
      · simp only [List.forall_mem_cons]
        exact ⟨hpresent hid, hpresent hdomain, hpresent hcategory, hpresent htext,
          fun _ h => nomatch h⟩
      · intro ⟨other, hother, hsome⟩
        rw [htext] at hother
        cases hother
        rw [hnumber] at hsome
        cases hsome
  | some priority =>
  cases henabled : valueAt columns (fields line) "enabled" with
  | none => simp only [Option.bind_eq_bind, Option.bind_some, Option.bind_none, hnumber]
  | some enabled =>
      have hurlPresent : (valueAt columns (fields line) "url").isSome := by
        rw [Option.isSome_iff_ne_none]
        intro hnone
        rw [urlText, hnone] at hparse
        cases hempty.symm.trans hparse
      refine absurd ⟨?_, Option.isSome_iff_exists.mpr ⟨url, hparse⟩, text, htext,
        Option.isSome_iff_exists.mpr ⟨priority, hnumber⟩⟩ haccepted
      simp only [Complete, required, List.forall_mem_cons]
      exact ⟨hpresent hid, hurlPresent, hpresent hdomain, hpresent hcategory, hpresent htext,
        hpresent henabled, fun _ h => nomatch h⟩

end ReadRow

/-! ## Contents -/

section Contents

variable (U)

/-- Nothing panics, and where the columns are there, the first line that is not read as a site gives
an error that names it if it lacks a required column. -/
structure LoadsSafely (contents : Text) : Prop where
  returns : (loadSitesCsv contents : Option (Except CheckStoreError (List (SiteRecord U)))).isSome
  named : (∀ field ∈ required, field ∈ columnsOf contents) →
    ∀ before line after, (lines contents).tail = before ++ line :: after →
      (∀ earlier ∈ before, Passed U (columnsOf contents) earlier) → trim line ≠ [] →
      ¬ Complete (columnsOf contents) line →
      ∃ message, (loadSitesCsv contents : Option (Except CheckStoreError (List (SiteRecord U)))) =
        some (.error (.invalid message)) ∧ lineLabel before.length <+: message

/-- Where the columns are there, the first line that is not read as a site is refused if it lacks a
required column. -/
def RefusesShortLines (contents : Text) : Prop :=
  (∀ field ∈ required, field ∈ columnsOf contents) →
    ∀ before line after, (lines contents).tail = before ++ line :: after →
      (∀ earlier ∈ before, Passed U (columnsOf contents) earlier) → trim line ≠ [] →
      ¬ Complete (columnsOf contents) line → Refused U (columnsOf contents) line

end Contents

section Load

variable {columns : List Text}

/-- The loop goes on behind lines that pass. -/
theorem read_rows_append (hurl : ("url" : Text) ∈ columns) {before : List Text}
    (hbefore : ∀ line ∈ before, Passed U columns line) (row : Nat) (rest : List Text)
    (sites : List (SiteRecord U)) :
    ∃ sites', readRows columns row (before ++ rest) sites =
      readRows columns (row + before.length) rest sites' := by
  induction before generalizing row sites with
  | nil => exact ⟨sites, rfl⟩
  | cons line before ih =>
      rw [List.forall_mem_cons] at hbefore
      have hlength : row + (line :: before).length = row + 1 + before.length := by
        rw [List.length_cons]
        omega
      rw [hlength, List.cons_append, readRows]
      by_cases hblank : trim line = []
      · rw [if_pos (List.isEmpty_iff.mpr hblank)]
        exact ih hbefore.2 (row + 1) sites
      · rw [if_neg fun h => hblank (List.isEmpty_iff.mp h)]
        obtain ⟨site, hsite⟩ := read_row_of_accepted hurl (hbefore.1.resolve_left hblank) row
        rw [hsite]
        exact ih hbefore.2 (row + 1) (sites ++ [site])

/-- The first line that does not pass decides. -/
theorem read_rows_refused (hurl : ("url" : Text) ∈ columns) {before : List Text} {line : Text}
    (hbefore : ∀ earlier ∈ before, Passed U columns earlier) (hblank : trim line ≠ [])
    (hrefused : Refused U columns line) (after : List Text) :
    ∃ message, (readRows columns 0 (before ++ line :: after) [] :
        Option (Except CheckStoreError (List (SiteRecord U)))) = some (.error (.invalid message)) ∧
      lineLabel before.length <+: message := by
  obtain ⟨sites, hsites⟩ := read_rows_append hurl hbefore 0 (line :: after) []
  obtain ⟨message, hrow, hlabel⟩ := read_row_of_refused hurl hrefused (0 + before.length)
  rw [Nat.zero_add] at hlabel
  refine ⟨message, ?_, hlabel⟩
  rw [hsites, readRows, if_neg fun h => hblank (List.isEmpty_iff.mp h), hrow]

/-- The loop panics at the first line that neither passes nor is refused. -/
theorem read_rows_missing (hempty : (Url.parse [] : Option U) = none)
    (hurl : ("url" : Text) ∈ columns) {before : List Text} {line : Text}
    (hbefore : ∀ earlier ∈ before, Passed U columns earlier) (hblank : trim line ≠ [])
    (haccepted : ¬ Accepted U columns line) (hrefused : ¬ Refused U columns line)
    (after : List Text) :
    (readRows columns 0 (before ++ line :: after) [] :
      Option (Except CheckStoreError (List (SiteRecord U)))) = none := by
  obtain ⟨sites, hsites⟩ := read_rows_append hurl hbefore 0 (line :: after) []
  rw [hsites, readRows, if_neg fun h => hblank (List.isEmpty_iff.mp h),
    read_row_of_missing hempty hurl haccepted hrefused]

theorem refused_of_complete {line : Text} (hcomplete : Complete columns line)
    (haccepted : ¬ Accepted U columns line) : Refused U columns line := by
  by_cases hparse : (Url.parse (urlText columns line) : Option U) = none
  · exact .inl hparse
  · refine .inr ⟨?_, fun hpriority =>
      haccepted ⟨hcomplete, Option.isSome_iff_ne_none.mpr hparse, hpriority⟩⟩
    simp only [List.forall_mem_cons]
    exact ⟨hcomplete "id" (by decide), hcomplete "domain" (by decide),
      hcomplete "category" (by decide), hcomplete "priority" (by decide), fun _ h => nomatch h⟩

/-- All elements have a property, or there is a first one that does not. -/
theorem forall_or_exists_first {α : Type} (P : α → Prop) (xs : List α) :
    (∀ x ∈ xs, P x) ∨
      ∃ before x after, xs = before ++ x :: after ∧ (∀ y ∈ before, P y) ∧ ¬ P x := by
  induction xs with
  | nil => exact .inl fun x hx => nomatch hx
  | cons x xs ih =>
      by_cases hx : P x
      · rcases ih with hall | ⟨before, y, after, rfl, hbefore, hy⟩
        · exact .inl (List.forall_mem_cons.mpr ⟨hx, hall⟩)
        · exact .inr ⟨x :: before, y, after, rfl, List.forall_mem_cons.mpr ⟨hx, hbefore⟩, hy⟩
      · exact .inr ⟨[], x, xs, rfl, (fun y hy => nomatch hy), hx⟩

/-- A file with all columns is read row by row. -/
theorem load_sites_csv_eq {contents : Text}
    (hcolumns : ∀ field ∈ required, field ∈ columnsOf contents) :
    (loadSitesCsv contents : Option (Except CheckStoreError (List (SiteRecord U)))) =
      readRows (columnsOf contents) 0 (lines contents).tail [] :=
  if_pos (List.all_eq_true.mpr fun field hfield =>
    List.contains_iff_mem.mpr (hcolumns field hfield))

/-- A file is loaded safely exactly if the first line that is not read as a site is refused for its
URL or its priority whenever it lacks a column. -/
theorem loads_safely_iff (hempty : (Url.parse [] : Option U) = none) (contents : Text) :
    LoadsSafely U contents ↔ RefusesShortLines U contents := by
  constructor
  · intro hsafe hcolumns before line after hrows hbefore hblank hshort
    by_contra hrefused
    have hreturns := hsafe.returns
    have hnone := read_rows_missing hempty (hcolumns "url" (by decide)) hbefore
      hblank (fun h => hshort h.1) hrefused
    rw [load_sites_csv_eq hcolumns, hrows, hnone] at hreturns
    cases hreturns
  · intro hrefuses
    refine ⟨?_, ?_⟩
    · by_cases hcolumns : ∀ field ∈ required, field ∈ columnsOf contents
      · have hurl := hcolumns "url" (by decide)
        rw [load_sites_csv_eq hcolumns]
        rcases forall_or_exists_first (Passed U (columnsOf contents)) (lines contents).tail with
          hall | ⟨before, line, after, hrows, hbefore, hline⟩
        · obtain ⟨sites, hsites⟩ := read_rows_append hurl hall 0 [] []
          rw [List.append_nil] at hsites
          rw [hsites]
          rfl
        · rw [Passed, not_or] at hline
          have hrefused : Refused U (columnsOf contents) line := by
            by_cases hcomplete : Complete (columnsOf contents) line
            · exact refused_of_complete hcomplete hline.2
            · exact hrefuses hcolumns before line after hrows hbefore hline.1 hcomplete
          obtain ⟨message, hmessage, -⟩ :=
            read_rows_refused hurl hbefore hline.1 hrefused after
          rw [hrows, hmessage]
          rfl
      · have hmissing : ¬ (required.all fun field => (columnsOf contents).contains field) = true :=
          fun hall => hcolumns fun field hfield =>
            List.contains_iff_mem.mp (List.all_eq_true.mp hall field hfield)
        rw [loadSitesCsv, if_neg hmissing]
        rfl
    · intro hcolumns before line after hrows hbefore hblank hshort
      rw [load_sites_csv_eq hcolumns, hrows]
      exact read_rows_refused (hcolumns "url" (by decide)) hbefore hblank
        (hrefuses hcolumns before line after hrows hbefore hblank hshort) after

end Load

instance : SiteUrl PlainUrl where
  domain url := some url.host
  parseError _ := "relative URL without a base"

/-- The URL comes first, and the row ends behind it. -/
theorem url_column_first_panics :
    ¬ LoadsSafely PlainUrl "url,id,domain,category,priority,enabled\nhttps://a.test/" := by
  intro h
  cases h.returns

theorem loads_safely_iff_short :
    LoadsSafely PlainUrl "id,url,domain,category,priority,enabled\na" ↔
      RefusesShortLines PlainUrl "id,url,domain,category,priority,enabled\na" :=
  loads_safely_iff rfl _

end BrowsAI.CompatibilityCheck
