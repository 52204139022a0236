import BrowsAI.CompatibilityCheck.Scheduler
import BrowsAI.CompatibilityCheck.Sites

/-!
# The CSV report of a check run

`render_csv_report` of `crates/compatibility-check`, which writes ids and URLs as they are, against
a reader that takes lines and commas as `load_sites_csv` does: `report_read_back_iff`.
-/

namespace BrowsAI.CompatibilityCheck

open Utf8 Network

/-- The `Debug` rendering. -/
def SiteStatus.debug : SiteStatus → Text
  | .pass => "Pass"
  | .passWithWarnings => "PassWithWarnings"
  | .partially => "Partial"
  | .fail => "Fail"
  | .blocked => "Blocked"
  | .timeout => "Timeout"
  | .crash => "Crash"
  | .skipped => "Skipped"

variable {U : Type} [Url U]

/-- The status as a report shows it. -/
def statusText (status : Option SiteStatus) : Text :=
  (status.map SiteStatus.debug).getD "PENDING"

/-- The line of a site, without its line feed. -/
def reportLine (result : SiteResult U) (site : SiteRecord U) : Text :=
  site.id ++ "," ++ Url.asStr site.url ++ "," ++ statusText result.status ++ "," ++
    ofNat result.failures.length

/-- The columns of the report. -/
def reportHeader : Text := "site_id,url,status,failures"

/-- A line for each result that has a site. -/
def renderCsvReport (run : CheckRun U) : Text :=
  run.sites.foldl (fun csv result => match result.site with
    | none => csv
    | some site => csv ++ (reportLine result site ++ "\n")) (reportHeader ++ "\n")

/-- The rows behind the header, as `load_sites_csv` takes a file apart. -/
def readReport (csv : Text) : List (List Text) :=
  ((lines csv).tail.filter fun line => !(trim line).isEmpty).map fields

/-- What the report tells of a site. -/
def reportRow (result : SiteResult U) (site : SiteRecord U) : List Text :=
  [site.id, Url.asStr site.url, statusText result.status, ofNat result.failures.length]

/-- What the report tells of all sites. -/
def reportRows (run : CheckRun U) : List (List Text) :=
  run.sites.filterMap fun result => result.site.map (reportRow result)

/-! ## Lines -/

theorem is_field_of_forall {text : Text} (h : ∀ c ∈ text, ¬ isWhitespace c) (hcomma : ',' ∉ text) :
    IsField text where
  comma := hcomma
  lineFeed hmem := h _ hmem (by decide)
  trimmed := trim_eq_self h

theorem is_field_status_text (status : Option SiteStatus) : IsField (statusText status) := by
  have hall : ((statusText status).all fun c => !isWhitespace c && c != ',') = true := by
    cases status with
    | none => rfl
    | some status => cases status <;> rfl
  have hletter : ∀ c ∈ statusText status, ¬ isWhitespace c ∧ c ≠ ',' := by
    intro c hc
    simpa using List.all_eq_true.mp hall c hc
  exact is_field_of_forall (fun c hc => (hletter c hc).1) fun hmem => (hletter _ hmem).2 rfl

theorem not_is_whitespace_of_is_digit {c : Char} (h : c.isDigit) : ¬ isWhitespace c := by
  rw [Char.isDigit, Bool.and_eq_true, decide_eq_true_eq, decide_eq_true_eq] at h
  have hleast : 48 ≤ c.toNat := h.1
  have hgreatest : c.toNat ≤ 57 := h.2
  simp only [isWhitespace, Bool.or_eq_true, Bool.and_eq_true, decide_eq_true_eq, beq_iff_eq]
  omega

theorem is_field_of_nat (n : Nat) : IsField (ofNat n) :=
  is_field_of_forall (fun c hc => not_is_whitespace_of_is_digit (is_digit_of_nat n c hc))
    (not_mem_of_nat (by decide) n)

section Line

variable {result : SiteResult U} {site : SiteRecord U}

theorem report_line_eq (result : SiteResult U) (site : SiteRecord U) :
    reportLine result site = site.id ++ ',' :: (Url.asStr site.url ++ ',' ::
      (statusText result.status ++ ',' :: ofNat result.failures.length)) := by
  simp [reportLine]

theorem fields_report_line (hid : IsField site.id) (hurl : IsField (Url.asStr site.url)) :
    fields (reportLine result site) = reportRow result site := by
  rw [report_line_eq, fields_append_cons hid, fields_append_cons hurl,
    fields_append_cons (is_field_status_text _), fields_of_is_field (is_field_of_nat _), reportRow]

theorem line_feed_not_mem_report_line (hid : IsField site.id)
    (hurl : IsField (Url.asStr site.url)) : '\n' ∉ reportLine result site := by
  rw [report_line_eq]
  simp only [List.mem_append, List.mem_cons, not_or]
  exact ⟨hid.lineFeed, by decide, hurl.lineFeed, by decide, (is_field_status_text _).lineFeed,
    by decide, (is_field_of_nat _).lineFeed⟩

theorem strip_cr_report_line (result : SiteResult U) (site : SiteRecord U) :
    stripCr (reportLine result site) = reportLine result site := by
  have hne : ofNat result.failures.length ≠ [] := Nat.toDigits_ne_nil
  have hlast : (reportLine result site).getLast? ≠ some '\r' := by
    rw [reportLine, List.getLast?_append_of_ne_nil _ hne]
    intro h
    exact not_mem_of_nat (by decide) _ (List.mem_of_getLast? h)
  exact if_neg hlast

theorem trim_report_line_ne_nil (result : SiteResult U) (site : SiteRecord U) :
    trim (reportLine result site) ≠ [] := by
  rw [Ne, trim_eq_nil_iff, report_line_eq]
  intro h
  exact absurd (h ',' (List.mem_append_right _ (List.mem_cons_self ..))) (by decide)

end Line

/-! ## The report -/

/-- The lines of the sites. -/
def reportBody (sites : List (SiteResult U)) : Text :=
  sites.flatMap fun result => match result.site with
    | none => []
    | some site => reportLine result site ++ "\n"

/-- The line of the first site, and the others. -/
theorem report_body_cons (result : SiteResult U) (sites : List (SiteResult U)) :
    reportBody (result :: sites) = (match result.site with
      | none => []
      | some site => reportLine result site ++ "\n") ++ reportBody sites := List.flatMap_cons

/-- The report is its header and its lines. -/
theorem render_csv_report_eq (run : CheckRun U) :
    renderCsvReport run = reportHeader ++ '\n' :: reportBody run.sites := by
  have hfold (sites : List (SiteResult U)) (csv : Text) :
      sites.foldl (fun csv result => match result.site with
        | none => csv
        | some site => csv ++ (reportLine result site ++ "\n")) csv = csv ++ reportBody sites := by
    induction sites generalizing csv with
    | nil => exact (List.append_nil csv).symm
    | cons result sites ih =>
        rw [List.foldl_cons, ih, report_body_cons]
        cases result.site with
        | none => rfl
        | some site => exact List.append_assoc _ _ _
  rw [renderCsvReport, hfold]
  simp

theorem read_report_eq (run : CheckRun U) :
    readReport (renderCsvReport run) =
      ((lines (reportBody run.sites)).filter fun line => !(trim line).isEmpty).map fields := by
  rw [readReport, render_csv_report_eq, lines_append_cons (by decide), List.tail_cons]

/-- Ids and URLs that can stand between two commas. -/
def HasFields (sites : List (SiteResult U)) : Prop :=
  ∀ result ∈ sites, ∀ site, result.site = some site →
    IsField site.id ∧ IsField (Url.asStr site.url)

/-- Lines of fields are read back as they were written. -/
theorem read_report_body {sites : List (SiteResult U)} (h : HasFields sites) :
    ((lines (reportBody sites)).filter fun line => !(trim line).isEmpty).map fields =
      sites.filterMap fun result => result.site.map (reportRow result) := by
  induction sites with
  | nil => rfl
  | cons result sites ih =>
      rw [HasFields, List.forall_mem_cons] at h
      rw [report_body_cons, List.filterMap_cons]
      cases hsite : result.site with
      | none => exact ih h.2
      | some site =>
          obtain ⟨hid, hurl⟩ := h.1 site hsite
          have hline : reportLine result site ++ "\n" ++ reportBody sites =
              reportLine result site ++ '\n' :: reportBody sites := by simp
          dsimp only
          rw [hline, lines_append_cons (line_feed_not_mem_report_line hid hurl),
            strip_cr_report_line, List.filter_cons_of_pos, List.map_cons,
            fields_report_line hid hurl, ih h.2]
          · rfl
          · simpa using trim_report_line_ne_nil result site

/-- The report is read back as the rows of its sites exactly if no id and no URL has a comma or a
line feed in it, or white space at an end. -/
theorem report_read_back_iff (run : CheckRun U) :
    readReport (renderCsvReport run) = reportRows run ↔ HasFields run.sites := by
  constructor
  · intro h result hresult site hsite
    have hrow : reportRow result site ∈ readReport (renderCsvReport run) := by
      rw [h]
      refine List.mem_filterMap.mpr ⟨result, hresult, ?_⟩
      rw [hsite]
      rfl
    obtain ⟨line, hline, hfields⟩ := List.mem_map.mp hrow
    have hfeed := not_mem_of_mem_lines (List.mem_of_mem_tail (List.mem_of_mem_filter hline))
    have hfield {field : Text} (hmem : field ∈ reportRow result site) : IsField field :=
      is_field_of_mem_fields hfeed (hfields ▸ hmem)
    exact ⟨hfield (List.mem_cons_self ..), hfield (List.mem_cons_of_mem _ (List.mem_cons_self ..))⟩
  · intro h
    rw [read_report_eq, reportRows, read_report_body h]

/-- A site with a comma in its id. -/
def commaRun : CheckRun PlainUrl :=
  ⟨[⟨some (SiteRecord.new "a,b" ⟨"https", "a.test", "/"⟩), some .pass, some .complete, ∅, []⟩]⟩

/-- The row of the site is read with five columns. -/
theorem comma_splits_id : readReport (renderCsvReport commaRun) ≠ reportRows commaRun := by
  decide

end BrowsAI.CompatibilityCheck
