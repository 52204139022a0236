import BrowsAI.CompatibilityCheck.Report
import BrowsAI.Library.Groups
import BrowsAI.Library.Markup
import BrowsAI.Library.Utf8

/-!
# The HTML report of a check run

`render_html_report` of `crates/compatibility-check` with the summary that it shows, beside
`cluster_failures` and `CoverageSummary`, which count the same results in other ways.
`html_report_read_back`: unlike the CSV report, this one is read as what it was made of, whatever an id
or a URL contains. `summary_consistent`: the three ways to count agree.
-/

namespace BrowsAI.CompatibilityCheck

open Utf8 Std Network OrdMap Markup

/-- `Pass` or `PassWithWarnings`. -/
def SiteStatus.passes (status : SiteStatus) : Bool :=
  match status with
  | .pass | .passWithWarnings => true
  | _ => false

variable {U : Type}

/-! ## Summaries -/

/-- What a run is summed up as. -/
structure RunSummary where
  scheduled : Nat
  tested : Nat
  statuses : OrdMap SiteStatus Nat
  subsystemPasses : OrdMap Subsystem Nat
  failures : Nat
  fingerprints : Nat

namespace RunSummary

/-- The loop over the sites, up to the fingerprints. -/
def addSite (summary : RunSummary) (site : SiteResult U) : RunSummary :=
  { summary with
    tested := if site.status.isSome then summary.tested + 1 else summary.tested
    statuses := match site.status with
      | some status => summary.statuses.bump status
      | none => summary.statuses
    failures := summary.failures + site.failures.length
    subsystemPasses := site.subsystems.toList.foldl (fun passes entry =>
      if entry.2.status.passes then passes.bump entry.1 else passes) summary.subsystemPasses }

/-- The summary of a run. -/
def fromRun (run : CheckRun U) : RunSummary :=
  let fingerprints := run.sites.flatMap fun site => site.failures.map FailureRecord.fingerprint
  { run.sites.foldl addSite ⟨run.sites.length, 0, ∅, ∅, 0, 0⟩ with
    fingerprints := (keySet fingerprints).length }

end RunSummary

/-- What a run covered. -/
structure CoverageSummary where
  scheduledSites : Nat
  testedSites : Nat
  passedSites : Nat
  subsystemObservations : OrdMap Subsystem Nat
  featureObservations : OrdMap Text Nat

namespace CoverageSummary

/-- The loop over the subsystems of a site. -/
def addSubsystem (coverage : CoverageSummary) (entry : Subsystem × SubsystemResult) :
    CoverageSummary :=
  { coverage with
    subsystemObservations := coverage.subsystemObservations.bump entry.1
    featureObservations := match entry.2.details with
      | some details => coverage.featureObservations.bump details
      | none => coverage.featureObservations }

/-- The loop over the sites. -/
def addSite (coverage : CoverageSummary) (site : SiteResult U) : CoverageSummary :=
  site.subsystems.toList.foldl addSubsystem
    { coverage with
      testedSites := if site.status.isSome then coverage.testedSites + 1 else coverage.testedSites
      passedSites :=
        if site.status.any SiteStatus.passes then coverage.passedSites + 1
        else coverage.passedSites }

/-- The coverage of a run. -/
def fromRun (run : CheckRun U) : CoverageSummary :=
  run.sites.foldl addSite ⟨run.sites.length, 0, 0, ∅, ∅⟩

end CoverageSummary

/-- The ids of the failures with each fingerprint. -/
def clusterFailures (failures : List FailureRecord) : OrdMap Text (List Text) :=
  group (failures.map fun failure => (failure.fingerprint, failure.id))

/-! ## What the loops count -/

/-- The subsystems of a run, site by site. -/
def CheckRun.subsystems (run : CheckRun U) : List (Subsystem × SubsystemResult) :=
  run.sites.flatMap fun site => site.subsystems.toList

/-- The statuses of a run, site by site. -/
def CheckRun.statuses (run : CheckRun U) : List SiteStatus :=
  run.sites.filterMap SiteResult.status

/-- The failures of a run, site by site. -/
def CheckRun.failures (run : CheckRun U) : List FailureRecord :=
  run.sites.flatMap SiteResult.failures

/-- The loop over the subsystems counts those that pass. -/
theorem foldl_bump_if (entries : List (Subsystem × SubsystemResult)) (counts : OrdMap Subsystem Nat) :
    entries.foldl (fun passes entry =>
        if entry.2.status.passes then passes.bump entry.1 else passes) counts =
      ((entries.filter fun entry => entry.2.status.passes).map Prod.fst).foldl bump counts := by
  induction entries generalizing counts with
  | nil => rfl
  | cons entry entries ih =>
      rw [List.foldl_cons, ih, List.filter_cons]
      split_ifs <;> rfl

/-- The loop over the sites counts their statuses, their subsystems that pass and their failures. -/
theorem foldl_summary_add_site (sites : List (SiteResult U)) (summary : RunSummary) :
    sites.foldl RunSummary.addSite summary =
      { summary with
        tested := summary.tested + (sites.filterMap SiteResult.status).length
        statuses := (sites.filterMap SiteResult.status).foldl bump summary.statuses
        subsystemPasses := (((sites.flatMap fun site => site.subsystems.toList).filter
          fun entry => entry.2.status.passes).map Prod.fst).foldl bump summary.subsystemPasses
        failures := summary.failures + (sites.flatMap SiteResult.failures).length } := by
  induction sites generalizing summary with
  | nil => rfl
  | cons site sites ih =>
      rw [List.foldl_cons, ih, RunSummary.addSite, foldl_bump_if, List.flatMap_cons,
        List.filter_append, List.map_append, List.foldl_append, List.flatMap_cons,
        List.length_append]
      cases hstatus : site.status with
      | none =>
          rw [List.filterMap_cons_none hstatus, RunSummary.mk.injEq]
          exact ⟨rfl, rfl, rfl, rfl, Nat.add_assoc .., rfl⟩
      | some status =>
          rw [List.filterMap_cons_some hstatus, RunSummary.mk.injEq]
          exact ⟨rfl, (Nat.add_right_comm ..).trans (Nat.add_assoc ..), rfl, rfl,
            Nat.add_assoc .., rfl⟩

/-- The summary counts the statuses, the subsystems and the failures of the run. -/
theorem from_run_summary (run : CheckRun U) :
    RunSummary.fromRun run =
      { scheduled := run.sites.length
        tested := run.statuses.length
        statuses := tally run.statuses
        subsystemPasses := tally ((run.subsystems.filter fun entry => entry.2.status.passes).map
          Prod.fst)
        failures := run.failures.length
        fingerprints := (keySet (run.failures.map FailureRecord.fingerprint)).length } := by
  rw [RunSummary.fromRun, foldl_summary_add_site, CheckRun.failures, List.map_flatMap]
  simp only [Nat.zero_add]
  rfl

/-- The loop over the subsystems of a site counts them and their features. -/
theorem foldl_add_subsystem (entries : List (Subsystem × SubsystemResult))
    (coverage : CoverageSummary) :
    entries.foldl CoverageSummary.addSubsystem coverage =
      { coverage with
        subsystemObservations := (entries.map Prod.fst).foldl bump coverage.subsystemObservations
        featureObservations := (entries.filterMap fun entry => entry.2.details).foldl bump
          coverage.featureObservations } := by
  induction entries generalizing coverage with
  | nil => rfl
  | cons entry entries ih =>
      rw [List.foldl_cons, ih, CoverageSummary.addSubsystem, List.filterMap_cons]
      cases entry.2.details with
      | none => rfl
      | some details => rfl

/-- The loop over the sites counts those that are tested and those that pass. -/
theorem foldl_coverage_add_site (sites : List (SiteResult U)) (coverage : CoverageSummary) :
    sites.foldl CoverageSummary.addSite coverage =
      { coverage with
        testedSites := coverage.testedSites + (sites.filterMap SiteResult.status).length
        passedSites := coverage.passedSites +
          (sites.filterMap SiteResult.status).countP SiteStatus.passes
        subsystemObservations := ((sites.flatMap fun site => site.subsystems.toList).map
          Prod.fst).foldl bump coverage.subsystemObservations
        featureObservations := ((sites.flatMap fun site => site.subsystems.toList).filterMap
          fun entry => entry.2.details).foldl bump coverage.featureObservations } := by
  induction sites generalizing coverage with
  | nil => rfl
  | cons site sites ih =>
      rw [List.foldl_cons, ih, CoverageSummary.addSite, foldl_add_subsystem, List.flatMap_cons,
        List.map_append, List.foldl_append, List.filterMap_append, List.foldl_append]
      cases hstatus : site.status with
      | none =>
          rw [List.filterMap_cons_none hstatus]
          rfl
      | some status =>
          rw [List.filterMap_cons_some hstatus, List.countP_cons, CoverageSummary.mk.injEq]
          refine ⟨rfl, (Nat.add_right_comm ..).trans (Nat.add_assoc ..), ?_, rfl, rfl⟩
          dsimp only [Option.any_some]
          split_ifs
          · omega
          · omega

/-- So does the coverage. -/
theorem from_run_coverage (run : CheckRun U) :
    CoverageSummary.fromRun run =
      { scheduledSites := run.sites.length
        testedSites := run.statuses.length
        passedSites := run.statuses.countP SiteStatus.passes
        subsystemObservations := tally (run.subsystems.map Prod.fst)
        featureObservations := tally (run.subsystems.filterMap fun entry => entry.2.details) } := by
  rw [CoverageSummary.fromRun, foldl_coverage_add_site]
  simp only [Nat.zero_add]
  rfl

/-- The sites that pass are those with one of the two statuses. -/
theorem count_passes (statuses : List SiteStatus) :
    statuses.countP SiteStatus.passes =
      statuses.count .pass + statuses.count .passWithWarnings := by
  induction statuses with
  | nil => rfl
  | cons status statuses ih =>
      rw [List.countP_cons, ih, List.count_cons, List.count_cons]
      cases status <;> simp [SiteStatus.passes] <;> omega

theorem get_tally_get_d {κ : Type} [Ord κ] [TransOrd κ] [LawfulEqOrd κ] [DecidableEq κ]
    (keys : List κ) (k : κ) : (tally keys)[k]?.getD 0 = keys.count k := by
  rw [get_tally]
  split_ifs with hnone
  · exact hnone.symm
  · rfl

/-- A site is observed in a subsystem at most once. -/
theorem count_subsystems_le (run : CheckRun U) (subsystem : Subsystem) :
    (run.subsystems.map Prod.fst).count subsystem ≤ run.sites.length := by
  rw [CheckRun.subsystems]
  induction run.sites with
  | nil => exact Nat.le_refl 0
  | cons site sites ih =>
      have honce : (site.subsystems.toList.map Prod.fst).count subsystem ≤ 1 := by
        refine List.nodup_iff_count_le_one.mp (List.pairwise_map.mpr ?_) subsystem
        exact ExtTreeMap.distinct_keys_toList.imp fun {a b} hne (heq : a.1 = b.1) =>
          hne (heq ▸ compare_self)
      rw [List.flatMap_cons, List.map_append, List.count_append, List.length_cons]
      omega

/-- The clusters hold all failures. -/
theorem sum_cluster_failures (failures : List FailureRecord) :
    ((clusterFailures failures).toList.map fun cluster => cluster.2.length).sum =
      failures.length := by
  have hsizes : (clusterFailures failures).map (fun _ ids => ids.length) =
      tally (failures.map FailureRecord.fingerprint) := by
    rw [clusterFailures, group_sizes, List.map_map]
    rfl
  have htotal := sum_tally (failures.map FailureRecord.fingerprint)
  rw [List.length_map] at htotal
  rw [← hsizes, ExtTreeMap.toList_map, List.map_map] at htotal
  exact htotal

/-- A cluster holds the failures with its fingerprint, in their order. -/
theorem get_cluster_failures (failures : List FailureRecord) (fingerprint : Text) :
    (clusterFailures failures)[fingerprint]?.getD [] =
      (failures.filter fun failure => failure.fingerprint = fingerprint).map FailureRecord.id := by
  have hvalues : valuesOf (failures.map fun failure => (failure.fingerprint, failure.id))
      fingerprint = (failures.filter fun failure => failure.fingerprint = fingerprint).map
        FailureRecord.id := by
    rw [valuesOf, List.filter_map, List.map_map]
    rfl
  rw [clusterFailures, get_group, hvalues]
  split_ifs with hnone
  · exact hnone.symm
  · rfl

/-- The summary, the coverage and the clusters of a run count the same: the statuses add up to the
tested sites, those that pass are the passed sites, no subsystem passes more often than it is observed,
there is a cluster for each fingerprint, the clusters hold all failures, and each holds those with its
fingerprint in their order. -/
theorem summary_consistent (run : CheckRun U) :
    let summary := RunSummary.fromRun run
    let coverage := CoverageSummary.fromRun run
    let clusters := clusterFailures run.failures
    (coverage.scheduledSites = summary.scheduled ∧ coverage.testedSites = summary.tested ∧
        summary.tested ≤ summary.scheduled ∧
        (summary.statuses.toList.map Prod.snd).sum = summary.tested ∧
        coverage.passedSites = summary.statuses[SiteStatus.pass]?.getD 0 +
          summary.statuses[SiteStatus.passWithWarnings]?.getD 0) ∧
      (∀ subsystem : Subsystem, summary.subsystemPasses[subsystem]?.getD 0 ≤
          coverage.subsystemObservations[subsystem]?.getD 0 ∧
        coverage.subsystemObservations[subsystem]?.getD 0 ≤ summary.scheduled) ∧
      clusters.size = summary.fingerprints ∧
      (clusters.toList.map fun cluster => cluster.2.length).sum = summary.failures ∧
      ∀ fingerprint : Text, clusters[fingerprint]?.getD [] =
        (run.failures.filter fun failure => failure.fingerprint = fingerprint).map FailureRecord.id := by
  intro summary coverage clusters
  have hsummary : summary = _ := from_run_summary run
  have hcoverage : coverage = _ := from_run_coverage run
  rw [hsummary, hcoverage]
  refine ⟨⟨rfl, rfl, List.length_filterMap_le _ _, sum_tally _, ?_⟩, fun subsystem => ?_, ?_,
    sum_cluster_failures _, get_cluster_failures _⟩
  · rw [get_tally_get_d, get_tally_get_d, count_passes]
  · rw [get_tally_get_d, get_tally_get_d]
    exact ⟨(List.filter_sublist.map _).count_le _, count_subsystems_le run subsystem⟩
  · show (group _).size = _
    rw [size_group, List.map_map]
    rfl

/-! ## The report -/

section Html

variable [Url U]

/-- The text with the four special characters replaced. -/
def escapeHtml (value : Text) : Text :=
  replace '"' "&quot;" (replace '>' "&gt;" (replace '<' "&lt;" (replace '&' "&amp;" value)))

/-- A row with its texts filled in. -/
def rowText (id url status failures : Text) : Text :=
  "<tr><td>" ++ (id ++ ("</td><td>" ++ (url ++ ("</td><td>" ++ (status ++ ("</td><td>" ++
    (failures ++ "</td></tr>")))))))

/-- The row of a site. -/
def htmlRow (result : SiteResult U) (site : SiteRecord U) : Text :=
  rowText (escapeHtml site.id) (escapeHtml (Url.asStr site.url)) (statusText result.status)
    (ofNat result.failures.length)

/-- What stands between two counts. -/
def separator : Text := [' ', '·', ' ']

/-- The text of the paragraph with the counts. -/
def countsText (summary : RunSummary) : Text :=
  "Sites scheduled: " ++ ofNat summary.scheduled ++ separator ++ "tested: " ++
    ofNat summary.tested ++ separator ++ "failures: " ++ ofNat summary.failures ++ separator ++
    "fingerprints: " ++ ofNat summary.fingerprints

/-- The report up to the counts. -/
def titleText : Text :=
  "<!doctype html><meta charset=\"utf-8\"><title>BrowsAI Compatibility Run</title><h1>BrowsAI Compatibility Run</h1>"

/-- The report between the counts and the rows. -/
def tableText : Text :=
  "</p><table><thead><tr><th>Site</th><th>URL</th><th>Status</th><th>Failures</th></tr></thead><tbody>"

/-- The report with its texts filled in. -/
def pageText (counts rows : Text) : Text :=
  titleText ++ ("<p>" ++ (counts ++ (tableText ++ (rows ++ "</tbody></table>"))))

/-- The counts of a run, and a row for each site. -/
def renderHtmlReport (run : CheckRun U) : Text :=
  pageText (countsText (.fromRun run)) (run.sites.foldl (fun rows result => match result.site with
    | none => rows
    | some site => rows ++ htmlRow result site) [])

/-- What the report is made of up to the counts. -/
def documentTitle : List Element :=
  [⟨"!doctype html", []⟩, ⟨"meta charset=\"utf-8\"", []⟩, ⟨"title", "BrowsAI Compatibility Run"⟩,
    ⟨"/title", []⟩, ⟨"h1", "BrowsAI Compatibility Run"⟩, ⟨"/h1", []⟩]

/-- What it is made of between the counts and the rows. -/
def tableHead : List Element :=
  [⟨"/p", []⟩, ⟨"table", []⟩, ⟨"thead", []⟩, ⟨"tr", []⟩, ⟨"th", "Site"⟩, ⟨"/th", []⟩, ⟨"th", "URL"⟩,
    ⟨"/th", []⟩, ⟨"th", "Status"⟩, ⟨"/th", []⟩, ⟨"th", "Failures"⟩, ⟨"/th", []⟩, ⟨"/tr", []⟩,
    ⟨"/thead", []⟩, ⟨"tbody", []⟩]

/-- A row of a table. -/
def tableRow (cells : List Text) : List Element :=
  ⟨"tr", []⟩ :: cells.flatMap (fun cell => [⟨"td", cell⟩, ⟨"/td", []⟩]) ++ [⟨"/tr", []⟩]

/-- What the report is made of: the counts, and a row for each site. -/
def reportDocument (run : CheckRun U) : List Element :=
  documentTitle ++ (⟨"p", countsText (.fromRun run)⟩ :: tableHead ++
    ((reportRows run).flatMap tableRow ++
      [⟨"/tbody", []⟩, ⟨"/table", []⟩]))

omit [Url U] in
theorem escape_html_append (value value' : Text) :
    escapeHtml (value ++ value') = escapeHtml value ++ escapeHtml value' := by
  unfold escapeHtml
  rw [replace_append, replace_append, replace_append, replace_append]

omit [Url U] in
/-- Each character is escaped on its own. -/
theorem escape_html_singleton (c : Char) : escapeHtml [c] = escapeChar c := by
  unfold escapeHtml escapeChar
  split_ifs with hamp hlt hgt hquot
  · subst hamp
    rfl
  · subst hlt
    rfl
  · subst hgt
    rfl
  · subst hquot
    rfl
  · have hother : ∀ (d : Char) (t : Text), c ≠ d → replace d t [c] = [c] := fun d t hne =>
      replace_of_not_mem fun hmem => hne (List.mem_singleton.mp hmem).symm
    rw [hother _ _ hamp, hother _ _ hlt, hother _ _ hgt, hother _ _ hquot]

omit [Url U] in
theorem escape_html_eq (value : Text) : escapeHtml value = escape value := by
  induction value with
  | nil => rfl
  | cons c value ih =>
      have happend := escape_html_append [c] value
      rw [escape_html_singleton, ih] at happend
      exact happend

theorem write_append (document document' : List Element) :
    write (document ++ document') = write document ++ write document' := List.flatMap_append

theorem escape_of_nat (n : Nat) : escape (ofNat n) = ofNat n :=
  escape_of_forall fun _ hc =>
    ⟨fun h => not_mem_of_nat rfl n (h ▸ hc), fun h => not_mem_of_nat rfl n (h ▸ hc),
      fun h => not_mem_of_nat rfl n (h ▸ hc), fun h => not_mem_of_nat rfl n (h ▸ hc)⟩

/-- The counts need no escaping. -/
theorem escape_counts_text (summary : RunSummary) :
    escape (countsText summary) = countsText summary := by
  have hscheduled : escape ("Sites scheduled: " : Text) = "Sites scheduled: " := rfl
  have hseparator : escape separator = separator := rfl
  have htested : escape ("tested: " : Text) = "tested: " := rfl
  have hfailures : escape ("failures: " : Text) = "failures: " := rfl
  have hfingerprints : escape ("fingerprints: " : Text) = "fingerprints: " := rfl
  unfold countsText
  rw [escape_append, escape_append, escape_append, escape_append, escape_append, escape_append,
    escape_append, escape_append, escape_append, escape_append, hscheduled, hseparator, htested,
    hfailures, hfingerprints, escape_of_nat, escape_of_nat, escape_of_nat, escape_of_nat]

theorem escape_status_text (status : Option SiteStatus) :
    escape (statusText status) = statusText status := by
  cases status with
  | none => rfl
  | some status => cases status <;> rfl

theorem write_row (first second third fourth : Text) :
    write (tableRow [first, second, third, fourth]) =
      rowText (escape first) (escape second) (escape third) (escape fourth) := (rfl)

theorem write_table_row (result : SiteResult U) (site : SiteRecord U) :
    write (tableRow (reportRow result site)) = htmlRow result site := by
  rw [reportRow, write_row, escape_status_text, escape_of_nat, htmlRow, escape_html_eq,
    escape_html_eq]

set_option maxRecDepth 4000 in
theorem write_document_title : write documentTitle = titleText := (rfl)

set_option maxRecDepth 4000 in
theorem write_table_head : write tableHead = tableText := (rfl)

/-- The page is that of the document around its rows. -/
theorem write_page (counts : Text) (rows : List Element) :
    write (documentTitle ++ (⟨"p", counts⟩ :: tableHead ++
      (rows ++ [⟨"/tbody", []⟩, ⟨"/table", []⟩]))) = pageText (escape counts) (write rows) := by
  have hcounts : write [⟨"p", counts⟩] = "<p>" ++ escape counts := by
    rw [write, List.flatMap_singleton]
    exact (rfl)
  have hend : write ([⟨"/tbody", []⟩, ⟨"/table", []⟩] : List Element) = "</tbody></table>" := (rfl)
  have hcons : (⟨"p", counts⟩ :: tableHead : List Element) = [⟨"p", counts⟩] ++ tableHead := (rfl)
  rw [hcons, write_append, write_append, write_append, write_append, write_document_title,
    write_table_head, hcounts, hend]
  unfold pageText
  rw [List.append_assoc, List.append_assoc]

/-- The rows are those of the document. -/
theorem foldl_html_row (sites : List (SiteResult U)) (rows : Text) :
    sites.foldl (fun rows result => match result.site with
        | none => rows
        | some site => rows ++ htmlRow result site) rows =
      rows ++ write ((reportRows ⟨sites⟩).flatMap tableRow) := by
  induction sites generalizing rows with
  | nil => exact (List.append_nil rows).symm
  | cons result sites ih =>
      have hrows : reportRows ⟨result :: sites⟩ =
          (result.site.map (reportRow result)).toList ++ reportRows ⟨sites⟩ := by
        rw [reportRows, List.filterMap_cons]
        cases result.site with
        | none => rfl
        | some site => rfl
      rw [List.foldl_cons, ih, hrows]
      cases result.site with
      | none => rfl
      | some site =>
          rw [Option.map_some, Option.toList_some, List.singleton_append, List.flatMap_cons,
            write_append, write_table_row, List.append_assoc]

theorem named_table_row (cells : List Text) : (tableRow cells).all Element.named := by
  have hcells : (cells.all fun cell =>
      ([⟨"td", cell⟩, ⟨"/td", []⟩] : List Element).all Element.named) = true :=
    List.all_eq_true.mpr fun _ _ => rfl
  rw [tableRow, List.all_append, List.all_cons, List.all_flatMap, hcells]
  rfl

theorem named_report_document (run : CheckRun U) :
    (reportDocument run).all Element.named := by
  rw [reportDocument, List.all_append, List.all_append, List.all_cons, List.all_append,
    List.all_flatMap, List.all_eq_true.mpr fun cells _ => named_table_row cells]
  rfl

/-- The report is read as what it is made of, whatever the ids and the URLs of the sites contain. -/
theorem html_report_read_back (run : CheckRun U) :
    read (renderHtmlReport run) = reportDocument run := by
  have hwrite : renderHtmlReport run = write (reportDocument run) := by
    rw [reportDocument, write_page, escape_counts_text, renderHtmlReport, foldl_html_row]
    rfl
  rw [hwrite, read_write (named_report_document run)]

end Html

end BrowsAI.CompatibilityCheck
