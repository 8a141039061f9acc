import ContrastLint.Proofs.Verdicts

/-!
# What reports complain of

Two reports are written from the same files.  The log in the interchange format
has an entry for each file that could not be linted and for each result that
fails, and the report for readers tells of every file and tags every result.
Each of them picks what it complains of by conditions of its own.

A complaint is what both have in common.  The complaints about a list of files
are stated here without either report, and both turn out to tell of them, one by
one and in their order.
-/

namespace ContrastLint

/-- A ratio was computed for the result, and it does not pass. -/
def ContrastResult.FallsShort (r : ContrastResult) : Prop :=
  (∃ ratio, r.contrast = .computed ratio) ∧ r.passes = false

theorem ContrastResult.fails_iff {r : ContrastResult} : r.fails = true ↔ r.FallsShort := by
  simp [fails, FallsShort, isEvaluated_iff]

instance (r : ContrastResult) : Decidable r.FallsShort :=
  decidable_of_iff _ ContrastResult.fails_iff

/-- Something that is wrong with a file. -/
inductive Complaint
  | unreadable (path : String) (e : LintError)
  | failure (path : String) (report : LintReport) (result : ContrastResult)

/-- A file that was not linted has one complaint, and a linted one has a complaint for each
of its results that falls short. -/
def FileReport.complaints (file : FileReport) : List Complaint :=
  match file.outcome with
  | .error e => [.unreadable file.path e]
  | .ok report => (report.results.filter (·.FallsShort)).map (.failure file.path report)

def complaints (files : List FileReport) : List Complaint :=
  files.flatMap FileReport.complaints

theorem LintReport.failures_eq_filter (report : LintReport) :
    report.failures = report.results.filter (·.FallsShort) := by
  apply List.filter_congr
  intro r _
  rw [Bool.eq_iff_iff, ContrastResult.fails_iff, decide_eq_true_iff]

/-! ## The log in the interchange format -/

/-- What some keys, one after the other, lead to in a value. -/
def Json.at? : List String → Json → Option Json
  | [], value => some value
  | key :: keys, value => (value.member? key).bind (at? keys)

namespace Sarif

def locationsOf (result : Json) : List Json :=
  (result.member? "locations").elim [] Json.items

/-- The result of a run has a single location, which is in the file at a path, at a line
if there is one. -/
def StandsAt (result : Json) (path : String) (line : Option Nat) : Prop :=
  ∃ location, locationsOf result = [location] ∧
    location.at? ["physicalLocation", "artifactLocation", "uri"] = some (.string path) ∧
    location.at? ["physicalLocation", "region", "startLine"] = line.map Json.natural

/-- The result of a run tells of a complaint. -/
inductive Tells (result : Json) : Complaint → Prop
  | unreadable {path : String} {e : LintError}
      (rule : result.member? "ruleId" = some (.string "css-parse-error"))
      (message : result.at? ["message", "text"] = some (.string e.message))
      (place : StandsAt result path (e.position?.map (·.line))) :
      Tells result (.unreadable path e)
  | failure {path : String} {report : LintReport} {r : ContrastResult}
      (rule : result.member? "ruleId" =
        some (.string ("WCAG-" ++ report.level.criterion ++ "-contrast")))
      (message : result.at? ["message", "text"] =
        some (.string ("Color contrast ratio " ++ r.describe ++ " is below the minimum " ++
          Decimal.plain report.threshold ++ ":1 for selector \"" ++ r.selector ++ "\"")))
      (place : StandsAt result path (some r.line)) :
      Tells result (.failure path report r)

/-- The pages that the runs of a log refer to. -/
def pages (log : Json) : List Json :=
  (log.member? "runs").elim [] fun runs =>
    runs.items.filterMap (·.at? ["tool", "driver", "informationUri"])

theorem pages_log (files : List FileReport) :
    pages (log files) = [.string (strictest files).understandingUri] := by
  simp [pages, log, Json.at?, Json.member?, Json.field?, Json.items, List.lookup_cons]

/-- The entry that tells of a complaint. -/
def Entry.ofComplaint : Complaint → Entry
  | .unreadable path e => .ofError path e
  | .failure path report result => .ofFailure path report result

theorem entriesOf_eq (file : FileReport) :
    entriesOf file = file.complaints.map Entry.ofComplaint := by
  unfold entriesOf FileReport.complaints
  cases file.outcome with
  | error e => rfl
  | ok report =>
      simp only [report.failures_eq_filter, List.map_map]
      rfl

theorem entries_eq (files : List FileReport) :
    entries files = (complaints files).map Entry.ofComplaint := by
  rw [entries, complaints, List.map_flatMap]
  exact List.flatMap_congr fun file _ => entriesOf_eq file

/-- The location that an entry is written with. -/
def Entry.location (entry : Entry) : Json :=
  .object [("physicalLocation", .object [
    ("artifactLocation", .object [("uri", .string entry.uri)]),
    ("region", entry.region.elim .null Region.toJson)])]

theorem locationsOf_toJson (entry : Entry) : locationsOf entry.toJson = [entry.location] := by
  cases hregion : entry.region <;>
    simp [locationsOf, Entry.toJson, Entry.location, hregion, Json.member?, Json.field?, Json.items,
      List.lookup_cons]

theorem uri_location (entry : Entry) :
    entry.location.at? ["physicalLocation", "artifactLocation", "uri"] =
      some (.string entry.uri) := by
  simp [Entry.location, Json.at?, Json.member?, Json.field?]

theorem region_location (entry : Entry) :
    entry.location.at? ["physicalLocation", "region"] =
      some (entry.region.elim .null Region.toJson) := by
  simp [Entry.location, Json.at?, Json.member?, Json.field?, List.lookup_cons]

theorem standsAt_toJson (entry : Entry) :
    StandsAt entry.toJson entry.uri (entry.region.map (·.startLine)) := by
  refine ⟨entry.location, locationsOf_toJson entry, uri_location entry, ?_⟩
  cases hregion : entry.region <;>
    simp [Entry.location, hregion, Region.toJson, Json.at?, Json.member?, Json.field?,
      List.lookup_cons]

theorem rule_toJson (entry : Entry) :
    entry.toJson.member? "ruleId" = some (.string entry.ruleId) := by
  simp [Entry.toJson, Json.member?, Json.field?]

theorem message_toJson (entry : Entry) :
    entry.toJson.at? ["message", "text"] = some (.string entry.message) := by
  simp [Entry.toJson, Json.at?, Json.member?, Json.field?, List.lookup_cons]

theorem tells_ofComplaint (complaint : Complaint) :
    Tells (Entry.ofComplaint complaint).toJson complaint := by
  have hplace := standsAt_toJson (.ofComplaint complaint)
  cases complaint with
  | unreadable path e =>
      rw [Entry.ofComplaint, Entry.ofError, Option.map_map] at hplace
      exact .unreadable (rule_toJson _) (message_toJson _) hplace
  | failure path report r => exact .failure (rule_toJson _) (message_toJson _) hplace

theorem tells_results (files : List FileReport) :
    List.Forall₂ Tells (results (log files)) (complaints files) := by
  rw [results_log, entries_eq, List.map_map, List.forall₂_map_left_iff, List.forall₂_same]
  exact fun complaint _ => tells_ofComplaint complaint

theorem results_append (files others : List FileReport) :
    results (log (files ++ others)) = results (log files) ++ results (log others) := by
  simp only [results_log, entries, List.flatMap_append, List.map_append]

/-! ### The strictest level -/

/-- Some file was linted at the stricter level, whether or not it has complaints. -/
def Demanding (files : List FileReport) : Prop :=
  ∃ file ∈ files, ∃ report, file.outcome = .ok report ∧ report.level = .aaa

theorem demanding_of_perm {files others : List FileReport} (h : others.Perm files) :
    Demanding others ↔ Demanding files := by
  simp only [Demanding, h.mem_iff]

theorem stricter_eq_aaa_iff {level other : Level} :
    level.stricter other = .aaa ↔ level = .aaa ∨ other = .aaa := by
  cases level <;> simp [Level.stricter]

theorem foldl_stricter_eq_aaa_iff {reports : List LintReport} {level : Level} :
    reports.foldl (fun level report => level.stricter report.level) level = .aaa ↔
      level = .aaa ∨ ∃ report ∈ reports, report.level = .aaa := by
  induction reports generalizing level with
  | nil => simp
  | cons report reports ih =>
      rw [List.foldl_cons, ih, stricter_eq_aaa_iff, List.exists_mem_cons_iff, or_assoc]

theorem report?_eq_some_iff {file : FileReport} {report : LintReport} :
    file.report? = some report ↔ file.outcome = .ok report := by
  unfold FileReport.report?
  cases file.outcome <;> simp [Except.toOption]

theorem strictest_eq_aaa_iff {files : List FileReport} :
    strictest files = .aaa ↔ Demanding files := by
  rw [strictest, foldl_stricter_eq_aaa_iff]
  simp only [reduceCtorEq, false_or, List.mem_filterMap, report?_eq_some_iff, Demanding]
  constructor
  · rintro ⟨report, ⟨file, hfile, hreport⟩, hlevel⟩
    exact ⟨file, hfile, report, hreport, hlevel⟩
  · rintro ⟨file, hfile, report, hreport, hlevel⟩
    exact ⟨report, ⟨file, hfile, hreport⟩, hlevel⟩

theorem strictest_of_demanding {files : List FileReport} (h : Demanding files) :
    strictest files = .aaa :=
  strictest_eq_aaa_iff.mpr h

theorem strictest_of_not_demanding {files : List FileReport} (h : ¬Demanding files) :
    strictest files = .aa := by
  cases hlevel : strictest files with
  | aa => rfl
  | aaa => exact absurd (strictest_eq_aaa_iff.mp hlevel) h

end Sarif

/-! ## The report for readers -/

/-- A passage of the report for readers. -/
inductive Passage
  | unreadable (path : String) (e : LintError)
  | heading (path : String) (report : LintReport)
  | result (path : String) (report : LintReport) (result : ContrastResult)
  | gap

/-- The line of the result says that it fails. -/
def ContrastResult.IsMarked (r : ContrastResult) : Prop :=
  "  [FAIL] ".toList <+: r.reportLine.toList

instance (r : ContrastResult) : Decidable r.IsMarked :=
  inferInstanceAs (Decidable (_ <+: _))

namespace Passage

def text : Passage → String
  | unreadable path e => path ++ ": PARSE ERROR: " ++ e.message ++ "\n\n"
  | heading path report =>
    path ++ ": " ++ report.status.describe ++ " (threshold " ++ Decimal.plain report.threshold ++
      ":1)\n"
  | result _ _ r => r.reportLine
  | gap => "\n"

/-- What a passage complains of.  A result is complained of if its line says so. -/
def complaint? : Passage → Option Complaint
  | unreadable path e => some (.unreadable path e)
  | result path report r =>
    if r.IsMarked then some (.failure path report r) else none
  | heading _ _ | gap => none

end Passage

def FileReport.passages (file : FileReport) : List Passage :=
  match file.outcome with
  | .error e => [.unreadable file.path e]
  | .ok report =>
    .heading file.path report :: report.results.map (.result file.path report) ++ [.gap]

def passages (files : List FileReport) : List Passage :=
  files.flatMap FileReport.passages

/-- What the report for readers ends with. -/
def closing (files : List FileReport) : String :=
  if files.isEmpty then "No stylesheets found.\n" else summary files

theorem FileReport.paragraph_eq (file : FileReport) :
    file.paragraph = .join (file.passages.map Passage.text) := by
  unfold paragraph passages
  cases file.outcome with
  | error e => simp [Passage.text]
  | ok report =>
      have hlines : report.results.map (Passage.text ∘ .result file.path report) =
          report.results.map ContrastResult.reportLine := rfl
      simp [Passage.text, hlines, String.append_assoc]

theorem join_paragraphs (files : List FileReport) :
    String.join (files.map FileReport.paragraph) = .join ((passages files).map Passage.text) := by
  induction files with
  | nil => rfl
  | cons file files ih =>
      rw [List.map_cons, String.join_cons, ih, file.paragraph_eq, passages, passages,
        List.flatMap_cons, List.map_append, String.join_append]

theorem textReport_eq (files : List FileReport) :
    textReport files = "=== Contrastbot WCAG Contrast Report ===\n\n" ++
      .join ((passages files).map Passage.text) ++ closing files := by
  cases files with
  | nil => rfl
  | cons file files =>
      rw [← join_paragraphs, String.append_assoc]
      rfl

theorem ContrastResult.isMarked_iff {r : ContrastResult} : r.IsMarked ↔ r.FallsShort := by
  obtain ⟨rest, hline⟩ : ∃ rest, r.reportLine.toList =
      ' ' :: ' ' :: '[' :: (r.tag.name.toList ++ ']' :: ' ' :: rest) := by
    exact ⟨_, by simp [reportLine, String.append_assoc]; rfl⟩
  rw [IsMarked, ← fails_iff, hline, fails, tag]
  cases r.isEvaluated with
  | false => simp [Tag.name]
  | true =>
      cases r.passes with
      | false => simp [Tag.name]
      | true => simp [Tag.name]

theorem FileReport.filterMap_complaint?_passages (file : FileReport) :
    file.passages.filterMap Passage.complaint? = file.complaints := by
  unfold passages complaints
  cases file.outcome with
  | error e => rfl
  | ok report =>
      have hresults : (report.results.map (.result file.path report)).filterMap
          Passage.complaint? =
            (report.results.filter (·.FallsShort)).map (.failure file.path report) := by
        rw [List.filterMap_map, ← List.filterMap_eq_map, List.filterMap_filter]
        apply List.filterMap_congr
        intro r _
        simp [Passage.complaint?, ContrastResult.isMarked_iff]
      simp only [List.cons_append, List.filterMap_cons, List.filterMap_append, hresults,
        Passage.complaint?, List.filterMap_nil, List.append_nil]

theorem filterMap_complaint?_passages (files : List FileReport) :
    (passages files).filterMap Passage.complaint? = complaints files := by
  rw [passages, complaints, List.filterMap_flatMap]
  exact List.flatMap_congr fun file _ => file.filterMap_complaint?_passages

/-! ## Both reports -/

/-- The log on some files tells of the complaints about them, as the report for readers
does. -/
structure Sarif.Faithful (files : List FileReport) : Prop where
  written : sarifReport files = Json.wide (log files)
  results : List.Forall₂ Tells (results (log files)) (complaints files)
  text : textReport files = "=== Contrastbot WCAG Contrast Report ===\n\n" ++
    .join ((passages files).map Passage.text) ++ closing files
  marked : (passages files).filterMap Passage.complaint? = complaints files
  append : ∀ others, Sarif.results (log (files ++ others)) =
    Sarif.results (log files) ++ Sarif.results (log others)
  page : pages (log files) = [.string Level.aaa.understandingUri] ↔ Demanding files
  otherPage : ¬Demanding files → pages (log files) = [.string Level.aa.understandingUri]
  anyOrder : ∀ others, others.Perm files → pages (log others) = pages (log files)

/-- The log in the interchange format tells of the files that could not be linted and of
the results that fall short, in their order and with the rule of each file's own level,
and these are what the report for readers complains of.  It refers to the page of the
stricter level if and only if some file was linted at that level. -/
theorem Sarif.faithful (files : List FileReport) : Faithful files := by
  constructor
  case written => rfl
  case results => exact tells_results files
  case text => exact textReport_eq files
  case marked => exact filterMap_complaint?_passages files
  case append => exact results_append files
  case page =>
    rw [pages_log, ← strictest_eq_aaa_iff]
    cases strictest files <;> simp [Level.understandingUri]
  case otherPage =>
    intro h
    rw [pages_log, strictest_of_not_demanding h]
  case anyOrder =>
    intro others hperm
    rw [pages_log, pages_log]
    by_cases h : Demanding files
    · rw [strictest_of_demanding h, strictest_of_demanding ((demanding_of_perm hperm).mpr h)]
    · rw [strictest_of_not_demanding h,
        strictest_of_not_demanding ((demanding_of_perm hperm).not.mpr h)]

end ContrastLint
