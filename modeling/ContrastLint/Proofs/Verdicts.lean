import ContrastLint.CommandLine.Run
import ContrastLint.Proofs.Pruning

/-!
# The verdict of a list of files

Every report and the exit code tell whether a file has errors, and each takes
this from other fields.  The tally asks for colours first, the entries for
other tools are made from the results that fail, and the exit code looks at the
verdict of each file.  They agree on files that were linted: a file without
colours is accessible, and a file is accessible if and only if no result of it
fails.
-/

namespace ContrastLint

/-! ## Texts line by line -/

namespace Text

/-- The lines of a text, each without the line feed that ends it. -/
def lines : List Char → List (List Char)
  | [] => []
  | '\n' :: rest => [] :: lines rest
  | c :: rest =>
    match lines rest with
    | [] => [[c]]
    | line :: more => (c :: line) :: more

theorem lines_cons {c : Char} (hc : c ≠ '\n') (text : List Char) :
    lines (c :: text) =
      match lines text with
      | [] => [[c]]
      | line :: more => (c :: line) :: more := by
  rw [lines]
  exact hc

theorem lines_line {line : List Char} (h : '\n' ∉ line) (text : List Char) :
    lines (line ++ '\n' :: text) = line :: lines text := by
  induction line with
  | nil => rfl
  | cons c line ih =>
      obtain ⟨hc, hline⟩ := not_or.mp (List.mem_cons.not.mp h)
      rw [List.cons_append, lines_cons (Ne.symm hc), ih hline]

theorem lines_ne_nil {text : List Char} (h : text ≠ []) : lines text ≠ [] := by
  cases text with
  | nil => contradiction
  | cons c text =>
      by_cases hc : c = '\n'
      · subst hc
        exact List.cons_ne_nil _ _
      · rw [lines_cons hc]
        cases lines text <;> exact List.cons_ne_nil _ _

theorem lines_append_newline (above text : List Char) :
    lines (above ++ '\n' :: text) = lines (above ++ ['\n']) ++ lines text := by
  induction above with
  | nil => rfl
  | cons c above ih =>
      by_cases hc : c = '\n'
      · subst hc
        simp only [List.cons_append, lines, ih]
      · rw [List.cons_append, List.cons_append, lines_cons hc, lines_cons hc, ih]
        cases hlines : lines (above ++ ['\n']) with
        | nil => exact absurd hlines (lines_ne_nil (by simp))
        | cons => rfl

theorem newline_notMem_toString (n : Nat) : '\n' ∉ (toString n).toList := by
  rw [Nat.toString_eq_ofList_toDigits, String.toList_ofList]
  intro hmem
  have hdigit := Nat.isDigit_of_mem_toDigits (by omega) (by omega) hmem
  contradiction

end Text

/-! ## Reports by their fields -/

namespace Json

def member? (key : String) : Json → Option Json
  | .object fields => field? fields key
  | _ => none

def items : Json → List Json
  | .array items => items
  | _ => []

end Json

namespace Sarif

/-- The results of the run that a log in the interchange format holds. -/
def results (log : Json) : List Json :=
  (log.member? "runs").elim [] fun runs =>
    runs.items.flatMap fun run => (run.member? "results").elim [] Json.items

theorem results_log (files : List FileReport) :
    results (log files) = (entries files).map Entry.toJson := by
  simp [results, log, Json.member?, Json.field?, Json.items, List.lookup_cons]

end Sarif

/-- The value that the report in JSON is written from. -/
def dataValue (files : List FileReport) : Json :=
  .object [("files", .array (files.map FileReport.toJson))]

theorem dataReport_eq (files : List FileReport) : dataReport files = Json.wide (dataValue files) :=
  rfl

/-- An entry of the report in JSON is that of a file with errors. -/
def Json.TellsErrors (entry : Json) : Prop :=
  entry.member? "outcome" = some (.string "failed") ∨
    (entry.member? "detail").bind (Json.member? "all_accessible") = some (.bool false)

namespace FileReport

theorem tellsErrors_toJson (file : FileReport) :
    file.toJson.TellsErrors ↔ file.hasErrors = true := by
  rcases file with ⟨path, e | report⟩
  · simp [Json.TellsErrors, toJson, hasErrors, Json.member?, Json.field?, List.lookup_cons]
  · simp [Json.TellsErrors, toJson, hasErrors, Json.member?, Json.field?, List.lookup_cons,
      LintReport.toJson]

end FileReport

/-! ## Files that were linted -/

/-- A file report comes from linting a text. -/
def FileReport.FromSource (file : FileReport) : Prop :=
  ∃ config path css, file = (lintSource config path css).value

/-- The fields of a report do not contradict each other. -/
structure LintReport.Consistent (report : LintReport) : Prop where
  uncolored : report.hasAnyColor = false → report.allAccessible = true
  failures : report.allAccessible = report.failures.isEmpty

theorem Document.consistent_lint (doc : Document Position) (config : LintConfig) :
    (doc.lint config).value.Consistent := by
  constructor
  case uncolored =>
    rw [value_lint]
    cases doc.declaresColor <;> simp
  case failures => exact doc.allAccessible_lint config

theorem value_lintSource (config : LintConfig) (path css : String) :
    (lintSource config path css).value = ⟨path, (lint config css).value⟩ := by
  unfold lintSource
  simp only [Logged.value_bind]
  cases (lint config css).value <;> rfl

namespace FileReport

variable {file : FileReport} {report : LintReport}

theorem FromSource.consistent (h : file.FromSource) (hreport : file.outcome = .ok report) :
    report.Consistent := by
  obtain ⟨config, path, css, rfl⟩ := h
  rw [value_lintSource] at hreport
  unfold lint at hreport
  split at hreport
  · contradiction
  · cases hparse : parse css with
    | error => simp [hparse] at hreport
    | ok doc =>
        have heq : (doc.lint config).value = report := by
          simpa [hparse] using hreport
        rw [← heq]
        exact doc.consistent_lint config

theorem FromSource.status_eq_inaccessible_iff
    (h : file.FromSource) (hreport : file.outcome = .ok report) :
    report.status = .inaccessible ↔ report.allAccessible = false := by
  have huncolored := (h.consistent hreport).uncolored
  unfold LintReport.status
  cases hcolor : report.hasAnyColor with
  | false => simp [huncolored hcolor]
  | true => cases report.allAccessible <;> simp

/-- A file has an entry for other tools if and only if it has errors. -/
theorem FromSource.entriesOf_ne_nil_iff (h : file.FromSource) :
    Sarif.entriesOf file ≠ [] ↔ file.hasErrors = true := by
  cases houtcome : file.outcome with
  | error => simp [Sarif.entriesOf, hasErrors, houtcome]
  | ok report =>
      have hfailures := (h.consistent houtcome).failures
      simp [Sarif.entriesOf, hasErrors, houtcome, hfailures]

end FileReport

namespace Tally

/-- The number of files that are counted. -/
def total (t : Tally) : Nat :=
  t.accessible + t.inaccessible + t.withoutColors + t.parseErrors

/-- The number of files that make a report fail. -/
def problems (t : Tally) : Nat :=
  t.inaccessible + t.parseErrors

theorem total_count (t : Tally) (file : FileReport) : (t.count file).total = t.total + 1 := by
  unfold count total
  split
  · simp only
    omega
  · split <;> (simp only; omega)

theorem problems_count {file : FileReport} (h : file.FromSource) (t : Tally) :
    (t.count file).problems = t.problems + if file.hasErrors then 1 else 0 := by
  cases houtcome : file.outcome with
  | error => simp [count, problems, FileReport.hasErrors, houtcome, Nat.add_assoc]
  | ok report =>
      have hinaccessible := h.status_eq_inaccessible_iff houtcome
      by_cases hstatus : report.status = .inaccessible
      · have haccessible := hinaccessible.mp hstatus
        simp [count, problems, FileReport.hasErrors, houtcome, hstatus, haccessible]
        omega
      · have haccessible : report.allAccessible = true := by
          simpa [hstatus] using hinaccessible
        simp only [count, problems, FileReport.hasErrors, houtcome, haccessible]
        cases hother : report.status with
        | inaccessible => contradiction
        | _ => simp

theorem total_ofFiles (files : List FileReport) : (ofFiles files).total = files.length := by
  induction files using List.reverseRecOn with
  | nil => rfl
  | append_singleton files file ih =>
      have hlast : ofFiles (files ++ [file]) = (ofFiles files).count file := by
        simp [ofFiles]
      rw [hlast, total_count, ih, List.length_append, List.length_singleton]

theorem problems_ofFiles {files : List FileReport} (h : ∀ file ∈ files, file.FromSource) :
    (ofFiles files).problems = files.countP (·.hasErrors) := by
  induction files using List.reverseRecOn with
  | nil => rfl
  | append_singleton files file ih =>
      have hlast : ofFiles (files ++ [file]) = (ofFiles files).count file := by
        simp [ofFiles]
      rw [List.forall_mem_append, List.forall_mem_singleton] at h
      rw [hlast, problems_count h.2, ih h.1, List.countP_append, List.countP_singleton]

theorem fails_iff (t : Tally) : t.fails = true ↔ 0 < t.problems := by
  simp only [fails, problems, Bool.or_eq_true, decide_eq_true_eq]
  omega

/-- What the report for readers says of a tally of some files. -/
def line (t : Tally) (files : Nat) : String :=
  s!"Checked {files} file(s): {t.accessible} accessible, {t.inaccessible} inaccessible, " ++
    s!"{t.withoutColors} without colors, {t.parseErrors} parse error(s)"

theorem newline_notMem_line (t : Tally) (files : Nat) : '\n' ∉ (t.line files).toList := by
  have hdigits := Text.newline_notMem_toString
  simp only [line, String.toList_append, List.mem_append, hdigits, or_false]
  decide

def verdict (t : Tally) : String :=
  if t.fails then "RESULT: FAIL" else "RESULT: PASS"

theorem verdict_eq_fail_iff (t : Tally) : t.verdict = "RESULT: FAIL" ↔ 0 < t.problems := by
  rw [← fails_iff, verdict]
  cases t.fails with
  | true => simp
  | false => decide

theorem newline_notMem_verdict (t : Tally) : '\n' ∉ t.verdict.toList := by
  unfold verdict
  cases t.fails <;> decide

end Tally

/-! ## The last lines of a report -/

theorem summary_eq (files : List FileReport) :
    summary files =
      (Tally.ofFiles files).line files.length ++ "\n" ++ (Tally.ofFiles files).verdict ++ "\n" := by
  have hcounts : toString " parse error(s)\n" = toString " parse error(s)" ++ "\n" := rfl
  have hverdict : (if (Tally.ofFiles files).fails then "RESULT: FAIL\n" else "RESULT: PASS\n") =
      (Tally.ofFiles files).verdict ++ "\n" := by
    unfold Tally.verdict
    cases (Tally.ofFiles files).fails <;> rfl
  have hbreaks : ∀ front counts label last : String,
      front ++ (counts ++ (label ++ "\n")) ++ (last ++ "\n") =
        front ++ (counts ++ label) ++ "\n" ++ last ++ "\n" := by
    intro front counts label last
    simp only [String.append_assoc]
  dsimp only [summary]
  rw [hcounts, hverdict]
  exact hbreaks _ _ _ _

theorem FileReport.exists_paragraph_eq (file : FileReport) :
    ∃ front, file.paragraph.toList = front ++ ['\n'] := by
  unfold paragraph
  cases file.outcome with
  | error e => exact ⟨(file.path ++ ": PARSE ERROR: " ++ e.message ++ "\n").toList, by simp⟩
  | ok report => exact ⟨_, String.toList_append⟩

/-- What stands above the summary ends with a line feed. -/
theorem exists_above_summary {header : String} {front : List Char}
    (hheader : header.toList = front ++ ['\n']) (files : List FileReport) :
    ∃ above, (header ++ String.join (files.map FileReport.paragraph)).toList = above ++ ['\n'] := by
  induction files using List.reverseRecOn with
  | nil => exact ⟨front, by simpa using hheader⟩
  | append_singleton files file _ =>
      obtain ⟨front, hfront⟩ := file.exists_paragraph_eq
      refine ⟨header.toList ++ (String.join (files.map FileReport.paragraph)).toList ++ front, ?_⟩
      simp [String.toList_join, hfront]

theorem exists_lines_textReport {files : List FileReport} (h : files ≠ []) :
    ∃ above, Text.lines (textReport files).toList =
      above ++ [((Tally.ofFiles files).line files.length).toList,
        (Tally.ofFiles files).verdict.toList] := by
  have hempty : files.isEmpty = false := by simpa using h
  have hheader : "=== Contrastbot WCAG Contrast Report ===\n\n".toList =
      "=== Contrastbot WCAG Contrast Report ===\n".toList ++ ['\n'] := by simp
  obtain ⟨above, habove⟩ := exists_above_summary hheader files
  have htext : (textReport files).toList = above ++ '\n' :: (summary files).toList := by
    unfold textReport
    rw [hempty, if_neg Bool.false_ne_true, ← String.append_assoc, String.toList_append]
    generalize "=== Contrastbot WCAG Contrast Report ===\n\n" = header at habove ⊢
    rw [habove, List.append_assoc, List.singleton_append]
  have hline := (Tally.ofFiles files).newline_notMem_line files.length
  have hverdict := (Tally.ofFiles files).newline_notMem_verdict
  refine ⟨Text.lines (above ++ ['\n']), ?_⟩
  have hsummary : (summary files).toList =
      ((Tally.ofFiles files).line files.length).toList ++
        '\n' :: ((Tally.ofFiles files).verdict.toList ++ '\n' :: []) := by
    have hbreak : "\n".toList = ['\n'] := rfl
    simp only [summary_eq, String.toList_append, List.append_assoc, hbreak, List.cons_append,
      List.nil_append]
  rw [htext, Text.lines_append_newline, hsummary, Text.lines_line hline, Text.lines_line hverdict,
    Text.lines]

/-! ## What a command prints -/

namespace CommandLine

/-- A run puts out a text, to a file that can be written or to the output, and ends
with an exit code. -/
def Progress.Delivers (content : String) (code : Nat) : Progress → Prop
  | .finished outcome => outcome.output = content ++ "\n" ∧ outcome.exitCode = code
  | .write _ written next => written = content ∧ (next (.ok ())).exitCode = code

theorem delivers_deliver
    (verbose : Bool) (events : List Event) (content : String) (file : Option String)
    (code : Nat) : (deliver verbose events content file code).Delivers content code := by
  cases file <;> exact ⟨rfl, rfl⟩

theorem exitCode_eq_one_iff {files : List FileReport} :
    exitCode files = 1 ↔ ∃ file ∈ files, file.hasErrors = true := by
  simp [exitCode]

theorem exitCode_eq_zero_iff {files : List FileReport} :
    exitCode files = 0 ↔ ¬∃ file ∈ files, file.hasErrors = true := by
  simp [exitCode]

end CommandLine

theorem entries_ne_nil_iff {files : List FileReport} (h : ∀ file ∈ files, file.FromSource) :
    Sarif.entries files ≠ [] ↔ ∃ file ∈ files, file.hasErrors = true := by
  have hentries : ∀ file ∈ files, Sarif.entriesOf file = [] ↔ file.hasErrors = false := by
    intro file hfile
    have hiff := (h file hfile).entriesOf_ne_nil_iff
    rw [← Bool.not_eq_true, ← hiff, not_not]
  rw [Sarif.entries, Ne, List.flatMap_eq_nil_iff]
  constructor
  · intro hsome
    by_contra hnone
    apply hsome
    intro file hfile
    rw [hentries file hfile, ← Bool.not_eq_true]
    exact fun herrors => hnone ⟨file, hfile, herrors⟩
  · rintro ⟨file, hfile, herrors⟩ hnone
    have hnot := (hentries file hfile).mp (hnone file hfile)
    rw [herrors] at hnot
    contradiction

/-! ## One verdict -/

def HaveErrors (files : List FileReport) : Prop :=
  ∃ file ∈ files, file.hasErrors = true

theorem countP_hasErrors_pos_iff {files : List FileReport} :
    0 < files.countP (·.hasErrors) ↔ HaveErrors files :=
  List.countP_pos_iff

open CommandLine in
/-- The reports on files and the commands that print them tell one verdict. -/
structure VerdictsAgree (files : List FileReport) : Prop where
  text : files ≠ [] → ∃ (above : List (List Char)) (t : Tally) (last : String),
    Text.lines (textReport files).toList =
        above ++ [(t.line files.length).toList, last.toList] ∧
      t.accessible + t.inaccessible + t.withoutColors + t.parseErrors = files.length ∧
      t.inaccessible + t.parseErrors = files.countP (·.hasErrors) ∧
      (last = "RESULT: FAIL" ↔ HaveErrors files)
  empty : files = [] →
    (∀ line ∈ Text.lines (textReport files).toList, ¬"RESULT".toList <+: line) ∧
      Sarif.results (Sarif.log files) = []
  data : dataReport files = Json.wide (dataValue files) ∧
    (HaveErrors files ↔
      ∃ entry ∈ ((dataValue files).member? "files").elim [] Json.items, entry.TellsErrors)
  sarif : sarifReport files = Json.wide (Sarif.log files) ∧
    (HaveErrors files ↔ Sarif.results (Sarif.log files) ≠ [])
  /-- The report of a format is one of the reports above. -/
  formats : ReportFormat.text.report files = textReport files ∧
    ReportFormat.json.report files = dataReport files ∧
    ReportFormat.sarif.report files = sarifReport files
  check : ∀ view verbose directory level format output config,
    (checkFiles view directory config level).value = .ok files →
    ∃ code, (Command.run view verbose (.check directory level format output config)).Delivers
        (format.report files) code ∧
      (code = 1 ↔ HaveErrors files) ∧ (code = 0 ↔ ¬HaveErrors files)
  lint : ∀ view verbose path level format config,
    (lintFile view path config level).value = .ok files →
    ∃ code, (Command.run view verbose (.lint path level format config)).Delivers
        (format.report files) code ∧
      (code = 1 ↔ HaveErrors files) ∧ (code = 0 ↔ ¬HaveErrors files)

/-- Whatever files were linted, all reports on them and the exit code agree. -/
theorem verdictsAgree {files : List FileReport} (h : ∀ file ∈ files, file.FromSource) :
    VerdictsAgree files := by
  constructor
  case text =>
    intro hne
    obtain ⟨above, hlines⟩ := exists_lines_textReport hne
    have hproblems := Tally.problems_ofFiles h
    refine ⟨above, Tally.ofFiles files, _, hlines, Tally.total_ofFiles files, hproblems, ?_⟩
    rw [Tally.verdict_eq_fail_iff, hproblems, countP_hasErrors_pos_iff]
  case empty =>
    rintro rfl
    exact ⟨by decide, rfl⟩
  case data =>
    have hentries : ((dataValue files).member? "files").elim [] Json.items =
        files.map FileReport.toJson := rfl
    refine ⟨dataReport_eq files, ?_⟩
    rw [hentries]
    simp [HaveErrors, FileReport.tellsErrors_toJson]
  case sarif =>
    refine ⟨rfl, ?_⟩
    rw [Sarif.results_log, Ne, List.map_eq_nil_iff]
    exact (entries_ne_nil_iff h).symm
  case formats => exact ⟨rfl, rfl, rfl⟩
  case check =>
    intro view verbose directory level format output config hfiles
    refine ⟨CommandLine.exitCode files, ?_, CommandLine.exitCode_eq_one_iff,
      CommandLine.exitCode_eq_zero_iff⟩
    simp only [CommandLine.Command.run, hfiles]
    apply CommandLine.delivers_deliver
  case lint =>
    intro view verbose path level format config hfiles
    refine ⟨CommandLine.exitCode files, ?_, CommandLine.exitCode_eq_one_iff,
      CommandLine.exitCode_eq_zero_iff⟩
    simp only [CommandLine.Command.run, hfiles]
    apply CommandLine.delivers_deliver

/-- The case of a blank file and of one without colours. -/
theorem verdictsAgree_blank :
    ∃ files, files = [(lintSource {} "a.css" " ").value, (lintSource {} "b.css" "p\x7b\x7d").value] ∧
      (∀ file ∈ files, file.FromSource) ∧ HaveErrors files ∧ VerdictsAgree files := by
  have hsources : ∀ file ∈ [(lintSource {} "a.css" " ").value,
      (lintSource {} "b.css" "p\x7b\x7d").value], file.FromSource := by
    simp only [List.forall_mem_cons]
    exact ⟨⟨_, _, _, rfl⟩, ⟨_, _, _, rfl⟩, by simp⟩
  have hblank : (lint {} " ").value = .error .emptyInput := by
    have htrim : Text.trim [' '] = [] := Text.trim_eq_nil_iff.mpr Text.white_space
    simp [lint, htrim]
  refine ⟨_, rfl, hsources, ⟨_, List.mem_cons_self, ?_⟩, verdictsAgree hsources⟩
  rw [value_lintSource, hblank]
  rfl

end ContrastLint
