import ContrastLint.Json
import ContrastLint.Lint.Evaluate
import ContrastLint.Stylesheet.Render
import ContrastLint.Text.Lowercase

/-!
# Reports

The report for readers lists every file with its verdict and one line for each
result, and ends with a tally of the files.  Files that could not be linted have
one line with the error.

The report as JSON has the results, reports and errors of the files in their
order.

The report in the static analysis interchange format is a run with one entry for
each file that could not be linted and one for each result that fails, in the
order of the files and their results.  The page that the run refers to is that
of the strictest level among the files.
-/

namespace ContrastLint

/-! ## Reports for readers -/

/-- How a result is marked in a report. -/
inductive Tag
  | pass
  | fail
  | skip
  deriving DecidableEq, Repr

def Tag.name : Tag → String
  | .pass => "PASS"
  | .fail => "FAIL"
  | .skip => "SKIP"

namespace ContrastResult

def tag (r : ContrastResult) : Tag :=
  if !r.isEvaluated then .skip else if r.passes then .pass else .fail

/-- The ratio with the two colours, or the reason why there is none. -/
def describe (r : ContrastResult) : String :=
  match r.contrast with
  | .computed ratio =>
    let pair :=
      match r.foreground, r.background with
      | some foreground, some background =>
        " (" ++ foreground.toHex ++ " on " ++ background.toHex ++ ")"
      | _, _ => ""
    Decimal.twoPlaces ratio ++ ":1" ++ pair
  | .notComputable reason => reason.describe

def reportLine (r : ContrastResult) : String :=
  let selector := if r.selector.isEmpty then "<empty selector>" else r.selector
  "  [" ++ r.tag.name ++ "] " ++ selector ++ s!" (line {r.line}): " ++ r.describe ++ "\n"

end ContrastResult

def FileReport.paragraph (file : FileReport) : String :=
  match file.outcome with
  | .error e => file.path ++ ": PARSE ERROR: " ++ e.message ++ "\n\n"
  | .ok report =>
    file.path ++ ": " ++ report.status.describe ++ " (threshold " ++
      Decimal.plain report.threshold ++ ":1)\n" ++
      .join (report.results.map ContrastResult.reportLine) ++ "\n"

/-- The number of files with each verdict. -/
structure Tally where
  accessible : Nat := 0
  inaccessible : Nat := 0
  withoutColors : Nat := 0
  parseErrors : Nat := 0
  deriving DecidableEq, Repr

namespace Tally

def count (t : Tally) (file : FileReport) : Tally :=
  match file.outcome with
  | .error _ => { t with parseErrors := t.parseErrors + 1 }
  | .ok report =>
    match report.status with
    | .noColorFound => { t with withoutColors := t.withoutColors + 1 }
    | .accessible => { t with accessible := t.accessible + 1 }
    | .inaccessible => { t with inaccessible := t.inaccessible + 1 }

def ofFiles (files : List FileReport) : Tally :=
  files.foldl count {}

def fails (t : Tally) : Bool :=
  0 < t.inaccessible || 0 < t.parseErrors

end Tally

def summary (files : List FileReport) : String :=
  let t := Tally.ofFiles files
  s!"Checked {files.length} file(s): {t.accessible} accessible, {t.inaccessible} inaccessible, " ++
    s!"{t.withoutColors} without colors, {t.parseErrors} parse error(s)\n" ++
    (if t.fails then "RESULT: FAIL\n" else "RESULT: PASS\n")

def textReport (files : List FileReport) : String :=
  "=== Contrastbot WCAG Contrast Report ===\n\n" ++
    if files.isEmpty then "No stylesheets found.\n"
    else .join (files.map FileReport.paragraph) ++ summary files

/-! ## Reports as JSON -/

namespace Rgb

def toJson (c : Rgb) : Json :=
  .object [("r", .natural c.red.toNat), ("g", .natural c.green.toNat),
    ("b", .natural c.blue.toNat)]

def ofJson? (j : Json) : Option Rgb := do
  let [red, green, blue] ← j.record? ["r", "g", "b"] | none
  return ⟨← (← red).byte?, ← (← green).byte?, ← (← blue).byte?⟩

end Rgb

namespace SkipReason

def toJson : SkipReason → Json
  | .missingForeground => .object [("reason", .string "missing_foreground")]
  | .missingBackground => .object [("reason", .string "missing_background")]
  | .unresolvable property value =>
    .object [("reason", .string "unresolvable"), ("property", .string property),
      ("value", .string value)]

/-- A reason without fields, read from an array, has no further items. -/
def bare? (reason : SkipReason) : Json → Option SkipReason
  | .array (_ :: _) => none
  | _ => some reason

def ofJson? (j : Json) : Option SkipReason := do
  match ← j.variant? "reason" with
  | ("missing_foreground", body) => bare? .missingForeground body
  | ("missing_background", body) => bare? .missingBackground body
  | ("unresolvable", body) =>
    let [property, value] ← body.record? ["property", "value"] | none
    return .unresolvable (← (← property).string?) (← (← value).string?)
  | _ => none

end SkipReason

namespace Contrast

def toJson : Contrast → Json
  | .computed ratio => .object [("computed", .real ratio)]
  | .notComputable reason => .object [("not_computable", reason.toJson)]

def ofJson? : Json → Option Contrast
  | .object [("computed", ratio)] => ratio.real?.map .computed
  | .object [("not_computable", reason)] => (SkipReason.ofJson? reason).map .notComputable
  | _ => none

end Contrast

namespace Level

def toJson (level : Level) : Json :=
  .string level.name

/-- A level is written by its name, or as an object with that one key and
nothing in it. -/
def ofJson? : Json → Option Level
  | .string name => ofName? name
  | .object [(name, .null)] => ofName? name
  | _ => none

end Level

def Json.ofOption {α : Type} (toJson : α → Json) : Option α → Json
  | some a => toJson a
  | none => .null

namespace ContrastResult

def toJson (r : ContrastResult) : Json :=
  .object [("selector", .string r.selector), ("line", .natural r.line),
    ("foreground", .ofOption Rgb.toJson r.foreground),
    ("background", .ofOption Rgb.toJson r.background),
    ("contrast", r.contrast.toJson), ("passes", .bool r.passes)]

def ofJson? (j : Json) : Option ContrastResult := do
  let [selector, line, foreground, background, contrast, passes] ←
    j.record? ["selector", "line", "foreground", "background", "contrast", "passes"] | none
  return { selector := ← (← selector).string?
           line := ← (← line).word?
           foreground := ← Json.optional? Rgb.ofJson? foreground
           background := ← Json.optional? Rgb.ofJson? background
           contrast := ← Contrast.ofJson? (← contrast)
           passes := ← (← passes).bool? }

end ContrastResult

namespace LintReport

def toJson (r : LintReport) : Json :=
  .object [("results", .array (r.results.map (·.toJson))), ("has_any_color", .bool r.hasAnyColor),
    ("all_accessible", .bool r.allAccessible), ("threshold", .real r.threshold),
    ("level", r.level.toJson)]

def ofJson? (j : Json) : Option LintReport := do
  let [results, hasAnyColor, allAccessible, threshold, level] ←
    j.record? ["results", "has_any_color", "all_accessible", "threshold", "level"] | none
  return { results := ← (← results).listOf? ContrastResult.ofJson?
           hasAnyColor := ← (← hasAnyColor).bool?
           allAccessible := ← (← allAccessible).bool?
           threshold := ← (← threshold).real?
           level := ← Level.ofJson? (← level) }

end LintReport

def Defect.name : Defect → String
  | .unclosedBlock => "unclosed_block"
  | .unexpectedClose => "unexpected_close"
  | .unclosedComment => "unclosed_comment"
  | .unclosedString => "unclosed_string"

namespace LintError

def kind : LintError → String
  | .emptyInput => "empty_input"
  | .unreadable e => e.defect.name

def toJson (e : LintError) : Json :=
  .object <| ("kind", .string e.kind) ::
    match e.position? with
    | some position => [("position", position.toJson)]
    | none => []

end LintError

def FileReport.toJson (file : FileReport) : Json :=
  .object <| ("path", .string file.path) ::
    match file.outcome with
    | .ok report => [("outcome", .string "linted"), ("detail", report.toJson)]
    | .error e => [("outcome", .string "failed"), ("detail", e.toJson)]

def dataReport (files : List FileReport) : String :=
  Json.wide (.object [("files", .array (files.map (·.toJson)))])

/-! ## Reports in the static analysis interchange format -/

namespace Sarif

/-- A place in a file: a line, and a column where one is known. -/
structure Region where
  startLine : Nat
  startColumn : Option Nat
  deriving DecidableEq, Repr

structure Entry where
  ruleId : String
  message : String
  uri : String
  region : Option Region
  deriving DecidableEq, Repr

/-- The rule of files that cannot be linted. -/
def parseErrorRuleId : String := "css-parse-error"

def Entry.ofError (path : String) (e : LintError) : Entry :=
  { ruleId := parseErrorRuleId
    message := e.message
    uri := path
    region := e.position?.map fun p => ⟨p.line, some p.column⟩ }

def Entry.ofFailure (path : String) (report : LintReport) (result : ContrastResult) : Entry :=
  { ruleId := report.level.ruleId
    message :=
      "Color contrast ratio " ++ result.describe ++ " is below the minimum " ++
        Decimal.plain report.threshold ++ ":1 for selector \"" ++ result.selector ++ "\""
    uri := path
    region := some ⟨result.line, none⟩ }

def entriesOf (file : FileReport) : List Entry :=
  match file.outcome with
  | .error e => [.ofError file.path e]
  | .ok report => report.failures.map (.ofFailure file.path report)

def entries (files : List FileReport) : List Entry :=
  files.flatMap entriesOf

def strictest (files : List FileReport) : Level :=
  (files.filterMap (·.report?)).foldl (fun level report => level.stricter report.level) .aa

def Region.toJson (r : Region) : Json :=
  .object <| ("startLine", .natural r.startLine) ::
    match r.startColumn with
    | some column => [("startColumn", .natural column)]
    | none => []

def Entry.toJson (e : Entry) : Json :=
  .object [("ruleId", .string e.ruleId), ("level", .string "error"),
    ("message", .object [("text", .string e.message)]),
    ("locations", .array [.object [("physicalLocation", .object [
      ("artifactLocation", .object [("uri", .string e.uri)]),
      ("region", match e.region with
        | some region => region.toJson
        | none => .null)])]])]

def log (files : List FileReport) : Json :=
  .object [("$schema", .string "https://json.schemastore.org/sarif-2.1.0.json"),
    ("version", .string "2.1.0"),
    ("runs", .array [.object [
      ("tool", .object [("driver", .object [
        ("name", .string "contrastbot"), ("version", .string "0.1.0"),
        ("informationUri", .string (strictest files).understandingUri)])]),
      ("results", .array ((entries files).map Entry.toJson))]])]

end Sarif

def sarifReport (files : List FileReport) : String :=
  Json.wide (Sarif.log files)

/-! ## Formats -/

inductive ReportFormat
  | text
  | json
  | sarif
  deriving DecidableEq, Repr

/-- A text that names no format; the text is lower-cased. -/
structure UnknownFormat where
  text : String
  deriving DecidableEq, Repr

def UnknownFormat.message (e : UnknownFormat) : String :=
  "Unknown output format: " ++ e.text

namespace ReportFormat

def name : ReportFormat → String
  | .text => "text"
  | .json => "json"
  | .sarif => "sarif"

def ofName? : String → Option ReportFormat
  | "text" => some .text
  | "json" => some .json
  | "sarif" => some .sarif
  | _ => none

def ofText (text : String) : Except UnknownFormat ReportFormat :=
  match ofName? (Text.lower text) with
  | some format => .ok format
  | none => .error ⟨Text.lower text⟩

def report (format : ReportFormat) (files : List FileReport) : String :=
  match format with
  | .text => textReport files
  | .json => dataReport files
  | .sarif => sarifReport files

end ReportFormat

end ContrastLint
