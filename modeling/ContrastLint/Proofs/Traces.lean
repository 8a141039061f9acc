import ContrastLint.Proofs.LintAgreement
import ContrastLint.Scan

/-!
# What a run tells of

Measuring a rule leaves one event, and the event is a function of the result: it
names the selector, and it is a warning if and only if a colour of the rule is not
supported.  A stylesheet that is linted leaves the events of its results and then a
summary, so no rule is skipped without a word.

A scan adds events of its own, none of them a warning.  Its warnings are those of
the results that it returns, file by file.
-/

namespace ContrastLint

/-! ## Results and their events -/

/-- The result has no ratio because a colour of its rule is not supported. -/
def ContrastResult.IsUnresolvable (r : ContrastResult) : Prop :=
  ∃ property value, r.contrast = .notComputable (.unresolvable property value)

/-- The event that a result is told with. -/
def ContrastResult.event (r : ContrastResult) : Event :=
  match r.contrast with
  | .computed ratio => .measured r.selector ratio r.passes
  | .notComputable reason => .skipped r.selector reason

/-- An event tells of a result. -/
structure Event.TellsOf (event : Event) (r : ContrastResult) : Prop where
  warns : event.severity = .warn ↔ r.IsUnresolvable
  otherwise : ¬r.IsUnresolvable → event.severity = .debug
  measured : ∀ ratio, r.contrast = .computed ratio →
    event.message =
      r.selector ++ ": " ++ Decimal.twoPlaces ratio ++ s!":1 (passes: {r.passes})"
  skipped : ∀ reason, r.contrast = .notComputable reason →
    ∃ opening, event.message = opening ++ r.selector ++ ": " ++ reason.describe

namespace ContrastResult

theorem severity_event (r : ContrastResult) :
    r.IsUnresolvable ∧ r.event.severity = .warn ∨ ¬r.IsUnresolvable ∧ r.event.severity = .debug := by
  unfold event IsUnresolvable
  cases r.contrast with
  | computed ratio => simp [Event.severity]
  | notComputable reason => cases reason <;> simp [Event.severity]

theorem severity_event_eq_warn_iff (r : ContrastResult) :
    r.event.severity = .warn ↔ r.IsUnresolvable := by
  rcases r.severity_event with ⟨h, hseverity⟩ | ⟨h, hseverity⟩ <;> simp [h, hseverity]

instance (r : ContrastResult) : Decidable r.IsUnresolvable :=
  decidable_of_iff _ r.severity_event_eq_warn_iff

theorem tellsOf_event (r : ContrastResult) : r.event.TellsOf r := by
  constructor
  case warns => exact r.severity_event_eq_warn_iff
  case otherwise => exact fun h => (r.severity_event.resolve_left fun hwarns => h hwarns.1).2
  case measured =>
    intro ratio hratio
    rw [event, hratio]
    rfl
  case skipped =>
    intro reason hreason
    rw [event, hreason]
    cases reason with
    | missingForeground => exact ⟨"Skipping ", rfl⟩
    | missingBackground => exact ⟨"Skipping ", rfl⟩
    | unresolvable property value => exact ⟨"Skipping invalid color in ", rfl⟩

end ContrastResult

@[simp] theorem Logged.events_map {α β : Type} (f : α → β) (x : Logged α) :
    (f <$> x).events = x.events :=
  List.append_nil x.events

theorem Logged.events_mapM {α β : Type} (f : α → Logged β) (as : List α) :
    (as.mapM f).events = as.flatMap fun a => (f a).events := by
  induction as with
  | nil => rfl
  | cons a as ih =>
      rw [List.mapM_cons, List.flatMap_cons]
      simp only [events_bind, events_pure, ih, List.append_nil]

/-! ## Linting -/

theorem Rule.events_evaluate (r : Rule Position) (threshold : Float) :
    (r.evaluate threshold).events = [(r.evaluate threshold).value.event] := by
  unfold evaluate ContrastResult.event
  cases Contrast.ofSlots (resolveSlot r.slots.foreground) (resolveSlot r.slots.background) <;> rfl

/-- Rules leave the events of their results. -/
theorem Rule.events_mapM_evaluate (rules : List (Rule Position)) (threshold : Float) :
    (rules.mapM fun r : Rule Position => r.evaluate threshold).events =
      (results rules threshold).map ContrastResult.event := by
  rw [Logged.events_mapM, results, List.map_map, List.map_eq_flatMap]
  exact List.flatMap_congr fun r _ => r.events_evaluate threshold

/-- The summary of a report. -/
def LintReport.summary (report : LintReport) : Event :=
  .linted report.results.length report.evaluated.length report.allAccessible

section Lint

variable {config : LintConfig} {doc : Document Position} {css : String} {report : LintReport}

theorem Document.events_lint_of_namesColor (h : doc.NamesColor) :
    (doc.lint config).events =
      (doc.lint config).value.results.map ContrastResult.event ++
        [(doc.lint config).value.summary] := by
  have hdeclares := declaresColor_iff.mpr h
  rw [value_lint, if_pos hdeclares, ← Rule.events_mapM_evaluate]
  simp [lint, hdeclares, LintReport.summary, LintReport.evaluated, Logged.value_mapM,
    Rule.results, List.countP_eq_length_filter]

theorem Document.events_lint_of_not_namesColor (h : ¬doc.NamesColor) :
    (doc.lint config).events = [.noColor] := by
  have hdeclares : doc.declaresColor = false := by
    rw [← Bool.not_eq_true, declaresColor_iff]
    exact h
  simp [lint, hdeclares]

theorem events_lint_of_error {e : LintError} (h : (lint config css).value = .error e) :
    (lint config css).events = [] := by
  unfold lint at h ⊢
  split
  · rfl
  · cases hparse : parse css with
    | error e => rfl
    | ok doc => simp_all

theorem events_lint_of_parse
    (hparse : parse css = .ok doc) (h : (lint config css).value = .ok report) :
    (lint config css).events = (doc.lint config).events := by
  unfold lint at h ⊢
  split
  · simp_all
  · simp [hparse]

end Lint

/-! ## Scanning -/

/-- The results of a file that have no ratio because a colour is not supported. -/
def FileReport.unresolvable (file : FileReport) : List ContrastResult :=
  match file.outcome with
  | .ok report => report.results.filter (·.IsUnresolvable)
  | .error _ => []

def unresolvable (files : List FileReport) : List ContrastResult :=
  files.flatMap FileReport.unresolvable

namespace Logged

variable {α β : Type}

def warnings (x : Logged α) : List Event :=
  x.events.filter (·.severity = .warn)

theorem warnings_bind (x : Logged α) (f : α → Logged β) :
    (x >>= f).warnings = x.warnings ++ (f x.value).warnings :=
  List.filter_append ..

theorem warnings_mapM (f : α → Logged β) (as : List α) :
    (as.mapM f).warnings = as.flatMap fun a => (f a).warnings := by
  rw [warnings, events_mapM, List.filter_flatMap]
  rfl

end Logged

theorem warnings_results (results : List ContrastResult) :
    (results.map ContrastResult.event).filter (·.severity = .warn) =
      (results.filter (·.IsUnresolvable)).map ContrastResult.event := by
  rw [List.filter_map]
  refine congrArg (List.map _) (List.filter_congr fun r _ => ?_)
  simp [r.severity_event_eq_warn_iff]

/-- The warnings of linting a document are those of its results. -/
theorem Document.warnings_lint (doc : Document Position) (config : LintConfig) :
    (doc.lint config).warnings =
      ((doc.lint config).value.results.filter (·.IsUnresolvable)).map ContrastResult.event := by
  unfold Logged.warnings
  by_cases h : doc.NamesColor
  · rw [events_lint_of_namesColor h, List.filter_append, warnings_results]
    simp [LintReport.summary, Event.severity]
  · rw [events_lint_of_not_namesColor h, value_lint, if_neg (declaresColor_iff.not.mpr h)]
    rfl

theorem warnings_lint
    {config : LintConfig} {css : String} {report : LintReport}
    (h : (lint config css).value = .ok report) :
    (lint config css).warnings =
      (report.results.filter (·.IsUnresolvable)).map ContrastResult.event := by
  obtain ⟨doc, hparse, rfl⟩ := exists_parse_of_lint h
  rw [← doc.warnings_lint config, Logged.warnings, events_lint_of_parse hparse h]
  rfl

theorem warnings_lintSource (config : LintConfig) (path css : String) :
    (lintSource config path css).warnings =
      (lintSource config path css).value.unresolvable.map ContrastResult.event := by
  unfold lintSource
  rw [Logged.warnings_bind]
  cases h : (lint config css).value with
  | error e =>
      rw [Logged.warnings, events_lint_of_error h]
      simp [Logged.warnings, h, Event.severity, FileReport.unresolvable]
  | ok report =>
      rw [warnings_lint h]
      simp [Logged.warnings, h, FileReport.unresolvable]

theorem warnings_scanStylesheet (config : LintConfig) (file : String × ByteArray) :
    (scanStylesheet config file).warnings =
      ((scanStylesheet config file).value.elim [] FileReport.unresolvable).map
        ContrastResult.event := by
  unfold scanStylesheet
  cases readFound file.1 file.2 with
  | error fault => simp [Logged.warnings, Event.severity]
  | ok css =>
      have hwarnings := warnings_lintSource config file.1 css
      simpa [Logged.warnings] using hwarnings

theorem warnings_mapM_scanStylesheet (config : LintConfig) (found : List (String × ByteArray)) :
    (found.mapM (scanStylesheet config)).warnings =
      (unresolvable ((found.mapM (scanStylesheet config)).value.filterMap id)).map
        ContrastResult.event := by
  rw [Logged.warnings_mapM, Logged.value_mapM]
  induction found with
  | nil => rfl
  | cons file found ih =>
      rw [List.flatMap_cons, ih, warnings_scanStylesheet, List.map_cons, List.filterMap_cons]
      cases (scanStylesheet config file).value with
      | none => rfl
      | some report => simp [unresolvable]

theorem warnings_scanDirectory (config : Config) (view : FileView) (root : String) :
    (scanDirectory config view root).warnings =
      (unresolvable (scanDirectory config view root).value).map ContrastResult.event := by
  unfold scanDirectory
  simp only [Logged.warnings_bind, Logged.value_bind, warnings_mapM_scanStylesheet]
  simp [Logged.warnings, Event.severity]

/-! ## Runs -/

/-- The events of linting a text. -/
structure LintTrace (config : LintConfig) (css : String) : Prop where
  refused : ∀ e, (lint config css).value = .error e → (lint config css).events = []
  uncolored : ∀ doc report, parse css = .ok doc → (lint config css).value = .ok report →
    ¬doc.NamesColor → ∃ event, (lint config css).events = [event] ∧ event.severity = .debug
  told : ∀ doc report, parse css = .ok doc → (lint config css).value = .ok report →
    doc.NamesColor →
      ∃ events summary, (lint config css).events = events ++ [summary] ∧
        List.Forall₂ Event.TellsOf events report.results ∧
        summary = .linted report.results.length report.evaluated.length report.allAccessible ∧
        summary.severity = .debug

theorem forall₂_tellsOf_map_event (results : List ContrastResult) :
    List.Forall₂ Event.TellsOf (results.map ContrastResult.event) results := by
  rw [List.forall₂_map_left_iff, List.forall₂_same]
  exact fun r _ => r.tellsOf_event

theorem lintTrace (config : LintConfig) (css : String) : LintTrace config css := by
  constructor
  case refused => exact fun _ h => events_lint_of_error h
  case uncolored =>
    intro doc report hparse h hcolor
    rw [events_lint_of_parse hparse h, Document.events_lint_of_not_namesColor hcolor]
    exact ⟨_, rfl, rfl⟩
  case told =>
    intro doc report hparse h hcolor
    rw [events_lint_of_parse hparse h, Document.events_lint_of_namesColor hcolor,
      ← eq_value_lint_of_parse hparse h]
    exact ⟨_, _, rfl, forall₂_tellsOf_map_event report.results, rfl, rfl⟩

/-- No rule is skipped without a word.  A text that is refused leaves no event, and one
without a declaration of a colour leaves one.  Any other leaves one event for each of its
results and then a summary.  The warnings of a scan are those of the results that it
returns, in their order. -/
theorem events_tell_of_results :
    (∀ config css, LintTrace config css) ∧
      ∀ config view root, List.Forall₂ Event.TellsOf
        ((scanDirectory config view root).events.filter (·.severity = .warn))
        (unresolvable (scanDirectory config view root).value) := by
  constructor
  · exact lintTrace
  · intro config view root
    have hwarnings := warnings_scanDirectory config view root
    rw [Logged.warnings] at hwarnings
    rw [hwarnings]
    exact forall₂_tellsOf_map_event _

end ContrastLint
