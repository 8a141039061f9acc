import ContrastLint.Lint.Evaluate
import ContrastLint.Proofs.Slots

/-!
# The linter against the plain pipeline

The linter prunes a document before it measures rules, and it measures none if
no declaration is named `color` or `background`.  The plain pipeline does
neither: it measures every rule of the document as it was read.  This file
proves that the two have the same verdict, the same failures and, where the
linter measures at all, the same results in the same order.

`Document.NaiveReport` states the plain pipeline through the last declarations
of a rule and does not mention pruning or slots.
-/

namespace ContrastLint

/-! ## Results with their events -/

instance : LawfulMonad Logged :=
  LawfulMonad.mk' Logged
    (fun x => by
      rcases x with ⟨value, events⟩
      simp [Functor.map])
    (fun a f => by simp [bind, pure])
    (fun x f g => by simp [bind, List.append_assoc])

@[simp] theorem Logged.value_map {α β : Type} (f : α → β) (x : Logged α) :
    (f <$> x).value = f x.value := rfl

theorem Logged.value_mapM {α β : Type} (f : α → Logged β) (as : List α) :
    (as.mapM f).value = as.map fun a => (f a).value := by
  induction as with
  | nil => rfl
  | cons a as ih =>
      rw [List.mapM_cons]
      simp only [value_bind, value_pure, ih, List.map_cons]

theorem ContrastResult.isEvaluated_iff {r : ContrastResult} :
    r.isEvaluated = true ↔ ∃ ratio, r.contrast = .computed ratio := by
  unfold isEvaluated
  cases r.contrast <;> simp [Contrast.isComputed]

/-! ## Measuring one rule -/

section Measure

variable {Place : Type} {ratio threshold : Float}

theorem resolveSlot_eq_ok_some_iff
    {slot : Option (Declaration Place)} {color : Rgb} :
    resolveSlot slot = .ok (some color) ↔
      ∃ d, slot = some d ∧ Rgb.resolve d.value = .ok color := by
  cases slot with
  | none => simp [resolveSlot]
  | some d => cases hd : Rgb.resolve d.value <;> simp [resolveSlot, hd]

theorem slotColor?_resolveSlot (slot : Option (Declaration Place)) :
    slotColor? (resolveSlot slot) = slot.bind fun d => Rgb.ofText? d.value.toList := by
  cases slot with
  | none => rfl
  | some d =>
      rw [resolveSlot, Rgb.resolve, Option.bind_some]
      cases Rgb.ofText? d.value.toList <;> rfl

theorem Contrast.ofSlots_eq_computed_iff
    {foreground background : Except SkipReason (Option Rgb)} :
    ofSlots foreground background = .computed ratio ↔
      ∃ f b, foreground = .ok (some f) ∧ background = .ok (some b) ∧
        ratio = contrastRatio f b := by
  unfold ofSlots
  split
  · simp
  · simp
  · simp
  · simp
  · next f b =>
      constructor
      · intro h
        cases h
        exact ⟨f, b, rfl, rfl, rfl⟩
      · intro h
        rcases h with ⟨f, b, hf, hb, rfl⟩
        cases hf
        cases hb
        rfl

theorem Rule.contrast_eq_computed_iff {r : Rule Position} :
    (r.evaluate threshold).value.contrast = .computed ratio ↔
      ∃ f b foreground background,
        r.lastForeground? = some f ∧ r.lastBackground? = some b ∧
        Rgb.resolve f.value = .ok foreground ∧ Rgb.resolve b.value = .ok background ∧
        ratio = contrastRatio foreground background := by
  have hcontrast : (r.evaluate threshold).value.contrast =
      Contrast.ofSlots (resolveSlot r.slots.foreground) (resolveSlot r.slots.background) := rfl
  rw [hcontrast, Contrast.ofSlots_eq_computed_iff, r.slots_eq]
  constructor
  · intro h
    rcases h with ⟨foreground, background, hforeground, hbackground, rfl⟩
    rcases resolveSlot_eq_ok_some_iff.mp hforeground with ⟨f, hf, hcolor⟩
    rcases resolveSlot_eq_ok_some_iff.mp hbackground with ⟨b, hb, hcolor'⟩
    exact ⟨f, b, foreground, background, hf, hb, hcolor, hcolor', rfl⟩
  · intro h
    rcases h with ⟨f, b, foreground, background, hf, hb, hcolor, hcolor', rfl⟩
    exact ⟨foreground, background, resolveSlot_eq_ok_some_iff.mpr ⟨f, hf, hcolor⟩,
      resolveSlot_eq_ok_some_iff.mpr ⟨b, hb, hcolor'⟩, rfl⟩

/-- The last declarations of both slots of a rule resolve to colours whose
contrast does not meet the threshold. -/
def Rule.FallsShort (r : Rule Place) (threshold : Float) : Prop :=
  ∃ f b foreground background,
    r.lastForeground? = some f ∧ r.lastBackground? = some b ∧
    Rgb.resolve f.value = .ok foreground ∧ Rgb.resolve b.value = .ok background ∧
    meets (contrastRatio foreground background) threshold = false

theorem Rule.fails_iff_fallsShort {r : Rule Position} :
    (r.evaluate threshold).value.fails = true ↔ r.FallsShort threshold := by
  have hpasses : (r.evaluate threshold).value.passes =
      (r.evaluate threshold).value.contrast.passes threshold := rfl
  unfold ContrastResult.fails ContrastResult.isEvaluated
  rw [hpasses]
  constructor
  · intro h
    cases hcontrast : (r.evaluate threshold).value.contrast with
    | notComputable reason => simp [hcontrast, Contrast.isComputed] at h
    | computed ratio =>
        obtain ⟨f, b, foreground, background, hf, hb, hcolor, hcolor', rfl⟩ :=
          contrast_eq_computed_iff.mp hcontrast
        have hmeets : meets (contrastRatio foreground background) threshold = false := by
          simpa [hcontrast, Contrast.isComputed, Contrast.passes] using h
        exact ⟨f, b, foreground, background, hf, hb, hcolor, hcolor', hmeets⟩
  · intro h
    rcases h with ⟨f, b, foreground, background, hf, hb, hcolor, hcolor', hmeets⟩
    have hcontrast : (r.evaluate threshold).value.contrast =
        .computed (contrastRatio foreground background) :=
      contrast_eq_computed_iff.mpr ⟨f, b, foreground, background, hf, hb, hcolor, hcolor', rfl⟩
    simp [hcontrast, Contrast.isComputed, Contrast.passes, hmeets]

instance (r : Rule Position) (threshold : Float) : Decidable (r.FallsShort threshold) :=
  decidable_of_iff _ Rule.fails_iff_fallsShort

theorem Rule.evaluate_of_pruned?
    {r pruned : Rule Position} (h : r.pruned? = some pruned) :
    (pruned.evaluate threshold).value = (r.evaluate threshold).value := by
  rcases Rule.slots_of_pruned? h with ⟨hslots, hselector, hplace⟩
  simp [evaluate, hslots, hselector, hplace]

def Rule.FillsSlot (r : Rule Place) : Prop :=
  ∃ d ∈ r.declarations, d.setsForeground = true ∨ d.setsBackground = true

instance (r : Rule Place) : Decidable r.FillsSlot :=
  inferInstanceAs (Decidable (∃ d ∈ r.declarations, _))

theorem Rule.pruned?_isSome_iff {r : Rule Place} :
    r.pruned?.isSome = true ↔ r.FillsSlot := by
  rw [Option.isSome_iff_ne_none, ne_eq, pruned?_eq_none_iff, lastForeground?, lastBackground?]
  simp only [List.find?_eq_none, List.mem_reverse, FillsSlot]
  constructor
  · intro h
    by_contra hnone
    push Not at hnone
    exact h ⟨fun d hd => (hnone d hd).1, fun d hd => (hnone d hd).2⟩
  · rintro ⟨d, hd, hfills⟩ ⟨hforeground, hbackground⟩
    rcases hfills with hfills | hfills
    · exact hforeground d hd hfills
    · exact hbackground d hd hfills

theorem Rule.mem_of_lastForeground?
    {r : Rule Place} {d : Declaration Place} (h : r.lastForeground? = some d) :
    d ∈ r.declarations ∧ d.setsForeground = true := by
  unfold lastForeground? at h
  have hmem : d ∈ r.declarations := by
    simpa using List.mem_of_find?_eq_some h
  have hfills := List.find?_some h
  exact ⟨hmem, hfills⟩

theorem Rule.FallsShort.fillsSlot
    {r : Rule Place} (h : r.FallsShort threshold) : r.FillsSlot := by
  rcases h with ⟨f, b, foreground, background, hf, hb, hcolor, hcolor', hmeets⟩
  rcases mem_of_lastForeground? hf with ⟨hmem, hfills⟩
  exact ⟨f, hmem, .inl hfills⟩

end Measure

/-! ## Measuring a document -/

section Report

variable {config : LintConfig} {doc : Document Position}

/-- Some declaration of the document, at root level or in a rule, is named
`color` or `background`. -/
def Document.NamesColor (doc : Document Position) : Prop :=
  ∃ d ∈ doc.declarations, d.isNamed "color" = true ∨ d.isNamed "background" = true

def Rule.results (rules : List (Rule Position)) (threshold : Float) : List ContrastResult :=
  rules.map fun r => (r.evaluate threshold).value

/-- What the plain pipeline says of a document.  No field mentions pruning. -/
structure Document.NaiveReport
    (doc : Document Position) (config : LintConfig) (report : LintReport) : Prop where
  threshold : report.threshold = config.threshold
  level : report.level = config.level
  inaccessible :
    report.allAccessible = false ↔ ∃ r ∈ doc.rules, r.FallsShort config.threshold
  failures :
    report.failures =
      Rule.results (doc.rules.filter (·.FallsShort config.threshold)) config.threshold
  measured :
    doc.NamesColor →
      report.hasAnyColor = true ∧
      report.results = Rule.results (doc.rules.filter (·.FillsSlot)) config.threshold
  unmeasured :
    ¬doc.NamesColor →
      report.status = .noColorFound ∧ report.results = [] ∧
      ∀ r ∈ doc.rules, ∀ ratio, (r.evaluate config.threshold).value.contrast ≠ .computed ratio

theorem LintReport.status_eq_noColorFound_iff {report : LintReport} :
    report.status = .noColorFound ↔ report.hasAnyColor = false := by
  unfold status
  cases report.hasAnyColor <;> cases report.allAccessible <;> simp

theorem Document.declaresColor_iff : doc.declaresColor = true ↔ doc.NamesColor := by
  simp [declaresColor, NamesColor]

theorem Document.rules_pruned
    {Place : Type} {doc : Document Place} :
    doc.pruned.rules = doc.rules.filterMap Rule.pruned? := by
  have hrule : ∀ r : Rule Place, ((r.pruned?).map Node.rule).bind Node.rule? = r.pruned? := by
    intro r
    cases r.pruned? <;> rfl
  change (doc.rules.filterMap fun r => (r.pruned?).map Node.rule).filterMap Node.rule? = _
  rw [List.filterMap_filterMap]
  simp only [hrule]

/-- The results of what pruning leaves are those of the unpruned rules that
fill a slot. -/
theorem Rule.results_filterMap_pruned? (rules : List (Rule Position)) (threshold : Float) :
    results (rules.filterMap pruned?) threshold =
      results (rules.filter (·.FillsSlot)) threshold := by
  induction rules with
  | nil => rfl
  | cons r rules ih =>
      unfold results at ih ⊢
      cases hpruned : r.pruned? with
      | none =>
          have hempty : ¬r.FillsSlot := by simp [← pruned?_isSome_iff, hpruned]
          simp [hpruned, hempty, ih]
      | some pruned =>
          have hfills : r.FillsSlot := by simp [← pruned?_isSome_iff, hpruned]
          simp [hpruned, hfills, ih, evaluate_of_pruned? hpruned]

theorem Rule.filter_fails_results (rules : List (Rule Position)) (threshold : Float) :
    (results (rules.filter (·.FillsSlot)) threshold).filter (·.fails) =
      results (rules.filter (·.FallsShort threshold)) threshold := by
  induction rules with
  | nil => rfl
  | cons r rules ih =>
      unfold results at ih ⊢
      by_cases hshort : r.FallsShort threshold
      · have hfails := fails_iff_fallsShort.mpr hshort
        simp [hshort, hshort.fillsSlot, hfails, ih]
      · have hfails : (r.evaluate threshold).value.fails = false := by
          rw [← Bool.not_eq_true, fails_iff_fallsShort]
          exact hshort
        by_cases hfills : r.FillsSlot
        · simp [hshort, hfills, hfails, ih]
        · simp [hshort, hfills, ih]

theorem Document.results_pruned (doc : Document Position) (threshold : Float) :
    Rule.results doc.pruned.rules threshold =
      Rule.results (doc.rules.filter (·.FillsSlot)) threshold := by
  rw [rules_pruned, Rule.results_filterMap_pruned?]

theorem Document.filter_fails_results_pruned (doc : Document Position) (threshold : Float) :
    (Rule.results doc.pruned.rules threshold).filter (·.fails) =
      Rule.results (doc.rules.filter (·.FallsShort threshold)) threshold := by
  rw [results_pruned, Rule.filter_fails_results]

theorem Document.any_fails_results_pruned (doc : Document Position) (threshold : Float) :
    (Rule.results doc.pruned.rules threshold).any (·.fails) = true ↔
      ∃ r ∈ doc.rules, r.FallsShort threshold := by
  have hfilter : (Rule.results doc.pruned.rules threshold).any (·.fails) = true ↔
      (Rule.results doc.pruned.rules threshold).filter (·.fails) ≠ [] := by
    simp [List.filter_eq_nil_iff]
  rw [hfilter, filter_fails_results_pruned]
  simp [Rule.results, List.filter_eq_nil_iff]

theorem Document.namesColor_of_computed
    {r : Rule Position} {threshold ratio : Float}
    (hr : r ∈ doc.rules)
    (hcontrast : (r.evaluate threshold).value.contrast = .computed ratio) :
    doc.NamesColor := by
  rcases Rule.contrast_eq_computed_iff.mp hcontrast with ⟨f, b, foreground, background, hf, -⟩
  rcases Rule.mem_of_lastForeground? hf with ⟨hmem, hnamed⟩
  have hdoc : f ∈ doc.declarations :=
    List.mem_flatMap.mpr ⟨.rule r, mem_rules_iff.mp hr, hmem⟩
  exact ⟨f, hdoc, .inl hnamed⟩

theorem Document.namesColor_of_fallsShort
    {r : Rule Position} {threshold : Float}
    (hr : r ∈ doc.rules) (hshort : r.FallsShort threshold) : doc.NamesColor := by
  rcases hshort with ⟨f, b, foreground, background, hf, hb, hcolor, hcolor', -⟩
  have hcontrast : (r.evaluate threshold).value.contrast =
      .computed (contrastRatio foreground background) :=
    Rule.contrast_eq_computed_iff.mpr ⟨f, b, foreground, background, hf, hb, hcolor, hcolor', rfl⟩
  exact namesColor_of_computed hr hcontrast

theorem Document.value_lint (doc : Document Position) (config : LintConfig) :
    (doc.lint config).value =
      if doc.declaresColor then
        let results := Rule.results doc.pruned.rules config.threshold
        { results, hasAnyColor := true, allAccessible := !results.any (·.fails),
          threshold := config.threshold, level := config.level }
      else
        { results := [], hasAnyColor := false, allAccessible := true,
          threshold := config.threshold, level := config.level } := by
  unfold lint
  cases doc.declaresColor with
  | false => rfl
  | true => simp [Logged.value_mapM, Rule.results]

theorem Document.naiveReport_lint (doc : Document Position) (config : LintConfig) :
    doc.NaiveReport config (doc.lint config).value := by
  rw [value_lint]
  by_cases hnames : doc.NamesColor
  · have hany := doc.any_fails_results_pruned config.threshold
    rw [if_pos (declaresColor_iff.mpr hnames)]
    constructor
    case threshold => rfl
    case level => rfl
    case inaccessible => simpa using hany
    case failures => exact doc.filter_fails_results_pruned config.threshold
    case measured => exact fun _ => ⟨rfl, doc.results_pruned config.threshold⟩
    case unmeasured => exact fun hnot => absurd hnames hnot
  · have hnone : ∀ r ∈ doc.rules, ¬r.FallsShort config.threshold :=
      fun r hr hshort => hnames (namesColor_of_fallsShort hr hshort)
    rw [if_neg (declaresColor_iff.not.mpr hnames)]
    constructor
    case threshold => rfl
    case level => rfl
    case inaccessible => simpa using hnone
    case failures =>
      rw [List.filter_eq_nil_iff.mpr (by simpa using hnone)]
      rfl
    case measured => exact fun hyes => absurd hyes hnames
    case unmeasured =>
      intro _
      refine ⟨rfl, rfl, ?_⟩
      intro r hr ratio hcontrast
      exact hnames (namesColor_of_computed hr hcontrast)

theorem Document.NaiveReport.unique
    {report other : LintReport}
    (h : doc.NaiveReport config report) (hother : doc.NaiveReport config other) :
    report = other := by
  have haccessible : report.allAccessible = other.allAccessible := by
    have hiff := h.inaccessible.trans hother.inaccessible.symm
    cases hr : report.allAccessible <;> cases ho : other.allAccessible <;> simp_all
  have hresults : report.results = other.results ∧ report.hasAnyColor = other.hasAnyColor := by
    by_cases hnames : doc.NamesColor
    · rcases h.measured hnames with ⟨hany, hresults⟩
      rcases hother.measured hnames with ⟨hany', hresults'⟩
      exact ⟨hresults.trans hresults'.symm, hany.trans hany'.symm⟩
    · rcases h.unmeasured hnames with ⟨hstatus, hresults, -⟩
      rcases hother.unmeasured hnames with ⟨hstatus', hresults', -⟩
      refine ⟨hresults.trans hresults'.symm, ?_⟩
      rw [LintReport.status_eq_noColorFound_iff] at hstatus hstatus'
      exact hstatus.trans hstatus'.symm
  have hthreshold := h.threshold.trans hother.threshold.symm
  have hlevel := h.level.trans hother.level.symm
  cases report
  cases other
  simp_all

theorem value_lint_of_white
    {css : String} (config : LintConfig) (h : Text.trim css.toList = []) :
    (lint config css).value = .error .emptyInput := by
  simp [lint, h]

theorem value_lint_of_error
    {css : String} {e : ParseError} (config : LintConfig) (hne : Text.trim css.toList ≠ [])
    (h : parse css = .error e) : (lint config css).value = .error (.unreadable e) := by
  simp [lint, hne, h]

theorem value_lint_of_parse
    {css : String} (config : LintConfig) (hne : Text.trim css.toList ≠ [])
    (h : parse css = .ok doc) : (lint config css).value = .ok (doc.lint config).value := by
  simp [lint, hne, h]

theorem eq_value_lint_of_parse
    {css : String} {report : LintReport} (h : parse css = .ok doc)
    (hreport : (lint config css).value = .ok report) : report = (doc.lint config).value := by
  by_cases hempty : Text.trim css.toList = []
  · rw [value_lint_of_white config hempty] at hreport
    contradiction
  · rw [value_lint_of_parse config hempty h] at hreport
    exact (Except.ok.inj hreport).symm

theorem exists_parse_of_lint
    {css : String} {report : LintReport} (h : (lint config css).value = .ok report) :
    ∃ doc, parse css = .ok doc ∧ report = (doc.lint config).value := by
  cases hparse : parse css with
  | ok doc => exact ⟨doc, rfl, eq_value_lint_of_parse hparse h⟩
  | error e =>
      by_cases hempty : Text.trim css.toList = []
      · rw [value_lint_of_white config hempty] at h
        contradiction
      · rw [value_lint_of_error config hempty hparse] at h
        contradiction

/-- Linting a text agrees with the plain pipeline: a text of white space alone
is refused, any other text that is not a stylesheet is refused with the error
of the parser, and the report of a stylesheet is the one that measures every
rule as it was read. -/
theorem lint_agrees (config : LintConfig) (css : String) :
    ((lint config css).value = .error .emptyInput ↔ Text.trim css.toList = []) ∧
    (∀ e, (lint config css).value = .error (.unreadable e) ↔
      Text.trim css.toList ≠ [] ∧ parse css = .error e) ∧
    ∀ report, (lint config css).value = .ok report ↔
      Text.trim css.toList ≠ [] ∧
      ∃ doc, parse css = .ok doc ∧ doc.NaiveReport config report := by
  by_cases hempty : Text.trim css.toList = []
  · rw [value_lint_of_white config hempty]
    simp [hempty]
  · cases hparse : parse css with
    | error fault =>
        rw [value_lint_of_error config hempty hparse]
        simp [hempty]
    | ok doc =>
        rw [value_lint_of_parse config hempty hparse]
        refine ⟨by simp [hempty], by simp, ?_⟩
        intro report
        constructor
        · intro h
          cases h
          exact ⟨hempty, doc, rfl, doc.naiveReport_lint config⟩
        · intro h
          rcases h with ⟨-, doc', hdoc, hreport⟩
          cases hdoc
          rw [(doc.naiveReport_lint config).unique hreport]

end Report

end ContrastLint
