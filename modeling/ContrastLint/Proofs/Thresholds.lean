import ContrastLint.Proofs.LintAgreement

/-!
# What the threshold decides

Two configurations lint a text alike up to the grades.  They refuse the same
texts, and their reports have the same results but for whether a result passes.
If every ratio of the report that meets the second threshold meets the first,
then what fails under the first fails under the second.
-/

namespace ContrastLint

namespace ContrastResult

/-- A result without its grade. -/
def ungraded (r : ContrastResult) : ContrastResult :=
  { r with passes := false }

theorem passes_of_fails {r : ContrastResult} (h : r.fails = true) : r.passes = false := by
  unfold fails at h
  cases hpasses : r.passes with
  | false => rfl
  | true => simp [hpasses] at h

/-- Results that fail have the same grade. -/
theorem eq_of_ungraded
    {r s : ContrastResult} (h : r.ungraded = s.ungraded) (hr : r.fails = true)
    (hs : s.fails = true) : r = s := by
  have hpasses := (passes_of_fails hr).trans (passes_of_fails hs).symm
  cases r
  cases s
  simp_all [ungraded]

end ContrastResult

namespace Rule

variable {r : Rule Position} {threshold threshold' : Float}

theorem ungraded_evaluate (r : Rule Position) (threshold threshold' : Float) :
    (r.evaluate threshold).value.ungraded = (r.evaluate threshold').value.ungraded := by
  simp [evaluate, ContrastResult.ungraded]

theorem map_ungraded_results (rules : List (Rule Position)) (threshold threshold' : Float) :
    (results rules threshold).map ContrastResult.ungraded =
      (results rules threshold').map ContrastResult.ungraded := by
  rw [results, results, List.map_map, List.map_map]
  exact List.map_congr_left fun r _ => r.ungraded_evaluate threshold threshold'

/-- A rule whose ratio falls short of a threshold falls short of another one, if its
ratio meets the first wherever it meets the second. -/
theorem FallsShort.of_meets
    (h : r.FallsShort threshold)
    (hmeets : ∀ ratio, (r.evaluate threshold).value.contrast = .computed ratio →
      meets ratio threshold' = true → meets ratio threshold = true) :
    r.FallsShort threshold' := by
  rcases h with ⟨f, b, foreground, background, hf, hb, hcolor, hcolor', hshort⟩
  refine ⟨f, b, foreground, background, hf, hb, hcolor, hcolor', ?_⟩
  have hcontrast : (r.evaluate threshold).value.contrast =
      .computed (contrastRatio foreground background) :=
    contrast_eq_computed_iff.mpr ⟨f, b, foreground, background, hf, hb, hcolor, hcolor', rfl⟩
  rw [← Bool.not_eq_true] at hshort ⊢
  exact fun hmet => hshort (hmeets _ hcontrast hmet)

theorem sublist_fails_results
    {rules : List (Rule Position)}
    (h : ∀ r ∈ rules, r.FallsShort threshold → r.FallsShort threshold') :
    ((results rules threshold).filter (·.fails)).Sublist
      ((results rules threshold').filter (·.fails)) := by
  induction rules with
  | nil => exact .slnil
  | cons r rules ih =>
      rcases List.forall_mem_cons.mp h with ⟨hr, hmore⟩
      have hrest := ih hmore
      unfold results at hrest ⊢
      rw [List.map_cons, List.map_cons, List.filter_cons, List.filter_cons]
      split
      · next hfails =>
          have hfails' := fails_iff_fallsShort.mpr (hr (fails_iff_fallsShort.mp hfails))
          have hsame := ContrastResult.eq_of_ungraded
            (r.ungraded_evaluate threshold threshold') hfails hfails'
          rw [if_pos hfails', hsame]
          exact hrest.cons_cons _
      · split
        · exact hrest.cons _
        · exact hrest

end Rule

/-! ## Reports -/

/-- A second report differs from the first in the grades of its results at most. -/
structure LintReport.Regraded (report other : LintReport) : Prop where
  hasAnyColor : report.hasAnyColor = other.hasAnyColor
  results : report.results.map ContrastResult.ungraded = other.results.map ContrastResult.ungraded

/-- Whatever fails the first report fails the second as well. -/
structure LintReport.MoreLenient (report other : LintReport) : Prop where
  failures : report.failures.Sublist other.failures
  allAccessible : other.allAccessible = true → report.allAccessible = true

namespace Document

variable {doc : Document Position} {config config' : LintConfig}

theorem regraded_lint (doc : Document Position) (config config' : LintConfig) :
    (doc.lint config).value.Regraded (doc.lint config').value := by
  rw [value_lint, value_lint]
  cases doc.declaresColor with
  | false => exact ⟨rfl, rfl⟩
  | true => exact ⟨rfl, Rule.map_ungraded_results _ _ _⟩

theorem moreLenient_lint
    (h : ∀ result ∈ (doc.lint config).value.results, ∀ ratio, result.contrast = .computed ratio →
      meets ratio config'.threshold = true → meets ratio config.threshold = true) :
    (doc.lint config).value.MoreLenient (doc.lint config').value := by
  rw [value_lint] at h ⊢
  rw [value_lint]
  cases hcolor : doc.declaresColor with
  | false =>
      constructor
      case failures => exact .refl _
      case allAccessible => exact fun _ => rfl
  | true =>
      simp only [hcolor, if_true] at h
      have hrules : ∀ r ∈ doc.pruned.rules,
          r.FallsShort config.threshold → r.FallsShort config'.threshold := by
        intro r hr hshort
        exact hshort.of_meets (h _ (List.mem_map_of_mem hr))
      have hsublist := Rule.sublist_fails_results hrules
      constructor
      case failures => exact hsublist
      case allAccessible =>
        simp only [if_true, Bool.not_eq_true', ← Bool.not_eq_true, List.any_eq_true, not_exists,
          not_and]
        intro hnone result hresult hfails
        have hmem := hsublist.subset (List.mem_filter.mpr ⟨hresult, hfails⟩)
        exact hnone result (List.mem_filter.mp hmem).1 hfails

end Document

/-- Two configurations refuse a text with the same error, or their reports differ in
the grades alone.  If the first threshold asks no more of any computed ratio than
the second, the failures of the first report are among those of the second. -/
theorem lint_regraded (css : String) (config config' : LintConfig) :
    (∃ e, (lint config css).value = .error e ∧ (lint config' css).value = .error e) ∨
    ∃ report other,
      (lint config css).value = .ok report ∧ (lint config' css).value = .ok other ∧
      report.Regraded other ∧
      ((∀ result ∈ report.results, ∀ ratio, result.contrast = .computed ratio →
          meets ratio config'.threshold = true → meets ratio config.threshold = true) →
        report.MoreLenient other) := by
  by_cases hempty : Text.trim css.toList = []
  · exact .inl ⟨.emptyInput, value_lint_of_white config hempty, value_lint_of_white config' hempty⟩
  · cases hparse : parse css with
    | error e =>
        exact .inl ⟨.unreadable e, value_lint_of_error config hempty hparse,
          value_lint_of_error config' hempty hparse⟩
    | ok doc =>
        exact .inr ⟨_, _, value_lint_of_parse config hempty hparse,
          value_lint_of_parse config' hempty hparse, doc.regraded_lint config config',
          Document.moreLenient_lint⟩

/-- Whether the ratios that meet one threshold meet another can be checked result by
result. -/
theorem LintReport.meets_of_all
    {report : LintReport} {threshold threshold' : Float}
    (h : report.results.all fun result =>
      result.contrast.ratio?.all fun ratio => !meets ratio threshold' || meets ratio threshold) :
    ∀ result ∈ report.results, ∀ ratio, result.contrast = .computed ratio →
      meets ratio threshold' = true → meets ratio threshold = true := by
  intro result hresult ratio hratio hmeets
  have hone := List.all_eq_true.mp h result hresult
  simpa [hratio, Contrast.ratio?, hmeets] using hone

/-- The case of a threshold between the ratios of two rules, both of which the default
threshold fails. -/
theorem lint_regraded_between :
    ∃ css config doc,
      css = "p\x7bcolor:#000;background:#000\x7dq\x7bcolor:#0a0a0a;background:#000\x7d" ∧
      config = { minRatio := some 1.03 } ∧ parse css = .ok doc ∧
      ∃ report other,
        (lint config css).value = .ok report ∧ (lint {} css).value = .ok other ∧
        report.Regraded other ∧
        (∀ result ∈ report.results, ∀ ratio, result.contrast = .computed ratio →
          meets ratio ({} : LintConfig).threshold = true → meets ratio config.threshold = true) ∧
        report.MoreLenient other ∧
        report.failures.map (·.selector) = ["p"] ∧ other.failures.map (·.selector) = ["p", "q"] := by
  have hparse :
      parse "p\x7bcolor:#000;background:#000\x7dq\x7bcolor:#0a0a0a;background:#000\x7d" =
        .ok ⟨[.rule ⟨"p", [⟨⟨"color", "#000", false⟩, ⟨2, 1, 3⟩⟩,
            ⟨⟨"background", "#000", false⟩, ⟨13, 1, 14⟩⟩], ⟨0, 1, 1⟩⟩,
          .rule ⟨"q", [⟨⟨"color", "#0a0a0a", false⟩, ⟨31, 1, 32⟩⟩,
            ⟨⟨"background", "#000", false⟩, ⟨45, 1, 46⟩⟩], ⟨29, 1, 30⟩⟩]⟩ := by
    decide +kernel
  have hne : Text.trim
      "p\x7bcolor:#000;background:#000\x7dq\x7bcolor:#0a0a0a;background:#000\x7d".toList ≠ [] := by
    decide +kernel
  have hreport := value_lint_of_parse { minRatio := some 1.03 } hne hparse
  have hother := value_lint_of_parse {} hne hparse
  refine ⟨_, _, _, rfl, rfl, hparse, _, _, hreport, hother, ?_⟩
  rcases lint_regraded "p\x7bcolor:#000;background:#000\x7dq\x7bcolor:#0a0a0a;background:#000\x7d"
    { minRatio := some 1.03 } {} with ⟨e, herror, -⟩ | ⟨_, _, hreport', hother', hregraded, hlenient⟩
  · rw [hreport] at herror
    contradiction
  · cases hreport.symm.trans hreport'
    cases hother.symm.trans hother'
    refine ⟨hregraded, ?meets, hlenient ?meets, by decide +kernel, by decide +kernel⟩
    exact LintReport.meets_of_all (by decide +kernel)

end ContrastLint
