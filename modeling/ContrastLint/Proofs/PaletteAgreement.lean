import ContrastLint.Proofs.Evaluation
import ContrastLint.Proofs.Palettes

/-!
# Palettes and results of the linter

A palette shows the raw values of a document as it was read, by selector.  The
linter prunes the document, takes the slots of every rule that is left and
resolves their values.  Where no two rules that declare a colour have the same
selector, both tell of the same colours: every result has an entry with its
selector, and each colour of the result is what a value of the entry stands for.
-/

namespace ContrastLint

/-- What a pair of raw values tells of a result. -/
structure ColorPair.Explains (pair : ColorPair) (result : ContrastResult) : Prop where
  foreground : ∀ color, result.foreground = some color ↔
    ∃ value, pair.foreground = some value ∧ Rgb.resolve value = .ok color
  background : ∀ color, result.background = some color ↔
    ∃ value, pair.background = some value ∧ Rgb.resolve value = .ok color
  missingForeground : result.contrast = .notComputable .missingForeground → pair.foreground = none
  missingBackground : result.contrast = .notComputable .missingBackground → pair.background = none
  unresolvable : ∀ property value,
    result.contrast = .notComputable (.unresolvable property value) →
    pair.foreground = some value ∨ pair.background = some value

/-- A palette and a list of results are about the same selectors, and the palette
explains the results.  There is no palette if there is no result. -/
structure Palette.Explains (palette? : Option Palette) (results : List ContrastResult) : Prop where
  none : palette? = none ↔ results = []
  selectors : ∀ palette, palette? = some palette →
    ∀ selector, selector ∈ palette.selectors ↔ selector ∈ results.map (·.selector)
  pairs : ∀ palette, palette? = some palette →
    ∀ result ∈ results, ∃ pair, palette.get? result.selector = some pair ∧ pair.Explains result

/-! ## One rule -/

namespace Rule

variable {r : Rule Position} {threshold : Float}

theorem foreground_ofSlots (r : Rule Position) :
    (ColorPair.ofSlots r.slots).foreground = r.lastForeground?.map (·.value) := by
  rw [slots_eq, ColorPair.ofSlots]

theorem background_ofSlots (r : Rule Position) :
    (ColorPair.ofSlots r.slots).background = r.lastBackground?.map (·.value) := by
  rw [slots_eq, ColorPair.ofSlots]

theorem contrast_eq_notComputable_iff {reason : SkipReason} :
    (r.evaluate threshold).value.contrast = .notComputable reason ↔ r.Skips reason := by
  rw [← ofSlots_eq_notComputable_iff_skips]
  simp [evaluate, slots_eq]

theorem explains_evaluate (r : Rule Position) (threshold : Float) :
    (ColorPair.ofSlots r.slots).Explains (r.evaluate threshold).value := by
  constructor
  case foreground =>
    intro color
    rw [foreground_evaluate_eq_some_iff, foreground_ofSlots]
    simp
  case background =>
    intro color
    rw [background_evaluate_eq_some_iff, background_ofSlots]
    simp
  case missingForeground =>
    intro h
    cases contrast_eq_notComputable_iff.mp h with
    | missingForeground hnone =>
        rw [foreground_ofSlots, lastForeground?_eq_none_iff.mpr hnone, Option.map_none]
  case missingBackground =>
    intro h
    cases contrast_eq_notComputable_iff.mp h with
    | missingBackground hnone =>
        rw [background_ofSlots, lastBackground?_eq_none_iff.mpr hnone, Option.map_none]
  case unresolvable =>
    intro property value h
    cases contrast_eq_notComputable_iff.mp h with
    | foreground hd => exact .inl (by rw [foreground_ofSlots, hd, Option.map_some])
    | background hd => exact .inr (by rw [background_ofSlots, hd, Option.map_some])

end Rule

/-! ## Rules with distinct selectors -/

section Distinct

variable {rules : List (Rule Position)} {r : Rule Position}

theorem Rule.filter_selector_eq
    (hdistinct : (rules.map (·.selector)).Nodup) (hr : r ∈ rules) :
    rules.filter (·.selector = r.selector) = [r] := by
  induction rules with
  | nil => contradiction
  | cons first rules ih =>
      obtain ⟨hnew, hrest⟩ := List.nodup_cons.mp hdistinct
      rcases List.mem_cons.mp hr with rfl | hmem
      · have hnone : rules.filter (·.selector = r.selector) = [] := by
          rw [List.filter_eq_nil_iff]
          intro s hs hsame
          exact hnew (List.mem_map.mpr ⟨s, hs, by simpa using hsame⟩)
        simp [hnone]
      · have hother : first.selector ≠ r.selector :=
          fun hsame => hnew (List.mem_map.mpr ⟨r, hmem, hsame.symm⟩)
        simp [hother, ih hrest hmem]

/-- A rule whose selector no other rule has fills the entry alone. -/
theorem Palette.get?_ofRules_of_distinct
    (hdistinct : (rules.map (·.selector)).Nodup) (hr : r ∈ rules) (hcolor : r.DeclaresColor) :
    (ofRules rules).get? r.selector = some (.ofSlots r.slots) := by
  have hgather : (Rule.gather rules r.selector r.place).declarations = r.declarations := by
    simp [Rule.gather, Rule.filter_selector_eq hdistinct hr]
  rw [get?_ofRules rules r.selector r.place, Rule.slots, hgather]
  exact Rule.pair?_of_declaresColor hcolor

theorem Palette.explains_results
    (threshold : Float) (hcolors : ∀ r ∈ rules, r.DeclaresColor)
    (hdistinct : (rules.map (·.selector)).Nodup) :
    Explains (ofRules rules).nonempty? (Rule.results rules threshold) := by
  have hselectors : (Rule.results rules threshold).map (·.selector) = rules.map (·.selector) := by
    rw [Rule.results, List.map_map]
    rfl
  constructor
  case none =>
    rw [nonempty?_eq_none_iff, entries_ofRules_eq_nil_iff, Rule.results, List.map_eq_nil_iff,
      List.eq_nil_iff_forall_not_mem]
    exact ⟨fun h r hr => h r hr (hcolors r hr), fun h r hr => absurd hr (h r)⟩
  case selectors =>
    intro palette hpalette selector
    obtain rfl := eq_of_nonempty?_eq_some hpalette
    rw [mem_selectors_ofRules_iff, hselectors, List.mem_map]
    constructor
    · rintro ⟨r, hr, hselector, -⟩
      exact ⟨r, hr, hselector⟩
    · rintro ⟨r, hr, hselector⟩
      exact ⟨r, hr, hselector, hcolors r hr⟩
  case pairs =>
    intro palette hpalette result hresult
    obtain rfl := eq_of_nonempty?_eq_some hpalette
    obtain ⟨r, hr, rfl⟩ := List.mem_map.mp hresult
    exact ⟨_, get?_ofRules_of_distinct hdistinct hr (hcolors r hr), r.explains_evaluate threshold⟩

end Distinct

/-! ## Stylesheets -/

theorem Document.rules_pruned_eq {Place : Type} (doc : Document Place) :
    doc.pruned.rules = (doc.rules.filter (·.DeclaresColor)).map Rule.colored := by
  rw [rules, nodes_pruned, List.filterMap_map, ← List.filterMap_eq_map]
  rfl

theorem Document.results_lint_of_hasAnyColor
    {doc : Document Position} {config : LintConfig}
    (h : (doc.lint config).value.hasAnyColor = true) :
    (doc.lint config).value.results = Rule.results doc.pruned.rules config.threshold := by
  rw [value_lint] at h ⊢
  cases hcolor : doc.declaresColor with
  | false => simp [hcolor] at h
  | true => rfl

theorem Document.explains_lint
    {doc : Document Position} {config : LintConfig}
    (hcolor : (doc.lint config).value.hasAnyColor = true)
    (hdistinct : ((doc.rules.filter (·.DeclaresColor)).map (·.selector)).Nodup) :
    Palette.Explains doc.palette? (doc.lint config).value.results := by
  have hcolors : ∀ r ∈ doc.pruned.rules, r.DeclaresColor := by
    intro r hr
    rw [rules_pruned_eq] at hr
    obtain ⟨s, hs, rfl⟩ := List.mem_map.mp hr
    exact Rule.declaresColor_colored_iff.mpr (by simpa using (List.mem_filter.mp hs).2)
  have hselectors : doc.pruned.rules.map (·.selector) =
      (doc.rules.filter (·.DeclaresColor)).map (·.selector) := by
    rw [rules_pruned_eq, List.map_map]
    rfl
  rw [results_lint_of_hasAnyColor hcolor, ← palette?_pruned, palette?_eq]
  exact Palette.explains_results config.threshold hcolors (hselectors ▸ hdistinct)

/-- The palette of a stylesheet and the report of the linter agree wherever the
linter finds a colour and no two rules that declare one have the same selector. -/
theorem exists_palette?_explains
    {css : String} {config : LintConfig} {report : LintReport}
    (hreport : (lint config css).value = .ok report) (hcolor : report.hasAnyColor = true) :
    ∃ doc, parse css = .ok doc ∧
      (((doc.rules.filter (·.DeclaresColor)).map (·.selector)).Nodup →
        Palette.Explains doc.palette? report.results) := by
  obtain ⟨doc, hparse, rfl⟩ := exists_parse_of_lint hreport
  exact ⟨doc, hparse, Document.explains_lint hcolor⟩

/-- The case of a value that is no colour, a slot that nothing fills, and a rule without
colours that has the selector of another one. -/
theorem exists_palette?_explains_unresolvable :
    ∃ css report,
      css = "a\x7bcolor:#000;background:#fff\x7db\x7bcolor:red\x7da\x7bmargin:0\x7d" ∧
      (lint {} css).value = .ok report ∧ report.hasAnyColor = true ∧
      ∃ doc, parse css = .ok doc ∧
        ((doc.rules.filter (·.DeclaresColor)).map (·.selector)).Nodup ∧
        Palette.Explains doc.palette? report.results ∧
        doc.rules.map (·.selector) = ["a", "b", "a"] ∧
        report.results.map (·.selector) = ["a", "b"] ∧
        doc.palette?.bind (·.get? "b") = some ⟨some "red", none⟩ := by
  have hparse :
      parse "a\x7bcolor:#000;background:#fff\x7db\x7bcolor:red\x7da\x7bmargin:0\x7d" =
        .ok ⟨[.rule ⟨"a", [⟨⟨"color", "#000", false⟩, ⟨2, 1, 3⟩⟩,
            ⟨⟨"background", "#fff", false⟩, ⟨13, 1, 14⟩⟩], ⟨0, 1, 1⟩⟩,
          .rule ⟨"b", [⟨⟨"color", "red", false⟩, ⟨31, 1, 32⟩⟩], ⟨29, 1, 30⟩⟩,
          .rule ⟨"a", [⟨⟨"margin", "0", false⟩, ⟨43, 1, 44⟩⟩], ⟨41, 1, 42⟩⟩]⟩ := by
    decide +kernel
  have hne : Text.trim
      "a\x7bcolor:#000;background:#fff\x7db\x7bcolor:red\x7da\x7bmargin:0\x7d".toList ≠ [] := by
    decide +kernel
  have hreport := value_lint_of_parse {} hne hparse
  obtain ⟨doc, hdoc, hexplains⟩ := exists_palette?_explains hreport (by decide +kernel)
  cases hparse.symm.trans hdoc
  exact ⟨_, _, rfl, hreport, by decide +kernel, _, hdoc, by decide +kernel,
    hexplains (by decide +kernel), by decide +kernel, by decide +kernel, by decide +kernel⟩

end ContrastLint
