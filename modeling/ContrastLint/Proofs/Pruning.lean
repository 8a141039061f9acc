import ContrastLint.Proofs.LintAgreement
import ContrastLint.Proofs.Places
import ContrastLint.Proofs.Unclosed

/-!
# Pruning and measuring

A stylesheet and what is left of it when it is pruned, written anew, have the
same measured results.  Lines change, and declarations outside rules are lost.
Without these the linter may find that nothing declares a colour, but then no
rule had two colours to measure.  The values of some declarations change as
well, but only such as have a parenthesis, and they are no colours.
-/

namespace ContrastLint

/-! ## Values with a parenthesis -/

theorem Rgb.ofText?_of_mem
    {text : List Char} {c : Char} (h : c ∈ Text.trim text) (hsign : c ≠ '#')
    (hdigit : Text.hexValue? c = none) : ofText? text = none := by
  have hdigits : c ∈ dropNumberSign (Text.trim text) := by
    unfold dropNumberSign
    split
    · next rest hrest => simpa [hrest, hsign] using h
    · exact h
  rw [ofText?, mapM_eq_none_of_mem hdigits hdigit]
  rfl

theorem Rgb.ofText?_of_openParen {text : List Char} (h : '(' ∈ text) : ofText? text = none :=
  ofText?_of_mem ((Text.mem_trim_iff (by decide)).mpr h) (by decide) (by decide)

section Slots

variable {α β : Type}

theorem slotColor?_of_rel
    {R : Declaration α → Declaration β → Prop} {slot : Option (Declaration α)}
    {slot' : Option (Declaration β)} (h : Option.Rel R slot slot')
    (hcolor : ∀ d e, R d e → Rgb.ofText? d.value.toList = Rgb.ofText? e.value.toList) :
    slotColor? (resolveSlot slot) = slotColor? (resolveSlot slot') := by
  rw [slotColor?_resolveSlot, slotColor?_resolveSlot]
  cases h with
  | none => rfl
  | some hde => exact hcolor _ _ hde

/-- Two rules have the same colours if their declarations fill the same slots with
values that are the same colours. -/
theorem Rule.slotColors_eq_of_forall₂
    {R : Declaration α → Declaration β → Prop} {r : Rule α} {s : Rule β}
    (h : List.Forall₂ R r.declarations s.declarations)
    (hforeground : ∀ d e, R d e → d.setsForeground = e.setsForeground)
    (hbackground : ∀ d e, R d e → d.setsBackground = e.setsBackground)
    (hcolor : ∀ d e, R d e → Rgb.ofText? d.value.toList = Rgb.ofText? e.value.toList) :
    slotColor? (resolveSlot r.slots.foreground) = slotColor? (resolveSlot s.slots.foreground) ∧
      slotColor? (resolveSlot r.slots.background) =
        slotColor? (resolveSlot s.slots.background) := by
  have hreverse := List.forall₂_reverse_iff.mpr h
  rw [slots_eq, slots_eq]
  exact ⟨slotColor?_of_rel (find?_of_forall₂ hreverse hforeground) hcolor,
    slotColor?_of_rel (find?_of_forall₂ hreverse hbackground) hcolor⟩

theorem Assignment.Alike.isNamed
    {a b : Assignment} (h : a.Alike b) (name : String) : a.isNamed name = b.isNamed name := by
  rw [Assignment.isNamed, Assignment.isNamed, h.property]

theorem Assignment.Alike.ofText?_eq {a b : Assignment} (h : a.Alike b) :
    Rgb.ofText? a.value.toList = Rgb.ofText? b.value.toList := by
  rcases h.value with hsame | ⟨ha, hb⟩
  · rw [hsame]
  · rw [Rgb.ofText?_of_openParen ha, Rgb.ofText?_of_openParen hb]

theorem Rule.Alike.slotColors_eq
    {r : Rule α} {s : Rule β} (h : r.Alike s) :
    slotColor? (resolveSlot r.slots.foreground) = slotColor? (resolveSlot s.slots.foreground) ∧
      slotColor? (resolveSlot r.slots.background) =
        slotColor? (resolveSlot s.slots.background) := by
  refine slotColors_eq_of_forall₂ h.declarations ?foreground ?background ?color
  case foreground => exact fun _ _ halike => halike.isNamed "color"
  case background =>
    intro d e halike
    rw [Assignment.setsBackground, Assignment.setsBackground, halike.isNamed, halike.isNamed]
  case color => exact fun _ _ halike => halike.ofText?_eq

theorem Rule.Alike.map
    {r : Rule α} {s : Rule β} (h : r.Alike s) {γ δ : Type} (f : α → γ) (g : β → δ) :
    (r.map f).Alike (s.map g) := by
  constructor
  case selector => exact h.selector
  case declarations => simpa [Rule.map, Declaration.map] using h.declarations

end Slots

/-! ## Results that agree -/

/-- Two results agree but for their lines and for the reasons why rules were
skipped. -/
structure ContrastResult.Agrees (r s : ContrastResult) : Prop where
  selector : r.selector = s.selector
  foreground : r.foreground = s.foreground
  background : r.background = s.background
  ratio : r.contrast.ratio? = s.contrast.ratio?
  passes : r.passes = s.passes

namespace Contrast

theorem ratio?_ofSlots (foreground background : Except SkipReason (Option Rgb)) :
    (ofSlots foreground background).ratio? =
      (slotColor? foreground).bind fun f => (slotColor? background).map (contrastRatio f) := by
  rcases foreground with e | _ | f <;> rcases background with e' | _ | b <;> rfl

theorem passes_eq (c : Contrast) (threshold : Float) :
    c.passes threshold = c.ratio?.any (meets · threshold) := by
  cases c <;> rfl

theorem isComputed_eq (c : Contrast) : c.isComputed = c.ratio?.isSome := by
  cases c <;> rfl

end Contrast

/-- Rules with the same colours have the same ratio and the same grade. -/
theorem Rule.measures_eq_of_slotColors
    {r s : Rule Position} (threshold : Float)
    (hforeground : slotColor? (resolveSlot r.slots.foreground) =
      slotColor? (resolveSlot s.slots.foreground))
    (hbackground : slotColor? (resolveSlot r.slots.background) =
      slotColor? (resolveSlot s.slots.background)) :
    (r.evaluate threshold).value.contrast.ratio? = (s.evaluate threshold).value.contrast.ratio? ∧
      (r.evaluate threshold).value.passes = (s.evaluate threshold).value.passes := by
  have hratio (t : Rule Position) : (t.evaluate threshold).value.contrast.ratio? =
      (slotColor? (resolveSlot t.slots.foreground)).bind fun f =>
        (slotColor? (resolveSlot t.slots.background)).map (contrastRatio f) :=
    Contrast.ratio?_ofSlots _ _
  have hpasses (t : Rule Position) : (t.evaluate threshold).value.passes =
      (t.evaluate threshold).value.contrast.ratio?.any (meets · threshold) :=
    Contrast.passes_eq _ _
  rw [hpasses, hpasses, hratio, hratio, hforeground, hbackground]
  exact ⟨rfl, rfl⟩

theorem Rule.Alike.agrees
    {r s : Rule Position} (h : r.Alike s) (threshold : Float) :
    (r.evaluate threshold).value.Agrees (s.evaluate threshold).value := by
  obtain ⟨hforeground, hbackground⟩ := h.slotColors_eq
  obtain ⟨hratio, hpasses⟩ := measures_eq_of_slotColors threshold hforeground hbackground
  exact ⟨h.selector, hforeground, hbackground, hratio, hpasses⟩

namespace ContrastResult

/-- A result without its line. -/
def unplaced (r : ContrastResult) : ContrastResult :=
  { r with line := 0 }

theorem Agrees.isEvaluated
    {r s : ContrastResult} (h : r.Agrees s) : r.isEvaluated = s.isEvaluated := by
  rw [ContrastResult.isEvaluated, ContrastResult.isEvaluated, Contrast.isComputed_eq,
    Contrast.isComputed_eq, h.ratio]

theorem Agrees.unplaced_eq
    {r s : ContrastResult} (h : r.Agrees s) (hevaluated : r.isEvaluated = true) :
    r.unplaced = s.unplaced := by
  obtain ⟨ratio, hr⟩ := isEvaluated_iff.mp hevaluated
  obtain ⟨ratio', hs⟩ := isEvaluated_iff.mp (h.isEvaluated.symm.trans hevaluated)
  have hcontrast : r.contrast = s.contrast := by
    simpa [hr, hs, Contrast.ratio?] using h.ratio
  simp [unplaced, h.selector, h.foreground, h.background, h.passes, hcontrast]

theorem map_unplaced_evaluated
    {results others : List ContrastResult} (h : List.Forall₂ Agrees results others) :
    (results.filter (·.isEvaluated)).map unplaced =
      (others.filter (·.isEvaluated)).map unplaced := by
  induction h with
  | nil => rfl
  | @cons r s results others hagrees _ ih =>
      have hsame := hagrees.isEvaluated
      cases hs : s.isEvaluated with
      | false => simpa [hsame, hs] using ih
      | true => simpa [hsame, hs, ih] using hagrees.unplaced_eq (hsame.trans hs)

end ContrastResult

namespace LintReport

variable {report other : LintReport}

theorem failures_eq (report : LintReport) :
    report.failures = report.evaluated.filter (!·.passes) := by
  simp [failures, evaluated, ContrastResult.fails, Bool.and_comm]

/-- Which rules fail can be told from the measured results. -/
theorem map_selector_failures
    (h : report.evaluated.map ContrastResult.unplaced =
      other.evaluated.map ContrastResult.unplaced) :
    report.failures.map (·.selector) = other.failures.map (·.selector) := by
  have hunplaced : ∀ report : LintReport, report.failures.map (·.selector) =
      ((report.evaluated.map ContrastResult.unplaced).filter (!·.passes)).map (·.selector) := by
    intro report
    rw [failures_eq, List.filter_map, List.map_map]
    rfl
  rw [hunplaced, h, ← hunplaced]

end LintReport

/-! ## Measured results -/

theorem Rule.fillsSlot_of_isEvaluated
    {r : Rule Position} {threshold : Float}
    (h : (r.evaluate threshold).value.isEvaluated = true) : r.FillsSlot := by
  obtain ⟨ratio, hcontrast⟩ := ContrastResult.isEvaluated_iff.mp h
  rcases contrast_eq_computed_iff.mp hcontrast with ⟨f, b, foreground, background, hf, -⟩
  rcases mem_of_lastForeground? hf with ⟨hmem, hfills⟩
  exact ⟨f, hmem, .inl hfills⟩

theorem Rule.filter_isEvaluated_results (rules : List (Rule Position)) (threshold : Float) :
    (results (rules.filter (·.FillsSlot)) threshold).filter (·.isEvaluated) =
      (results rules threshold).filter (·.isEvaluated) := by
  induction rules with
  | nil => rfl
  | cons r rules ih =>
      unfold results at ih ⊢
      by_cases hfills : r.FillsSlot
      · simp [hfills, List.filter_cons, ih]
      · have hskipped : (r.evaluate threshold).value.isEvaluated = false := by
          rw [← Bool.not_eq_true]
          exact fun h => hfills (fillsSlot_of_isEvaluated h)
        simp [hfills, hskipped, ih]

namespace Document

/-- Whether a document is measured or not, its measured results are those of all
its rules. -/
theorem evaluated_lint (doc : Document Position) (config : LintConfig) :
    (doc.lint config).value.evaluated =
      (Rule.results doc.rules config.threshold).filter (·.isEvaluated) := by
  rw [value_lint]
  by_cases hnames : doc.declaresColor = true
  · rw [if_pos hnames, LintReport.evaluated]
    rw [results_pruned, Rule.filter_isEvaluated_results]
  · rw [if_neg hnames, LintReport.evaluated, List.filter_nil, eq_comm, List.filter_eq_nil_iff]
    intro result hresult hevaluated
    obtain ⟨r, hr, rfl⟩ := List.mem_map.mp hresult
    obtain ⟨ratio, hcontrast⟩ := ContrastResult.isEvaluated_iff.mp hevaluated
    exact hnames (declaresColor_iff.mpr (namesColor_of_computed hr hcontrast))

theorem evaluated_lint_pruned (doc : Document Position) (config : LintConfig) :
    (doc.lint config).value.evaluated =
      (Rule.results doc.pruned.rules config.threshold).filter (·.isEvaluated) := by
  rw [evaluated_lint, results_pruned, Rule.filter_isEvaluated_results]

theorem allAccessible_lint (doc : Document Position) (config : LintConfig) :
    (doc.lint config).value.allAccessible = (doc.lint config).value.failures.isEmpty := by
  rw [value_lint]
  cases doc.declaresColor with
  | false => rfl
  | true =>
      rw [Bool.eq_iff_iff]
      simp [LintReport.failures]

theorem rules_ne_nil_of_pruned
    {doc : Document Position} (h : doc.pruned.rules ≠ []) : doc.rules ≠ [] := by
  intro hempty
  rw [rules_pruned, hempty] at h
  contradiction

/-- A document with the rules that pruning has left of another has its measured
results. -/
theorem map_unplaced_evaluated_lint
    {doc pruned : Document Position} (config : LintConfig)
    (h : List.Forall₂ Rule.Alike pruned.rules doc.pruned.rules) :
    (pruned.lint config).value.evaluated.map ContrastResult.unplaced =
      (doc.lint config).value.evaluated.map ContrastResult.unplaced := by
  rw [evaluated_lint, evaluated_lint_pruned]
  apply ContrastResult.map_unplaced_evaluated
  rw [Rule.results, Rule.results, List.forall₂_map_left_iff, List.forall₂_map_right_iff]
  exact h.imp fun _ _ halike => halike.agrees config.threshold

end Document

theorem exists_parse_render_pruned
    {css : String} {doc : Document Position} (h : parse css = .ok doc) :
    ∃ doc', parse doc.pruned.render = .ok doc' ∧
      List.Forall₂ Rule.Alike doc'.rules doc.pruned.rules := by
  rcases parse_eq_ok_iff.mp h with ⟨first, hfirst, rfl⟩
  obtain ⟨second, hsecond, halike⟩ := Document.exists_read_render_pruned hfirst
  have hpruned : (first.locate css.toList).pruned =
      first.pruned.map (Position.locate css.toList) := by
    rw [Document.locate_eq_map (Document.boundary_of_read hfirst), Document.pruned_map]
  rw [hpruned, Document.render_map, Document.rules_map]
  refine ⟨_, parse_eq_ok_iff.mpr ⟨second, hsecond, rfl⟩, ?_⟩
  rw [Document.locate_eq_map (Document.boundary_of_read hsecond), Document.rules_map,
    List.forall₂_map_left_iff, List.forall₂_map_right_iff]
  exact halike.imp fun _ _ h => h.map _ _

theorem lint_of_rules_ne_nil
    {css : String} {doc : Document Position} (config : LintConfig) (h : parse css = .ok doc)
    (hrules : doc.rules ≠ []) : (lint config css).value = .ok (doc.lint config).value := by
  have hne : Text.trim css.toList ≠ [] := by
    intro hblank
    rcases parse_eq_ok_iff.mp h with ⟨first, hfirst, rfl⟩
    rw [Document.read_of_white (Text.trim_eq_nil_iff.mp hblank)] at hfirst
    cases hfirst
    exact hrules rfl
  simp [lint, hne, h]

/-- A pruned stylesheet that still has a rule can be written and linted again.  The
measured results are the same, but for their lines, and so are the verdict and
the selectors of the rules that fail. -/
theorem lint_render_pruned
    {css : String} {doc : Document Position} (config : LintConfig) (h : parse css = .ok doc)
    (hrules : doc.pruned.rules ≠ []) :
    ∃ report again,
      (lint config css).value = .ok report ∧
      (lint config doc.pruned.render).value = .ok again ∧
      again.evaluated.map ContrastResult.unplaced = report.evaluated.map ContrastResult.unplaced ∧
      again.allAccessible = report.allAccessible ∧
      again.failures.map (·.selector) = report.failures.map (·.selector) := by
  obtain ⟨pruned, hparse, halike⟩ := exists_parse_render_pruned h
  have hmore : pruned.rules ≠ [] := by
    intro hempty
    rw [hempty] at halike
    exact hrules (List.forall₂_nil_left_iff.mp halike)
  have hlint := lint_of_rules_ne_nil config h (Document.rules_ne_nil_of_pruned hrules)
  have hagain := lint_of_rules_ne_nil config hparse hmore
  have hevaluated := Document.map_unplaced_evaluated_lint config halike
  have hfailures := LintReport.map_selector_failures hevaluated
  refine ⟨_, _, hlint, hagain, hevaluated, ?_, hfailures⟩
  rw [Document.allAccessible_lint, Document.allAccessible_lint]
  simpa using congrArg List.isEmpty hfailures

/-- The case of a declaration outside rules, of a rule with two colours, and of one
whose colour leaves a parenthesis open. -/
theorem lint_render_pruned_open :
    ∃ css doc,
      css = "color:red;p\x7bcolor:#000;top:0;background:#fff\x7dq\x7bcolor:rgb(0!important\x7d" ∧
      parse css = .ok doc ∧ doc.pruned.rules ≠ [] ∧
      doc.pruned.render = "p \x7b\n    color: #000;\n    background: #fff;\n\x7d\n\n" ++
        "q \x7b\n    color: rgb(0 !important;\n\x7d\n" ∧
      ∀ config, ∃ report again,
        (lint config css).value = .ok report ∧
        (lint config doc.pruned.render).value = .ok again ∧
        again.evaluated.map ContrastResult.unplaced =
          report.evaluated.map ContrastResult.unplaced ∧
        again.allAccessible = report.allAccessible ∧
        again.failures.map (·.selector) = report.failures.map (·.selector) := by
  have hparse :
      parse "color:red;p\x7bcolor:#000;top:0;background:#fff\x7dq\x7bcolor:rgb(0!important\x7d" =
        .ok ⟨[.declaration ⟨⟨"color", "red", false⟩, ⟨0, 1, 1⟩⟩,
          .rule ⟨"p", [⟨⟨"color", "#000", false⟩, ⟨12, 1, 13⟩⟩,
            ⟨⟨"top", "0", false⟩, ⟨23, 1, 24⟩⟩,
            ⟨⟨"background", "#fff", false⟩, ⟨29, 1, 30⟩⟩], ⟨10, 1, 11⟩⟩,
          .rule ⟨"q", [⟨⟨"color", "rgb(0", true⟩, ⟨47, 1, 48⟩⟩], ⟨45, 1, 46⟩⟩]⟩ := by
    decide +kernel
  exact ⟨_, _, rfl, hparse, by decide +kernel, by decide +kernel,
    fun config => lint_render_pruned config hparse (by decide +kernel)⟩

end ContrastLint
