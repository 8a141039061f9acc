import ContrastLint.Color.Palette
import ContrastLint.Event
import ContrastLint.Contrast
import ContrastLint.Stylesheet.Parse

/-!
# Linting a stylesheet

A rule is measured if the declarations of both its slots resolve to colours.
A stylesheet is linted by measuring every rule that declares a colour; the
verdict is that no measured rule falls below the threshold.  A stylesheet
without a declaration named `color` or `background` has no verdict.

A file report ties the outcome of linting a text to the path it came from.
A file has errors if it could not be linted or if one of its rules fails.
-/

namespace ContrastLint

variable {Place : Type}

/-- The colour of a slot: none if the slot is empty. -/
def resolveSlot : Option (Declaration Place) → Except SkipReason (Option Rgb)
  | none => .ok none
  | some d =>
    match Rgb.resolve d.value with
    | .ok color => .ok (some color)
    | .error e => .error (.unresolvable d.property e.value)

/-- The colour of a slot if it has one. -/
def slotColor? (slot : Except SkipReason (Option Rgb)) : Option Rgb :=
  slot.toOption.join

/-- An unsupported value of either slot goes before an empty slot, and the
foreground before the background. -/
def Contrast.ofSlots : Except SkipReason (Option Rgb) → Except SkipReason (Option Rgb) → Contrast
  | .error reason, _ => .notComputable reason
  | _, .error reason => .notComputable reason
  | .ok none, _ => .notComputable .missingForeground
  | _, .ok none => .notComputable .missingBackground
  | .ok (some foreground), .ok (some background) =>
    .computed (contrastRatio foreground background)

def Contrast.passes (threshold : Float) : Contrast → Bool
  | .computed ratio => meets ratio threshold
  | .notComputable _ => false

def Rule.evaluate (r : Rule Position) (threshold : Float) : Logged ContrastResult := do
  let foreground := resolveSlot r.slots.foreground
  let background := resolveSlot r.slots.background
  let contrast := Contrast.ofSlots foreground background
  let passes := contrast.passes threshold
  Logged.log <|
    match contrast with
    | .computed ratio => .measured r.selector ratio passes
    | .notComputable reason => .skipped r.selector reason
  return { selector := r.selector
           line := r.place.line
           foreground := slotColor? foreground
           background := slotColor? background
           contrast
           passes }

def Document.lint (doc : Document Position) (config : LintConfig) : Logged LintReport := do
  let threshold := config.threshold
  if !doc.declaresColor then
    Logged.log .noColor
    return { results := [], hasAnyColor := false, allAccessible := true, threshold,
             level := config.level }
  else
    let results ← doc.pruned.rules.mapM (·.evaluate threshold)
    let allAccessible := !results.any (·.fails)
    Logged.log (.linted results.length (results.countP (·.isEvaluated)) allAccessible)
    return { results, hasAnyColor := true, allAccessible, threshold, level := config.level }

/-- Lints the text of a stylesheet.  A text of white space alone is refused. -/
def lint (config : LintConfig) (css : String) : Logged (Except LintError LintReport) := do
  if (Text.trim css.toList).isEmpty then return .error .emptyInput
  match parse css with
  | .error e => return .error (.unreadable e)
  | .ok doc => return .ok (← doc.lint config)

/-! ## Files -/

structure FileReport where
  path : String
  outcome : Except LintError LintReport

namespace FileReport

def report? (file : FileReport) : Option LintReport :=
  file.outcome.toOption

def hasErrors (file : FileReport) : Bool :=
  match file.outcome with
  | .ok report => !report.allAccessible
  | .error _ => true

end FileReport

def lintSource (config : LintConfig) (path css : String) : Logged FileReport := do
  let outcome ← lint config css
  if let .error e := outcome then Logged.log (.notParsed path e)
  return ⟨path, outcome⟩

end ContrastLint
