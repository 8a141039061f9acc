import ContrastLint.Color.Rgb
import ContrastLint.Decimal
import ContrastLint.Text.Lowercase

/-!
# Contrast and its thresholds

Relative luminance and contrast ratio as the Web Content Accessibility
Guidelines define them.  A channel is linearised with the cutoff 0.03928, the
luminance weighs the three channels, and the ratio puts the lighter colour
above the darker one.

Each of the two conformance levels for normal text requires a contrast ratio
by a success criterion.  The threshold of a run is the explicit minimum ratio
if one is set, and that of the conformance level otherwise.  An explicit ratio
is valid from the least to the greatest ratio that two colours can have; one
that is not a number is never valid.
-/

namespace ContrastLint

/-- The least contrast ratio, that of a colour with itself. -/
def leastRatio : Float := 1

/-- The greatest contrast ratio, that of black and white. -/
def greatestRatio : Float := 21

/-- The linear intensity of a channel. -/
def linearize (channel : UInt8) : Float :=
  let c := channel.toFloat / 255
  if c ≤ 0.03928 then c / 12.92 else ((c + 0.055) / 1.055) ^ (2.4 : Float)

def Rgb.luminance (c : Rgb) : Float :=
  0.2126 * linearize c.red + 0.7152 * linearize c.green + 0.0722 * linearize c.blue

/-- The contrast ratio of two colours, whichever is the lighter. -/
def contrastRatio (a b : Rgb) : Float :=
  let la := a.luminance
  let lb := b.luminance
  let lighter := if la < lb then lb else la
  let darker := if la < lb then la else lb
  (lighter + 0.05) / (darker + 0.05)

def meets (ratio threshold : Float) : Bool :=
  threshold ≤ ratio

/-! ## Conformance levels -/

inductive Level
  | aa
  | aaa
  deriving DecidableEq, Repr

namespace Level

def minRatio : Level → Float
  | .aa => 4.5
  | .aaa => 7

def criterion : Level → String
  | .aa => "1.4.3"
  | .aaa => "1.4.6"

def understandingUri : Level → String
  | .aa => "https://www.w3.org/WAI/WCAG21/Understanding/contrast-minimum"
  | .aaa => "https://www.w3.org/WAI/WCAG21/Understanding/contrast-enhanced"

def name : Level → String
  | .aa => "AA"
  | .aaa => "AAA"

def ofName? : String → Option Level
  | "AA" => some .aa
  | "AAA" => some .aaa
  | _ => none

def ruleId (level : Level) : String :=
  "WCAG-" ++ level.criterion ++ "-contrast"

def stricter : Level → Level → Level
  | .aa, level => level
  | .aaa, _ => .aaa

end Level

/-- A text that names no level; the text is lower-cased. -/
structure UnknownLevel where
  text : String
  deriving DecidableEq, Repr

def UnknownLevel.message (e : UnknownLevel) : String :=
  "Unknown WCAG level: " ++ e.text

def Level.ofText (text : String) : Except UnknownLevel Level :=
  match Text.lower text with
  | "aa" => .ok .aa
  | "aaa" => .ok .aaa
  | other => .error ⟨other⟩

/-! ## Settings -/

structure LintConfig where
  level : Level := .aa
  minRatio : Option Float := none

/-- A minimum ratio that no pair of colours can have. -/
structure InvalidRatio where
  ratio : Float

def InvalidRatio.message (e : InvalidRatio) : String :=
  "Invalid configuration: min_ratio must be between " ++ Decimal.plain leastRatio ++ " and " ++
    Decimal.plain greatestRatio ++ ", got " ++ Decimal.plain e.ratio

namespace LintConfig

def threshold (config : LintConfig) : Float :=
  config.minRatio.getD config.level.minRatio

def validate (config : LintConfig) : Except InvalidRatio Unit :=
  match config.minRatio with
  | some ratio =>
    if leastRatio ≤ ratio ∧ ratio ≤ greatestRatio then .ok () else .error ⟨ratio⟩
  | none => .ok ()

end LintConfig

end ContrastLint
