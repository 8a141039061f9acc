import ContrastLint.Color.Rgb
import ContrastLint.Contrast
import ContrastLint.Stylesheet.Glyph

/-!
# Results of a lint run

A run has one result for each rule that declares a colour.  A result takes
part in the verdict if both of the rule's colours are known; otherwise it
names the reason why the rule was skipped.
-/

namespace ContrastLint

inductive SkipReason
  | missingForeground
  | missingBackground
  | unresolvable (property value : String)
  deriving DecidableEq, Repr

def SkipReason.describe : SkipReason → String
  | .missingForeground => "no color declaration"
  | .missingBackground => "no background declaration"
  | .unresolvable property value => "unsupported " ++ property ++ " value " ++ Text.quote value

inductive Contrast
  | computed (ratio : Float)
  | notComputable (reason : SkipReason)

namespace Contrast

def ratio? : Contrast → Option Float
  | .computed ratio => some ratio
  | .notComputable _ => none

def isComputed : Contrast → Bool
  | .computed _ => true
  | .notComputable _ => false

end Contrast

structure ContrastResult where
  selector : String
  line : Nat
  foreground : Option Rgb
  background : Option Rgb
  contrast : Contrast
  /-- Whether a ratio was computed and meets the threshold. -/
  passes : Bool

namespace ContrastResult

/-- Whether the result takes part in the verdict. -/
def isEvaluated (r : ContrastResult) : Bool :=
  r.contrast.isComputed

def fails (r : ContrastResult) : Bool :=
  r.isEvaluated && !r.passes

end ContrastResult

inductive LintStatus
  | noColorFound
  | accessible
  | inaccessible
  deriving DecidableEq, Repr

def LintStatus.describe : LintStatus → String
  | .noColorFound => "NO COLOR FOUND"
  | .accessible => "ACCESSIBLE"
  | .inaccessible => "INACCESSIBLE"

/-- The results of linting one stylesheet, in the order of its rules, with
the threshold that was applied and the level it belongs to. -/
structure LintReport where
  results : List ContrastResult
  hasAnyColor : Bool
  allAccessible : Bool
  threshold : Float
  level : Level

namespace LintReport

def status (r : LintReport) : LintStatus :=
  if !r.hasAnyColor then .noColorFound
  else if r.allAccessible then .accessible
  else .inaccessible

def failures (r : LintReport) : List ContrastResult :=
  r.results.filter (·.fails)

def evaluated (r : LintReport) : List ContrastResult :=
  r.results.filter (·.isEvaluated)

def skipped (r : LintReport) : List ContrastResult :=
  r.results.filter (!·.isEvaluated)

end LintReport

inductive LintError
  | emptyInput
  | unreadable (error : ParseError)
  deriving DecidableEq, Repr

namespace LintError

def message : LintError → String
  | .emptyInput => "Stylesheet is empty: nothing to lint"
  | .unreadable error => error.message

def position? : LintError → Option Position
  | .emptyInput => none
  | .unreadable error => some error.position

end LintError

end ContrastLint
