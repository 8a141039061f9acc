import ContrastLint.Decimal
import ContrastLint.Files.Tree
import ContrastLint.Lint.Result

/-!
# Events

Linting, scanning and loading a configuration leave a trace of events.  An
event is a value that says what happened; its severity and its wording are
functions of it.  `Logged` carries a result together with the events that led
to it, in their order.
-/

namespace ContrastLint

inductive Severity
  | debug
  | info
  | warn
  deriving DecidableEq, Repr

def Severity.name : Severity → String
  | .debug => "DEBUG"
  | .info => "INFO"
  | .warn => "WARN"

inductive Event
  | skipped (selector : String) (reason : SkipReason)
  | measured (selector : String) (ratio : Float) (passes : Bool)
  | noColor
  /-- A stylesheet was linted: its results, how many of them have a ratio, and
  whether none fails. -/
  | linted (results evaluated : Nat) (accessible : Bool)
  | notParsed (path : String) (error : LintError)
  | notRead (path : String) (fault : FileFault)
  | scanning (path : String)
  /-- A scan ended: its files, and how many of them have problems. -/
  | scanned (files problems : Nat)
  | defaultConfig (path : String)
  | loadedConfig (path : String)

namespace Event

/-- Only an unsupported colour is worth a warning. -/
def severity : Event → Severity
  | .skipped _ (.unresolvable _ _) => .warn
  | .skipped _ _ | .measured _ _ _ | .noColor | .linted _ _ _ => .debug
  | .notParsed _ _ | .notRead _ _ | .scanning _ | .scanned _ _ => .info
  | .defaultConfig _ | .loadedConfig _ => .debug

def message : Event → String
  | .skipped selector reason =>
    match reason with
    | .unresolvable _ _ => "Skipping invalid color in " ++ selector ++ ": " ++ reason.describe
    | _ => "Skipping " ++ selector ++ ": " ++ reason.describe
  | .measured selector ratio passes =>
    selector ++ ": " ++ Decimal.twoPlaces ratio ++ s!":1 (passes: {passes})"
  | .noColor => "No color declarations found"
  | .linted results evaluated accessible =>
    s!"Linted {results} color rule(s), {evaluated} evaluated, accessible: {accessible}"
  | .notParsed path error => "Could not parse " ++ path ++ ": " ++ error.message
  | .notRead path fault => "Skipping " ++ path ++ ": " ++ fault.message
  | .scanning path => "Scanning directory: " ++ path
  | .scanned files problems => s!"Scanned {files} stylesheet(s), {problems} with problems"
  | .defaultConfig path => "No config at " ++ path ++ ", using defaults"
  | .loadedConfig path => "Loaded config from " ++ path

end Event

/-- A value with the events that led to it. -/
structure Logged (α : Type) where
  value : α
  events : List Event

namespace Logged

instance : Monad Logged where
  pure a := ⟨a, []⟩
  bind x f := ⟨(f x.value).value, x.events ++ (f x.value).events⟩

/-- Records one event. -/
def log (event : Event) : Logged Unit :=
  ⟨(), [event]⟩

variable {α β : Type}

@[simp] theorem value_pure (a : α) : (pure a : Logged α).value = a := rfl

@[simp] theorem events_pure (a : α) : (pure a : Logged α).events = [] := rfl

@[simp] theorem value_bind (x : Logged α) (f : α → Logged β) :
    (x >>= f).value = (f x.value).value := rfl

@[simp] theorem events_bind (x : Logged α) (f : α → Logged β) :
    (x >>= f).events = x.events ++ (f x.value).events := rfl

@[simp] theorem events_log (event : Event) : (log event).events = [event] := rfl

end Logged

end ContrastLint
