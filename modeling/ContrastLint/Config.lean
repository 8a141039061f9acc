import ContrastLint.Event
import ContrastLint.Contrast
import ContrastLint.Toml.Document

/-!
# Configuration

A configuration sets the linter, names the directories that a scan leaves
out, and lists the file extensions of stylesheets.  It is read from TOML;
what a document does not set has its default, and unknown keys are ignored.
-/

namespace ContrastLint

structure Config where
  lint : LintConfig := {}
  exclude : List String :=
    ["node_modules", ".git", "target", "dist", "build", "vendor", "coverage"]
  extensions : List String := ["css"]

inductive ConfigError
  | unreadable (fault : FileFault)
  | malformed
  | invalid (error : InvalidRatio)

namespace ConfigError

def message : ConfigError → String
  | .unreadable fault => "IO error: " ++ fault.message
  | .malformed => "TOML parse error"
  | .invalid error => error.message

end ConfigError

namespace Toml.Value

def strings? : Value → Option (List String)
  | .array items => items.mapM fun
    | .string text => some text
    | _ => none
  | _ => none

/-- A floating point number; an integer stands for the nearest one. -/
def float? : Value → Option Float
  | .float x => some x
  | .integer n => some (Decimal.nearest (n < 0) n.natAbs 0)
  | _ => none

/-- A level is given by its name, or as a table with that one key and nothing
in it. -/
def level? : Value → Option Level
  | .string name => Level.ofName? name
  | .table [(name, .table [])] => Level.ofName? name
  | .table [(name, .array [])] => Level.ofName? name
  | _ => none

def setting? {α : Type} (read? : Value → Option α) (default : α) : Option Value → Option α
  | some v => read? v
  | none => some default

/-- The settings of the linter: a table, or an array of the settings in
order.  A date or time sets nothing. -/
def lintConfig? : Value → Option LintConfig
  | .table entries => do
    return { level := ← setting? level? .aa (entries.lookup "level")
             minRatio := ← setting? (some <$> ·.float?) none (entries.lookup "min_ratio") }
  | .array items => do
    return { level := ← setting? level? .aa items[0]?
             minRatio := ← setting? (some <$> ·.float?) none items[1]? }
  | .datetime => some {}
  | _ => none

end Toml.Value

namespace Config

def ofEntries? (entries : List (String × Toml.Value)) : Option Config := do
  let default : Config := {}
  return { lint := ← Toml.Value.setting? (·.lintConfig?) default.lint (entries.lookup "lint")
           exclude :=
             ← Toml.Value.setting? (·.strings?) default.exclude (entries.lookup "exclude")
           extensions :=
             ← Toml.Value.setting? (·.strings?) default.extensions (entries.lookup "extensions") }

def ofToml (text : String) : Except ConfigError Config :=
  match Toml.parse? text >>= ofEntries? with
  | none => .error .malformed
  | some config =>
    match config.lint.validate with
    | .error e => .error (.invalid e)
    | .ok () => .ok config

/-- The file that holds the configuration unless another is named. -/
def defaultPath : String := ".contrastbot.toml"

/-- Loads a configuration, which is the default where there is no file. -/
def load (view : FileView) (path : String) : Logged (Except ConfigError Config) := do
  if !view.contains path then
    Logged.log (.defaultConfig path)
    return .ok {}
  match view.readText path with
  | .error fault => return .error (.unreadable fault)
  | .ok text =>
    match ofToml text with
    | .error e => return .error e
    | .ok config =>
      Logged.log (.loadedConfig path)
      return .ok config

end Config

end ContrastLint
