import ContrastLint.Color.Palette
import ContrastLint.CommandLine.Options
import ContrastLint.Scan
import ContrastLint.Stylesheet.Render

/-!
# Running a command

A run reads files through a view of the file system.  It ends with an exit
code, what it has written to the two output streams, and in between it may
ask for one file to be written.  Diagnostics are the events of the run, all
of them if the run is verbose and the warnings otherwise, and after them what
made the run stop.
-/

namespace ContrastLint.CommandLine

/-- What a finished run leaves behind. -/
structure Outcome where
  exitCode : Nat
  output : String
  diagnostics : List String
  deriving DecidableEq, Repr

/-- A run: finished, or waiting for a file to be written. -/
inductive Progress
  | finished (outcome : Outcome)
  | write (path content : String) (next : Except FileFault Unit → Outcome)

/-- Why a command stopped: a headline and the causes below it. -/
structure Failure where
  headline : String
  causes : List String := []
  deriving DecidableEq, Repr

/-- One cause stands alone; several are counted. -/
def Failure.lines (f : Failure) : List String :=
  ("Error: " ++ f.headline) ::
    match f.causes with
    | [] => []
    | [cause] => ["", "Caused by:", "    " ++ cause]
    | causes => "" :: "Caused by:" :: causes.mapIdx fun i cause => s!"    {i}: " ++ cause

/-- What escapes of terminals are shown as in a diagnostic. -/
def escapeControl (c : Char) : List Char :=
  match c with
  | '\x1b' => "\\x1b".toList
  | '\x07' => "\\x07".toList
  | '\x08' => "\\x08".toList
  | '\x0c' => "\\x0c".toList
  | '\x7f' => "\\x7f".toList
  | c =>
    if 0x80 ≤ c.toNat ∧ c.toNat ≤ 0x9f then
      '\\' :: 'u' :: '{' :: (Text.hexDigits c ++ ['}'])
    else [c]

def eventLine (event : Event) : String :=
  event.severity.name ++ " " ++ .ofList (event.message.toList.flatMap escapeControl)

def eventLines (verbose : Bool) (events : List Event) : List String :=
  (events.filter fun e => verbose || e.severity == .warn).map eventLine

def stopped (verbose : Bool) (events : List Event) (f : Failure) : Progress :=
  .finished ⟨1, "", eventLines verbose events ++ f.lines⟩

/-- Writes a text to a file, or to the output if there is none, and ends with
an exit code. -/
def deliver (verbose : Bool) (events : List Event) (content : String) (file : Option String)
    (exitCode : Nat) : Progress :=
  let shown := eventLines verbose events
  match file with
  | none => .finished ⟨exitCode, content ++ "\n", shown⟩
  | some path =>
    .write path content fun
      | .ok () => ⟨exitCode, "", shown ++ ["Output written to " ++ path]⟩
      | .error fault => ⟨1, "", shown ++ (Failure.mk fault.message []).lines⟩

def configCauses : ConfigError → List String
  | .unreadable fault => [(ConfigError.unreadable fault).message, fault.message]
  | e => [e.message]

/-- The configuration of a run.  A level on the command line takes the place
of whatever threshold the file sets. -/
def resolveConfig (view : FileView) (path : Option String) (level : Option Level) :
    Logged (Except Failure Config) := do
  let path := path.getD Config.defaultPath
  match ← Config.load view path with
  | .error e => return .error ⟨"Failed to load config from " ++ path, configCauses e⟩
  | .ok config =>
    match level with
    | none => return .ok config
    | some level => return .ok { config with lint := { level, minRatio := none } }

def exitCode (files : List FileReport) : Nat :=
  if files.any (·.hasErrors) then 1 else 0

/-- Lints what a command names: the files, or why there are none. -/
def lintFiles (view : FileView) (config : Option String) (level : Option Level)
    (scan : Config → Logged (Except Failure (List FileReport))) :
    Logged (Except Failure (List FileReport)) := do
  match ← resolveConfig view config level with
  | .error f => return .error f
  | .ok config => scan config

def checkFiles (view : FileView) (directory : String) (config : Option String)
    (level : Option Level) : Logged (Except Failure (List FileReport)) :=
  lintFiles view config level fun config =>
    return .ok (← scanDirectory config view directory)

def lintFile (view : FileView) (file : String) (config : Option String)
    (level : Option Level) : Logged (Except Failure (List FileReport)) :=
  lintFiles view config level fun config => do
    match ← scanFile config.lint view file with
    | .error fault => return .error ⟨fault.message, []⟩
    | .ok report => return .ok [report]

def readDocument (view : FileView) (file : String) : Except Failure (Document Position) :=
  match view.readText file with
  | .error fault => .error ⟨"Failed to read " ++ file, [fault.message]⟩
  | .ok css =>
    match parse css with
    | .error e => .error ⟨"Error parsing " ++ file, [e.message]⟩
    | .ok doc => .ok doc

/-- A colour pair with the slots that it fills. -/
def pairJson (pair : ColorPair) : Json :=
  let slot := fun (name : String) (value : Option String) =>
    value.toList.map fun v => (name, Json.string v)
  .object (slot "foreground" pair.foreground ++ slot "background" pair.background)

def paletteText (doc : Document Position) : String :=
  match doc.palette? with
  | some palette =>
    Json.wide (.object (palette.entries.map fun (selector, pair) => (selector, pairJson pair)))
  | none => "null"

def Command.reads : Command → List String
  | .check directory _ _ _ config => [config.getD Config.defaultPath, directory]
  | .lint file _ _ config => [config.getD Config.defaultPath, file]
  | .prune file _ _ => [file]
  | .colors file => [file]

def Command.run (view : FileView) (verbose : Bool) : Command → Progress
  | .check directory level format output config =>
    let found := checkFiles view directory config level
    match found.value with
    | .error f => stopped verbose found.events f
    | .ok files => deliver verbose found.events (format.report files) output (exitCode files)
  | .lint file level format config =>
    let found := lintFile view file config level
    match found.value with
    | .error f => stopped verbose found.events f
    | .ok files => deliver verbose found.events (format.report files) none (exitCode files)
  | .prune file json output =>
    match readDocument view file with
    | .error f => stopped verbose [] f
    | .ok doc =>
      let content := if json then Json.wide doc.pruned.toJson else doc.pruned.render
      deliver verbose [] content output 0
  | .colors file =>
    match readDocument view file with
    | .error f => stopped verbose [] f
    | .ok doc => deliver verbose [] (paletteText doc) none 0

def versionText : String := "contrastbot 0.1.0\n"

def helpText : String :=
  "WCAG colour contrast linter for CSS stylesheets\n\n" ++
    "Usage: contrastbot <COMMAND>\n\n" ++
    "Commands:\n" ++
    "  check   Lint every stylesheet under a directory\n" ++
    "  lint    Lint a single stylesheet\n" ++
    "  prune   Print the stylesheet reduced to its colour declarations\n" ++
    "  colors  Print the effective foreground/background of each selector as JSON\n"

def reads (arguments : List String) : List String :=
  match Request.ofArguments arguments with
  | .ok (.run command _) => command.reads
  | _ => []

/-- Runs the program on its arguments.  Arguments that ask for nothing it
knows end it with exit code two. -/
def run (view : FileView) (arguments : List String) : Progress :=
  match Request.ofArguments arguments with
  | .error _ => .finished ⟨2, "", ["error: unknown usage", "", "Usage: contrastbot <COMMAND>"]⟩
  | .ok .version => .finished ⟨0, versionText, []⟩
  | .ok .help => .finished ⟨0, helpText, []⟩
  | .ok (.run command verbose) => command.run view verbose

end ContrastLint.CommandLine
