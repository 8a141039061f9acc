import ContrastLint.Report

/-!
# Command line options

The program has four commands, each with one path and its own options.  An
option with a value takes the next argument or what follows an equals sign;
options stand anywhere around the path, and after `--` every argument is a
path.  No option is given twice.  Arguments are read from left to right, and
a call for help ends the reading.
-/

namespace ContrastLint.CommandLine

structure UsageError where
  deriving DecidableEq, Repr

inductive Command
  | check (directory : String) (level : Option Level) (format : ReportFormat)
      (output config : Option String)
  | lint (file : String) (level : Option Level) (format : ReportFormat) (config : Option String)
  | prune (file : String) (json : Bool) (output : Option String)
  | colors (file : String)
  deriving DecidableEq, Repr

inductive Request
  | version
  | help
  | run (command : Command) (verbose : Bool)
  deriving DecidableEq, Repr

/-- The options of a command: those with a value, and those without one. -/
structure Grammar where
  valued : List String
  flags : List String
  deriving DecidableEq, Repr

/-- What the arguments of a command have set. -/
structure Given where
  path : Option String := none
  level : Option Level := none
  format : Option ReportFormat := none
  output : Option String := none
  config : Option String := none
  json : Bool := false
  verbose : Bool := false
  help : Bool := false
  deriving DecidableEq, Repr

/-- Sets what is not set yet to a value that can be read. -/
def setOnce {α : Type} (old value : Option α) : Except UsageError (Option α) :=
  match old, value with
  | none, some value => .ok (some value)
  | _, _ => .error {}

def pathOf? (text : String) : Option String :=
  if text.isEmpty then none else some text

def levelOf? : String → Option Level
  | "aa" => some .aa
  | "aaa" => some .aaa
  | _ => none

namespace Given

def setPath (g : Given) (text : String) : Except UsageError Given := do
  return { g with path := ← setOnce g.path (pathOf? text) }

def setValue (g : Given) (name value : String) : Except UsageError Given :=
  match name with
  | "level" => do return { g with level := ← setOnce g.level (levelOf? value) }
  | "format" => do return { g with format := ← setOnce g.format (ReportFormat.ofName? value) }
  | "output" => do return { g with output := ← setOnce g.output (pathOf? value) }
  | "config" => do return { g with config := ← setOnce g.config (pathOf? value) }
  | _ => .error {}

def setFlag (g : Given) (name : String) : Except UsageError Given :=
  match name with
  | "json" => if g.json then .error {} else .ok { g with json := true }
  | "verbose" => if g.verbose then .error {} else .ok { g with verbose := true }
  | "help" => .ok { g with help := true }
  | _ => .error {}

end Given

/-- An argument by its shape. -/
inductive Argument
  /-- Two dashes alone. -/
  | separator
  /-- A long option, perhaps with a value after an equals sign. -/
  | long (name : String) (value : Option String)
  /-- Letters after a single dash. -/
  | short (letters : List Char)
  | plain (text : String)
  deriving DecidableEq, Repr

def Argument.ofText (text : String) : Argument :=
  match text.toList with
  | ['-', '-'] => .separator
  | '-' :: '-' :: rest =>
    let name := .ofList (rest.takeWhile (· ≠ '='))
    match rest.dropWhile (· ≠ '=') with
    | [] => .long name none
    | _ :: value => .long name (some (.ofList value))
  | '-' :: c :: rest => .short (c :: rest)
  | _ => .plain text

/-- Reads a cluster of short options up to its end or a call for help. -/
def readLetters (given : Given) : List Char → Except UsageError Given
  | [] => .ok given
  | 'v' :: rest => do readLetters (← given.setFlag "verbose") rest
  | 'h' :: _ => given.setFlag "help"
  | _ => .error {}

/-- Reads the arguments of a command up to their end or a call for help.  A
fault before the call is met first. -/
def readArguments (grammar : Grammar) (given : Given) : List String → Except UsageError Given
  | [] => .ok given
  | text :: rest =>
    match Argument.ofText text with
    | .separator => rest.foldlM Given.setPath given
    | .plain path => do readArguments grammar (← given.setPath path) rest
    | .short letters => do
      let given ← readLetters given letters
      if given.help then return given
      readArguments grammar given rest
    | .long name (some value) =>
      if grammar.valued.contains name then do
        readArguments grammar (← given.setValue name value) rest
      else .error {}
    | .long name none =>
      if name = "help" then given.setFlag name
      else if grammar.flags.contains name then do
        readArguments grammar (← given.setFlag name) rest
      else if grammar.valued.contains name then
        match rest with
        | [] => .error {}
        | value :: rest =>
          match Argument.ofText value with
          | .plain value => do readArguments grammar (← given.setValue name value) rest
          | _ => .error {}
      else .error {}

def grammarOf? : String → Option Grammar
  | "check" => some ⟨["level", "format", "output", "config"], ["verbose"]⟩
  | "lint" => some ⟨["level", "format", "config"], ["verbose"]⟩
  | "prune" => some ⟨["output"], ["json", "verbose"]⟩
  | "colors" => some ⟨[], ["verbose"]⟩
  | _ => none

def commandOf (name : String) (given : Given) : Except UsageError Command :=
  match name, given.path with
  | "check", some path =>
    .ok (.check path given.level (given.format.getD .text) given.output given.config)
  | "lint", some path => .ok (.lint path given.level (given.format.getD .text) given.config)
  | "prune", some path => .ok (.prune path given.json given.output)
  | "colors", some path => .ok (.colors path)
  | _, _ => .error {}

def hasHelp (name : String) : Bool :=
  name == "help" || (grammarOf? name).isSome

def Request.ofArguments : List String → Except UsageError Request
  | [] => .error {}
  | first :: rest =>
    match Argument.ofText first with
    | .long "version" none => .ok .version
    | .long "help" none => .ok .help
    | .short ('V' :: _) => .ok .version
    | .short ('h' :: _) => .ok .help
    | .plain "help" =>
      match rest with
      | [] => .ok .help
      | [name] => if hasHelp name then .ok .help else .error {}
      | _ => .error {}
    | .plain name =>
      match grammarOf? name with
      | none => .error {}
      | some grammar => do
        let given ← readArguments grammar {} rest
        if given.help then return .help
        return .run (← commandOf name given) given.verbose
    | _ => .error {}

end ContrastLint.CommandLine
