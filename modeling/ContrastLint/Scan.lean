import ContrastLint.Config
import ContrastLint.Lint.Evaluate

/-!
# Scanning a directory

A scan lints every stylesheet below a directory, depth first and in the order
of the names.  Directories that are hidden or excluded are left out, the
directory where the scan starts excepted.  A file is a stylesheet by its
extension alone.  Files that cannot be read are skipped, and a file that
cannot be linted does not stop the scan.  Names are found however long the
path to them has become, but a file or directory is opened by its whole path,
which must not be too long.
-/

namespace ContrastLint

namespace Config

def skipsDirectory (config : Config) (name : String) : Bool :=
  config.exclude.contains name || name.toList.head? == some '.'

def acceptsFile (config : Config) (path : String) : Bool :=
  config.extensions.any (Text.equalsIgnoringCase · (Path.extension path))

end Config

namespace FileTree

mutual

/-- The stylesheets of a tree at a path, in the order of the walk. -/
def stylesheets (config : Config) (path : String) : FileTree → List (String × ByteArray)
  | .file content => if config.acceptsFile path then [(path, content)] else []
  | .directory entries => stylesheetsIn config path entries

/-- The stylesheets below the entries of a directory at a path. -/
def stylesheetsIn (config : Config) (path : String) :
    List (String × FileTree) → List (String × ByteArray)
  | [] => []
  | (name, .file content) :: rest =>
    stylesheets config (Path.join path name) (.file content) ++ stylesheetsIn config path rest
  | (name, .directory entries) :: rest =>
    (if config.skipsDirectory name ∨ Path.isTooLong (Path.join path name) then []
      else stylesheets config (Path.join path name) (.directory entries)) ++
      stylesheetsIn config path rest

end

end FileTree

/-- The text of a file with these bytes that a scan has found at a path. -/
def readFound (path : String) (content : ByteArray) : Except FileFault String :=
  if Path.isTooLong path then .error .nameTooLong else FileView.decode content

/-- Lints one of the files that a scan has found, unless it cannot be read. -/
def scanStylesheet (config : LintConfig) (file : String × ByteArray) :
    Logged (Option FileReport) := do
  match readFound file.1 file.2 with
  | .error fault =>
    Logged.log (.notRead file.1 fault)
    return none
  | .ok css => return some (← lintSource config file.1 css)

/-- Lints every stylesheet below a path.  A path that leads nowhere has none. -/
def scanDirectory (config : Config) (view : FileView) (path : String) :
    Logged (List FileReport) := do
  Logged.log (.scanning path)
  let found :=
    match view path with
    | .ok tree => tree.stylesheets config path
    | .error _ => []
  let outcomes ← found.mapM (scanStylesheet config.lint)
  let files := outcomes.filterMap id
  Logged.log (.scanned files.length (files.countP (·.hasErrors)))
  return files

def scanFile (config : LintConfig) (view : FileView) (path : String) :
    Logged (Except FileFault FileReport) := do
  match view.readText path with
  | .error fault => return .error fault
  | .ok css => return .ok (← lintSource config path css)

end ContrastLint
