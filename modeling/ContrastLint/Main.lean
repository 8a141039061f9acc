import ContrastLint.CommandLine.Run

/-!
# The program

Takes a picture of the files that the arguments name, runs the command on it,
and does what the run asks for.
-/

namespace ContrastLint

def faultOf : IO.Error → FileFault
  | .inappropriateType .. => .notDirectory
  | .invalidArgument .. => .nameTooLong
  | _ => .notFound

def diskEntry (path : String) : IO.FS.DirEntry := ⟨path, ""⟩

/-- Runs an action whose failure stands for a value. -/
def orElseValue {α : Type} (action : IO α) (value : α) : IO α :=
  try action catch _ => return value

/-- What an entry on disk is.  One that cannot be looked at counts as a file. -/
def typeOf (entry : IO.FS.DirEntry) : IO IO.FS.FileType :=
  orElseValue (return (← entry.path.symlinkMetadata).type) .file

/-- The tree at an entry on disk.  Links and special files in a directory are
left out, and what cannot be opened there is taken as empty. -/
partial def treeAt (entry : IO.FS.DirEntry) : IO FileTree := do
  let mut entries := []
  for inner in ← entry.path.readDir do
    match ← typeOf inner with
    | .dir =>
      let tree ← orElseValue (treeAt inner) .empty
      entries := FileTree.setEntry inner.fileName tree entries
    | .file =>
      let content ← orElseValue (IO.FS.readBinFile inner.path) .empty
      entries := FileTree.setEntry inner.fileName (.file content) entries
    | _ => pure ()
  return .directory entries

def lookAt (path : String) : IO (Except FileFault FileTree) :=
  try
    if ← (diskEntry path).path.isDir then return .ok (← treeAt (diskEntry path))
    else return .ok (.file (← IO.FS.readBinFile path))
  catch e => return .error (faultOf e)

def writeTo (path content : String) : IO (Except FileFault Unit) :=
  try
    if ← (diskEntry path).path.isDir then return .error .isDirectory
    IO.FS.writeFile path content
    return .ok ()
  catch e => return .error (faultOf e)

/-- Does what a run asks for, up to its end. -/
def perform : CommandLine.Progress → IO CommandLine.Outcome
  | .finished outcome => return outcome
  | .write path content next => return next (← writeTo path content)

end ContrastLint

open ContrastLint in
def main (arguments : List String) : IO UInt32 := do
  let seen ← (CommandLine.reads arguments).mapM fun path => return (path, ← lookAt path)
  let view : FileView := fun path => (seen.lookup path).getD (.error .notFound)
  let outcome ← perform (CommandLine.run view arguments)
  IO.print outcome.output
  for line in outcome.diagnostics do
    IO.eprintln line
  return .ofNat outcome.exitCode
