import ContrastLint.Files.Tree

/-!
# Following paths

A workspace is a tree with everything in it and the directory there from
which paths start that do not start at the root.  Following a path to read or
to write fails for the reasons for which a file system refuses it.  The
directory above the root is the root itself.
-/

namespace ContrastLint

/-- A location in a tree: the tree there, the names that lead to it and the
directories passed on the way, the last ones first. -/
structure Location where
  tree : FileTree
  names : List String := []
  passed : List FileTree := []

namespace Location

/-- The location one part of a path further on. -/
def step (p : Location) (part : String) : Except FileFault Location :=
  match p.tree with
  | .file _ => .error .notDirectory
  | .directory entries =>
    if part = "" ∨ part = "." then .ok p
    else if part = ".." then
      match p.names, p.passed with
      | _ :: names, parent :: passed => .ok ⟨parent, names, passed⟩
      | _, _ => .ok p
    else if Path.maxPartBytes < part.utf8ByteSize then .error .nameTooLong
    else
      match entries.lookup part with
      | none => .error .notFound
      | some entry => .ok ⟨entry, part :: p.names, p.tree :: p.passed⟩

def follow (p : Location) (parts : List String) : Except FileFault Location :=
  parts.foldlM step p

end Location

/-- A tree with the names of its working directory. -/
structure Workspace where
  root : FileTree
  names : List String := []

namespace Workspace

/-- Where a path starts.  A text that is no path starts nowhere. -/
def start (w : Workspace) (path : String) : Except FileFault Location :=
  if path.toList.contains '\x00' then .error .nulInName
  else if path = "" then .error .notFound
  else if Path.isTooLong path then .error .nameTooLong
  else if path.toList.head? = some '/' then .ok { tree := w.root }
  else Location.follow { tree := w.root } w.names

def find (w : Workspace) (path : String) : Except FileFault FileTree := do
  let location ← (← w.start path).follow (Path.parts path)
  return location.tree

/-- The names, from the root, of the file that writing to a path would create
or replace. -/
def target (w : Workspace) (path : String) : Except FileFault (List String) := do
  let parts := Path.parts path
  let named := (parts.reverse.dropWhile (· = "")).reverse
  let directory ← (← w.start path).follow named.dropLast
  match directory.tree, named.getLast? with
  | .directory entries, some name =>
    if name = "." ∨ name = ".." ∨ named.length < parts.length then .error .isDirectory
    else if Path.maxPartBytes < name.utf8ByteSize then .error .nameTooLong
    else
      match entries.lookup name with
      | some (.directory _) => .error .isDirectory
      | _ => .ok (directory.names.reverse ++ [name])
  | .file _, _ => .error .notDirectory
  | .directory _, none => .error .isDirectory

end Workspace

end ContrastLint
