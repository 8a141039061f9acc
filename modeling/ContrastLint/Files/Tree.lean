/-!
# Paths and file trees

A path is a text whose parts are separated by slashes.  Empty parts and
single dots stand for the directory reached so far, and two dots for the one
above it.  A path that begins with a slash starts at the root.

A file tree is a file with its bytes or a directory with named entries, in
the order of their names.  What reads files does not need a tree, only a
view: what each path leads to, or the reason for which the file system
refuses it.

Names and paths are texts.  A name that is no text, as some file systems allow
them, has no counterpart here.
-/

namespace ContrastLint

namespace Path

def splitSlash : List Char → List (List Char)
  | [] => [[]]
  | '/' :: rest => [] :: splitSlash rest
  | c :: rest =>
    match splitSlash rest with
    | [] => [[c]]
    | part :: parts => (c :: part) :: parts

def parts (path : String) : List String :=
  (splitSlash path.toList).map .ofList

/-- The most bytes that one part of a path may have. -/
def maxPartBytes : Nat := 255

/-- The most bytes that a path may have when it is followed. -/
def maxBytes : Nat := 4095

def isTooLong (path : String) : Bool :=
  maxBytes < path.utf8ByteSize

def join (path name : String) : String :=
  if path.toList.getLast? = some '/' then path ++ name else path ++ "/" ++ name

/-- The last part of a path that names something. -/
def fileName (path : String) : String :=
  ((parts path).reverse.find? fun part => part ≠ "" ∧ part ≠ ".").getD ""

/-- What follows the last dot of the file name, and the empty text if there
is no dot after its first character. -/
def extension (path : String) : String :=
  let reversed := (fileName path).toList.reverse
  match reversed.dropWhile (· ≠ '.') with
  | '.' :: _ :: _ => .ofList (reversed.takeWhile (· ≠ '.')).reverse
  | _ => ""

end Path

/-! ## Trees -/

inductive FileTree
  | file (content : ByteArray)
  | directory (entries : List (String × FileTree))

inductive FileFault
  | notFound
  | notDirectory
  | isDirectory
  | nameTooLong
  | nulInName
  | notText
  deriving DecidableEq, Repr

def FileFault.message : FileFault → String
  | .notFound => "No such file or directory (os error 2)"
  | .notDirectory => "Not a directory (os error 20)"
  | .isDirectory => "Is a directory (os error 21)"
  | .nameTooLong => "File name too long (os error 36)"
  | .nulInName => "file name contained an unexpected NUL byte"
  | .notText => "stream did not contain valid UTF-8"

namespace FileTree

def empty : FileTree := .directory []

/-- Sets the entry of a name, keeping the order of the names. -/
def setEntry (name : String) (tree : FileTree) :
    List (String × FileTree) → List (String × FileTree)
  | [] => [(name, tree)]
  | (other, old) :: rest =>
    if name < other then (name, tree) :: (other, old) :: rest
    else if name = other then (name, tree) :: rest
    else (other, old) :: setEntry name tree rest

/-- The tree with `leaf` at the given names, making directories on the way.
A name that would lead through a file replaces it. -/
def insert (leaf : FileTree) : List String → FileTree → FileTree
  | [], _ => leaf
  | name :: rest, .directory entries =>
    .directory (setEntry name (insert leaf rest ((entries.lookup name).getD .empty)) entries)
  | name :: rest, .file _ => .directory [(name, insert leaf rest .empty)]

end FileTree

/-- What each path leads to. -/
abbrev FileView := String → Except FileFault FileTree

namespace FileView

def contains (view : FileView) (path : String) : Bool :=
  (view path).toBool

def decode (content : ByteArray) : Except FileFault String :=
  match String.fromUTF8? content with
  | some text => .ok text
  | none => .error .notText

def readText (view : FileView) (path : String) : Except FileFault String := do
  match ← view path with
  | .file content => decode content
  | .directory _ => .error .isDirectory

end FileView

end ContrastLint
