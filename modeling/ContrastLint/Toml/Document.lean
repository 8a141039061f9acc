import ContrastLint.Toml.Quoted
import ContrastLint.Toml.Scalar
import ContrastLint.Toml.Table

/-!
# TOML documents

A document is a sequence of lines.  Each is blank, a comment, a header, or a
key with a value; headers say which table the following keys belong to.
Values are nested less than eighty deep, and keys have fewer than eighty
parts.
-/

namespace ContrastLint.Toml

/-- How deep values may nest, and how many parts a key may have. -/
def maxDepth : Nat := 79

def isKeyChar (c : Char) : Bool :=
  isDecimalDigit c || ('a' ≤ c && c ≤ 'z') || ('A' ≤ c && c ≤ 'Z') || c == '-' || c == '_'

def bareKey : Scanner String := do
  let first ← Scanner.satisfy isKeyChar
  return .ofList (first :: (← Scanner.span isKeyChar))

/-- A key with the blanks around each of its parts: the path and the last
part. -/
def key : Scanner (List String × String) := do
  let part := blanks *> (lineText '"' <|> lineText '\'' <|> bareKey) <* blanks
  let parts ← Scanner.separated part (Scanner.char '.')
  if maxDepth < parts.length then failure
  match parts.reverse with
  | last :: path => return (path.reverse, last)
  | [] => failure

/-- The items of an array after its opening bracket. -/
def arrayRest (value : Scanner Value) : Scanner Value := do
  let item := gap *> value <* gap
  let items ← Scanner.optional (Scanner.separated item (Scanner.char ','))
  if items.isSome then discard (Scanner.optional (Scanner.char ','))
  gap
  Scanner.char ']'
  return .array (items.getD [])

/-- The entries of an inline table after its opening brace. -/
def inlineTableRest (value : Scanner Value) : Scanner Value := do
  let entry := do
    let name ← key
    Scanner.char '='
    return (name, ← blanks *> value <* blanks)
  let entries ← Scanner.optional (Scanner.separated entry (Scanner.char ','))
  blanks
  Scanner.char '}'
  let built ← (entries.getD []).foldlM (fun (built : Entries) ((path, key), value) =>
    built.insertValue path key value) []
  return .table (entriesToValues built)

/-- A value with at most `depth` levels of arrays and inline tables. -/
def value : Nat → Scanner Value
  | 0 => (.string <$> quotedText) <|> scalar
  | depth + 1 => do
    if ← Scanner.startsWith "[" then Scanner.char '[' *> arrayRest (value depth)
    else if ← Scanner.startsWith "\x7b" then
      Scanner.char '{' *> inlineTableRest (value depth)
    else (.string <$> quotedText) <|> scalar

/-- What one line does to a document. -/
inductive Line
  | nothing
  | table (path : List String) (key : String)
  | arrayTable (path : List String) (key : String)
  | entry (path : List String) (key : String) (value : Value)

def header : Scanner Line := do
  if ← Scanner.startsWith "[[" then
    Scanner.exactly "[["
    let (path, name) ← key
    Scanner.exactly "]]"
    lineEnd
    return .arrayTable path name
  else
    Scanner.char '['
    let (path, name) ← key
    Scanner.char ']'
    lineEnd
    return .table path name

def entryLine : Scanner Line := do
  let (path, name) ← key
  Scanner.char '='
  blanks
  let v ← value maxDepth
  lineEnd
  return .entry path name v

/-- One line that is not at the end of the text. -/
def line : Scanner Line := do
  blanks
  if ← Scanner.startsWith "[" then header
  else entryLine <|> ((do discard (Scanner.optional comment); lineBreak) *> pure .nothing) <|>
    (comment *> pure .nothing)

/-- A document under construction: its tables and the path of the table that
keys belong to. -/
structure Draft where
  entries : Entries
  current : List String

namespace Draft

def empty : Draft := ⟨[], []⟩

def add (draft : Draft) : Line → Option Draft
  | .nothing => some draft
  | .table path key => do
    return ⟨← draft.entries.openTable path key, path ++ [key]⟩
  | .arrayTable path key => do
    return ⟨← draft.entries.appendTable path key, path ++ [key]⟩
  | .entry path key value => do
    let entries ← draft.entries.within draft.current (·.insertValue path key value)
    return ⟨entries, draft.current⟩

end Draft

/-- The text without a byte order mark at its start. -/
def dropMark : List Char → List Char
  | '\uFEFF' :: rest => rest
  | text => text

def parse? (text : String) : Option (List (String × Value)) := do
  let (lines, rest) := Scanner.manyFrom line (dropMark text.toList)
  if !(rest.all isBlank) then none
  let draft ← lines.foldlM Draft.add .empty
  return entriesToValues draft.entries

end ContrastLint.Toml
