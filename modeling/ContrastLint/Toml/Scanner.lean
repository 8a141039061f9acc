/-!
# Scanners

A scanner reads a prefix of a text or fails.  Failure has no message: a
document is accepted or refused as a whole.
-/

namespace ContrastLint.Toml

abbrev Scanner := StateT (List Char) Option

namespace Scanner

variable {α β : Type}

def satisfy (p : Char → Bool) : Scanner Char
  | c :: rest => if p c then some (c, rest) else none
  | [] => none

def char (c : Char) : Scanner Unit :=
  discard (satisfy (· == c))

def exactly (word : String) : Scanner Unit := fun text =>
  if word.toList.isPrefixOf text then some ((), text.drop word.toList.length) else none

/-- The longest prefix of characters of a class. -/
def span (p : Char → Bool) : Scanner (List Char) := fun text =>
  some (text.takeWhile p, text.dropWhile p)

/-- Reads with `s`, or nothing if `s` fails. -/
def optional (s : Scanner α) : Scanner (Option α) :=
  (some <$> s) <|> pure none

def startsWith (word : String) : Scanner Bool := fun text =>
  some (word.toList.isPrefixOf text, text)

def atEnd : Scanner Bool := fun text =>
  some (text.isEmpty, text)

/-- Reads with `s` until it fails or reads nothing. -/
def manyFrom (s : Scanner α) (text : List Char) : List α × List Char :=
  match s text with
  | none => ([], text)
  | some (a, rest) =>
    if rest.length < text.length then
      let (more, rest) := manyFrom s rest
      (a :: more, rest)
    else ([], text)
  termination_by text.length

def many (s : Scanner α) : Scanner (List α) := fun text =>
  some (manyFrom s text)

/-- Items with a separator between two of them, at least one. -/
def separated (item : Scanner α) (separator : Scanner β) : Scanner (List α) := do
  let first ← item
  let rest ← many (separator *> item)
  return first :: rest

/-- Exactly `count` digits of a class. -/
def digits (isDigit : Char → Bool) : Nat → Scanner (List Char)
  | 0 => return []
  | count + 1 => do
    let digit ← satisfy isDigit
    return digit :: (← digits isDigit count)

/-- Digits of a class with single underscores between them, which are left
out. -/
def digitRun (isDigit : Char → Bool) : Scanner (List Char) := do
  let first ← satisfy isDigit
  let rest ← many (optional (char '_') *> satisfy isDigit)
  return first :: rest

end Scanner

def isBlank (c : Char) : Bool :=
  c == ' ' || c == '\t'

def blanks : Scanner Unit :=
  discard (Scanner.span isBlank)

/-- A line feed, or a carriage return before one. -/
def lineBreak : Scanner Unit :=
  Scanner.char '\n' <|> Scanner.exactly "\r\n"

/-- Characters that may stand in a comment or in a quoted text: no control
but the tab. -/
def isTextChar (c : Char) : Bool :=
  c == '\t' || (0x20 ≤ c.toNat && c.toNat != 0x7F)

def comment : Scanner Unit := do
  Scanner.char '#'
  discard (Scanner.span isTextChar)

/-- The rest of a line that has nothing more to say. -/
def lineEnd : Scanner Unit := do
  blanks
  discard (Scanner.optional comment)
  if ← Scanner.atEnd then return
  lineBreak

/-- Blanks, comments and line breaks between the items of an array. -/
def gap : Scanner Unit := do
  blanks
  discard (Scanner.many (discard (Scanner.optional comment) *> lineBreak *> blanks))

end ContrastLint.Toml
