import ContrastLint.Text.CharClass
import ContrastLint.Toml.Scanner

/-!
# Quoted texts of TOML

A text in double quotes has escapes and one in single quotes has none; either
kind may be tripled and then span lines.  A quoted text is read in two steps:
first up to its closing quotes, then escape by escape.
-/

namespace ContrastLint.Toml

/-- What stands before the closing quote on one line, and what follows it. -/
def untilQuote (quote : Char) (escapes : Bool) : List Char → Option (List Char × List Char)
  | [] => none
  | c :: rest =>
    if c = quote then some ([], rest)
    else if c = '\\' ∧ escapes then
      match rest with
      | [] => none
      | d :: rest =>
        (untilQuote quote escapes rest).map fun (text, rest) => (c :: d :: text, rest)
    else (untilQuote quote escapes rest).map fun (text, rest) => (c :: text, rest)

/-- What stands before three closing quotes, and what follows them.  Up to
two more quotes directly before the closing ones belong to the text. -/
def untilQuotes (quote : Char) (escapes : Bool) : List Char → Option (List Char × List Char)
  | [] => none
  | c :: rest =>
    if [quote, quote, quote].isPrefixOf (c :: rest) then
      let extra := ((rest.drop 2).takeWhile (· == quote)).take 2
      some (extra, (rest.drop 2).drop extra.length)
    else if c = '\\' ∧ escapes then
      match rest with
      | [] => none
      | d :: rest =>
        (untilQuotes quote escapes rest).map fun (text, rest) => (c :: d :: text, rest)
    else (untilQuotes quote escapes rest).map fun (text, rest) => (c :: text, rest)

/-- The text with every line break written as a line feed; a carriage return
stands only before a line feed. -/
def joinLineBreaks : List Char → Option (List Char)
  | [] => some []
  | '\r' :: '\n' :: rest => ('\n' :: ·) <$> joinLineBreaks rest
  | c :: rest => if c = '\r' then none else (c :: ·) <$> joinLineBreaks rest

inductive EscapeState
  | text
  | escape
  /-- In a code point with so many digits to come and this value so far. -/
  | code (digits value : Nat)
  /-- In the blanks after a backslash at the end of a line. -/
  | lineGap (broken : Bool)
  deriving DecidableEq, Repr

namespace EscapeState

/-- Reads a character outside escapes. -/
def readText (multiline : Bool) (c : Char) : Option (EscapeState × Option Char) :=
  if c = '\\' then some (.escape, none)
  else if isTextChar c ∨ (multiline ∧ c = '\n') then some (.text, some c)
  else none

/-- Reads one character and yields at most one. -/
def next (multiline : Bool) : EscapeState → Char → Option (EscapeState × Option Char)
  | .text, c => readText multiline c
  | .escape, c =>
    match c with
    | 'b' => some (.text, some '\x08')
    | 't' => some (.text, some '\t')
    | 'n' => some (.text, some '\n')
    | 'f' => some (.text, some '\x0c')
    | 'r' => some (.text, some '\r')
    | '"' => some (.text, some '"')
    | '\\' => some (.text, some '\\')
    | 'u' => some (.code 4 0, none)
    | 'U' => some (.code 8 0, none)
    | _ =>
      if multiline ∧ isBlank c then some (.lineGap false, none)
      else if multiline ∧ c = '\n' then some (.lineGap true, none)
      else none
  | .code digits value, c => do
    let value := 16 * value + (← Text.hexValue? c)
    if 1 < digits then return (.code (digits - 1) value, none)
    else if value.isValidChar then return (.text, some (.ofNat value))
    else none
  | .lineGap broken, c =>
    if isBlank c then some (.lineGap broken, none)
    else if c = '\n' then some (.lineGap true, none)
    else if broken then readText multiline c
    else none

end EscapeState

/-- The text that escapes stand for, read from a state on. -/
def unescapeFrom (multiline : Bool) : EscapeState → List Char → Option (List Char)
  | .text, [] => some []
  | .lineGap true, [] => some []
  | _, [] => none
  | state, c :: rest => do
    let (state, read?) ← state.next multiline c
    let text ← unescapeFrom multiline state rest
    return match read? with
      | some c => c :: text
      | none => text

def lineText (quote : Char) : Scanner String := do
  Scanner.char quote
  let escapes := quote == '"'
  let text ← (untilQuote quote escapes : Scanner (List Char))
  if escapes then return .ofList (← unescapeFrom false .text text)
  else if text.all isTextChar then return .ofList text
  else failure

/-- The text between tripled quotes.  A line break right after the opening
quotes is left out. -/
def linesText (quote : Char) : Scanner String := do
  Scanner.exactly (.ofList [quote, quote, quote])
  let escapes := quote == '"'
  discard (Scanner.optional lineBreak)
  let text ← joinLineBreaks (← (untilQuotes quote escapes : Scanner (List Char)))
  if escapes then return .ofList (← unescapeFrom true .text text)
  else if text.all (fun c => isTextChar c || c == '\n') then return .ofList text
  else failure

def quotedText : Scanner String := do
  if ← Scanner.startsWith "\"\"\"" then linesText '"'
  else if ← Scanner.startsWith "'''" then linesText '\''
  else lineText '"' <|> lineText '\''

end ContrastLint.Toml
