import ContrastLint.Text.CharClass
import ContrastLint.Text.Position

/-!
# Comments and glyphs

Only unbalanced braces and unterminated comments or strings make a text
unreadable.  A `Fault` names the defect at a byte offset; a `ParseError`
names it at a position.

A comment runs from a slash and star outside a quoted string to the first
star and slash after them.  Comments are blanked and not removed: every byte
becomes a space and line feeds stay, so that offsets and lines do not change.

A glyph is a character of a stylesheet with its byte offset and its sign,
which says what the character does to the structure of the text.  Quoted
strings are recognised once, here: whatever stands in a string has the
ordinary sign, and a quote whose string is not closed on its line has a sign
of its own.  Everything that reads structure looks at signs alone.
-/

namespace ContrastLint

/-! ## Faults -/

inductive Defect
  | unclosedBlock
  | unexpectedClose
  | unclosedComment
  | unclosedString
  deriving DecidableEq, Repr

structure Fault where
  defect : Defect
  offset : Nat
  deriving DecidableEq, Repr

structure ParseError where
  defect : Defect
  position : Position
  deriving DecidableEq, Repr

namespace ParseError

def message (e : ParseError) : String :=
  match e.defect with
  | .unclosedBlock => "Unclosed block opened at " ++ e.position.describe
  | .unexpectedClose => "Unexpected '\x7d' at " ++ e.position.describe
  | .unclosedComment => "Unclosed comment opened at " ++ e.position.describe
  | .unclosedString => "Unclosed string opened at " ++ e.position.describe

end ParseError

def Fault.locate (text : List Char) (fault : Fault) : ParseError :=
  ⟨fault.defect, Position.locate text fault.offset⟩

/-! ## Comments -/

namespace Comment

/-- Where a reader of comments stands. -/
inductive Mode
  | sheet
  /-- In a string opened by `quote`. -/
  | string (quote : Char)
  /-- In the comment that opened at the byte `opener`. -/
  | comment (opener : Nat)
  deriving DecidableEq, Repr

/-- What stands in for one character of a comment. -/
def blankChar (c : Char) : List Char :=
  if c = '\n' then ['\n'] else List.replicate c.utf8Size ' '

/-- Blanks the comments of a text whose first character is at the byte
`offset`.  Here a string ends at its quote or, silently, at a line feed; a
backslash in a string hides the character after it. -/
def blankFrom : Mode → Nat → List Char → Except Fault (List Char)
  | .comment opener, _, [] => .error ⟨.unclosedComment, opener⟩
  | _, _, [] => .ok []
  | .sheet, offset, '/' :: '*' :: rest =>
      (' ' :: ' ' :: ·) <$> blankFrom (.comment offset) (offset + 2) rest
  | .sheet, offset, c :: rest =>
      (c :: ·) <$> blankFrom (if Text.isQuote c then .string c else .sheet)
        (offset + c.utf8Size) rest
  | .string quote, offset, '\\' :: c :: rest =>
      ('\\' :: c :: ·) <$> blankFrom (.string quote) (offset + 1 + c.utf8Size) rest
  | .string quote, offset, c :: rest =>
      (c :: ·) <$> blankFrom (if c = quote ∨ c = '\n' then .sheet else .string quote)
        (offset + c.utf8Size) rest
  | .comment _, offset, '*' :: '/' :: rest =>
      (' ' :: ' ' :: ·) <$> blankFrom .sheet (offset + 2) rest
  | .comment opener, offset, c :: rest =>
      (blankChar c ++ ·) <$> blankFrom (.comment opener) (offset + c.utf8Size) rest

/-- The text with its comments blanked, or the first comment that is not
closed. -/
def blank (text : List Char) : Except Fault (List Char) :=
  blankFrom .sheet 0 text

end Comment

/-! ## Glyphs -/

inductive Sign
  | ordinary
  | openBrace
  | closeBrace
  | openParen
  | closeParen
  | semicolon
  | unclosedQuote
  deriving DecidableEq, Repr

/-- The sign of a character outside strings. -/
def Sign.ofChar : Char → Sign
  | '{' => .openBrace
  | '}' => .closeBrace
  | '(' => .openParen
  | ')' => .closeParen
  | ';' => .semicolon
  | _ => .ordinary

structure Glyph where
  offset : Nat
  char : Char
  sign : Sign
  deriving DecidableEq, Repr

namespace Glyph

/-- Whether a string that `quote` has opened is closed by the text that
follows.  It is not if the line ends first; a backslash hides the character
after it, be it a quote or a line feed. -/
def closes (quote : Char) : List Char → Bool
  | [] => false
  | '\\' :: _ :: rest => closes quote rest
  | c :: rest => if c = '\n' then false else c == quote || closes quote rest

/-- The glyphs of a text at the byte `offset`, inside the string that a quote
has opened or, with `none`, outside strings. -/
def ofCharsFrom : Option Char → Nat → List Char → List Glyph
  | _, _, [] => []
  | none, offset, c :: rest =>
      if Text.isQuote c then
        if closes c rest then
          ⟨offset, c, .ordinary⟩ :: ofCharsFrom (some c) (offset + c.utf8Size) rest
        else
          ⟨offset, c, .unclosedQuote⟩ :: ofCharsFrom none (offset + c.utf8Size) rest
      else
        ⟨offset, c, .ofChar c⟩ :: ofCharsFrom none (offset + c.utf8Size) rest
  | some quote, offset, '\\' :: c :: rest =>
      ⟨offset, '\\', .ordinary⟩ :: ⟨offset + 1, c, .ordinary⟩ ::
        ofCharsFrom (some quote) (offset + 1 + c.utf8Size) rest
  | some quote, offset, c :: rest =>
      ⟨offset, c, .ordinary⟩ ::
        ofCharsFrom (if c = quote then none else some quote) (offset + c.utf8Size) rest

def ofChars (text : List Char) : List Glyph :=
  ofCharsFrom none 0 text

def chars (glyphs : List Glyph) : List Char :=
  glyphs.map Glyph.char

end Glyph

end ContrastLint
