/-!
# Positions in a text

A position names a place between two characters in three ways: by the number
of bytes before it, by its line, and by its column in characters.  Lines and
columns count from one.

A `Locator` finds the positions of byte offsets.  It has a table of the lines
of its text, and it remembers the last place it found, from which a later
offset on the same line is counted on.  So a sequence of ascending offsets
costs one walk over the whole text, even when the text is a single long line.
-/

namespace ContrastLint

structure Position where
  offset : Nat
  line : Nat
  column : Nat
  deriving DecidableEq, Repr, Inhabited

def Position.describe (p : Position) : String :=
  s!"{p.line}:{p.column}"

namespace Text

/-- Skips a number of bytes.  Returns the number of characters that they are,
added to `count`, and the text after them.  Fails if the bytes end inside a
character or do not end in the text. -/
def skipBytes? : Nat → Nat → List Char → Option (Nat × List Char)
  | count, 0, text => some (count, text)
  | _, _ + 1, [] => none
  | count, bytes + 1, c :: text =>
      if c.utf8Size ≤ bytes + 1 then skipBytes? (count + 1) (bytes + 1 - c.utf8Size) text
      else none

end Text

/-- The first number from `low` up to `high` that does not satisfy `p`, found
by halving, if all numbers below it do and none above it does. -/
def partitionPoint (p : Nat → Bool) (low high : Nat) : Nat :=
  if low < high then
    let middle := (low + high) / 2
    if p middle then partitionPoint p (middle + 1) high else partitionPoint p low middle
  else low
  termination_by high - low

/-- A byte offset in a text, the number of characters before it on its line,
and the text from there on, which there is none inside a character. -/
structure Point where
  offset : Nat
  column : Nat
  rest : Option (List Char)

namespace Point

def ofText (text : List Char) : Point := ⟨0, 0, some text⟩

/-- The number of characters from a point to a byte offset, and the text from
that offset on. -/
def skip? (p : Point) (offset : Nat) : Option (Nat × List Char) :=
  p.rest.bind (Text.skipBytes? 0 (offset - p.offset))

/-- The starts of the lines after the first one. -/
def lineStarts : Nat → List Char → List Point
  | _, [] => []
  | offset, c :: text =>
      if c = '\n' then ⟨offset + 1, 0, some text⟩ :: lineStarts (offset + 1) text
      else lineStarts (offset + c.utf8Size) text

end Point

/-- A text, by its length in bytes and the starts of its lines, with a cursor
in it: the last point found. -/
structure Locator where
  size : Nat
  lines : Array Point
  cursor : Point

namespace Locator

def ofText (text : List Char) : Locator where
  size := text.foldr (fun c size => c.utf8Size + size) 0
  lines := (.ofText text :: Point.lineStarts 0 text).toArray
  cursor := .ofText text

/-- The number of lines that start at or before a byte offset. -/
def lineOf (loc : Locator) (offset : Nat) : Nat :=
  partitionPoint (fun i => (loc.lines[i]?).any (·.offset ≤ offset)) 0 loc.lines.size

/-- The start of a line; lines count from one. -/
def lineStart (loc : Locator) (line : Nat) : Point :=
  loc.lines.getD (line - 1) loc.cursor

/-- Where the characters before an offset are counted on from: the cursor, if it
stands on the same line and not behind the offset, and else the line's start. -/
def origin (loc : Locator) (lineStart : Point) (offset : Nat) : Point :=
  if lineStart.offset ≤ loc.cursor.offset ∧ loc.cursor.offset ≤ offset then loc.cursor
  else lineStart

/-- Finds the position of a byte offset and leaves the cursor there.  Inside a
character, where characters cannot be counted, bytes are. -/
def locate (offset : Nat) : StateM Locator Position := fun loc =>
  let offset := min offset loc.size
  let line := loc.lineOf offset
  let lineStart := loc.lineStart line
  let origin := loc.origin lineStart offset
  let point : Point :=
    match origin.skip? offset with
    | some (count, rest) => ⟨offset, origin.column + count, some rest⟩
    | none =>
      ⟨offset, origin.column + (offset - origin.offset), (lineStart.skip? offset).map (·.2)⟩
  (⟨offset, line, point.column + 1⟩, { loc with cursor := point })

end Locator

/-- The position of a byte offset in a text. -/
def Position.locate (text : List Char) (offset : Nat) : Position :=
  ((Locator.locate offset).run (.ofText text)).1

end ContrastLint
