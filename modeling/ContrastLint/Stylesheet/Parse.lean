import ContrastLint.Stylesheet.Glyph
import ContrastLint.Stylesheet.Document
import ContrastLint.Stylesheet.Segment

/-!
# Reading a stylesheet

A text is read in steps, each of them a function on its own: comments are
blanked, the characters become glyphs, the glyphs are cut into segments, and
every segment yields at most one node.  A segment that starts with `@` is an
at-rule, one that ends in a block is a rule, and any other is a declaration
or nothing.

A document is read with byte offsets for places.  `parse` then locates the
offsets in the text as it was given; blanking its comments has not moved
them.
-/

namespace ContrastLint

/-- Reads a declaration, placed at its first character that is not white. -/
def Declaration.ofGlyphs? (glyphs : List Glyph) : Option (Declaration Nat) := do
  let assignment ← Assignment.read? (Glyph.chars glyphs)
  let first ← (glyphs.dropWhile (Text.isWhite ·.char)).head?
  return { toAssignment := assignment, place := first.offset }

/-- The declaration in a segment of a rule's body.  A segment that ends in a
block is a nested rule and declares nothing. -/
def Declaration.ofSegment? (segment : Segment) : Option (Declaration Nat) :=
  match segment.block with
  | some _ => none
  | none => ofGlyphs? segment.text

/-- Reads what follows the `@` of an at-rule.  The name ends at white space
or at an opening parenthesis. -/
def AtRule.read (text : List Char) (block : Option (List Char)) (place : Nat) : AtRule Nat :=
  let endsName := fun c => Text.isWhite c || c == '('
  let text := Text.trim text
  { name := .ofList (text.takeWhile (!endsName ·))
    params := .ofList (Text.trim (text.dropWhile (!endsName ·)))
    block := block.map .ofList
    place }

def Rule.read (selector : List Char) (body : List Glyph) (place : Nat) :
    Except Fault (Rule Nat) := do
  let segments ← Segment.cut body
  return { selector := .ofList selector
           declarations := segments.filterMap Declaration.ofSegment?
           place }

/-- The node that a top-level segment yields, if it yields one. -/
def Node.ofSegment? (segment : Segment) : Except Fault (Option (Node Nat)) :=
  match Text.trim (Glyph.chars segment.text), segment.block with
  | '@' :: text, block =>
    .ok (some (.atRule (.read text (block.map Glyph.chars) segment.offset)))
  | selector, some body =>
    (some ∘ .rule) <$> Rule.read selector body segment.offset
  | _, none =>
    .ok ((Declaration.ofGlyphs? segment.text).map .declaration)

namespace Document

def ofBlanked (text : List Char) : Except Fault (Document Nat) := do
  let segments ← Segment.cut (Glyph.ofChars text)
  let nodes ← segments.mapM Node.ofSegment?
  return ⟨nodes.filterMap id⟩

/-- Reads a stylesheet with byte offsets for places. -/
def read (text : List Char) : Except Fault (Document Nat) := do
  ofBlanked (← Comment.blank text)

/-- Turns byte offsets in a text into positions. -/
def locate (text : List Char) (doc : Document Nat) : Document Position :=
  (doc.mapM Locator.locate |>.run (.ofText text)).1

end Document

def parse (css : String) : Except ParseError (Document Position) :=
  match Document.read css.toList with
  | .ok doc => .ok (doc.locate css.toList)
  | .error fault => .error (fault.locate css.toList)

end ContrastLint
