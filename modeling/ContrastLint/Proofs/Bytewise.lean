import ContrastLint.Proofs.Bytes
import ContrastLint.Stylesheet.Parse

/-!
# A reader of stylesheets over bytes

The same language as that of the reader of stylesheets, read in another way: by
offsets into the bytes of the text, which are compared with ASCII characters,
and by slices between such offsets.  Strings, blocks and stops are searched by
loops that move an offset.  A backslash in a string moves it by two bytes, so
that it may come to stand inside a character or beyond a limit.

Positions are looked up as soon as they are known, for a fault when it is found.
Which offsets were looked up is kept beside the result, also when that is a fault.
-/

namespace ContrastLint.Bytewise

/-! ## Searches in a text -/

def find? (p : Char → Bool) : List Char → Option Nat
  | [] => none
  | c :: rest => if p c then some 0 else (find? p rest).map (c.utf8Size + ·)

/-- The byte offset of the first star and slash. -/
def findClose? : List Char → Option Nat
  | [] => none
  | '*' :: '/' :: _ => some 0
  | c :: rest => (findClose? rest).map (c.utf8Size + ·)

/-- The whole text is a mark `!important`, in any case and with white space around
and inside it. -/
def isMark (text : List Char) : Bool :=
  match text.dropWhile Text.isWhite with
  | '!' :: rest =>
    let word := rest.dropWhile Text.isWhite
    (word.take 9).map Char.toLower == "important".toList && (word.drop 9).all Text.isWhite
  | _ => false

/-- The byte offset where the first mark at the end of a text begins. -/
def findMark? : List Char → Option Nat
  | [] => none
  | c :: rest => if isMark (c :: rest) then some 0 else (findMark? rest).map (c.utf8Size + ·)

/-! ## Comments -/

/-- Where a reader of comments stands: what it has put out, up to which byte it has
copied the text, and the quote of the string it is in. -/
structure Stripper where
  out : List Char := []
  copied : Nat := 0
  quote : Option UInt8 := none

def isQuoteByte (b : UInt8) : Bool :=
  b == '"'.toUInt8 || b == '\''.toUInt8

def blankByte (b : UInt8) : Char :=
  if b = '\n'.toUInt8 then '\n' else ' '

namespace Stripper

/-- Puts out what is pending and then, blanked, the comment that opens at `i`. -/
def comment (text : List Char) (s : Stripper) (i : Nat) :
    Checked Fault (Round Stripper (List Char)) := do
  match findClose? (← sliceFrom text (i + 2)) with
  | none => raise ⟨.unclosedComment, i⟩
  | some length =>
    let stop := i + 2 + length + 2
    let kept ← slice text s.copied i
    let comment ← sliceBytes text i stop
    return .next { out := s.out ++ kept ++ comment.map blankByte, copied := stop } stop

def act (text : List Char) (s : Stripper) (i : Nat) (b : UInt8) :
    Checked Fault (Round Stripper (List Char)) :=
  match s.quote with
  | some quote =>
    if b = '\\'.toUInt8 then .ok (.next s (i + 2))
    else if b = quote ∨ b = '\n'.toUInt8 then .ok (.next { s with quote := none } (i + 1))
    else .ok (.next s (i + 1))
  | none =>
    if isQuoteByte b then .ok (.next { s with quote := some b } (i + 1))
    else if b = '/'.toUInt8 ∧ (bytes text)[i + 1]? = some '*'.toUInt8 then s.comment text i
    else .ok (.next s (i + 1))

def finish (text : List Char) (s : Stripper) : Checked Fault (List Char) := do
  return s.out ++ (← sliceFrom text s.copied)

end Stripper

def stripComments (text : List Char) : Checked Fault (List Char) :=
  walk text (bytes text).length (Stripper.act text) (Stripper.finish text) {} 0

/-! ## Blanks, strings, stops and blocks -/

def isBlankByte (b : UInt8) : Bool :=
  b == ' '.toUInt8 || b == '\t'.toUInt8 || b == '\n'.toUInt8 || b == '\r'.toUInt8 ||
    b == '\x0c'.toUInt8

def blankAct (_ i : Nat) (b : UInt8) : Checked Fault (Round Nat Nat) :=
  .ok (if isBlankByte b then .next (i + 1) (i + 1) else .done i)

/-- The first byte from `start` on that is no blank, or the first one that is not
below the limit. -/
def skipBlanks (text : List Char) (start limit : Nat) : Checked Fault Nat :=
  walk text limit blankAct .ok start start

/-- One round of the search for the end of the string that `quote` has opened. -/
def stringAct (opener : Nat) (quote : UInt8) (_ : Unit) (i : Nat) (b : UInt8) :
    Checked Fault (Round Unit Nat) :=
  if b = '\\'.toUInt8 then .ok (.next () (i + 2))
  else if b = '\n'.toUInt8 then raise ⟨.unclosedString, opener⟩
  else if b = quote then .ok (.done (i + 1))
  else .ok (.next () (i + 1))

/-- The byte after the string whose quote is at `opener`. -/
def skipString (text : List Char) (opener limit : Nat) : Checked Fault Nat := do
  walk text limit (stringAct opener (← byteAt text opener))
    (fun () => raise ⟨.unclosedString, opener⟩) () (opener + 1)

def scanAct (text : List Char) (stops : List UInt8) (limit depth i : Nat) (b : UInt8) :
    Checked Fault (Round Nat (Nat × Option UInt8)) :=
  if isQuoteByte b then .next depth <$> skipString text i limit
  else if (b = '{'.toUInt8 ∨ b = '}'.toUInt8) ∧ b ∈ stops then .ok (.done (i, some b))
  else if b = '('.toUInt8 then .ok (.next (depth + 1) (i + 1))
  else if b = ')'.toUInt8 then .ok (.next (depth - 1) (i + 1))
  else if depth = 0 ∧ b ∈ stops then .ok (.done (i, some b))
  else .ok (.next depth (i + 1))

/-- The first stop, and where it is.  Braces are stops anywhere, other bytes only
outside parentheses. -/
def scan (text : List Char) (stops : List UInt8) (start limit : Nat) :
    Checked Fault (Nat × Option UInt8) :=
  walk text limit (scanAct text stops limit) (fun _ => .ok (limit, none)) 0 start

def blockAct (text : List Char) (depth i : Nat) (b : UInt8) : Checked Fault (Round Nat Nat) :=
  if isQuoteByte b then .next depth <$> skipString text i (bytes text).length
  else if b = '{'.toUInt8 then .ok (.next (depth + 1) (i + 1))
  else if b = '}'.toUInt8 then do
    let depth ← subtract depth 1
    return if depth = 0 then .done i else .next depth (i + 1)
  else .ok (.next depth (i + 1))

/-- The brace that closes the block whose brace is at `opener`. -/
def findBlockEnd (text : List Char) (opener : Nat) : Checked Fault Nat :=
  walk text (bytes text).length (blockAct text) (fun _ => raise ⟨.unclosedBlock, opener⟩) 0 opener

/-! ## Documents -/

/-- A locator, and the offsets that were looked up with it, in this order. -/
structure Inquiry where
  locator : Locator
  offsets : List Nat

/-- A program that looks up positions. -/
abbrev Reader := ExceptT (Halt ParseError) (StateM Inquiry)

/-- The position of an offset, and the locator with its cursor there. -/
def seek (loc : Locator) (offset : Nat) : Checked ParseError (Position × Locator) := do
  let offset := min offset loc.size
  let line := loc.lineOf offset
  let lineStart ← entry loc.lines.toList (← subtract line 1)
  let origin := loc.origin lineStart offset
  let bytesBefore ← subtract offset origin.offset
  let point : Point :=
    match origin.skip? offset with
    | some (count, rest) => ⟨offset, origin.column + count, some rest⟩
    | none => ⟨offset, origin.column + bytesBefore, (lineStart.skip? offset).map (·.2)⟩
  return (⟨offset, line, point.column + 1⟩, { loc with cursor := point })

def position (offset : Nat) : Reader Position := fun q =>
  let offsets := q.offsets ++ [offset]
  match seek q.locator offset with
  | .ok (place, locator) => (.ok place, { locator, offsets })
  | .error halt => (.error halt, { q with offsets })

/-- Goes on with the result of a search or a slice, or looks up where its fault is. -/
def checked {α : Type} (x : Checked Fault α) : Reader α :=
  match x with
  | .ok a => return a
  | .error (.trap t) => throw (.trap t)
  | .error (.fault fault) => do
    throw (.fault ⟨fault.defect, ← position fault.offset⟩)

def nameAndParams (text : List Char) : Checked Fault (List Char × List Char) := do
  match find? (fun c => Text.isWhite c || c == '(') text with
  | some i => return (← slice text 0 i, Text.trim (← sliceFrom text i))
  | none => return (text, [])

def atRule (text : List Char) (block : Option (List Char)) (start : Nat) :
    Reader (AtRule Position) := do
  let (name, params) ← checked (nameAndParams (Text.trim text))
  let place ← position start
  return ⟨.ofList name, .ofList params, block.map .ofList, place⟩

def assignment? (raw : List Char) : Checked Fault (Option Assignment) := do
  match find? (· == ':') raw with
  | none => return none
  | some colon =>
    let property := Text.trim (← slice raw 0 colon)
    if property.isEmpty then return none
    let value := Text.trim (← sliceFrom raw (colon + 1))
    match findMark? value with
    | some mark =>
      let stem ← slice value 0 mark
      return some ⟨.ofList property, .ofList (Text.trimEnd stem), true⟩
    | none => return some ⟨.ofList property, .ofList value, false⟩

def declaration (text : List Char) (start stop : Nat) :
    Reader (Option (Declaration Position)) := do
  let raw ← checked (slice text start stop)
  match ← checked (assignment? raw) with
  | none => return none
  | some assignment =>
    let lead ← checked (subtract (bytes raw).length (bytes (Text.trimStart raw)).length)
    return some { toAssignment := assignment, place := ← position (start + lead) }

def bodyStops : List UInt8 := [';'.toUInt8, '{'.toUInt8]

def sheetStops : List UInt8 := ['{'.toUInt8, '}'.toUInt8, ';'.toUInt8]

def ruleBody (text : List Char) (limit : Nat) (declarations : List (Declaration Position))
    (start : Nat) :
    Reader (Round (List (Declaration Position)) (List (Declaration Position))) := do
  let start ← checked (skipBlanks text start limit)
  if limit ≤ start then return .done declarations
  let (stop, sign) ← checked (scan text bodyStops start limit)
  if sign = some '{'.toUInt8 then
    let close ← checked (findBlockEnd text stop)
    return .next declarations (close + 1)
  let declared ← declaration text start stop
  return .next (declarations ++ declared.toList) (stop + 1)

def rule (text selector : List Char) (bodyStart bodyEnd start : Nat) : Reader (Rule Position) := do
  let place ← position start
  let declarations ← loop bodyEnd (ruleBody text bodyEnd) pure [] bodyStart
  return ⟨.ofList selector, declarations, place⟩

/-- The node whose block opens at `stop` and closes at `close`. -/
def blockNode (text : List Char) (start stop close : Nat) : Reader (Node Position) := do
  match Text.trim (← checked (slice text start stop)) with
  | '@' :: rest => .atRule <$> atRule rest (some (← checked (slice text (stop + 1) close))) start
  | selector => .rule <$> rule text selector (stop + 1) close start

/-- The node without a block up to `stop`, if there is one. -/
def plainNode? (text : List Char) (start stop : Nat) : Reader (Option (Node Position)) := do
  match Text.trim (← checked (slice text start stop)) with
  | '@' :: rest => (fun a => some (.atRule a)) <$> atRule rest none start
  | _ => (fun d => d.map .declaration) <$> declaration text start stop

def sheetBody (text : List Char) (limit : Nat) (nodes : List (Node Position)) (start : Nat) :
    Reader (Round (List (Node Position)) (List (Node Position))) := do
  let start ← checked (skipBlanks text start limit)
  if limit ≤ start then return .done nodes
  let (stop, sign) ← checked (scan text sheetStops start limit)
  if sign = some '{'.toUInt8 then
    let close ← checked (findBlockEnd text stop)
    let node ← blockNode text start stop close
    return .next (nodes ++ [node]) (close + 1)
  else if sign = some '}'.toUInt8 then
    checked (raise ⟨.unexpectedClose, stop⟩)
  else
    let node? ← plainNode? text start stop
    return .next (nodes ++ node?.toList) (stop + 1)

def document (text : List Char) : Reader (Document Position) := do
  let limit := (bytes text).length
  return ⟨← loop limit (sheetBody text limit) pure [] 0⟩

/-- Reads a stylesheet, whose lines the locator knows. -/
def sheet (css : List Char) : Reader (Document Position) := do
  document (← checked (stripComments css))

/-- Reads a stylesheet.  Ends with a document or a fault, or with a trap if there was
one on the way. -/
def parse (css : String) : Checked ParseError (Document Position) :=
  ((sheet css.toList).run.run ⟨.ofText css.toList, []⟩).1

/-- The offsets that are looked up to read a stylesheet. -/
def lookups (css : List Char) : List Nat :=
  ((sheet css).run.run ⟨.ofText css, []⟩).2.offsets

end ContrastLint.Bytewise
