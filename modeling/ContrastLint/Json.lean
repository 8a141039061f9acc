import ContrastLint.Decimal
import ContrastLint.Text.CharClass

/-!
# JSON

A JSON value keeps integers apart from other numbers, because a position or a
colour channel is an integer and nothing else.  The fields of an object keep
their order, and a key may be repeated; `field?` takes the first with its name.

This file also says how typed data are read from a value, and how a value is
written.
-/

namespace ContrastLint

inductive Json
  | null
  | bool (value : Bool)
  | integer (value : Int)
  | real (value : Float)
  | string (value : String)
  | array (items : List Json)
  | object (fields : List (String × Json))

namespace Json

def natural (n : Nat) : Json := .integer n

def ofString? : Option String → Json
  | some s => .string s
  | none => .null

def field? (fields : List (String × Json)) (key : String) : Option Json :=
  fields.lookup key

/-- How often an object has a key. -/
def occurrences (fields : List (String × Json)) (key : String) : Nat :=
  (fields.map Prod.fst).count key

/-- The value under a key, if there is one.  Fails if the key is repeated. -/
def fieldOnce? (fields : List (String × Json)) (key : String) : Option (Option Json) :=
  if occurrences fields key ≤ 1 then some (field? fields key) else none

/-! ## Reading typed data

A record is read from an object, whose other fields are ignored, or from an
array of exactly its values in order.  A variant is read from an object whose
tag field names it, or from an array that begins with the tag.  A key that is
read must not be repeated.  An integer is read from an integer alone, and only
within the range of its type. -/

/-- The integers from zero below this bound fit in a machine word. -/
def wordBound : Nat := 0x10000000000000000

/-- The integers from zero below this bound fit in a byte. -/
def byteBound : Nat := 0x100

def below? (bound : Nat) : Json → Option Nat
  | .integer n => if 0 ≤ n ∧ n < bound then some n.toNat else none
  | _ => none

def word? (j : Json) : Option Nat :=
  j.below? wordBound

def byte? (j : Json) : Option UInt8 :=
  (j.below? byteBound).map .ofNat

def bool? : Json → Option Bool
  | .bool b => some b
  | _ => none

def string? : Json → Option String
  | .string s => some s
  | _ => none

/-- A floating point number; an integer stands for the nearest one. -/
def real? : Json → Option Float
  | .real x => some x
  | .integer n => some (Decimal.nearest (n < 0) n.natAbs 0)
  | _ => none

def listOf? {α : Type} (item? : Json → Option α) : Json → Option (List α)
  | .array items => items.mapM item?
  | _ => none

/-- An optional value: null or nothing at all stands for none. -/
def optional? {α : Type} (item? : Json → Option α) : Option Json → Option (Option α)
  | none => some none
  | some .null => some none
  | some j => (item? j).map some

def record? (keys : List String) : Json → Option (List (Option Json))
  | .object fields => keys.mapM (fieldOnce? fields)
  | .array items => if items.length = keys.length then some (items.map some) else none
  | _ => none

/-- The tag of a variant with what holds its fields. -/
def variant? (tagKey : String) : Json → Option (String × Json)
  | .object fields => do
    let tag ← string? (← (← fieldOnce? fields tagKey))
    return (tag, .object fields)
  | .array (first :: rest) => do
    let tag ← string? first
    return (tag, .array rest)
  | _ => none

/-! ## Writing

The wide layout puts every item on a line of its own, indented by two
spaces; the narrow layout has no white space at all.  Control characters,
quotes and backslashes are escaped and every other character is written as
it is.  A number that JSON cannot express is written as null. -/

def escapeChar (c : Char) : List Char :=
  match c with
  | '"' => ['\\', '"']
  | '\\' => ['\\', '\\']
  | '\n' => ['\\', 'n']
  | '\r' => ['\\', 'r']
  | '\t' => ['\\', 't']
  | '\x08' => ['\\', 'b']
  | '\x0c' => ['\\', 'f']
  | c =>
    if c.toNat < 0x20 then '\\' :: 'u' :: '0' :: '0' :: Text.hexByte (.ofNat c.toNat) else [c]

def quote (s : String) : String :=
  "\"" ++ .ofList (s.toList.flatMap escapeChar) ++ "\""

def realText (x : Float) : String :=
  (Decimal.data? x).getD "null"

def indent (depth : Nat) : String :=
  .ofList (List.replicate (2 * depth) ' ')

/-- Items between two brackets, each on a line of its own at `depth + 1`. -/
def wideLines (opening closing : String) (depth : Nat) (lines : List String) : String :=
  if lines.isEmpty then opening ++ closing
  else
    opening ++ "\n" ++ indent (depth + 1) ++
      (",\n" ++ indent (depth + 1)).intercalate lines ++ "\n" ++ indent depth ++ closing

mutual

/-- The wide layout of a value that stands at `depth`. -/
def wideAt (depth : Nat) : Json → String
  | .null => "null"
  | .bool value => toString value
  | .integer value => toString value
  | .real value => realText value
  | .string value => quote value
  | .array items => wideLines "[" "]" depth (wideItems (depth + 1) items)
  | .object fields => wideLines "\x7b" "\x7d" depth (wideFields (depth + 1) fields)

def wideItems (depth : Nat) : List Json → List String
  | [] => []
  | item :: rest => wideAt depth item :: wideItems depth rest

def wideFields (depth : Nat) : List (String × Json) → List String
  | [] => []
  | (key, value) :: rest =>
    (quote key ++ ": " ++ wideAt depth value) :: wideFields depth rest

end

def wide (value : Json) : String :=
  wideAt 0 value

mutual

def narrow : Json → String
  | .null => "null"
  | .bool value => toString value
  | .integer value => toString value
  | .real value => realText value
  | .string value => quote value
  | .array items => "[" ++ ",".intercalate (narrowItems items) ++ "]"
  | .object fields => "\x7b" ++ ",".intercalate (narrowFields fields) ++ "\x7d"

def narrowItems : List Json → List String
  | [] => []
  | item :: rest => narrow item :: narrowItems rest

def narrowFields : List (String × Json) → List String
  | [] => []
  | (key, value) :: rest => (quote key ++ ":" ++ narrow value) :: narrowFields rest

end

end Json

end ContrastLint
