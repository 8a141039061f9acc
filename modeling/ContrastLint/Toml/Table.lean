/-!
# Values and tables

A value is what a document says at one place.  A date or time is known to be
well formed and otherwise has no content here.

The lines of a document build its tables step by step.  A table can be
defined by a header, implied by the header of a table inside it, or made by a
dotted key; how it came about decides what later lines may add to it.
-/

namespace ContrastLint.Toml

inductive Value
  | string (text : String)
  | integer (value : Int)
  | float (value : Float)
  | boolean (value : Bool)
  | datetime
  | array (items : List Value)
  | table (entries : List (String × Value))

/-- How a table came about. -/
inductive Origin
  | header
  | implied
  | dotted
  deriving DecidableEq, Repr

/-- An entry of a table under construction. -/
inductive Item
  | value (value : Value)
  | table (origin : Origin) (entries : List (String × Item))
  /-- An array of tables, the last of which is the one that lines add to. -/
  | tables (before : List (List (String × Item))) (last : List (String × Item))

abbrev Entries := List (String × Item)

namespace Entries

def set (entries : Entries) (key : String) (item : Item) : Entries :=
  match entries with
  | [] => [(key, item)]
  | (other, old) :: rest =>
    if other = key then (key, item) :: rest else (other, old) :: set rest key item

/-- Changes the table at the end of a path below a table of the given origin.
Missing tables on the way get the origin `made`.  A dotted key does not enter
a table that a header defines. -/
def update (made : Origin) (change : Origin → Entries → Option Entries) :
    List String → Origin → Entries → Option Entries
  | [], origin, entries => change origin entries
  | key :: path, _, entries =>
    match entries.lookup key with
    | none => do
      let inner ← update made change path made []
      return entries.set key (.table made inner)
    | some (.value _) => none
    | some (.table origin inner) => do
      if made = .dotted ∧ origin = .header then none
      let inner ← update made change path origin inner
      return entries.set key (.table origin inner)
    | some (.tables before last) => do
      let last ← update made change path .header last
      return entries.set key (.tables before last)

/-- Adds a value at a dotted key.  The key must be new, and its table must be
the one that the line adds to or one made by dotted keys. -/
def insertValue (path : List String) (key : String) (value : Value) (entries : Entries) :
    Option Entries :=
  let add := fun (origin : Origin) (inner : Entries) =>
    if path ≠ [] ∧ origin ≠ .dotted ∨ (inner.lookup key).isSome then none
    else some (inner.set key (.value value))
  update .dotted add path .header entries

/-- Defines the table of a header, which may have been implied before. -/
def openTable (path : List String) (key : String) (entries : Entries) : Option Entries :=
  let define := fun (_ : Origin) (inner : Entries) =>
    match inner.lookup key with
    | none => some (inner.set key (.table .header []))
    | some (.table .implied old) => some (inner.set key (.table .header old))
    | some _ => none
  update .implied define path .header entries

/-- Adds a table to the array of tables of a header. -/
def appendTable (path : List String) (key : String) (entries : Entries) : Option Entries :=
  let define := fun (_ : Origin) (inner : Entries) =>
    match inner.lookup key with
    | none => some (inner.set key (.tables [] []))
    | some (.tables before last) => some (inner.set key (.tables (before ++ [last]) []))
    | some _ => none
  update .implied define path .header entries

/-- Changes the table that a header has named. -/
def within (path : List String) (change : Entries → Option Entries) (entries : Entries) :
    Option Entries :=
  update .implied (fun _ inner => change inner) path .header entries

end Entries

mutual

def Item.toValue : Item → Value
  | .value v => v
  | .table _ entries => .table (entriesToValues entries)
  | .tables before last => .array (tablesToValues before ++ [.table (entriesToValues last)])

def entriesToValues : List (String × Item) → List (String × Value)
  | [] => []
  | (key, item) :: rest => (key, item.toValue) :: entriesToValues rest

def tablesToValues : List (List (String × Item)) → List Value
  | [] => []
  | entries :: rest => .table (entriesToValues entries) :: tablesToValues rest

end

end ContrastLint.Toml
