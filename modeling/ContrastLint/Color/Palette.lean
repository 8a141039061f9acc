import ContrastLint.Stylesheet.Document

/-!
# Colour declarations and palettes

Three properties declare colours: `color` fills the foreground slot of a rule,
`background` and `background-color` share the background slot, and in each
slot the last declaration decides.  Names are compared ignoring ASCII case,
and whether a declaration is important makes no difference.

A palette tells, for every selector that declares a colour, the raw values
of its effective foreground and background.  Where several rules have the
same selector, a later rule replaces the slots that it fills and leaves the
others.  The entries stand in the order of their selectors.
-/

namespace ContrastLint

namespace Assignment

def setsForeground (a : Assignment) : Bool :=
  a.isNamed "color"

def setsBackground (a : Assignment) : Bool :=
  a.isNamed "background" || a.isNamed "background-color"

def setsColor (a : Assignment) : Bool :=
  a.setsForeground || a.setsBackground

end Assignment

/-- The declarations that decide the colours of a rule. -/
structure Slots (Place : Type) where
  foreground : Option (Declaration Place)
  background : Option (Declaration Place)
  deriving DecidableEq, Repr

namespace Slots

variable {Place : Type}

def empty : Slots Place := ⟨none, none⟩

def declare (s : Slots Place) (d : Declaration Place) : Slots Place :=
  if d.setsForeground then { s with foreground := some d }
  else if d.setsBackground then { s with background := some d }
  else s

def isEmpty (s : Slots Place) : Bool :=
  s.foreground.isNone && s.background.isNone

end Slots

variable {Place : Type}

def Rule.slots (r : Rule Place) : Slots Place :=
  r.declarations.foldl Slots.declare .empty

/-- The rule reduced to its colour declarations, if it has any. -/
def Rule.pruned? (r : Rule Place) : Option (Rule Place) :=
  match r.declarations.filter (·.setsColor) with
  | [] => none
  | declarations => some { r with declarations }

namespace Document

/-- Whether some declaration, at root level or in a rule, is named `color` or
`background`.  A `background-color` alone does not count. -/
def declaresColor (doc : Document Place) : Bool :=
  doc.declarations.any fun d => d.isNamed "color" || d.isNamed "background"

/-- The rules that declare a colour, each reduced to its colour declarations. -/
def pruned (doc : Document Place) : Document Place :=
  ⟨doc.rules.filterMap fun r => (r.pruned?).map .rule⟩

end Document

/-! ## Palettes -/

/-- The raw values of two colour slots. -/
structure ColorPair where
  foreground : Option String
  background : Option String
  deriving DecidableEq, Repr

namespace ColorPair

/-- The pair with the slots that `later` fills replaced by them. -/
def overlay (pair later : ColorPair) : ColorPair :=
  ⟨later.foreground <|> pair.foreground, later.background <|> pair.background⟩

def ofSlots {Place : Type} (s : Slots Place) : ColorPair :=
  ⟨s.foreground.map (·.value), s.background.map (·.value)⟩

end ColorPair

/-- Colour pairs by selector, in ascending order of the selectors. -/
structure Palette where
  entries : List (String × ColorPair)
  deriving DecidableEq, Repr

namespace Palette

/-- Lays a pair over the entry of its selector, or inserts it in order. -/
def insertEntry (selector : String) (pair : ColorPair) :
    List (String × ColorPair) → List (String × ColorPair)
  | [] => [(selector, pair)]
  | (other, old) :: rest =>
    if selector < other then (selector, pair) :: (other, old) :: rest
    else if selector = other then (other, old.overlay pair) :: rest
    else (other, old) :: insertEntry selector pair rest

def empty : Palette := ⟨[]⟩

def insert (p : Palette) (selector : String) (pair : ColorPair) : Palette :=
  ⟨insertEntry selector pair p.entries⟩

def get? (p : Palette) (selector : String) : Option ColorPair :=
  p.entries.lookup selector

def addRule {Place : Type} (p : Palette) (r : Rule Place) : Palette :=
  if r.slots.isEmpty then p else p.insert r.selector (.ofSlots r.slots)

end Palette

/-- The palette of a document, if any of its rules declares a colour. -/
def Document.palette? {Place : Type} (doc : Document Place) : Option Palette :=
  let palette := doc.rules.foldl Palette.addRule .empty
  if palette.entries.isEmpty then none else some palette

end ContrastLint
