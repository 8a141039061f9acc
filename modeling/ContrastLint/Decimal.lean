/-!
# Floating point numbers in decimal

A finite floating point number is a sign and a natural number times a power
of two.  It is taken apart into these, and an exact positive fraction goes back
to the nearest floating point number.

A floating point number stands for every real number that rounds to it.
Among the decimals in that interval the shortest is the one on the coarsest
grid of powers of ten that meets the interval at all, and of the two
neighbours of the number on that grid the nearer one is taken.

Three forms of a floating point number occur in what the linter writes.  The
plain form never has an exponent and no fraction where none is needed.  The
data form is a number of a JSON document: it always shows that the number is
not an integer, by a fraction or an exponent.  The fixed form has two
places after the point.
-/

namespace ContrastLint.Decimal

/-! ## Exact values -/

/-- A floating point number by its parts.  A finite one has the magnitude
`significand * 2 ^ exponent`. -/
inductive Binary
  | nan
  | infinite (negative : Bool)
  | finite (negative : Bool) (significand : Nat) (exponent : Int)
  deriving DecidableEq, Repr

def minExponent : Int := -1074

/-- The significands from here on, which is the power 52 of two, have the
full number of bits. -/
def fullSignificand : Nat := 0x10000000000000

def signBit : Nat := 0x8000000000000000

def infinityBits : Nat := 0x7FF0000000000000

def Binary.ofBits (bits : Nat) : Binary :=
  let negative := decide (signBit ≤ bits)
  let biased : Nat := bits / fullSignificand % 0x800
  let fraction := bits % fullSignificand
  if biased = 0x7FF then
    if fraction = 0 then .infinite negative else .nan
  else if biased = 0 then .finite negative fraction minExponent
  else .finite negative (fullSignificand + fraction) (biased + minExponent - 1)

def Binary.ofFloat (x : Float) : Binary :=
  .ofBits x.toBits.toNat

/-- The quotient `num / den` rounded to the nearest integer, a tie going to
the even one. -/
def roundDiv (num den : Nat) : Nat :=
  let quotient := num / den
  let twice := 2 * (num % den)
  if twice < den ∨ (twice = den ∧ quotient % 2 = 0) then quotient else quotient + 1

/-- `num * 2 ^ exponent / den` as a fraction of natural numbers. -/
def scaleBinary (num den : Nat) (exponent : Int) : Nat × Nat :=
  (num * Nat.pow 2 exponent.toNat, den * Nat.pow 2 (-exponent).toNat)

/-- `num * 10 ^ exponent / den` as a fraction of natural numbers. -/
def scaleDecimal (num den : Nat) (exponent : Int) : Nat × Nat :=
  (num * Nat.pow 10 exponent.toNat, den * Nat.pow 10 (-exponent).toNat)

/-- The bits of the floating point number nearest to `num / den`, a tie going
to the even significand.  Too large a fraction gives infinity. -/
def nearestBits (num den : Nat) : Nat :=
  let estimate : Int := max ((num.log2 : Int) - den.log2 - 53) minExponent
  let (n, d) := scaleBinary num den (-estimate)
  let exponent := if n / d < 2 * fullSignificand then estimate else estimate + 1
  let (n, d) := scaleBinary num den (-exponent)
  let significand := roundDiv n d
  min ((exponent - minExponent).toNat * fullSignificand + significand) infinityBits

/-- The floating point number nearest to `digits * 10 ^ exponent`.  Exponents
far outside the range of floating point numbers are not computed with. -/
def nearest (negative : Bool) (digits : Nat) (exponent : Int) : Float :=
  let magnitude :=
    if digits = 0 ∨ exponent + (Nat.log2 digits : Int) < -400 then 0
    else if 400 < exponent then infinityBits
    else
      let (n, d) := scaleDecimal digits 1 exponent
      nearestBits n d
  .ofBits (.ofNat (if negative then signBit + magnitude else magnitude))

/-! ## The shortest decimal that reads back -/

/-- Which of two equally near decimals is taken. -/
inductive Tie
  | up
  | even
  deriving DecidableEq, Repr

structure Digits where
  digits : Nat
  exponent : Int
  deriving DecidableEq, Repr

/-- The reals that round to a number, as fractions over one denominator.  The
ends belong to the interval iff `closed`. -/
structure Interval where
  low : Nat
  value : Nat
  high : Nat
  den : Nat
  closed : Bool
  deriving DecidableEq, Repr

namespace Interval

/-- The interval of the number `significand * 2 ^ exponent`.  It reaches half
way to each neighbour; the lower neighbour of a power of two is nearer. -/
def ofBinary (significand : Nat) (exponent : Int) : Interval :=
  let below := if significand = fullSignificand ∧ minExponent < exponent then 1 else 2
  let scale := Nat.pow 2 (exponent - 2).toNat
  { low := (4 * significand - below) * scale
    value := 4 * significand * scale
    high := (4 * significand + 2) * scale
    den := Nat.pow 2 (2 - exponent).toNat
    closed := significand % 2 = 0 }

def contains (i : Interval) (count : Nat) (exponent : Int) : Bool :=
  let (point, unit) := scaleDecimal count 1 exponent
  if i.closed then i.low * unit ≤ point * i.den && point * i.den ≤ i.high * unit
  else i.low * unit < point * i.den && point * i.den < i.high * unit

/-- The multiple of `10 ^ exponent` in the interval that is nearest to the
value, if one of the value's two neighbours lies there. -/
def onGrid? (tie : Tie) (i : Interval) (exponent : Int) : Option Nat :=
  let (num, den) := scaleDecimal i.value i.den (-exponent)
  let below := num / den
  let twice := 2 * (num % den)
  match i.contains below exponent, i.contains (below + 1) exponent with
  | true, false => some below
  | false, true => some (below + 1)
  | false, false => none
  | true, true =>
    if twice < den ∨ (twice = den ∧ tie = .even ∧ below % 2 = 0) then some below
    else some (below + 1)

/-- The first of `steps` grids, from `10 ^ exponent` to finer ones, that has
a point in the interval; the grid after them if none has. -/
def search (tie : Tie) (i : Interval) : Nat → Int → Digits
  | 0, exponent =>
    let (num, den) := scaleDecimal i.value i.den (-exponent)
    ⟨num / den, exponent⟩
  | steps + 1, exponent =>
    match i.onGrid? tie exponent with
    | some digits => ⟨digits, exponent⟩
    | none => search tie i steps (exponent - 1)

def digitCount (n : Nat) : Nat :=
  (Nat.toDigits 10 n).length

/-- A power of ten at or above the value. -/
def magnitude (i : Interval) : Int :=
  if i.den ≤ i.value then digitCount (i.value / i.den)
  else 1 - (digitCount (i.den / i.value) : Int)

end Interval

/-- The shortest decimal that rounds to `significand * 2 ^ exponent`.
Seventeen digits always suffice, and the search starts at most two grids
above the first digit. -/
def shortest (tie : Tie) (significand : Nat) (exponent : Int) : Digits :=
  if significand = 0 then ⟨0, 0⟩
  else
    let i := Interval.ofBinary significand exponent
    i.search tie 20 i.magnitude

/-! ## Numbers as text -/

def signText (negative : Bool) : String :=
  if negative then "-" else ""

def Digits.positional (d : Digits) : String :=
  let digits := (Nat.toDigits 10 d.digits)
  if 0 ≤ d.exponent then
    .ofList (digits ++ List.replicate (if d.digits = 0 then 0 else d.exponent.toNat) '0')
  else
    let places := (-d.exponent).toNat
    let padded := List.replicate (places + 1 - digits.length) '0' ++ digits
    let whole := padded.length - places
    .ofList (padded.take whole ++ '.' :: padded.drop whole)

/-- The decimal with one digit before the point and an exponent, which has a
sign in either direction. -/
def Digits.scientific (d : Digits) : String :=
  let digits := Nat.toDigits 10 d.digits
  let exponent := d.exponent + (digits.length - 1 : Nat)
  let mantissa :=
    match digits with
    | first :: second :: rest => first :: '.' :: second :: rest
    | _ => digits
  .ofList mantissa ++ "e" ++ (if exponent < 0 then "-" else "+") ++ toString exponent.natAbs

/-- The place of the first digit: the decimal is at least `10 ^ (p - 1)` and
below `10 ^ p`. -/
def Digits.point (d : Digits) : Int :=
  d.exponent + (Nat.toDigits 10 d.digits).length

/-- The shortest digits of a number without an exponent, as `7`, `4.5`, `-0`,
`NaN` and `-inf`. -/
def plain (x : Float) : String :=
  match Binary.ofFloat x with
  | .nan => "NaN"
  | .infinite negative => signText negative ++ "inf"
  | .finite negative significand exponent =>
    signText negative ++ (shortest .up significand exponent).positional

/-- The shortest digits of a number as JSON has them, or none for what is no
number there.  An exponent is written below `1e-5` and from `1e16` on. -/
def data? (x : Float) : Option String :=
  match Binary.ofFloat x with
  | .nan => none
  | .infinite _ => none
  | .finite negative significand exponent =>
    let d := shortest .even significand exponent
    let text :=
      if d.digits = 0 then "0.0"
      else if -5 < d.point ∧ d.point ≤ 16 then
        d.positional ++ (if 0 ≤ d.exponent then ".0" else "")
      else d.scientific
    some (signText negative ++ text)

/-- A number rounded to two places, a tie of its exact value going to the
even digit.  A negative number that rounds to zero keeps its sign. -/
def twoPlaces (x : Float) : String :=
  match Binary.ofFloat x with
  | .nan => "NaN"
  | .infinite negative => signText negative ++ "inf"
  | .finite negative significand exponent =>
    let (num, den) := scaleBinary (100 * significand) 1 exponent
    signText negative ++ (Digits.mk (roundDiv num den) (-2)).positional

end ContrastLint.Decimal
