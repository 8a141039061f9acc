import ContrastLint.Decimal
import ContrastLint.Text.CharClass
import ContrastLint.Toml.Scanner
import ContrastLint.Toml.Table

/-!
# Numbers, dates and times of TOML

Integers are those of 64 bits; they may be written in base two, eight or
sixteen.  A number with a fraction or an exponent is read as the nearest
floating point number and must not exceed the greatest one.  Dates are days
of the calendar.
-/

namespace ContrastLint.Toml

def isDecimalDigit (c : Char) : Bool := '0' ≤ c && c ≤ '9'
def isOctalDigit (c : Char) : Bool := '0' ≤ c && c ≤ '7'
def isBinaryDigit (c : Char) : Bool := c == '0' || c == '1'

def isHexDigit (c : Char) : Bool := (Text.hexValue? c).isSome

/-- The number that digits in a base stand for. -/
def ofDigits (base : Nat) (digits : List Char) : Nat :=
  digits.foldl (fun n c => base * n + (Text.hexValue? c).getD 0) 0

/-- A number of exactly `count` digits from `least` to `greatest`. -/
def fixedNumber (count least greatest : Nat) : Scanner Nat := do
  let n := ofDigits 10 (← Scanner.digits isDecimalDigit count)
  if least ≤ n ∧ n ≤ greatest then return n else failure

def isLeapYear (year : Nat) : Bool :=
  year % 4 == 0 && (year % 100 != 0 || year % 400 == 0)

def daysInMonth (year month : Nat) : Nat :=
  if month = 2 then if isLeapYear year then 29 else 28
  else if month = 4 ∨ month = 6 ∨ month = 9 ∨ month = 11 then 30
  else 31

def date : Scanner Unit := do
  let year ← fixedNumber 4 0 9999
  Scanner.char '-'
  let month ← fixedNumber 2 1 12
  Scanner.char '-'
  discard (fixedNumber 2 1 (daysInMonth year month))

def hourAndMinute : Scanner Unit := do
  discard (fixedNumber 2 0 23)
  Scanner.char ':'
  discard (fixedNumber 2 0 59)

/-- A time of the day, where a minute may have a leap second. -/
def time : Scanner Unit := do
  hourAndMinute
  Scanner.char ':'
  discard (fixedNumber 2 0 60)
  discard <| Scanner.optional do
    Scanner.char '.'
    discard (Scanner.satisfy isDecimalDigit)
    discard (Scanner.span isDecimalDigit)

def timeOffset : Scanner Unit :=
  discard (Scanner.satisfy fun c => c == 'Z' || c == 'z') <|> do
    discard (Scanner.satisfy fun c => c == '+' || c == '-')
    hourAndMinute

def datetime : Scanner Value := do
  (do
    date
    discard <| Scanner.optional do
      discard (Scanner.satisfy fun c => c == 'T' || c == 't' || c == ' ')
      time
      discard (Scanner.optional timeOffset)) <|> time
  return .datetime

def sign : Scanner Bool := do
  match ← Scanner.optional (Scanner.satisfy fun c => c == '+' || c == '-') with
  | some c => return c == '-'
  | none => return false

/-- The digits of an integer in base ten, which has no leading zeros. -/
def wholeDigits : Scanner (List Char) := do
  if ← Scanner.startsWith "0" then
    Scanner.char '0'
    return ['0']
  Scanner.digitRun isDecimalDigit

def integerOf (n : Int) : Scanner Value :=
  if -0x8000000000000000 ≤ n ∧ n < 0x8000000000000000 then return .integer n else failure

/-- An integer with a mark before its digits, which says their base. -/
def markedInteger (mark : String) (base : Nat) (isDigit : Char → Bool) : Scanner Value := do
  Scanner.exactly mark
  integerOf (ofDigits base (← Scanner.digitRun isDigit))

/-- An integer in another base than ten. -/
def basedInteger : Scanner Value :=
  markedInteger "0x" 16 isHexDigit <|> markedInteger "0o" 8 isOctalDigit <|>
    markedInteger "0b" 2 isBinaryDigit

def exponentPart : Scanner Int := do
  discard (Scanner.satisfy fun c => c == 'e' || c == 'E')
  let negative ← sign
  let n := ofDigits 10 (← Scanner.digitRun isDecimalDigit)
  return if negative then -n else n

def positiveInfinity : Float := Decimal.nearest false 1 1000

def negativeInfinity : Float := Decimal.nearest true 1 1000

def notANumber : Float := positiveInfinity - positiveInfinity

/-- A floating point number; one that is too large is refused, while one that
is too far below zero is negative infinity. -/
def decimalFloat : Scanner Value := do
  let negative ← sign
  let whole ← wholeDigits
  let fraction ← Scanner.optional (Scanner.char '.' *> Scanner.digitRun isDecimalDigit)
  let exponent ← Scanner.optional exponentPart
  if fraction.isNone ∧ exponent.isNone then failure
  let places := fraction.getD []
  let x := Decimal.nearest negative (ofDigits 10 (whole ++ places))
    (exponent.getD 0 - places.length)
  if x == positiveInfinity then failure else return .float x

def namedFloat : Scanner Value := do
  let negative ← sign
  (do
    Scanner.exactly "inf"
    return .float (if negative then negativeInfinity else positiveInfinity)) <|> do
    Scanner.exactly "nan"
    return .float notANumber

def decimalInteger : Scanner Value := do
  let negative ← sign
  let n := ofDigits 10 (← wholeDigits)
  integerOf (if negative then -n else n)

def boolean : Scanner Value :=
  (Scanner.exactly "true" *> pure (.boolean true)) <|>
    (Scanner.exactly "false" *> pure (.boolean false))

/-- A value that is neither a text nor has parts. -/
def scalar : Scanner Value :=
  boolean <|> datetime <|> decimalFloat <|> namedFloat <|> basedInteger <|> decimalInteger

end ContrastLint.Toml
