import ContrastLint.Text.CharClass
import ContrastLint.Text.Quoted

/-!
# Literal colours

Only literal notation is understood: three or six hexadecimal digits in any
case, with an optional number sign.  In the short form every digit stands for
itself twice.  Everything else, names of colours included, is unsupported and
reported as such.
-/

namespace ContrastLint

/-- A colour of the sRGB space with one byte for each channel. -/
structure Rgb where
  red : UInt8
  green : UInt8
  blue : UInt8
  deriving DecidableEq, Repr

/-- A value that is no literal colour. -/
structure UnsupportedColor where
  value : String
  deriving DecidableEq, Repr

def UnsupportedColor.message (e : UnsupportedColor) : String :=
  "Unsupported color format: " ++ Text.quote e.value

namespace Rgb

def ofDigits? : List Nat → Option Rgb
  | [r, g, b] => some ⟨.ofNat (17 * r), .ofNat (17 * g), .ofNat (17 * b)⟩
  | [r₁, r₀, g₁, g₀, b₁, b₀] =>
    some ⟨.ofNat (16 * r₁ + r₀), .ofNat (16 * g₁ + g₀), .ofNat (16 * b₁ + b₀)⟩
  | _ => none

def dropNumberSign : List Char → List Char
  | '#' :: rest => rest
  | text => text

/-- Reads a literal colour, ignoring white space around it. -/
def ofText? (text : List Char) : Option Rgb := do
  let digits ← (dropNumberSign (Text.trim text)).mapM Text.hexValue?
  ofDigits? digits

/-- The colour that the value of a declaration stands for. -/
def resolve (value : String) : Except UnsupportedColor Rgb :=
  match ofText? value.toList with
  | some color => .ok color
  | none => .error ⟨value⟩

def toHex (c : Rgb) : String :=
  .ofList ('#' :: Text.hexByte c.red ++ Text.hexByte c.green ++ Text.hexByte c.blue)

end Rgb

end ContrastLint
