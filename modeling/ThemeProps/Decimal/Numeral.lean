/-
  Numerals: numbers as they are written in templates and settings.

  * `Numeral.read` reads a sign, digits with an optional fraction, and an
    exponent, as far as they go;
  * `Numeral.toFloat` is the double nearest to the number written;
  * `leadingNumber?` and `wholeNumber?` give the number at the beginning of a
    text, and the number that a whole text is.
-/
import ThemeProps.Decimal.Binary
import ThemeProps.Text.Digit
import ThemeProps.Text.Reader

namespace ThemeProps

/-- The number `digits · 10 ^ exponent`, negated if `negative`. -/
structure Numeral where
  negative : Bool
  digits : Nat
  exponent : Int

namespace Numeral

/-- A plus or minus sign; nothing stands for plus. -/
def sign : Reader Bool
  | '-' :: cs => some (true, cs)
  | '+' :: cs => some (false, cs)
  | cs => some (false, cs)

/-- A point and the digits of a fraction. -/
def pointed : Reader (Text × Nat) := do
  Reader.char '.'
  let fraction ← Reader.run1 Text.isDigit
  return (fraction, fraction.length)

/-- Digits with an optional fraction, or a fraction alone: the digits of both parts, and how many
belong to the fraction. -/
def unsigned : Reader (Text × Nat) := fun s =>
  match Reader.run1 Text.isDigit s with
  | some (whole, '.' :: cs) =>
    let fraction := cs.takeWhile Text.isDigit
    some ((whole ++ fraction, fraction.length), cs.dropWhile Text.isDigit)
  | some (whole, cs) => some ((whole, 0), cs)
  | none => pointed s

/-- The exponent of a numeral. -/
def exponentPart : Reader Int := do
  Reader.char 'e' <|> Reader.char 'E'
  let negative ← sign
  let digits ← Reader.run1 Text.isDigit
  let n : Int := Text.numberOfDigits digits
  return if negative then -n else n

/-- A numeral, as long as possible. -/
def read : Reader Numeral := do
  let negative ← sign
  let (digits, places) ← unsigned
  let exponent ← exponentPart <|> pure 0
  return ⟨negative, Text.numberOfDigits digits, exponent - places⟩

/-- The double nearest to the number. Numbers with so many places before or after the point that
the answer is infinite or zero are not multiplied out. -/
def toFloat (n : Numeral) : Float :=
  let size := (Text.ofNat n.digits).length + n.exponent
  let x : Float :=
    if n.digits = 0 ∨ size < -400 then 0
    else if 400 < size then 1 / 0
    else Float.ofScientific n.digits (n.exponent < 0) n.exponent.natAbs
  if n.negative then -x else x

/-- A spelled-out infinity, and whether it is negative. -/
def spelledInfinity : Reader Bool := do
  let negative ← sign
  Reader.literal "Infinity"
  return negative

end Numeral

/-- The number at the beginning of a text, after blanks: the longest numeral, or a spelled-out
infinity. -/
def leadingNumber? (s : Text) : Option Float :=
  let s := Text.trimStart s
  match Numeral.read s with
  | some (n, _) => some n.toFloat
  | none =>
    match Numeral.spelledInfinity s with
    | some (negative, _) => some (infinity negative)
    | none => none

/-- The number that a text is as a whole. Blanks around it do not count, and a blank text is
zero. -/
def wholeNumber? (s : Text) : Option Float :=
  match Text.trim s with
  | [] => some 0
  | s => (Numeral.read.readAll? s).map Numeral.toFloat

end ThemeProps
