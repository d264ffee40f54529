/-
  Hex colors: `#fff`, `#121212` and `#12121280`.

  * `Color.ofHex?` reads a color of three, six or eight hexadecimal digits;
  * `Color.toRgb` and `Color.toRgba` write its channels for `rgb(…)` and
    `rgba(…)`.
-/
import ThemeProps.Value.Basic
import ThemeProps.Text.Digit

namespace ThemeProps

/-- The channels of a color, from 0 to 255, and its opacity. -/
structure Color where
  red : Nat
  green : Nat
  blue : Nat
  alpha : Number

namespace Color

/-- The channels as they stand in `rgb(…)`. -/
def toRgb (c : Color) : Text :=
  Text.ofNat c.red ++ ' ' :: Text.ofNat c.green ++ ' ' :: Text.ofNat c.blue

/-- The channels and the opacity as they stand in `rgba(…)`. -/
def toRgba (c : Color) : Evaluation Text := do
  return Text.ofNat c.red ++ ", " ++ Text.ofNat c.green ++ ", " ++ Text.ofNat c.blue ++ ", "
    ++ (← c.alpha.toText)

/-- A text without its first number sign. -/
def dropMark : Text → Text
  | [] => []
  | '#' :: cs => cs
  | c :: cs => c :: dropMark cs

/-- The hexadecimal digits of the long form: in a short one each digit stands for two. -/
def longDigits (digits : Text) : Text :=
  if digits.length = 3 then digits.flatMap fun c => [c, c] else digits

/-- The numbers that pairs of hexadecimal digits stand for. -/
def bytes? : Text → Option (List Nat)
  | [] => some []
  | [_] => none
  | high :: low :: rest => do
    let h ← Text.hexValue? high
    let l ← Text.hexValue? low
    return (16 * h + l) :: (← bytes? rest)

/-- A hex color. One of eight digits has its opacity in the last two, for the others it is
`alpha`. -/
def ofHex? (alpha : Number) (hex : Text) : Option Color :=
  match bytes? (longDigits (dropMark hex)) with
  | some [red, green, blue] => some ⟨red, green, blue, alpha⟩
  | some [red, green, blue, opacity] =>
    some ⟨red, green, blue, .float (Float.ofNat opacity / 255)⟩
  | _ => none

/-- The hex color that a value is, if it is a text. -/
def ofValue? (alpha : Number) : Value → Option Color
  | .str hex => ofHex? alpha hex
  | _ => none

end Color
end ThemeProps
