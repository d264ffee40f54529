/-
  Lengths in `rem` and `px`.

  * `remToPx` and `pxToRem` convert an amount, given the root font size;
  * `conversionHint` converts the first length that occurs in a value of a
    custom property.
-/
import ThemeProps.Value.Number
import ThemeProps.Decimal.Fixed
import ThemeProps.Text.Pieces

namespace ThemeProps.Units

/-- The root font size of a browser. -/
def defaultBase : Float := 16

/-- A number of `rem` in `px`, with two decimal places at most. -/
def remAsPx? (base x : Float) : Option Text :=
  if x.isNaN then none else some (Decimal.shortFixed 2 (x * base))

/-- A number of `px` in `rem`, with four decimal places at most. -/
def pxAsRem? (base x : Float) : Option Text :=
  if x.isNaN || base == 0 then none else some (Decimal.shortFixed 4 (x / base))

/-- The amount of `rem` that a value stands for in `px`. -/
def remToPx (base : Float) (v : Value) : Evaluation (Option Text) := do
  return remAsPx? base (← v.toNumber)

/-- The amount of `px` that a value stands for in `rem`. -/
def pxToRem (base : Float) (v : Value) : Evaluation (Option Text) := do
  return pxAsRem? base (← v.toNumber)

/-- The number at the beginning of a text, or NaN. -/
def numberOf (digits : Text) : Float := (leadingNumber? digits).getD notANumber

/-- A run of digits and points followed by a unit. -/
def amount (unit : Text) : Reader Text := do
  let digits ← Reader.run1 fun c => Text.isDigit c || c == '.'
  Reader.blanks
  Reader.literal unit
  return digits

/-- The first amount of a unit in a text. -/
def firstAmount? (unit s : Text) : Option Text :=
  ((amount unit).findFirst s).map fun (_, digits, _) => digits

/-- The first `rem` length of a value in `px`, or else its first `px` length in `rem`. -/
def conversionHint (base : Float) (value : Text) : Option Text :=
  match firstAmount? "rem" value with
  | some digits => (remAsPx? base (numberOf digits)).map (· ++ "px")
  | none =>
    match firstAmount? "px" value with
    | some digits => (pxAsRem? base (numberOf digits)).map (· ++ "rem")
    | none => none

end ThemeProps.Units
