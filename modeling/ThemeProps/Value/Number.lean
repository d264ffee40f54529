/-
  Numbers and truth values of values.

  * `Value.toNumber` is the number at the beginning of the output form of a
    value, or NaN;
  * `Value.isTruthy` says which values count as true, and `Value.truth` is the
    truth test of conditions.
-/
import ThemeProps.Value.Basic
import ThemeProps.Decimal.Numeral

namespace ThemeProps

/-- The double nearest to a number. -/
def Number.toFloat : Number → Evaluation Float
  | .int n =>
    match roundInt? n with
    | some x => .ok x
    | none => .error .tooLarge
  | .float x => .ok x

namespace Value

/-- The number that a value stands for: itself, or the number at the beginning of its text. Truth
values and absent values are not numbers. -/
def toNumber : Value → Evaluation Float
  | null => .ok notANumber
  | bool _ => .ok notANumber
  | number n => n.toFloat
  | v => do return (leadingNumber? (← v.toText)).getD notANumber

/-- The value counts as true: all values do but absent ones, false, zero, NaN and the empty text. -/
def isTruthy : Value → Bool
  | null => false
  | bool b => b
  | number (.int n) => n != 0
  | number (.float x) => !(x == 0 || x.isNaN)
  | str s => s != []
  | list _ _ => true
  | map _ _ => true

/-- The value holds in a condition. A whole number other than zero has to fit a double, since it is
tested for NaN. -/
def truth : Value → Evaluation Bool
  | number (.int n) => do
    if n = 0 then return false
    let _ ← (Number.int n).toFloat
    return true
  | v => .ok v.isTruthy

end Value
end ThemeProps
