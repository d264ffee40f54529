/-
  Writing a double with a fixed number of decimal places.

  * `roundDiv` rounds a quotient to the nearest natural number, and to the even
    one of two that are equally near;
  * `fixed` writes the exact value of a double so rounded, and `shortFixed`
    leaves out the zeros at the end of the fraction.
-/
import ThemeProps.Decimal.Binary
import ThemeProps.Text.Basic

namespace ThemeProps.Decimal

/-- The natural number nearest to `num / den`; a tie goes to the even neighbour. -/
def roundDiv (num den : Nat) : Nat :=
  let below := num / den
  let twice := 2 * (num % den)
  if twice < den ∨ (twice = den ∧ below % 2 = 0) then below else below + 1

/-- `n / 10 ^ places` with all its decimal places. -/
def withPoint (places n : Nat) : Text :=
  let digits := Text.ofNat n
  let digits := List.replicate (places + 1 - digits.length) '0' ++ digits
  let whole := digits.length - places
  if places = 0 then digits else digits.take whole ++ '.' :: digits.drop whole

/-- A double with a fixed number of decimal places. -/
def fixed (places : Nat) (x : Float) : Text :=
  match Binary.ofFloat x with
  | .nan => "nan"
  | .infinite negative => if negative then "-inf" else "inf"
  | .finite negative m q =>
    let n := roundDiv (Binary.numerator m q * tenTo places) (Binary.denominator q)
    if negative then '-' :: withPoint places n else withPoint places n

/-- A text without the zeros at its end and then without a point at its end. -/
def dropTrailingZeros (s : Text) : Text :=
  match s.reverse.dropWhile (· == '0') with
  | '.' :: s => s.reverse
  | s => s.reverse

/-- A double with at most the given number of decimal places. -/
def shortFixed (places : Nat) (x : Float) : Text :=
  let s := fixed places x
  if s.contains '.' then dropTrailingZeros s else s

end ThemeProps.Decimal
