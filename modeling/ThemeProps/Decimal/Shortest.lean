/-
  The shortest decimal that reads back as a given double.

  The reals that round to the double `m · 2 ^ q` form an interval around it,
  whose ends belong to it if `m` is even. Among the decimals with one digit,
  two digits and so on, the first ones that lie in the interval are the
  shortest; of the two neighbours of the value on that grid the nearer one is
  chosen, and the even one if both are equally near.

  * `Decimal` is a decimal in scientific form;
  * `Decimal.shortest m q` is the shortest one for `m · 2 ^ q`.
-/
import ThemeProps.Decimal.Binary
import ThemeProps.Text.Basic

namespace ThemeProps

/-- The decimal `d₁.d₂…dₙ · 10 ^ exponent`. -/
structure Decimal where
  digits : Text
  exponent : Int

namespace Decimal

/-- The exponent of the power of ten that is just not above `num / den`, which is positive. -/
def magnitude (num den : Nat) : Int :=
  if den ≤ num then (Nat.toDigits 10 (num / den)).length - 1
  else -(Nat.toDigits 10 ((den + num - 1) / num - 1)).length

/-- The reals that round to `m · 2 ^ q`, with their ends in units of `1 / (4 · denominator q)`. -/
structure Interval where
  low : Nat
  high : Nat
  unit : Nat
  closed : Bool

/-- The interval around `m · 2 ^ q`. Below a power of two the doubles are twice as dense. -/
def Interval.around (m : Nat) (q : Int) : Interval :=
  let below := if m = twoTo 52 ∧ q ≠ -1074 then 1 else 2
  { low := (4 * m - below) * twoTo q.toNat
    high := (4 * m + 2) * twoTo q.toNat
    unit := 4 * Binary.denominator q
    closed := m % 2 == 0 }

/-- The fraction `num / den` lies in the interval. -/
def Interval.contains (i : Interval) (num den : Nat) : Bool :=
  if i.closed then i.low * den ≤ num * i.unit && num * i.unit ≤ i.high * den
  else i.low * den < num * i.unit && num * i.unit < i.high * den

/-- The point of the grid of multiples of `10 ^ k` that lies in the interval around `m · 2 ^ q` and
is nearest to it, if there is one. -/
def onGrid? (m : Nat) (q k : Int) : Option Nat :=
  let i := Interval.around m q
  let num := Binary.numerator m q * tenTo (-k).toNat
  let den := Binary.denominator q * tenTo k.toNat
  let below := num / den
  let twice := 2 * (num % den)
  let inside (c : Nat) := i.contains (c * tenTo k.toNat) (tenTo (-k).toNat)
  if inside below && inside (below + 1) then
    some (if twice < den ∨ (twice = den ∧ below % 2 = 0) then below else below + 1)
  else if inside below then some below
  else if inside (below + 1) then some (below + 1)
  else none

/-- The decimal `c · 10 ^ k`, without zeros at the end. -/
def ofScaled (c : Nat) (k : Int) : Decimal :=
  let digits := Text.ofNat c
  { digits := (digits.reverse.dropWhile (· == '0')).reverse
    exponent := digits.length - 1 + k }

/-- The shortest decimal with at least `17 - more` digits. -/
def shortestFrom (m : Nat) (q top : Int) : Nat → Decimal
  | 0 => ofScaled ((onGrid? m q (top - 16)).getD 0) (top - 16)
  | more + 1 =>
    let k := top - (16 - ↑(more + 1))
    match onGrid? m q k with
    | some c => ofScaled c k
    | none => shortestFrom m q top more

/-- The shortest decimal that reads back as `m · 2 ^ q`, which is positive. -/
def shortest (m : Nat) (q : Int) : Decimal :=
  shortestFrom m q (magnitude (Binary.numerator m q) (Binary.denominator q)) 16

end Decimal
end ThemeProps
