/-
  Writing doubles as text.

  * A `Layout` lists the decisions of a number format; `write` writes a double
    in it, with the shortest digits that read back;
  * `literal` is the format in which a value is recorded: always recognisable
    as a double;
  * `plain` is the format of template output: no fraction for an integer, and
    positional from a millionth upwards.
-/
import ThemeProps.Decimal.Shortest

namespace ThemeProps

/-- The decisions of a format for doubles. -/
structure Layout where
  /-- The least decimal exponent that is written positionally. -/
  leastPositional : Int
  /-- The decimal exponents from here on are written with an exponent. -/
  leastScientific : Option Int
  /-- A positional integer keeps a fraction `.0`. -/
  keepsFraction : Bool
  /-- The least number of digits of a written exponent. -/
  exponentDigits : Nat
  /-- The text for a value that is not a number. -/
  notANumber : Text
  /-- The text for positive infinity. -/
  infinity : Text

namespace Layout

/-- The recorded form of a double: positional from `1e-4` to below `1e16`, exponents of two digits
and a fraction in any positional number. -/
def literal : Layout := ⟨-4, some 16, true, 2, "nan", "inf"⟩

/-- The output form of a double: positional from `1e-6` on, short exponents and no empty
fraction. -/
def plain : Layout := ⟨-6, none, false, 1, "NaN", "Infinity"⟩

/-- The digits of a decimal with the point in place. -/
def positional (keepsFraction : Bool) (d : Decimal) : Text :=
  if d.exponent < 0 then
    "0." ++ List.replicate (-d.exponent - 1).toNat '0' ++ d.digits
  else
    let whole := d.exponent.toNat + 1
    let digits := d.digits ++ List.replicate (whole - d.digits.length) '0'
    if whole < digits.length then digits.take whole ++ '.' :: digits.drop whole
    else if keepsFraction then digits ++ ".0" else digits

/-- The digits of a decimal with a point after the first one and the exponent. -/
def scientific (exponentDigits : Nat) (d : Decimal) : Text :=
  let mantissa := match d.digits with
    | first :: next :: more => first :: '.' :: next :: more
    | digits => digits
  let exponent := Text.ofNat d.exponent.natAbs
  mantissa ++ 'e' :: (if d.exponent < 0 then '-' else '+') ::
    (List.replicate (exponentDigits - exponent.length) '0' ++ exponent)

/-- A decimal in the notation that the layout chooses for its size. -/
def writeDecimal (l : Layout) (d : Decimal) : Text :=
  if d.exponent < l.leastPositional ∨ l.leastScientific.any (· ≤ d.exponent) then
    scientific l.exponentDigits d
  else positional l.keepsFraction d

/-- A double in a layout. -/
def write (l : Layout) (x : Float) : Text :=
  match Binary.ofFloat x with
  | .nan => l.notANumber
  | .infinite negative => if negative then '-' :: l.infinity else l.infinity
  | .finite negative m q =>
    let digits := l.writeDecimal (if m = 0 then ⟨['0'], 0⟩ else Decimal.shortest m q)
    if negative then '-' :: digits else digits

end Layout
end ThemeProps
