/-
  The exact value of a double.

  * `twoTo` and `tenTo` are powers;
  * `Binary.ofFloat` decodes a double into a signed `m · 2 ^ q`, an infinity or
    NaN;
  * `floorInt?`, `truncInt?` and `integer?` are its integer parts and its value
    if that is an integer;
  * `roundInt?` is the double nearest to an integer, unless the integer is too
    large for one.
-/
namespace ThemeProps

/-- A power of two. -/
def twoTo (n : Nat) : Nat := Nat.pow 2 n

/-- A power of ten. -/
def tenTo (n : Nat) : Nat := Nat.pow 10 n

/-- The value of a double. -/
inductive Binary where
  | nan
  | infinite (negative : Bool)
  /-- `m · 2 ^ q`, negated if `negative` -/
  | finite (negative : Bool) (m : Nat) (q : Int)

namespace Binary

/-- The value that the bits of a double encode: a sign bit, eleven bits of exponent and 52 bits of
fraction. -/
def ofFloat (x : Float) : Binary :=
  let bits : Nat := x.toBits.toNat
  let negative := bits / twoTo 63 == 1
  let exponent : Nat := bits / twoTo 52 % twoTo 11
  let fraction : Nat := bits % twoTo 52
  if exponent = 2047 then if fraction = 0 then infinite negative else nan
  else if exponent = 0 then finite negative fraction (-1074)
  else finite negative (twoTo 52 + fraction) (exponent - 1075)

/-- The numerator of `m · 2 ^ q` over `denominator q`. -/
def numerator (m : Nat) (q : Int) : Nat := m * twoTo q.toNat

/-- A power of two that makes `m · 2 ^ q` whole. -/
def denominator (q : Int) : Nat := twoTo (-q).toNat

end Binary

/-- The greatest integer that is not above the value. -/
def floorInt? (x : Float) : Option Int :=
  match Binary.ofFloat x with
  | .finite negative m q =>
    let n : Int := Binary.numerator m q
    some ((if negative then -n else n).fdiv (Binary.denominator q))
  | _ => none

/-- The value without its fraction. -/
def truncInt? (x : Float) : Option Int :=
  match Binary.ofFloat x with
  | .finite negative m q =>
    let n : Int := ↑(Binary.numerator m q / Binary.denominator q)
    some (if negative then -n else n)
  | _ => none

/-- The value, if it is an integer. -/
def integer? (x : Float) : Option Int :=
  match Binary.ofFloat x with
  | .finite negative m q =>
    if Binary.numerator m q % Binary.denominator q = 0 then
      let n : Int := ↑(Binary.numerator m q / Binary.denominator q)
      some (if negative then -n else n)
    else none
  | _ => none

/-- The double that is not a number. -/
def notANumber : Float := 0 / 0

/-- Positive or negative infinity. -/
def infinity (negative : Bool) : Float := if negative then -1 / 0 else 1 / 0

/-- The double nearest to an integer, unless the integer is too large for any. -/
def roundInt? (n : Int) : Option Float :=
  let x := Float.ofInt n
  if x.isInf then none else some x

end ThemeProps
