/-
  Arithmetic on values, as the filters `times`, `divided_by`, `plus` and
  `minus` do it.

  * `roundNoise` rounds a double to five decimal places, a half upwards;
  * `Arithmetic.apply` takes the number of a value and that of an operand, which
    may go wrong. Results that are not a number, and quotients by zero, are the
    whole number 0.
-/
import ThemeProps.Value.Number
import ThemeProps.Expr.Syntax

namespace ThemeProps

/-- The double rounded to five decimal places. -/
def roundNoise (x : Float) : Evaluation Float :=
  if x.isInf then .ok x
  else
    match floorInt? (x * 100000 + 0.5) with
    | some n => .ok (Float.ofInt n / 100000)
    | none => .error .tooLarge

/-- A result, or 0 if it is not a number. -/
def Value.ofResult (x : Float) : Value := if x.isNaN then .int 0 else .float x

/-- A product or quotient, rounded, or 0 if it is not a number. -/
def Value.ofRounded (x : Float) : Evaluation Value := do
  if x.isNaN then return .int 0 else return .float (← roundNoise x)

/-- The quotient of a value and a number. Nothing is asked of a value that is divided by zero. -/
def Value.quotient (v : Value) (divisor : Float) : Evaluation Value := do
  if divisor == 0 then return .int 0 else Value.ofRounded ((← v.toNumber) / divisor)

/-- The result of an operation. A divisor is evaluated before the value that it divides, and other
operands behind the value. -/
def Arithmetic.apply (operation : Arithmetic) (v : Value) (operand : Evaluation Float) :
    Evaluation Value :=
  match operation with
  | .times => do Value.ofRounded ((← v.toNumber) * (← operand))
  | .dividedBy => do v.quotient (← operand)
  | .minus => do return Value.ofResult ((← v.toNumber) - (← operand))
  | .plus => do return Value.ofResult ((← v.toNumber) + (← operand))

end ThemeProps
