/-
  Evaluations, which may go wrong.

  * `EvalError` lists what can go wrong;
  * `maxDigits` bounds the whole numbers that are read from digits or written in
    them.
-/
namespace ThemeProps

/-- What can go wrong in an evaluation. -/
inductive EvalError where
  /-- A whole number is too large for a double, or a result too large for a whole number. -/
  | tooLarge
  /-- A run of digits does not stand for a number. -/
  | unreadableDigits
  /-- A whole number has too many digits to be written. -/
  | tooManyDigits
deriving DecidableEq

/-- An evaluation, which may go wrong. -/
abbrev Evaluation := Except EvalError

/-- The most decimal digits that a whole number may have to be read or written. -/
def maxDigits : Nat := 4300

end ThemeProps
