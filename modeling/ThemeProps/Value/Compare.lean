/-
  Comparing values.

  * `Value.looseEquals` is the equality of templates: a text equals the number
    it spells, a truth value equals 1 or 0, lists and mappings are equal to
    themselves alone, and an absent value equals absent values alone;
  * `Comparison` are the relations of conditions, and `Value.compareBy`
    decides them.
-/
import ThemeProps.Value.Number

namespace ThemeProps

/-- What a value is compared as. -/
inductive Operand where
  | text (s : Text)
  | number (n : Number)

/-- The number that an operand is compared as: a text counts as the number it spells as a
whole. -/
def Operand.toFloat : Operand → Evaluation Float
  | text s => .ok ((wholeNumber? s).getD notANumber)
  | number n => n.toFloat

/-- What a value is compared as: truth values as 1 and 0, lists and mappings as their texts. -/
def Value.operand : Value → Evaluation Operand
  | bool b => .ok (.number (.float (if b then 1 else 0)))
  | number n => .ok (.number n)
  | v => do return .text (← v.toText)

/-- Operands are equal as texts if both are texts, and else as numbers. -/
def Operand.equals : Operand → Operand → Evaluation Bool
  | text s, text t => .ok (s == t)
  | a, b => do
    let x ← a.toFloat
    let y ← b.toFloat
    return x == y

/-- The equality of templates. -/
def Value.looseEquals : Value → Value → Evaluation Bool
  | null, null => .ok true
  | null, _ => .ok false
  | _, null => .ok false
  | list i _, list j _ => .ok (i.same j)
  | map i _, map j _ => .ok (i.same j)
  | a, b => do (← a.operand).equals (← b.operand)

/-- The relations that a condition can ask for. -/
inductive Comparison where
  | equal
  | unequal
  | atLeast
  | atMost
  | above
  | below
  /-- The relation that never holds, for an operator that is none of the others. -/
  | never
deriving DecidableEq

namespace Comparison

/-- The relation that an operator stands for. -/
def ofOperator (operator : Text) : Comparison :=
  if operator = "==" then equal
  else if operator = "!=" then unequal
  else if operator = ">=" then atLeast
  else if operator = "<=" then atMost
  else if operator = ">" then above
  else if operator = "<" then below
  else never

/-- The relation between two doubles; none holds of NaN but inequality. -/
def holds : Comparison → Float → Float → Bool
  | equal, x, y => x == y
  | unequal, x, y => x != y
  | atLeast, x, y => y ≤ x
  | atMost, x, y => x ≤ y
  | above, x, y => y < x
  | below, x, y => x < y
  | never, _, _ => false

/-- The relation seen from the other side. -/
def flip : Comparison → Comparison
  | atLeast => atMost
  | atMost => atLeast
  | above => below
  | below => above
  | c => c

end Comparison

/-- The relation holds between two values: equality loosely, order between their numbers. -/
def Value.compareBy (c : Comparison) (a b : Value) : Evaluation Bool :=
  match c with
  | .equal => a.looseEquals b
  | .unequal => do return !(← a.looseEquals b)
  | c => do
    let x ← a.toNumber
    let y ← b.toNumber
    return !(x.isNaN || y.isNaN) && c.holds x y

end ThemeProps
