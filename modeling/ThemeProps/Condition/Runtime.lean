/-
  Conditions inside executed blocks.

  A condition is a search `a contains b`, one comparison, or an expression
  whose truth counts.

  * `Condition.parse` reads a condition. The first operator counts, so an
    operand before it cannot hold one;
  * `Condition.holds` decides it under some bindings.
-/
import ThemeProps.Expr.Eval
import ThemeProps.Value.Compare

namespace ThemeProps

/-- A condition of an executed block. -/
inductive Condition where
  /-- `whole contains part` -/
  | contains (whole part : Expr)
  /-- `left operator right` -/
  | compare (left : Expr) (c : Comparison) (right : Expr)
  /-- an expression alone -/
  | truthy (e : Expr)

namespace Condition

/-- An operator, if something follows it. -/
def operator (symbol : Text) (c : Comparison) : Reader (Comparison × Text) := do
  Reader.literal symbol
  let right ← Reader.rest
  if right = [] then failure
  return (c, right)

/-- The comparison operators of a condition; the longer ones are tried first. -/
def anyOperator : Reader (Comparison × Text) :=
  operator ">=" .atLeast <|> operator "<=" .atMost <|> operator ">" .above
    <|> operator "<" .below <|> operator "==" .equal

/-- The text before the first operator, the operator, and the text behind it. -/
def comparison? : Text → Option (Text × Comparison × Text)
  | [] => none
  | first :: rest =>
    (anyOperator.findFirst rest).map fun (before, (c, right), _) => (first :: before, c, right)

/-- The condition that a text writes. -/
def parse (s : Text) : Condition :=
  match Text.splitOn " contains " s with
  | whole :: part :: _ => contains (Expr.parse (Text.trim whole)) (Expr.parse (Text.trim part))
  | _ =>
    match comparison? s with
    | some (left, c, right) =>
      compare (Expr.parse (Text.trim left)) c (Expr.parse (Text.trim right))
    | none => truthy (Expr.parse s)

/-- The condition holds under the bindings and settings. -/
def holds (store : Store) (b : Bindings) : Condition → Evaluation Bool
  | contains whole part => do
    let s ← (← whole.eval store b).toText
    let t ← (← part.eval store b).toText
    return Text.occursIn t s
  | compare left c right => do
    let v ← left.eval store b
    let w ← right.eval store b
    v.compareBy c w
  | truthy e => do (← e.eval store b).truth

end Condition

/-- The condition that a text writes holds. -/
def evaluateCondition (store : Store) (b : Bindings) (s : Text) : Evaluation Bool :=
  (Condition.parse s).holds store b

end ThemeProps
