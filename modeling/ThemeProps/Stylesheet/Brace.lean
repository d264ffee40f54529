/-
  Matching braces.

  `closingBrace? n s` looks for the brace that closes a rule: reading `s`, each
  opening brace is answered by a closing one, until one closes the `n` rules
  that are open. `body?` gives the body of a rule.
-/
import ThemeProps.Text.Basic

namespace ThemeProps.Stylesheet

/-- The number of characters up to and with the brace that closes the outermost of `depth + 1` open
rules. -/
def closingBrace? (depth : Nat) : Text → Option Nat
  | [] => none
  | c :: cs =>
    if c = '{' then (closingBrace? (depth + 1) cs).map (· + 1)
    else if c = '}' then
      match depth with
      | 0 => some 1
      | depth + 1 => (closingBrace? depth cs).map (· + 1)
    else (closingBrace? depth cs).map (· + 1)

/-- The offset behind the brace that closes the rule whose body starts at an offset. -/
def findMatchingBrace (s : Text) (start : Nat) : Option Nat :=
  (closingBrace? 0 (s.drop start)).map (start + ·)

/-- The body of the rule that `s` follows the opening brace of. -/
def body? (s : Text) : Option Text := (closingBrace? 0 s).map fun n => s.take (n - 1)

end ThemeProps.Stylesheet
