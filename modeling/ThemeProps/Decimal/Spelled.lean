/-
  Numbers as they are spelled in options.

  * `ungroup?` drops the underscores that group digits;
  * `spelledNumber?` is the double that a whole text spells: a numeral whose
    digits may be grouped, an infinity or NaN. Blanks around it do not count.
-/
import ThemeProps.Decimal.Numeral

namespace ThemeProps

/-- A text without the underscores in it, each of which has to stand between two digits;
`behindDigit` tells that the text follows a digit. -/
def ungroup? (behindDigit : Bool) : Text → Option Text
  | [] => some []
  | '_' :: cs => if behindDigit && cs.head?.any Text.isDigit then ungroup? false cs else none
  | c :: cs => (ungroup? (Text.isDigit c) cs).map (c :: ·)

/-- A text with small Latin letters in place of capital ones. -/
def Text.lowercase (s : Text) : Text := s.map Char.toLower

/-- An infinity or NaN in any letter case. -/
def spelledLimit? (s : Text) : Option Float :=
  let (negative, word) := ((Numeral.sign s).getD (false, s))
  let word := Text.lowercase word
  if word = "inf" ∨ word = "infinity" then some (infinity negative)
  else if word = "nan" then some notANumber
  else none

/-- The number that a text spells. -/
def spelledNumber? (s : Text) : Option Float :=
  let s := Text.trim s
  match spelledLimit? s with
  | some x => some x
  | none => ((ungroup? false s).bind Numeral.read.readAll?).map Numeral.toFloat

end ThemeProps
