/-
  Reading JSON documents.

  Beyond the standard, `NaN`, `Infinity` and `-Infinity` are numbers. Numbers
  with a fraction or an exponent are doubles, others whole numbers; of fields
  with the same key the last one counts, at the place of the first.

  A whole number has at most `maxDigits` digits. One with more ends the reading
  with an error, whatever stands behind it.

  `Json.document?` is the value of a document, and `none` for a text that is no
  document.
-/
import ThemeProps.Text.Reader
import ThemeProps.Decimal.Numeral
import ThemeProps.Value.Basic

namespace ThemeProps.Json

/-- Blanks between the parts of a document. -/
def space : Reader Unit := do
  let _ ← Reader.run fun c => c == ' ' || c == '\t' || c == '\n' || c == '\r'

/-! ## Strings -/

/-- The number that four hexadecimal digits stand for. -/
def hexNumber? (a b c d : Char) : Option Nat := do
  return ((← Text.hexValue? a) * 16 + (← Text.hexValue? b)) * 256
    + (← Text.hexValue? c) * 16 + (← Text.hexValue? d)

/-- What an escape of one character stands for. -/
def escaped? (c : Char) : Option Nat :=
  if c = '"' ∨ c = '\\' ∨ c = '/' then some c.toNat
  else if c = 'b' then some 8
  else if c = 'f' then some 12
  else if c = 'n' then some 10
  else if c = 'r' then some 13
  else if c = 't' then some 9
  else none

/-- The rest of a string up to its closing quote mark: the numbers of its characters, in which a
pair of surrogates counts twice. -/
def stringUnits : Text → Option (List Nat × Text)
  | [] => none
  | '"' :: cs => some ([], cs)
  | '\\' :: 'u' :: a :: b :: c :: d :: cs => do
    let n ← hexNumber? a b c d
    let (units, rest) ← stringUnits cs
    return (n :: units, rest)
  | '\\' :: c :: cs => do
    let n ← escaped? c
    let (units, rest) ← stringUnits cs
    return (n :: units, rest)
  | c :: cs =>
    if c.toNat < 0x20 ∨ c = '\\' then none
    else (stringUnits cs).map fun (units, rest) => (c.toNat :: units, rest)

/-- The text of some character numbers. A pair of surrogates is one character; a surrogate alone
has no character and is shown as a replacement. -/
def joinSurrogates : List Nat → Text
  | [] => []
  | high :: low :: ns =>
    if 0xD800 ≤ high ∧ high ≤ 0xDBFF ∧ 0xDC00 ≤ low ∧ low ≤ 0xDFFF then
      Char.ofNat (0x10000 + (high - 0xD800) * 0x400 + (low - 0xDC00)) :: joinSurrogates ns
    else (if high.isValidChar then Char.ofNat high else '\uFFFD') :: joinSurrogates (low :: ns)
  | [n] => [if n.isValidChar then Char.ofNat n else '\uFFFD']

/-- A string. -/
def string : Reader Text := do
  Reader.char '"'
  let units ← (stringUnits : Text → Option (List Nat × Text))
  return joinSurrogates units

/-! ## Numbers -/

/-- A digit from 0 to 9. -/
def isDigit (c : Char) : Bool := c.isDigit

/-- Digits without a leading zero, unless there is one digit. -/
def wholePart : Reader Text
  | '0' :: cs => some (['0'], cs)
  | cs => Reader.run1 isDigit cs

/-- A point and digits, or nothing. -/
def fractionPart : Reader Text :=
  (do Reader.char '.'; Reader.run1 isDigit) <|> pure []

/-- An exponent, or nothing. -/
def exponentPart : Reader (Option Int) :=
  (do
    Reader.char 'e' <|> Reader.char 'E'
    let negative ← Numeral.sign
    let digits ← Reader.run1 isDigit
    let n : Int := Text.numberOfDigits digits
    return some (if negative then -n else n))
  <|> pure none

/-- The number that is written with the given parts. -/
def numberOf (negative : Bool) (whole fraction : Text) (exponent? : Option Int) :
    Evaluation Number :=
  let digits := Text.numberOfDigits (whole ++ fraction)
  if fraction = [] ∧ exponent? = none then
    if whole.length ≤ maxDigits then .ok (.int (if negative then -digits else digits))
    else .error .unreadableDigits
  else .ok (.float (Numeral.toFloat ⟨negative, digits, exponent?.getD 0 - fraction.length⟩))

/-- A number. -/
def number : Reader (Evaluation Number) := do
  let negative ← (do Reader.char '-'; return true) <|> pure false
  (do
    Reader.literal "Infinity"
    return .ok (.float (infinity negative)))
  <|> (do
    let whole ← wholePart
    let fraction ← fractionPart
    let exponent? ← exponentPart
    return numberOf negative whole fraction exponent?)

/-! ## Values -/

/-- Some elements, at most `n`, with commas between them and a closing mark behind them. -/
def elements (element : Reader (Evaluation α)) (close : Char) :
    Nat → Reader (Evaluation (List α))
  | 0 => failure
  | n + 1 => do
    match ← element with
    | .error e => return .error e
    | .ok a =>
      space
      (do Reader.char close; return .ok [a])
        <|> (do
          Reader.char ','
          space
          return (← elements element close n).map (a :: ·))

/-- A list or mapping in its marks. -/
def bracketed (element : Reader (Evaluation α)) (opening close : Char) (n : Nat) :
    Reader (Evaluation (List α)) := do
  Reader.char opening
  space
  (do Reader.char close; return .ok []) <|> elements element close n

/-- A field of a mapping. -/
def field (value : Reader (Evaluation Value)) : Reader (Evaluation (Text × Value)) := do
  let key ← string
  space
  Reader.char ':'
  space
  return (← value).map (key, ·)

/-- The fields with each key once. -/
def collectFields (pairs : List (Text × Value)) : Fields :=
  pairs.foldl (fun fields (key, v) => Fields.set key v fields) []

/-- A value in which lists and mappings are nested less than `n` deep and have at most `n`
elements. -/
def value : Nat → Reader (Evaluation Value)
  | 0 => failure
  | n + 1 =>
    (do return .ok (.str (← string)))
    <|> (do Reader.literal "null"; return .ok .null)
    <|> (do Reader.literal "true"; return .ok (.bool true))
    <|> (do Reader.literal "false"; return .ok (.bool false))
    <|> (do Reader.literal "NaN"; return .ok (.float notANumber))
    <|> (do return (← number).map .number)
    <|> (do return (← bracketed (value n) '[' ']' n).map (.list .fresh))
    <|> (do
      return (← bracketed (field (value n)) '{' '}' n).map fun pairs =>
        .map .fresh (collectFields pairs))

/-- The value of a document. Behind it only blanks may stand. -/
def document? (s : Text) : Evaluation (Option Value) :=
  match (do space; value (s.length + 1) : Reader (Evaluation Value)) s with
  | none => .ok none
  | some (.error e, _) => .error e
  | some (.ok v, rest) => .ok ((Reader.readAll? space rest).map fun _ => v)

end ThemeProps.Json
