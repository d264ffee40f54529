/-
  What the scalars of a YAML document stand for.

  * `ScalarType` are the types of scalars; `ScalarType.ofPlain` tells the type of
    an unquoted scalar by its form, and `ScalarType.read?` is the value of a
    scalar of a type;
  * `Tag.parse?` reads what a tag says about a node.

  The forms are readers, so that other schemas can be put together from them.
-/
import ThemeProps.Decimal.Spelled
import ThemeProps.Value.Basic

namespace ThemeProps.Yaml

/-! ## Forms -/

namespace Form

/-- The text has one of some forms. -/
def matchesAny (forms : List (Reader Unit)) (s : Text) : Bool :=
  forms.any fun form => (form.readAll? s).isSome

/-- One of the digits from 0 to 9. -/
def isDecimal (c : Char) : Bool := '0' ≤ c && c ≤ '9'

/-- A plus or minus sign, or nothing. -/
def sign : Reader Unit := do
  let _ ← Numeral.sign

/-- At least one character of a kind, and underscores between them. -/
def grouped1 (p : Char → Bool) : Reader Unit := do
  let _ ← Reader.run1 fun c => p c || c == '_'

/-- Characters of a kind, and underscores between them. -/
def grouped (p : Char → Bool) : Reader Unit := do
  let _ ← Reader.run fun c => p c || c == '_'

/-- Decimal digits that begin with a digit of a kind, and underscores between them. -/
def digitsFrom (p : Char → Bool) : Reader Unit := do
  let _ ← Reader.satisfy p
  grouped isDecimal

/-- The given number of decimal digits. -/
def digits : Nat → Reader Unit
  | 0 => pure ()
  | n + 1 => do
    let _ ← Reader.satisfy isDecimal
    digits n

/-- One or two decimal digits. -/
def oneOrTwoDigits : Reader Unit := do
  let _ ← Reader.satisfy isDecimal
  let _ ← (some <$> Reader.satisfy isDecimal) <|> pure none

/-- An exponent with a sign. -/
def signedExponent : Reader Unit := do
  Reader.char 'e' <|> Reader.char 'E'
  Reader.char '+' <|> Reader.char '-'
  let _ ← Reader.run1 isDecimal

/-- An exponent. -/
def exponent : Reader Unit := do
  Reader.char 'e' <|> Reader.char 'E'
  sign
  let _ ← Reader.run1 isDecimal

/-- A given text, in small letters, with a capital first letter or in capital letters. -/
def cased (lower capital upper : Text) : Reader Unit :=
  Reader.literal lower <|> Reader.literal capital <|> Reader.literal upper

/-- The forms of infinities and NaN. -/
def limits : List (Reader Unit) :=
  [ do sign; Reader.char '.'; cased "inf" "Inf" "INF",
    do Reader.char '.'; cased "nan" "NaN" "NAN" ]

/-- The forms of absent values, apart from the empty text. -/
def nulls : List (Reader Unit) := [ Reader.char '~', cased "null" "Null" "NULL" ]

/-- The form of a day. -/
def day : Reader Unit := do
  digits 4
  Reader.char '-'
  digits 2
  Reader.char '-'
  digits 2

/-- A time zone. -/
def zone : Reader Unit := do
  let _ ← Reader.run fun c => c == ' ' || c == '\t'
  Reader.char 'Z' <|> do
    Reader.char '+' <|> Reader.char '-'
    oneOrTwoDigits
    (do Reader.char ':'; digits 2) <|> pure ()

/-- What stands between a day and a time. -/
def daySeparator : Reader Unit :=
  Reader.char 'T' <|> Reader.char 't' <|> do
    let _ ← Reader.run1 fun c => c == ' ' || c == '\t'

/-- The form of a moment. -/
def moment : Reader Unit := do
  digits 4
  Reader.char '-'
  oneOrTwoDigits
  Reader.char '-'
  oneOrTwoDigits
  daySeparator
  oneOrTwoDigits
  Reader.char ':'
  digits 2
  Reader.char ':'
  digits 2
  (do Reader.char '.'; let _ ← Reader.run isDecimal) <|> pure ()
  zone <|> pure ()

/-- The forms of timestamps. -/
def timestamps : List (Reader Unit) := [ day, moment ]

/-- The form of a binary integer, after its sign. -/
def binary : Reader Unit := do
  Reader.literal "0b"
  grouped1 fun c => c == '0' || c == '1'

/-- The form of a hexadecimal integer, after its sign. -/
def hexadecimal : Reader Unit := do
  Reader.literal "0x"
  grouped1 fun c => (Text.hexValue? c).isSome

/-- A digit from 0 to 7. -/
def isOctal (c : Char) : Bool := '0' ≤ c && c ≤ '7'

/-- The forms of integers. -/
def integers : List (Reader Unit) :=
  [ do sign; binary,
    do sign; Reader.char '0'; Reader.maybe 'o'; grouped1 isOctal,
    do sign; grouped1 isDecimal,
    do sign; hexadecimal ]

/-- The forms of numbers with a fraction or an exponent. -/
def floats : List (Reader Unit) :=
  [ do sign; digitsFrom isDecimal; Reader.char '.'; grouped isDecimal; exponent <|> pure (),
    do sign; digitsFrom isDecimal; exponent,
    do sign; Reader.char '.'; grouped1 isDecimal; signedExponent <|> pure () ]

end Form

/-! ## Types -/

/-- The types of scalars. -/
inductive ScalarType where
  | null
  | bool
  | int
  | float
  | str
  /-- The key under which a mapping takes over the pairs of other mappings. -/
  | merge
  /-- A type that is not read here, such as that of timestamps. -/
  | other
deriving DecidableEq

namespace ScalarType

/-- The first character of a number. -/
def startsNumber (s : Text) : Bool :=
  s.head?.any fun c => Form.isDecimal c || c == '+' || c == '-'

/-- The forms of truth values. -/
def truthForms : List (Reader Unit) :=
  [Form.cased "true" "True" "TRUE", Form.cased "false" "False" "FALSE"]

/-- The type of an unquoted scalar. -/
def ofPlain (s : Text) : ScalarType :=
  if s = [] ∨ Form.matchesAny Form.nulls s then null
  else if Form.matchesAny truthForms s then bool
  else if Form.matchesAny (Form.floats ++ Form.limits) s then float
  else if startsNumber s && Form.matchesAny Form.integers s then int
  else if s = "<<" then merge
  else if s = "=" ∨ Form.matchesAny Form.timestamps s then other
  else str

/-! ## Values -/

/-- The integer that some digits stand for in a base. -/
def digitsIn? (base : Nat) (s : Text) : Option Int :=
  if s = [] then none
  else (s.foldlM (fun (n : Nat) c => do
    let d ← Text.hexValue? c
    if d < base then return base * n + d else none) 0).map Int.ofNat

/-- The integer that a scalar stands for: binary behind `0b`, octal behind `0o`, hexadecimal behind
`0x`, and else decimal. -/
def integer? (s : Text) : Option Int := do
  let s := s.filter (· ≠ '_')
  let (negative, s) ← Numeral.sign s
  let n ← match s with
    | '0' :: 'b' :: cs => digitsIn? 2 cs
    | '0' :: 'o' :: cs => digitsIn? 8 cs
    | '0' :: 'x' :: cs => digitsIn? 16 cs
    | cs => digitsIn? 10 cs
  return if negative then -n else n

/-- The double that a scalar stands for. -/
def double? (s : Text) : Option Float :=
  let s := Text.lowercase (s.filter (· ≠ '_'))
  match Numeral.sign s with
  | some (negative, s) =>
    if s = ".inf" then some (infinity negative)
    else if s = ".nan" then some notANumber
    else (spelledNumber? s).map fun x => if negative then -x else x
  | none => none

/-- The truth value that a scalar stands for. -/
def truth? (s : Text) : Option Bool :=
  let s := Text.lowercase s
  if s = "true" ∨ s = "yes" ∨ s = "y" ∨ s = "on" then some true
  else if s = "false" ∨ s = "no" ∨ s = "n" ∨ s = "off" then some false
  else none

/-- The value of a scalar of some type. A truth value with an anchor is a number: 1 or 0. Scalars of
types that are not read stand for NaN, so that they count as being there but not as anything that is
asked for. -/
def read? (type : ScalarType) (hasAnchor : Bool) (s : Text) : Option Value :=
  match type with
  | null => some .null
  | bool => (truth? s).map fun b => if hasAnchor then .int (if b then 1 else 0) else .bool b
  | int => (integer? s).map .int
  | float => (double? s).map .float
  | str => some (.str s)
  | merge => some (.float notANumber)
  | other => some (.float notANumber)

end ScalarType

/-! ## Tags -/

/-- What a tag says about a node. -/
inductive Tag where
  /-- The form of the node decides. -/
  | unspecific
  | scalar (type : ScalarType)
  | sequence
  | mapping
  /-- A tag that is not known. -/
  | unknown

namespace Tag

/-- The tag that a name of the core schema stands for. -/
def ofCoreName (name : Text) : Tag :=
  if name = "str" then scalar .str
  else if name = "int" then scalar .int
  else if name = "float" then scalar .float
  else if name = "bool" then scalar .bool
  else if name = "null" then scalar .null
  else if name = "seq" then sequence
  else if name = "map" then mapping
  else unknown

/-- A tag as it is written; its handle has to be defined. -/
def parse? (s : Text) : Option Tag :=
  match Text.stripFrom "!!" s, Text.stripFrom "tag:yaml.org,2002:" s with
  | some name, _ => some (ofCoreName name)
  | none, some name => some (ofCoreName name)
  | none, none =>
    match s with
    | ['!'] => some unspecific
    | '!' :: name => if name.contains '!' then none else some unknown
    | _ => some unknown

end Tag
end ThemeProps.Yaml
