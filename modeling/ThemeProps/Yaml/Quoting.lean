/-
  How a text is written as a YAML scalar.

  * `Style.choose` takes the least quoting that is safe: none, if the text can
    stand for itself and for nothing else, single quotes, or double quotes for
    what has to be escaped;
  * `Style.write` writes a text in a style. A long scalar goes on on the next
    line at a space, as soon as the line is wider than 80 columns.
-/
import ThemeProps.Yaml.Schema

namespace ThemeProps.Yaml

/-! ## Texts that read as something else -/

namespace Form

/-- The places of a number to the base 60 after the first one. -/
def sixtieths : Nat → Reader Unit
  | 0 => pure ()
  | more + 1 => do
    Reader.char ':'
    let place ← Reader.run1 isDecimal
    let isBelowSixty := place.length = 1
      ∨ (place.length = 2 ∧ place.head?.any fun c => c.toNat < '6'.toNat)
    if isBelowSixty then sixtieths more <|> pure () else failure

/-- One of the digits from 1 to 9. -/
def isPositive (c : Char) : Bool := '1' ≤ c && c ≤ '9'

/-- The forms that the earlier version of the format reads as truth values. -/
def truths : List (Reader Unit) :=
  [ cased "yes" "Yes" "YES", cased "no" "No" "NO", cased "true" "True" "TRUE",
    cased "false" "False" "FALSE", cased "on" "On" "ON", cased "off" "Off" "OFF" ]

/-- The forms that the earlier version of the format reads as numbers, where `places` bounds the
number of places to the base 60. -/
def earlierNumbers (places : Nat) : List (Reader Unit) :=
  [ do sign; digitsFrom isDecimal; Reader.char '.'; grouped isDecimal; signedExponent <|> pure (),
    do Reader.char '.'; digitsFrom isDecimal; signedExponent <|> pure (),
    do sign; digitsFrom isDecimal; sixtieths places; Reader.char '.'; grouped isDecimal,
    do sign; binary,
    do sign; Reader.char '0'; grouped1 isOctal,
    do sign; Reader.char '0',
    do sign; digitsFrom isPositive,
    do sign; hexadecimal,
    do sign; digitsFrom isPositive; sixtieths places ]

/-- The texts with a meaning of their own. -/
def reserved : List Text := [[], "<<", "=", "!", "&", "*"]

end Form

/-- A reader of the earlier version of the format takes the unquoted text for a text. -/
def readsAsText (s : Text) : Bool :=
  !(Form.reserved.contains s
    || Form.matchesAny
      (Form.truths ++ Form.nulls ++ Form.limits ++ Form.timestamps
        ++ Form.earlierNumbers s.length) s)

/-! ## Styles -/

/-- The character breaks a line. -/
def isBreak (c : Char) : Bool :=
  c == '\n' || c.toNat == 0x85 || c.toNat == 0x2028 || c.toNat == 0x2029

/-- A blank or a line break follows, or nothing. -/
def beforeGap (s : Text) : Bool :=
  match s with
  | [] => true
  | c :: _ => c == ' ' || c == '\t' || c == '\r' || c.toNat == 0 || isBreak c

/-- The character is not written as it is: controls other than line feeds, and the byte order
mark. -/
def isSpecial (c : Char) : Bool :=
  let n := c.toNat
  !(c == '\n' || (0x20 ≤ n && n ≤ 0x7E) || n == 0x85
    || (0xA0 ≤ n && n ≤ 0xFFFD && n ≠ 0xFEFF) || (0x10000 ≤ n && n < 0x10FFFF))

/-- The text begins with an indicator. -/
def startsWithIndicator (s : Text) : Bool :=
  match s with
  | [] => false
  | c :: cs =>
    Text.startsWith s "---" || Text.startsWith s "..."
      || "#,[]\x7b\x7d&*!|>\x27\"%@\x60".toList.contains c
      || ((c == '?' || c == ':' || c == '-') && beforeGap cs)

/-- An indicator occurs behind the character `before`. -/
def hasIndicator (before : Char) : Text → Bool
  | [] => false
  | c :: cs =>
    (c == ':' && beforeGap cs) || (c == '#' && beforeGap [before]) || hasIndicator c cs

/-- Two neighbours in the text satisfy the tests. -/
def hasNeighbours (p q : Char → Bool) (s : Text) : Bool :=
  (s.zip (s.drop 1)).any fun (a, b) => p a && q b

/-- The ways to write a scalar. -/
inductive Style where
  | plain
  | single
  | double
deriving DecidableEq

namespace Style

/-- The text may stand without quotes where it is not a key. -/
def allowsPlain (s : Text) : Bool :=
  !(s.any fun c => isSpecial c || isBreak c)
    && !(s.head? == some ' ' || s.getLast? == some ' ')
    && !startsWithIndicator s && !hasIndicator (s.head?.getD ' ') (s.drop 1)

/-- The text may stand in single quotes: no blanks next to line breaks and nothing to escape. -/
def allowsSingle (s : Text) : Bool :=
  !s.any isSpecial && !hasNeighbours isBreak (· == ' ') s && !hasNeighbours (· == ' ') isBreak s

/-- The style for a text. The key of a pair has to stay on its line. -/
def choose (isKey : Bool) (s : Text) : Style :=
  if allowsPlain s && readsAsText s then plain
  else if allowsSingle s && !(isKey && s.any isBreak) then single
  else double

end Style

/-! ## Writing -/

/-- The width from which on a line goes on on the next one. -/
def lineWidth : Nat := 80

/-- A line break and the indentation of the next line. -/
def newline (indent : Nat) : Text := '\n' :: List.replicate indent ' '

/-- Where a scalar may go on on further lines, their indentation. -/
abbrev Continuation := Option Nat

/-- A plain scalar from the given column on, behind the character `before`. A single space may
become a line break. -/
def writePlain (fold : Continuation) (column : Nat) (before : Char) : Text → Text
  | [] => []
  | c :: cs =>
    match fold with
    | some indent =>
      if c = ' ' ∧ before ≠ ' ' ∧ cs.head? ≠ some ' ' ∧ lineWidth < column then
        newline indent ++ writePlain fold indent c cs
      else c :: writePlain fold (column + 1) c cs
    | none => c :: writePlain fold (column + 1) c cs

/-- The inner part of a single-quoted scalar from the given column on, behind the character `before`
if there is one; `indent` is the indentation of further lines. -/
def writeSingle (fold : Bool) (indent column : Nat) (before : Option Char) : Text → Text
  | [] => []
  | c :: cs =>
    if isBreak c then
      let extra : Text := if c = '\n' ∧ !before.any isBreak then ['\n'] else []
      let margin : Text := if cs.head?.any isBreak then [] else List.replicate indent ' '
      extra ++ c :: margin ++ writeSingle fold indent indent (some c) cs
    else if c = '\x27' then '\x27' :: '\x27' :: writeSingle fold indent (column + 2) (some c) cs
    else if c = ' ' ∧ fold ∧ before.any (· ≠ ' ') ∧ cs.head?.any (· ≠ ' ') ∧ lineWidth < column then
      newline indent ++ writeSingle fold indent indent (some c) cs
    else c :: writeSingle fold indent (column + 1) (some c) cs

/-- The letter of a short escape. -/
def shortEscape? (c : Char) : Option Char :=
  let letters := [(0, '0'), (7, 'a'), (8, 'b'), (9, 't'), (10, 'n'), (11, 'v'), (12, 'f'),
    (13, 'r'), (0x1B, 'e'), (0x22, '"'), (0x5C, '\\'), (0x85, 'N'), (0xA0, '_'), (0x2028, 'L'),
    (0x2029, 'P')]
  letters.lookup c.toNat

/-- The character can stand in double quotes as it is. -/
def standsInDouble (c : Char) : Bool :=
  let n := c.toNat
  c ≠ '"' && c ≠ '\\' && n ≠ 0x2028 && n ≠ 0x2029 && n ≠ 0xFEFF
    && ((0x20 ≤ n && n ≤ 0x7E) || (0xA0 ≤ n && n ≤ 0xFFFD))

/-- The escape of a character. -/
def escape (c : Char) : Text :=
  let number (width : Nat) : Text := (Text.hexDigits width c.toNat).map Char.toUpper
  match shortEscape? c with
  | some letter => ['\\', letter]
  | none =>
    if c.toNat ≤ 0xFF then '\\' :: 'x' :: number 2
    else if c.toNat ≤ 0xFFFF then '\\' :: 'u' :: number 4
    else '\\' :: 'U' :: number 8

/-- The inner part of a double-quoted scalar from the given column on. A line may end, with a
backslash, before a space, before a character behind an escape and behind an escape, but not next to
the quotes: `isFirst` tells that nothing is written yet, and `atEscape` that nothing is behind the
last escape or line break. A space at the beginning of a line has a backslash before it. -/
def writeDouble (fold : Continuation) (column : Nat) (isFirst atEscape : Bool) : Text → Text
  | [] => []
  | c :: cs =>
    let continued (width : Nat) : Option Nat :=
      if isFirst ∨ cs = [] ∨ width ≤ lineWidth then none else fold
    if standsInDouble c then
      match if c = ' ' ∨ atEscape then continued column else none with
      | some indent =>
        let guard : Text := if c = ' ' then ['\\'] else []
        '\\' :: newline indent ++ guard ++
          c :: writeDouble fold (indent + guard.length + 1) false false cs
      | none => c :: writeDouble fold (column + 1) false false cs
    else
      let written := escape c
      let column := column + written.length
      match continued (column - 1) with
      | some indent =>
        let guard : Text := if cs.head? = some ' ' then ['\\'] else []
        written ++ '\\' :: newline indent ++ guard ++
          writeDouble fold (indent + guard.length) false true cs
      | none => written ++ writeDouble fold column false true cs

/-- A text in a style from the given column on; `isKey` keeps it on its line, and `indent` is the
indentation of further lines. -/
def Style.write (style : Style) (isKey : Bool) (indent column : Nat) (s : Text) : Text :=
  let fold : Continuation := if isKey then none else some indent
  match style with
  | plain => writePlain fold column ' ' s
  | single => '\x27' :: writeSingle (!isKey) indent (column + 1) none s ++ "\x27"
  | double => '"' :: writeDouble fold (column + 1) true true s ++ "\""

/-- A text as a scalar. -/
def writeScalar (isKey : Bool) (indent column : Nat) (s : Text) : Text :=
  (Style.choose isKey s).write isKey indent column s

end ThemeProps.Yaml
