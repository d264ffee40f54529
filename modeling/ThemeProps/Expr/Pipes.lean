/-
  Cutting an expression at its pipes.

  Pipes inside quoted text do not count. A quote mark opens a quotation when
  none is open and closes the one that it opened, unless a backslash stands
  right before it.

  * `pieces` are the texts between the pipes as they stand;
  * `splitPipes` trims them, and leaves an empty last one out.
-/
import ThemeProps.Text.Blank

namespace ThemeProps.Text

/-- The character is a single or a double quote mark. -/
def isQuoteMark (c : Char) : Bool := c == '\x27' || c == '"'

/-- The open quotation after a character; `escaped` tells that a backslash stands before it. -/
def quoteAfter (escaped : Bool) (openQuote : Option Char) (c : Char) : Option Char :=
  if isQuoteMark c && !escaped then
    match openQuote with
    | none => some c
    | some q => if c = q then none else some q
  else openQuote

/-- The first of some pieces with a character put in front. -/
def consToFirst (c : Char) : List Text → List Text
  | [] => [[c]]
  | piece :: pieces => (c :: piece) :: pieces

/-- The pieces of an expression between its pipes. -/
def pipePieces (escaped : Bool) (openQuote : Option Char) : Text → List Text
  | [] => [[]]
  | c :: cs =>
    if c = '|' ∧ openQuote = none then [] :: pipePieces false none cs
    else consToFirst c (pipePieces (c == '\\') (quoteAfter escaped openQuote c) cs)

/-- The pieces trimmed, without the last one if it is empty. -/
def trimPieces : List Text → List Text
  | [] => []
  | [last] => if last = [] then [] else [trim last]
  | piece :: pieces => trim piece :: trimPieces pieces

/-- The parts of an expression: a base and its filters. -/
def splitPipes (s : Text) : List Text := trimPieces (pipePieces false none s)

end ThemeProps.Text
