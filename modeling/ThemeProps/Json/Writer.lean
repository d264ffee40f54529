/-
  Writing outlines as JSON.

  * `Json.literal` is a text as a JSON string: only quotes, backslashes and
    controls are escaped;
  * `Outline.toJson` is a document with one item to a line, indented by two
    columns for each level.
-/
import ThemeProps.Outline
import ThemeProps.Text.Digit

namespace ThemeProps

namespace Json

/-- A character of a string. -/
def literalChar (c : Char) : Text :=
  if c = '"' ∨ c = '\\' then ['\\', c]
  else if c = '\n' then "\\n"
  else if c = '\r' then "\\r"
  else if c = '\t' then "\\t"
  else if c.toNat = 8 then "\\b"
  else if c.toNat = 12 then "\\f"
  else if c.toNat < 0x20 then "\\u".toList ++ Text.hexDigits 4 c.toNat
  else [c]

/-- A text as a string. -/
def literal (s : Text) : Text := '"' :: s.flatMap literalChar ++ "\""

/-- The break before a line with an indentation. -/
def newline (indent : Nat) : Text := '\n' :: List.replicate indent ' '

/-- Members between brackets, each on a line of its own. -/
def enclose (indent : Nat) (opening closing : Char) (members : List Text) : Text :=
  if members.isEmpty then [opening, closing]
  else
    opening :: newline (indent + 2) ++ Text.join (',' :: newline (indent + 2)) members
      ++ newline indent ++ [closing]

end Json

namespace Outline

mutual
/-- An outline within a line with an indentation. -/
def writeJson (indent : Nat) : Outline → Text
  | text s => Json.literal s
  | items os => Json.enclose indent '[' ']' (jsonItems (indent + 2) os)
  | fields fs => Json.enclose indent '\x7b' '\x7d' (jsonFields (indent + 2) fs)
/-- Some outlines. -/
def jsonItems (indent : Nat) : List Outline → List Text
  | [] => []
  | o :: os => writeJson indent o :: jsonItems indent os
/-- Some named outlines. -/
def jsonFields (indent : Nat) : List (Text × Outline) → List Text
  | [] => []
  | (key, o) :: fs => (Json.literal key ++ ": " ++ writeJson indent o) :: jsonFields indent fs
end

/-- An outline as a JSON document. -/
def toJson (o : Outline) : Text := o.writeJson 0

end Outline
end ThemeProps
