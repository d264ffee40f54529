/-
  Values as keys of a mapping.

  * `Value.written` writes a value out, with quotes around its texts and
    brackets around its items;
  * `Value.keyText` is the text under which a value serves as a key: a text
    stands for itself, other values are written out.
-/
import ThemeProps.Text.Quoted
import ThemeProps.Value.Basic

namespace ThemeProps.Value

mutual
/-- A value written out. -/
def written : Value → Text
  | null => "None"
  | bool b => if b then "True" else "False"
  | number n => n.literal
  | str s => s.quoted
  | list _ items => '[' :: Text.join ", " (writtenItems items) ++ "]"
  | map _ fields => '\x7b' :: Text.join ", " (writtenFields fields) ++ ['\x7d']
/-- The items of a list written out. -/
def writtenItems : List Value → List Text
  | [] => []
  | v :: vs => v.written :: writtenItems vs
/-- The fields of a mapping written out. -/
def writtenFields : List (Text × Value) → List Text
  | [] => []
  | (key, v) :: fields => (Text.quoted key ++ ": " ++ v.written) :: writtenFields fields
end

/-- A value as a key. -/
def keyText : Value → Text
  | str s => s
  | v => v.written

end ThemeProps.Value
