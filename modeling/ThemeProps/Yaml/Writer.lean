/-
  Writing outlines as YAML.

  `Outline.toYaml` writes block collections, indented by two columns for each
  level; the items of a list that is the value of a key stand below the key.
  Empty collections are written in brackets.
-/
import ThemeProps.Outline
import ThemeProps.Yaml.Quoting

namespace ThemeProps

namespace Yaml

/-- The length from which on a text cannot be a simple key. -/
def simpleKeyLimit : Nat := 123

/-- The text can be a key in front of a colon on one line. -/
def isSimpleKey (s : Text) : Bool := s.length < simpleKeyLimit && s ≠ [] && !s.any isBreak

/-- A simple key at an indentation. -/
def simpleKey (indent : Nat) (s : Text) : Text := writeScalar true (indent + 2) indent s

end Yaml

namespace Outline

open Yaml

mutual
/-- What follows the mark of an item, or of the value of a key that is not simple. -/
def yamlAfterMark (indent : Nat) : Outline → Text
  | text s => ' ' :: writeScalar false (indent + 2) (indent + 2) s
  | items [] => " []"
  | fields [] => " \x7b\x7d"
  | items (o :: os) => ' ' :: Text.join (newline (indent + 2)) (yamlItems (indent + 2) (o :: os))
  | fields (f :: fs) => ' ' :: Text.join (newline (indent + 2)) (yamlFields (indent + 2) (f :: fs))
/-- What follows a simple key and its colon, up to the given column. -/
def yamlAfterKey (indent column : Nat) : Outline → Text
  | text s => ' ' :: writeScalar false (indent + 2) (column + 1) s
  | items [] => " []"
  | fields [] => " \x7b\x7d"
  | items (o :: os) =>
    newline indent ++ Text.join (newline indent) (yamlItems indent (o :: os))
  | fields (f :: fs) =>
    newline (indent + 2) ++ Text.join (newline (indent + 2)) (yamlFields (indent + 2) (f :: fs))
/-- The items of a list. -/
def yamlItems (indent : Nat) : List Outline → List Text
  | [] => []
  | o :: os => ('-' :: yamlAfterMark indent o) :: yamlItems indent os
/-- The pairs of a mapping. -/
def yamlFields (indent : Nat) : List (Text × Outline) → List Text
  | [] => []
  | (key, o) :: fs =>
    let pair :=
      if isSimpleKey key then
        let written := simpleKey indent key
        written ++ ':' :: yamlAfterKey indent (indent + written.length + 1) o
      else
        "? ".toList ++ writeScalar false (indent + 2) (indent + 2) key ++ newline indent
          ++ ':' :: yamlAfterMark indent o
    pair :: yamlFields indent fs
end

/-- An outline as a YAML document. -/
def toYaml : Outline → Text
  | text s => writeScalar false 2 0 s ++ "\n"
  | items [] => "[]\n"
  | fields [] => "\x7b\x7d\n"
  | items os => Text.join (newline 0) (yamlItems 0 os) ++ "\n"
  | fields fs => Text.join (newline 0) (yamlFields 0 fs) ++ "\n"

end Outline
end ThemeProps
