/-
  The tags and outputs of a templated stylesheet.

  A tag stands between `{%` and `%}` and an output between `{{` and `}}`; a
  hyphen may follow the opening mark and precede the closing one. The keywords
  of tags are read in any letter case.

  * `openTag` and `closeTag` read the marks of a tag with the blanks inside
    them, `word` a tag that is one keyword, such as `endif`;
  * `openOutput` and `closeOutput` do so for outputs.
-/
import ThemeProps.Text.Pieces
import ThemeProps.Text.Word

namespace ThemeProps.Tag

/-- The opening mark of a tag and the blanks after it. -/
def openTag : Reader Unit := do
  Reader.char '{'
  Reader.char '%'
  Reader.maybe '-'
  Reader.blanks

/-- The closing mark of a tag. -/
def endTag : Reader Unit := do
  Reader.maybe '-'
  Reader.char '%'
  Reader.char '}'

/-- The closing mark of a tag and the blanks before it. -/
def closeTag : Reader Unit := do
  Reader.blanks
  endTag

/-- A tag that consists of one keyword. -/
def word (keyword : Text) : Reader Unit := do
  openTag
  Reader.keyword keyword
  closeTag

/-- The beginning of a tag, up to the arguments of its keyword. -/
def opening (keyword : Text) : Reader Unit := do
  openTag
  Reader.keyword keyword
  Reader.blanks1

/-- The text up to a tag that consists of one keyword. -/
def upToWord (keyword : Text) : Reader Text := do
  let (body, _) ← Reader.upTo (word keyword)
  return body

/-- The opening mark of an output and the blanks after it. -/
def openOutput : Reader Unit := do
  Reader.char '{'
  Reader.char '{'
  Reader.maybe '-'
  Reader.blanks

/-- The closing mark of an output and the blanks before it. -/
def closeOutput : Reader Unit := do
  Reader.blanks
  Reader.maybe '-'
  Reader.char '}'
  Reader.char '}'

end ThemeProps.Tag
