/-
  The loop over the color schemes, of which the first round is written out:

      {% for scheme in settings.color_schemes %} … {% endfor %}

  In the body, the scheme's identifier and the loop index are filled in, the
  settings of the loop variable become settings of `scheme`, a part for the
  first round is kept and parts for other rounds are left out.
-/
import ThemeProps.Template.Tag
import ThemeProps.Settings.Store

namespace ThemeProps.SchemeLoop

/-- The identifier that stands in for the first scheme's if there is none. -/
def defaultId : Text := "scheme-1"

/-- The loop: its variable and its body. -/
def loop : Reader (Text × Text) := do
  Tag.opening "for"
  let name ← Reader.run1 Text.isWord
  Reader.blanks1
  Reader.keyword "in"
  Reader.blanks1
  Reader.keyword "settings.color_schemes"
  Tag.closeTag
  let body ← Tag.upToWord "endfor"
  return (name, body)

/-- The output of the scheme's identifier. -/
def idOutput (name : Text) : Reader Unit := do
  Tag.openOutput
  Reader.literal name
  Reader.literal ".id"
  Tag.closeOutput

/-- A word; the loop variable in front of `.settings.` is renamed. -/
def renamedWord (name : Text) : Reader Text := do
  let word ← Reader.run1 Text.isWord
  (do
    if word ≠ name then failure
    Reader.literal ".settings."
    return "scheme.settings.")
  <|> return word

/-- The output of the loop index. -/
def indexOutput : Reader Unit := do
  Tag.openOutput
  Reader.literal "forloop.index"
  Tag.closeOutput

/-- A part for the first round: its body. -/
def firstRound : Reader Text := do
  Tag.opening "if"
  Reader.keyword "forloop.index"
  Reader.blanks
  Reader.literal "=="
  Reader.blanks
  Reader.char '1'
  Tag.closeTag
  Tag.upToWord "endif"

/-- A part that depends on the loop index in another way. -/
def otherRound : Reader Unit := do
  Tag.opening "if"
  Reader.keyword "forloop.index"
  let _ ← Reader.run1 (· ≠ '%')
  Reader.char '%'
  Reader.char '}'
  let _ ← Tag.upToWord "endif"

/-- The body of a loop as it is in the first round. -/
def firstIteration (schemeId name body : Text) : Text :=
  let body := Reader.replaceEvery (idOutput name) (fun _ => schemeId) body
  let body := Reader.replaceEvery (renamedWord name) id body
  let body := Reader.replaceEvery indexOutput (fun _ => "1") body
  let body := Reader.replaceEvery firstRound id body
  Reader.removeEvery otherRound body

/-- The identifier of the first color scheme; a nameless one counts as none. -/
def schemeId (store : Store) : Text :=
  match store.firstSchemeId? with
  | none => defaultId
  | some [] => defaultId
  | some id => id

/-- The text with the first round in place of each loop over the color schemes. -/
def expand (store : Store) (s : Text) : Text :=
  Reader.replaceEvery loop (fun (name, body) => firstIteration (schemeId store) name body) s

end ThemeProps.SchemeLoop
