/-
  Conditional regions of a stylesheet:

      {% if settings.button_style == 'pill' %}
        --button-radius: 999px;
      {% elsif settings.button_style == 'square' %}
        --button-radius: 0;
      {% else %}
        --button-radius: 6px;
      {% endif %}

  A region ends at the first `endif`; regions inside it are not paired.

  * `splitBranches` cuts the body of a region at its `elsif` and `else` tags;
  * `selectBranch` is the text of the first branch whose condition holds;
  * `reduceConditionals` puts the selected text in place of each region.
-/
import ThemeProps.Template.Tag
import ThemeProps.Condition.Static

namespace ThemeProps

/-- A branch of a conditional region; `else` has no condition. -/
structure Branch where
  condition : Option Text
  content : Text

namespace Branch

/-- An `elsif` tag with its condition, or an `else` tag. -/
def boundary : Reader (Option Text) := do
  Tag.openTag
  (do
    Reader.keyword "elsif"
    Reader.blanks1
    let (condition, _) ← Reader.upTo Tag.closeTag
    return some (Text.trim condition))
  <|> (do
    Reader.keyword "else"
    Tag.closeTag
    return none)

/-- The branches that some pieces of a body make up, the first one with the given condition. -/
def ofPieces (condition : Option Text) : List (Piece (Option Text)) → List Branch
  | [] => [⟨condition, []⟩]
  | .plain c :: ps =>
    match ofPieces condition ps with
    | branch :: branches => { branch with content := c :: branch.content } :: branches
    | [] => []
  | .found _ next :: ps => ⟨condition, []⟩ :: ofPieces next ps

end Branch

/-- The branches of a region, in order. -/
def splitBranches (condition body : Text) : List Branch :=
  Branch.ofPieces (some (Text.trim condition)) (Reader.pieces Branch.boundary body)

/-- The text of the first branch whose condition holds, or of the `else` branch before it. -/
def selectBranch (store : Store) : List Branch → Evaluation Text
  | [] => .ok []
  | ⟨none, content⟩ :: _ => .ok content
  | ⟨some condition, content⟩ :: branches => do
    if ← evaluateSettingCondition store condition then return content
    else selectBranch store branches

/-- A conditional region: its condition and its body. -/
def conditionalRegion : Reader (Text × Text) := do
  Tag.opening "if"
  let (condition, _) ← Reader.upTo Tag.endTag
  let body ← Tag.upToWord "endif"
  return (condition, body)

/-- The text with the selected branch in place of each conditional region. -/
def reduceConditionals (store : Store) (s : Text) : Evaluation Text :=
  Reader.replaceEveryM conditionalRegion
    (fun (condition, body) => selectBranch store (splitBranches condition body)) s

end ThemeProps
