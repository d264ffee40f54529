/-
  Expressions and how they are written.

  An expression is a base followed by filters, with pipes between them:

      font_sizes | split: ',' | find_index: settings.body_size

  * `Base` and `Filter` are the forms of the two, over what their arguments
    are: texts at first, expressions in the end;
  * `Expr` is an expression, and `Expr.parse` reads one. Every text is an
    expression: what has no other meaning stands for itself.
-/
import ThemeProps.Expr.Pipes
import ThemeProps.Text.Pieces
import ThemeProps.Text.Word
import ThemeProps.Decimal.Numeral
import ThemeProps.Value.Basic

namespace ThemeProps

/-! ## Bases -/

/-- What an expression starts from, with an index of type `α`. -/
inductive Base (α : Type) where
  /-- `'text'` -/
  | quoted (s : Text)
  /-- `name[index]` -/
  | item (name : Text) (index : α)
  /-- `name.path`, and the whole as it is written -/
  | dotted (source name path : Text)
  /-- `name`, of a variable or of a constant -/
  | word (s : Text)
  /-- `1.5` -/
  | number (n : Number)
  /-- any other text, in which `[name]` stands for the value of a variable -/
  | template (s : Text)

namespace Base

/-- A text in quote marks, without them. -/
def unquote? (s : Text) : Option Text :=
  match s with
  | c :: next :: rest =>
    let inner := next :: rest
    if Text.isQuoteMark c ∧ inner.getLast? = some c then some inner.dropLast else none
  | _ => none

/-- `name[index]` -/
def itemReader : Reader (Text × Text) := do
  let name ← Reader.run1 Text.isWord
  Reader.char '['
  let index ← Reader.run1 (· ≠ ']')
  Reader.char ']'
  return (name, index)

/-- The names are joined by single points; none of them is empty. -/
def isPath (s : Text) : Bool :=
  (Text.splitAtChar '.' s).all fun name => name ≠ [] && name.all Text.isWord

/-- `name.path` -/
def dotted? (s : Text) : Option (Text × Text) :=
  match s.span Text.isWord with
  | (name, '.' :: path) => if name ≠ [] && isPath path then some (name, path) else none
  | _ => none

/-- The text is a name, which begins with a Latin letter or an underscore. -/
def isName : Text → Bool
  | c :: cs => (c.isAlpha || c == '_') && cs.all Text.isWord
  | [] => false

/-- Digits with an optional fraction, after an optional minus sign. -/
def numeralReader : Reader (Numeral × Bool) := do
  let negative ← (do Reader.char '-'; pure true) <|> pure false
  let whole ← Reader.run1 Text.isDigit
  let fraction ← (do Reader.char '.'; Reader.run1 Text.isDigit) <|> pure []
  return (⟨negative, Text.numberOfDigits (whole ++ fraction), -fraction.length⟩, fraction != [])

/-- The number that a text writes. Without a fraction it is a whole number, rounded to the nearest
double. -/
def number? (s : Text) : Option Number :=
  (numeralReader.readAll? s).map fun (numeral, hasFraction) =>
    let x := numeral.toFloat
    match integer? x with
    | some n => if hasFraction then .float x else .int n
    | none => .float x

/-- The base that a text is. -/
def parse (s : Text) : Base Text :=
  match unquote? s with
  | some inner => quoted inner
  | none =>
    match itemReader.readAll? s with
    | some (name, index) => item name index
    | none =>
      match dotted? s with
      | some (name, path) => dotted s name path
      | none =>
        if isName s then word s
        else
          match number? s with
          | some n => number n
          | none => template s

/-- The base with another index. -/
def map (f : α → β) : Base α → Base β
  | quoted s => quoted s
  | item name index => item name (f index)
  | dotted source name path => dotted source name path
  | word s => word s
  | number n => number n
  | template s => template s

end Base

/-! ## Filters -/

/-- The four operations on numbers. -/
inductive Arithmetic where
  | times
  | dividedBy
  | minus
  | plus
deriving DecidableEq

/-- A step that an expression's value goes through, with an argument of type `α`. -/
inductive Filter (α : Type) where
  /-- `split: ','` -/
  | split (delimiter : Text)
  /-- `replace: 'search', replacement`, and the replacement as it is written -/
  | replace (search source : Text) (replacement : α)
  /-- `append: suffix` -/
  | append (suffix : α)
  /-- `times: operand` and the like -/
  | arithmetic (operation : Arithmetic) (operand : α)
  /-- `uniq` -/
  | uniq
  /-- `sort_natural` -/
  | sortNatural
  /-- `find_index: sought` -/
  | findIndex (sought : α)
  /-- any other filter: it changes nothing -/
  | keep

namespace Filter

/-- `name` or `name: argument` -/
def call? (s : Text) : Option (Text × Option Text) :=
  match s.span Text.isWord with
  | ([], _) => none
  | (name, []) => some (name, none)
  | (name, ':' :: rest) =>
    match Text.trimStart rest with
    | [] => none
    | argument => some (name, some argument)
  | _ => none

/-- A text without a quote mark at its beginning and one at its end. -/
def dropOuterQuotes (s : Text) : Text :=
  let s := match s with
    | c :: cs => if Text.isQuoteMark c then cs else c :: cs
    | [] => []
  match s.reverse with
  | c :: cs => if Text.isQuoteMark c then cs.reverse else s
  | [] => []

/-- A text between quote marks, of either kind, and an argument after a comma. -/
def replaceArguments : Reader (Text × Text) := do
  let _ ← Reader.satisfy Text.isQuoteMark
  let search ← Reader.run fun c => !Text.isQuoteMark c
  let _ ← Reader.satisfy Text.isQuoteMark
  Reader.blanks
  Reader.char ','
  let replacement ← Reader.rest
  if replacement = [] then failure
  return (search, Text.trim replacement)

/-- The filter that a text is. A filter that lacks its argument works as with the one given
here. -/
def parse (s : Text) : Filter Text :=
  match call? s with
  | none => keep
  | some (name, argument?) =>
    if name = "split" then split ((argument?.map dropOuterQuotes).getD ",")
    else if name = "replace" then
      match argument?.bind replaceArguments.readAll? with
      | some (search, replacement) => replace search replacement replacement
      | none => keep
    else if name = "append" then append (argument?.getD "''")
    else if name = "times" then arithmetic .times (argument?.getD "1")
    else if name = "divided_by" then arithmetic .dividedBy (argument?.getD "1")
    else if name = "minus" then arithmetic .minus (argument?.getD "0")
    else if name = "plus" then arithmetic .plus (argument?.getD "0")
    else if name = "uniq" then uniq
    else if name = "sort_natural" then sortNatural
    else if name = "find_index" then findIndex (argument?.getD "''")
    else keep

/-- The filter with another argument. -/
def map (f : α → β) : Filter α → Filter β
  | split delimiter => split delimiter
  | replace search source replacement => replace search source (f replacement)
  | append suffix => append (f suffix)
  | arithmetic operation operand => arithmetic operation (f operand)
  | uniq => uniq
  | sortNatural => sortNatural
  | findIndex sought => findIndex (f sought)
  | keep => keep

end Filter

/-! ## Expressions -/

/-- A base and the filters that its value goes through. -/
inductive Expr where
  | chain (base : Base Expr) (filters : List (Filter Expr))

namespace Expr

/-- The expression of a text that stands for itself. -/
def ofText (s : Text) : Expr := chain (.quoted s) []

/-- The expression that a text writes. An argument is shorter than the expression it belongs
to. -/
def parse (s : Text) : Expr :=
  let argument (t : Text) : Expr := if t.length < s.length then parse t else ofText t
  match Text.splitPipes (Text.trim s) with
  | [] => ofText []
  | base :: filters =>
    chain ((Base.parse base).map argument) (filters.map fun f => (Filter.parse f).map argument)
termination_by s.length

end Expr
end ThemeProps
