/-
  Evaluating expressions.

  * `Base.template` texts have `[name]` replaced by the values of variables;
  * `Expr.eval` is the value of an expression under some bindings and the
    settings of a theme; `evaluate` reads an expression and evaluates it.
-/
import ThemeProps.Expr.Syntax
import ThemeProps.Settings.Store
import ThemeProps.Value.Arithmetic
import ThemeProps.Value.Items
import ThemeProps.Value.NaturalOrder

namespace ThemeProps

/-! ## Bases -/

namespace Bindings

/-- The text without quote marks at its ends. -/
def dropQuotes (s : Text) : Text :=
  ((s.dropWhile Text.isQuoteMark).reverse.dropWhile Text.isQuoteMark).reverse

/-- `[name]`, with or without single quotes around it. -/
def placeholder : Reader Text := do
  Reader.maybe '\x27'
  Reader.char '['
  let name ← Reader.run1 (· ≠ ']')
  Reader.char ']'
  Reader.maybe '\x27'
  return dropQuotes name

/-- The text with the values of variables in place of their names in brackets; an unbound variable
has no text. -/
def fillIn (b : Bindings) (s : Text) : Evaluation Text :=
  placeholder.replaceEveryM (fun name => ((b.get? name).getD .null).toText) s

/-- The constants, unless variables have their names. -/
def constant? (name : Text) : Option Value :=
  if name = "true" then some (.bool true)
  else if name = "false" then some (.bool false)
  else if name = "nil" ∨ name = "null" then some .null
  else none

/-- The value of a name; what is neither bound nor a constant stands for itself. -/
def word (b : Bindings) (name : Text) : Value :=
  match b.get? name with
  | some v => v
  | none => (constant? name).getD (.str name)

end Bindings

/-- The value that some keys lead to, if all of them are there. -/
def Value.atKeys? : List Text → Value → Option Value
  | [], v => some v
  | key :: keys, v => (v.field? key).bind (atKeys? keys)

/-- A setting in an expression: an absent one is an empty text. -/
def Store.getOrEmpty (store : Store) (path : Text) : Value :=
  match store.get path with
  | .null => .str []
  | v => v

/-- The item of a list at the position that a value stands for. -/
def Value.itemAt (items : List Value) (index : Value) : Evaluation Value := do
  let x ← index.toNumber
  match truncInt? x with
  | some (.ofNat n) => return (items[n]?).getD .null
  | _ => return .null

/-- The value of `name[index]`: a setting, an item of a list, or an empty text. -/
def evalItem (store : Store) (b : Bindings) (name : Text) (index : Value) : Evaluation Value :=
  if name = "settings" then do return store.getOrEmpty (← index.toText)
  else
    match b.get? name with
    | some (.list _ items) => Value.itemAt items index
    | _ => .ok (.str [])

/-- The value of `name.path`: a setting, or a field of a variable; without one, the expression
stands for itself. -/
def evalDotted (store : Store) (b : Bindings) (source name path : Text) : Value :=
  if name = "settings" then store.getOrEmpty path
  else
    match (b.get? name).bind (Value.atKeys? (Text.splitAtChar '.' path)) with
    | some v => v
    | none => .str source

/-! ## Filters -/

/-- The replacement of the filter `replace`: if it is no more than its own text in quote marks of
any kind, these do not count. -/
def replacementValue (source : Text) (v : Value) : Value :=
  match v with
  | .str s =>
    let quoted := 2 ≤ s.length && s.head?.any Text.isQuoteMark && s.getLast?.any Text.isQuoteMark
    if s = source ∧ quoted then .str (Filter.dropOuterQuotes s) else v
  | v => v

mutual
/-- The value of an expression. -/
def Expr.eval (store : Store) (b : Bindings) : Expr → Evaluation Value
  | .chain base filters => do
    let v ← evalBase store b base
    evalFilters store b filters v
/-- The value of a base. -/
def evalBase (store : Store) (b : Bindings) : Base Expr → Evaluation Value
  | .quoted s => .ok (.str s)
  | .item name index => do evalItem store b name (← index.eval store b)
  | .dotted source name path => .ok (evalDotted store b source name path)
  | .word s => .ok (b.word s)
  | .number n => .ok (.number n)
  | .template s => do return .str (← b.fillIn s)
/-- A value after it has gone through some filters. -/
def evalFilters (store : Store) (b : Bindings) : List (Filter Expr) → Value → Evaluation Value
  | [], v => .ok v
  | f :: fs, v => do
    let w ← evalFilter store b f v
    evalFilters store b fs w
/-- A value after it has gone through a filter. -/
def evalFilter (store : Store) (b : Bindings) : Filter Expr → Value → Evaluation Value
  | .split delimiter, v => v.splitText delimiter
  | .replace search source replacement, v => do
    let r ← replacement.eval store b
    v.replaceText search (replacementValue source r)
  | .append suffix, v => do
    let s ← suffix.eval store b
    return .str ((← v.toText) ++ (← s.toText))
  | .arithmetic operation operand, v =>
    operation.apply v (do (← operand.eval store b).toNumber)
  | .uniq, v => .ok v.uniq
  | .sortNatural, v => v.sortNatural
  | .findIndex sought, v =>
    match v with
    | .list _ items => do
      let s ← sought.eval store b
      return .int (← Value.indexOf items (← s.toText))
    | _ => .ok (.int (-1))
  | .keep, v => .ok v
end

/-- The value of the expression that a text writes. -/
def evaluate (store : Store) (b : Bindings) (s : Text) : Evaluation Value :=
  (Expr.parse s).eval store b

/-- A value after it has gone through the filter that a text writes. -/
def applyFilter (store : Store) (b : Bindings) (filter : Text) (v : Value) : Evaluation Value :=
  evalFilter store b ((Filter.parse (Text.trim filter)).map Expr.parse) v

end ThemeProps
