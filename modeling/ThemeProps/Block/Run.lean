/-
  Running the statements of a block.

  * `Env` are the variables of a running block;
  * `Statement.run` runs a statement and `Statement.runAll` a list of them. A
    run gives the text that was echoed and changes the variables; if it goes
    wrong, the variables stay as they were at that point;
  * `runBlock` runs the source of a block.
-/
import ThemeProps.Block.Statement

namespace ThemeProps

/-- The variables of a running block, and how many lists and mappings it has bound. -/
structure Env where
  bindings : Bindings
  made : Nat := 0

/-- An action of a running block. -/
abbrev Action := ExceptT EvalError (StateM Env)

namespace Env

/-- The variables with one of them set. A list that a filter has made gets its identity here. -/
def bind (name : Text) (v : Value) (env : Env) : Env :=
  match v with
  | .list .fresh items =>
    { bindings := env.bindings.set name (.list (.made env.made) items), made := env.made + 1 }
  | .map .fresh fields =>
    { bindings := env.bindings.set name (.map (.made env.made) fields), made := env.made + 1 }
  | v => { env with bindings := env.bindings.set name v }

end Env

namespace Action

/-- The value of an expression under the present bindings. -/
def eval (store : Store) (e : Expr) : Action Value := fun env => (e.eval store env.bindings, env)

/-- The output form of a value. -/
def text (v : Value) : Action Text := fun env => (v.toText, env)

/-- A condition under the present bindings. -/
def test (store : Store) (c : Condition) : Action Bool :=
  fun env => (c.holds store env.bindings, env)

/-- Binding a variable. -/
def bind (name : Text) (v : Value) : Action Unit := fun env => (.ok (), env.bind name v)

/-- The value of a variable. -/
def get? (name : Text) : Action (Option Value) :=
  fun env => (.ok (env.bindings.get? name), env)

/-- What a loop body sees of its loop, at a position counted from 0. -/
def loopRecord (position length : Nat) : Value :=
  .map .fresh
    [("index", .int (position + 1)), ("index0", .int position),
     ("first", .bool (position == 0)), ("last", .bool (position + 1 == length)),
     ("length", .int length)]

/-- A body run for each of some items, the first of which is at `position` of a list of `length`
items. -/
def forItems (item : Text) (length : Nat) (body : Action Text) (position : Nat) :
    List Value → Action Text
  | [] => pure []
  | v :: vs => do
    bind item v
    bind "forloop" (loopRecord position length)
    let here ← body
    let there ← forItems item length body (position + 1) vs
    return here ++ there

end Action

namespace Statement

mutual
/-- Runs a statement. -/
def run (store : Store) : Statement → Action Text
  | assign name e => do
    let v ← Action.eval store e
    Action.bind name v
    return []
  | echo e => do
    let v ← Action.eval store e
    Action.text v
  | forEach item array body => do
    match ← Action.get? array with
    | some (.list _ items) => Action.forItems item items.length (runAll store body) 0 items
    | _ => return []
  | choose arms => runArms store arms
  | whenNot condition body => do
    if ← Action.test store condition then return [] else runAll store body
/-- Runs some statements one after the other. -/
def runAll (store : Store) : List Statement → Action Text
  | [] => pure []
  | statement :: statements => do
    let here ← run store statement
    let there ← runAll store statements
    return here ++ there
/-- Runs the first of some arms whose condition holds. -/
def runArms (store : Store) : List (Option Condition × List Statement) → Action Text
  | [] => pure []
  | (none, body) :: _ => runAll store body
  | (some condition, body) :: arms => do
    if ← Action.test store condition then runAll store body else runArms store arms
end

end Statement

/-- Runs lines that are trimmed already. -/
def runLines (store : Store) (lines : List Text) : Action Text :=
  Statement.runAll store (Statement.ofLines lines)

/-- Runs the source of a block. -/
def runSource (store : Store) (source : Text) : Action Text :=
  Statement.runAll store (Statement.ofSource source)

/-- The text that a block echoes when it starts with the given variables. -/
def runBlock (store : Store) (b : Bindings) (source : Text) : Evaluation Text :=
  (runSource store source ⟨b, 0⟩).1

end ThemeProps
