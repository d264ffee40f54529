/-
  Programs: the statements of a block as a tree, the lines that write them, and
  what they mean.

  * A `Program` is a sequence of `Item`s; a choice carries its further `Arms`.
    Blocks nest to any depth, and the names, conditions and lines in a tree are
    well formed by their types;
  * `Program.lines` writes a program, one statement on a line and a closing line
    behind each block;
  * `Program.meaning` is the action of a program by recursion on its tree. It
    knows nothing of lines: a loop is one round for each value, a choice the body
    of the first arm whose condition holds.
-/
import ThemeProps.Block.Run

namespace ThemeProps

/-! ## Words of a program -/

/-- The name of a variable: word characters, at least one. -/
structure Identifier where
  text : Text
  nonempty : text ≠ []
  isWord : ∀ c ∈ text, Text.isWord c

/-- A condition as it is written: trimmed, not empty and on one line. -/
structure Clause where
  text : Text
  nonempty : text ≠ []
  trimmed : Text.trim text = text
  onOneLine : '\n' ∉ text

namespace Line

/-- A line that stays in the body it stands in: it opens no block, closes none and begins no
arm. -/
structure IsInner (line : Text) : Prop where
  notFor : isTag "for" line = false
  notIf : isTag "if" line = false
  notUnless : isTag "unless" line = false
  notEndfor : Text.startsWith line "endfor" = false
  notEndif : Text.startsWith line "endif" = false
  notEndunless : Text.startsWith line "endunless" = false
  notElsif : isTag "elsif" line = false
  notElse : line ≠ "else".toList

/-- A line that says nothing: besides, it is no statement and opens no comment. -/
structure IsInert (line : Text) : Prop extends IsInner line where
  notAssign : isTag "assign" line = false
  notEcho : isTag "echo" line = false
  notComment : isTag "comment" line = false

/-- A line that can stand in a comment. -/
structure IsHidden (line : Text) : Prop extends IsInner line where
  notEndcomment : line ≠ "endcomment".toList

end Line

/-! ## Trees -/

mutual
/-- A statement of a program, a comment, or a line that says nothing. -/
inductive Item where
  /-- `assign name = source` -/
  | assign (name : Identifier) (source : Text)
  /-- `echo source` -/
  | echo (source : Text)
  /-- `for name in array` … `endfor` -/
  | forEach (name array : Identifier) (body : Program)
  /-- `if condition` … and the further arms up to `endif` -/
  | choose (condition : Clause) (body : Program) (arms : Arms)
  /-- `unless condition` … `endunless` -/
  | whenNot (condition : Clause) (body : Program)
  /-- `comment` … `endcomment` -/
  | comment (hidden : List {line : Text // Line.IsHidden line})
  /-- a line that says nothing -/
  | inert (line : {line : Text // Line.IsInert line})
/-- A sequence of items. -/
inductive Program where
  | nil
  | cons (item : Item) (rest : Program)
/-- What follows the first body of a choice. -/
inductive Arms where
  /-- `endif` -/
  | endif
  /-- `else` … `endif` -/
  | otherwise (body : Program)
  /-- `elsif condition` … and the further arms -/
  | elsif (condition : Clause) (body : Program) (arms : Arms)
end

/-! ## Lines -/

/-- The line of a tag with arguments. -/
def Line.ofTag (tag arguments : Text) : Text := tag ++ ' ' :: arguments

mutual
/-- The lines that write an item. -/
def Item.lines : Item → List Text
  | .assign name source => [Line.ofTag "assign" (name.text ++ " = " ++ source)]
  | .echo source => [Line.ofTag "echo" source]
  | .forEach name array body =>
    Line.ofTag "for" (name.text ++ " in " ++ array.text) :: (body.lines ++ ["endfor".toList])
  | .choose condition body arms => Line.ofTag "if" condition.text :: (body.lines ++ arms.lines)
  | .whenNot condition body =>
    Line.ofTag "unless" condition.text :: (body.lines ++ ["endunless".toList])
  | .comment hidden => "comment".toList :: (hidden.map (·.val) ++ ["endcomment".toList])
  | .inert line => [line.val]
/-- The lines that write a program. -/
def Program.lines : Program → List Text
  | .nil => []
  | .cons item rest => item.lines ++ rest.lines
/-- The lines that write the further arms of a choice, with its `endif`. -/
def Arms.lines : Arms → List Text
  | .endif => ["endif".toList]
  | .otherwise body => "else".toList :: (body.lines ++ ["endif".toList])
  | .elsif condition body arms =>
    Line.ofTag "elsif" condition.text :: (body.lines ++ arms.lines)
end

/-- The rules by which a property `C` holds of the lines of every program, if `D` is to hold of the
lines of the further arms of every choice. -/
structure LineRules (C D : List Text → Prop) : Prop where
  nil : C []
  append {lines more : List Text} : C lines → C more → C (lines ++ more)
  /-- lines of `assign` and `echo`, and those around a comment -/
  assign (args : Text) : C [Line.ofTag "assign" args]
  echo (args : Text) : C [Line.ofTag "echo" args]
  comment : C ["comment".toList]
  endcomment : C ["endcomment".toList]
  inner {line : Text} : Line.IsInner line → C [line]
  /-- blocks around a body -/
  forEach (args : Text) {body : List Text} :
    C body → C (Line.ofTag "for" args :: (body ++ ["endfor".toList]))
  whenNot (args : Text) {body : List Text} :
    C body → C (Line.ofTag "unless" args :: (body ++ ["endunless".toList]))
  choose (args : Text) {body arms : List Text} :
    C body → D arms → C (Line.ofTag "if" args :: (body ++ arms))
  /-- further arms -/
  endif : D ["endif".toList]
  otherwise {body : List Text} : C body → D ("else".toList :: (body ++ ["endif".toList]))
  elsif (args : Text) {body arms : List Text} :
    C body → D arms → D (Line.ofTag "elsif" args :: (body ++ arms))

section
variable {C D : List Text → Prop} (h : LineRules C D)
include h

theorem LineRules.hidden : ∀ hidden : List {line : Text // Line.IsHidden line},
    C (hidden.map (·.val))
  | [] => h.nil
  | line :: hidden => h.append (h.inner line.property.toIsInner) (LineRules.hidden hidden)

mutual
theorem Item.lines_of_rules : ∀ item : Item, C item.lines
  | .assign name source => by rw [Item.lines]; exact h.assign _
  | .echo source => by rw [Item.lines]; exact h.echo _
  | .forEach name array body => by
    rw [Item.lines]; exact h.forEach _ body.lines_of_rules
  | .choose condition body arms => by
    rw [Item.lines]; exact h.choose _ body.lines_of_rules arms.lines_of_rules
  | .whenNot condition body => by
    rw [Item.lines]; exact h.whenNot _ body.lines_of_rules
  | .comment hidden => by
    rw [Item.lines]; exact h.append h.comment (h.append (h.hidden hidden) h.endcomment)
  | .inert line => by rw [Item.lines]; exact h.inner line.property.toIsInner
/-- The rules carry a property to the lines of every program. -/
theorem Program.lines_of_rules : ∀ p : Program, C p.lines
  | .nil => by rw [Program.lines]; exact h.nil
  | .cons item rest => by
    rw [Program.lines]; exact h.append item.lines_of_rules rest.lines_of_rules
theorem Arms.lines_of_rules : ∀ arms : Arms, D arms.lines
  | .endif => by rw [Arms.lines]; exact h.endif
  | .otherwise body => by rw [Arms.lines]; exact h.otherwise body.lines_of_rules
  | .elsif condition body arms => by
    rw [Arms.lines]; exact h.elsif _ body.lines_of_rules arms.lines_of_rules
end

end

/-! ## Meaning -/

/-- The rounds of a loop: its variable and the loop record are bound, and the body runs. -/
def Action.rounds (name : Text) (body : Action Text) (values : List Value) : Action Text := do
  let texts ← values.zipIdx.mapM fun (v, position) => do
    bind name v
    bind "forloop" (loopRecord position values.length)
    body
  return texts.flatten

mutual
/-- What an item does: the text that it echoes and the variables that it sets. -/
def Item.meaning (store : Store) : Item → Action Text
  | .assign name source => do
    let v ← Action.eval store (Expr.parse (Text.trim source))
    Action.bind name.text v
    return []
  | .echo source => do
    let v ← Action.eval store (Expr.parse (Text.trim source))
    Action.text v
  | .forEach name array body => do
    match ← Action.get? array.text with
    | some (.list _ values) => Action.rounds name.text (body.meaning store) values
    | _ => return []
  | .choose condition body arms => do
    if ← Action.test store (Condition.parse condition.text) then body.meaning store
    else arms.meaning store
  | .whenNot condition body => do
    if ← Action.test store (Condition.parse condition.text) then return []
    else body.meaning store
  | .comment _ => return []
  | .inert _ => return []
/-- What a program does: its items one after the other. -/
def Program.meaning (store : Store) : Program → Action Text
  | .nil => return []
  | .cons item rest => do
    let here ← item.meaning store
    let there ← rest.meaning store
    return here ++ there
/-- What the further arms of a choice do: the body of the first one whose condition holds. -/
def Arms.meaning (store : Store) : Arms → Action Text
  | .endif => return []
  | .otherwise body => body.meaning store
  | .elsif condition body arms => do
    if ← Action.test store (Condition.parse condition.text) then body.meaning store
    else arms.meaning store
end

end ThemeProps
