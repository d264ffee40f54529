/-
  Running the lines of a program does what the program means.

  * `Program.statements` are the trees that a program's lines are read as, and
    `Program.ofLines_append`: they are read so whatever lines follow;
  * `Program.runAll_statements`: running these trees is the program's meaning;
  * `runLines_program_append`: hence running the lines of a program and further
    lines is the meaning of the program followed by the run of the further lines.
-/
import ThemeProps.Proofs.Block.Collect
import ThemeProps.Proofs.Text.Reader

namespace ThemeProps

/-! ## Reading lines as statements -/

mutual
/-- The statements that the lines of an item are read as. -/
def Item.statements : Item → List Statement
  | .assign name source => [.assign name.text (Expr.parse (Text.trim source))]
  | .echo source => [.echo (Expr.parse (Text.trim source))]
  | .forEach name array body => [.forEach name.text array.text body.statements]
  | .choose condition body arms =>
    [.choose ((some (Condition.parse condition.text), body.statements) :: arms.statements)]
  | .whenNot condition body => [.whenNot (Condition.parse condition.text) body.statements]
  | .comment _ => []
  | .inert _ => []
/-- The statements that the lines of a program are read as. -/
def Program.statements : Program → List Statement
  | .nil => []
  | .cons item rest => item.statements ++ rest.statements
/-- The further arms of a choice as they are read. -/
def Arms.statements : Arms → List (Option Condition × List Statement)
  | .endif => []
  | .otherwise body => [(none, body.statements)]
  | .elsif condition body arms =>
    (some (Condition.parse condition.text), body.statements) :: arms.statements
end

theorem Identifier.stops (name : Identifier) (rest : Text) :
    Reader.Stops Text.isBlank (name.text ++ rest) := by
  obtain ⟨c, s, h⟩ := List.exists_cons_of_ne_nil name.nonempty
  rw [h, List.cons_append, Reader.stops_cons]
  exact Text.isBlank_of_isWord (name.isWord c (by simp [h]))

namespace Line

theorem assignment_ofTag (name : Identifier) (source : Text) :
    assignment (ofTag "assign" (name.text ++ " = " ++ source)) =
      some ((name.text, Text.trim source), []) := by
  have nameRead : Reader.run1 Text.isWord (name.text ++ (" = " ++ source)) =
      some (name.text, " = " ++ source) :=
    Reader.reads_run1 name.nonempty name.isWord (Reader.stops_append (by decide) (by decide) _)
  rw [ofTag, List.append_assoc, assignment, Reader.bind_of (Reader.reads_literal _ _),
    Reader.bind_of (Reader.reads_blanks1 (Identifier.stops name _)), Reader.bind_of nameRead]
  rw [← Text.trim_cons_blank (by decide : Text.isBlank ' ' = true) source]
  rfl

theorem loopHeader_ofTag (name array : Identifier) :
    loopHeader (ofTag "for" (name.text ++ " in " ++ array.text)) =
      some ((name.text, array.text), []) := by
  have nameRead : Reader.run1 Text.isWord (name.text ++ (" in " ++ array.text)) =
      some (name.text, " in " ++ array.text) :=
    Reader.reads_run1 name.nonempty name.isWord (Reader.stops_append (by decide) (by decide) _)
  have arrayRead : Reader.run1 Text.isWord (array.text ++ []) = some (array.text, []) :=
    Reader.reads_run1 array.nonempty array.isWord Reader.stops_nil
  have between : Reader.blanks1 (" in " ++ array.text) = some ((), "in " ++ array.text) :=
    Reader.reads_blanks1 (Reader.stops_append (s := "in ") (by decide) (by decide) _)
  have behind : Reader.blanks1 (" " ++ array.text) = some ((), array.text) := by
    have := Reader.reads_blanks1 (Identifier.stops array [])
    rwa [List.append_nil] at this
  rw [List.append_nil] at arrayRead
  rw [ofTag, List.append_assoc, loopHeader, Reader.bind_of (Reader.reads_literal _ _),
    Reader.bind_of (Reader.reads_blanks1 (Identifier.stops name _)), Reader.bind_of nameRead,
    Reader.bind_of between]
  have word : Reader.literal "in" ("in " ++ array.text) = some ((), " " ++ array.text) :=
    Reader.reads_literal "in" _
  rw [Reader.bind_of word, Reader.bind_of behind, Reader.bind_of arrayRead]
  rfl

theorem afterComment_hidden (rest : List Text) :
    ∀ hidden : List {line : Text // IsHidden line},
      afterComment (hidden.map (·.val) ++ "endcomment".toList :: rest) = rest
  | [] => by simp only [List.map_nil, List.nil_append, afterComment, if_true]
  | line :: hidden => by
    rw [List.map_cons, List.cons_append, afterComment, if_neg line.property.notEndcomment]
    exact afterComment_hidden rest hidden

end Line

namespace Statement

theorem ofLines_comment (lines : List Text) :
    ofLines ("comment".toList :: lines) = ofLines (Line.afterComment lines) := by
  rw [ofLines, if_pos (by decide)]

theorem ofLines_inert {line : Text} (h : Line.IsInert line) (lines : List Text) :
    ofLines (line :: lines) = ofLines lines := by
  simp only [ofLines, h.notComment, h.notAssign, h.notEcho, h.notFor, h.notIf, h.notUnless,
    Bool.false_eq_true, if_false]

theorem ofLines_assign (name : Identifier) (source : Text) (lines : List Text) :
    ofLines (Line.ofTag "assign" (name.text ++ " = " ++ source) :: lines) =
      assign name.text (Expr.parse (Text.trim source)) :: ofLines lines := by
  rw [ofLines, if_neg, if_pos, Line.assignment_ofTag]
  · rw [Line.isTag_ofTag] <;> decide
  · rw [Line.isTag_ofTag] <;> decide

theorem ofLines_echo (source : Text) (lines : List Text) :
    ofLines (Line.ofTag "echo" source :: lines) =
      echo (Expr.parse (Text.trim source)) :: ofLines lines := by
  have behind : Text.trim ((Line.ofTag "echo" source).drop 4) = Text.trim source :=
    Text.trim_cons_blank (by decide) source
  rw [ofLines, if_neg, if_neg, if_pos, behind]
  all_goals rw [Line.isTag_ofTag] <;> decide

theorem ofLines_forEach (name array : Identifier) (body : Program) (rest : List Text) :
    ofLines (Line.ofTag "for" (name.text ++ " in " ++ array.text) ::
        (body.lines ++ "endfor".toList :: rest)) =
      forEach name.text array.text (ofLines body.lines) :: ofLines rest := by
  have collected : loopBody (body.lines ++ "endfor".toList :: rest) = (body.lines, rest) :=
    body.collect_lines .loop rest
  rw [ofLines, if_neg, if_neg, if_neg, if_pos, Line.loopHeader_ofTag]
  · simp only [collected]
  all_goals rw [Line.isTag_ofTag] <;> decide

theorem ofLines_whenNot (condition : Clause) (body : Program) (rest : List Text) :
    ofLines (Line.ofTag "unless" condition.text ::
        (body.lines ++ "endunless".toList :: rest)) =
      whenNot (Condition.parse condition.text) (ofLines body.lines) :: ofLines rest := by
  have collected : unlessBody (body.lines ++ "endunless".toList :: rest) = (body.lines, rest) :=
    body.collect_lines .unless_ rest
  rw [ofLines, if_neg, if_neg, if_neg, if_neg, if_neg, if_pos, Line.argument?_ofTag]
  · simp only [collected]
  all_goals rw [Line.isTag_ofTag] <;> decide

/-- The arms of a choice as statements. -/
def ofParts (parts : List (Option Text × List Text)) : List (Option Condition × List Statement) :=
  parts.map fun part => (part.1.map Condition.parse, ofLines part.2)

theorem ofParts_attach (parts : List (Option Text × List Text)) :
    (parts.attach.map fun part => (part.1.1.map Condition.parse, ofLines part.1.2)) =
      ofParts parts := by
  conv_rhs => rw [ofParts, ← List.attach_map_subtype_val parts, List.map_map]
  rfl

theorem ofLines_choose (condition : Clause) (body : Program) (arms : Arms) (rest : List Text) :
    ofLines (Line.ofTag "if" condition.text :: (body.lines ++ (arms.lines ++ rest))) =
      choose ((some (Condition.parse condition.text), ofLines body.lines) :: ofParts arms.parts) ::
        ofLines rest := by
  rw [ofLines, if_neg, if_neg, if_neg, if_neg, if_pos, Line.argument?_ofTag]
  · simp only [ofParts_attach, arms.collectArms_choice]
  all_goals rw [Line.isTag_ofTag] <;> decide

end Statement

mutual
/-- The lines of an item are read as its statements, whatever lines follow. -/
theorem Item.ofLines_append (rest : List Text) : ∀ item : Item,
    Statement.ofLines (item.lines ++ rest) = item.statements ++ Statement.ofLines rest
  | .assign name source => by
    rw [Item.lines, Item.statements, List.singleton_append, Statement.ofLines_assign]
    rfl
  | .echo source => by
    rw [Item.lines, Item.statements, List.singleton_append, Statement.ofLines_echo]
    rfl
  | .forEach name array body => by
    rw [Item.lines, Item.statements, List.cons_append, List.append_assoc body.lines,
      List.singleton_append, Statement.ofLines_forEach, body.ofLines_lines]
    rfl
  | .choose condition body arms => by
    rw [Item.lines, Item.statements, List.cons_append, List.append_assoc,
      Statement.ofLines_choose, body.ofLines_lines, arms.ofParts_parts]
    rfl
  | .whenNot condition body => by
    rw [Item.lines, Item.statements, List.cons_append, List.append_assoc, List.singleton_append,
      Statement.ofLines_whenNot, body.ofLines_lines]
    rfl
  | .comment hidden => by
    rw [Item.lines, Item.statements, List.cons_append, List.append_assoc, List.singleton_append,
      Statement.ofLines_comment, Line.afterComment_hidden]
    rfl
  | .inert line => by
    rw [Item.lines, Item.statements, List.singleton_append, Statement.ofLines_inert line.property]
    rfl
/-- The lines of a program are read as its statements, whatever lines follow. -/
theorem Program.ofLines_append (rest : List Text) : ∀ p : Program,
    Statement.ofLines (p.lines ++ rest) = p.statements ++ Statement.ofLines rest
  | .nil => rfl
  | .cons item more => by
    rw [Program.lines, Program.statements, List.append_assoc, item.ofLines_append,
      more.ofLines_append, List.append_assoc]
theorem Program.ofLines_lines (p : Program) : Statement.ofLines p.lines = p.statements := by
  have := p.ofLines_append []
  rwa [List.append_nil, Statement.ofLines, List.append_nil] at this
theorem Arms.ofParts_parts : ∀ arms : Arms, Statement.ofParts arms.parts = arms.statements
  | .endif => rfl
  | .otherwise body => by
    rw [Arms.parts, Arms.statements, Statement.ofParts, List.map_singleton, body.ofLines_lines]
    rfl
  | .elsif condition body arms => by
    rw [Arms.parts, Arms.statements, Statement.ofParts, List.map_cons, ← Statement.ofParts,
      body.ofLines_lines, arms.ofParts_parts]
    rfl
end

/-! ## Running statements -/

theorem Statement.runAll_append (store : Store) (xs ys : List Statement) :
    runAll store (xs ++ ys) = do
      let here ← runAll store xs
      let there ← runAll store ys
      return here ++ there := by
  induction xs with
  | nil => simp [runAll]
  | cons x xs ih =>
    simp only [List.cons_append, runAll, ih, bind_assoc, pure_bind, List.append_assoc]

theorem Statement.runAll_single (store : Store) (x : Statement) :
    runAll store [x] = run store x := by
  simp [runAll]

theorem Action.forItems_eq_rounds (name : Text) (body : Action Text) (length : Nat)
    (values : List Value) (position : Nat) :
    forItems name length body position values = do
      let texts ← (values.zipIdx position).mapM fun (v, position) => do
        bind name v
        bind "forloop" (loopRecord position length)
        body
      return texts.flatten := by
  induction values generalizing position with
  | nil => rfl
  | cons v values ih => simp [forItems, ih]

mutual
theorem Item.runAll_statements (store : Store) : ∀ item : Item,
    Statement.runAll store item.statements = item.meaning store
  | .assign name source => by
    rw [Item.statements, Statement.runAll_single, Statement.run, Item.meaning]
  | .echo source => by
    rw [Item.statements, Statement.runAll_single, Statement.run, Item.meaning]
  | .forEach name array body => by
    rw [Item.statements, Statement.runAll_single, Statement.run, Item.meaning,
      body.runAll_statements]
    simp only [Action.forItems_eq_rounds]
    rfl
  | .choose condition body arms => by
    rw [Item.statements, Statement.runAll_single, Statement.run, Item.meaning,
      Statement.runArms, body.runAll_statements, arms.runArms_statements]
  | .whenNot condition body => by
    rw [Item.statements, Statement.runAll_single, Statement.run, Item.meaning,
      body.runAll_statements]
  | .comment hidden => rfl
  | .inert line => rfl
/-- Running the statements of a program is what the program means. -/
theorem Program.runAll_statements (store : Store) : ∀ p : Program,
    Statement.runAll store p.statements = p.meaning store
  | .nil => rfl
  | .cons item rest => by
    rw [Program.statements, Program.meaning, Statement.runAll_append, item.runAll_statements,
      rest.runAll_statements]
theorem Arms.runArms_statements (store : Store) : ∀ arms : Arms,
    Statement.runArms store arms.statements = arms.meaning store
  | .endif => rfl
  | .otherwise body => by
    rw [Arms.statements, Arms.meaning, Statement.runArms, body.runAll_statements]
  | .elsif condition body arms => by
    rw [Arms.statements, Arms.meaning, Statement.runArms, body.runAll_statements,
      arms.runArms_statements]
end

/-- **Running lines refines the structured meaning of programs.**  Whatever lines follow a program,
running them all is what the program means, and then, from the variables that it leaves, the run of
the lines behind it: the same text is echoed, the same variables are set, and the same evaluation
goes wrong, if one does. -/
theorem runLines_program_append (store : Store) (p : Program) (lines : List Text) :
    runLines store (p.lines ++ lines) = do
      let here ← p.meaning store
      let there ← runLines store lines
      return here ++ there := by
  rw [runLines, p.ofLines_append, Statement.runAll_append, p.runAll_statements, runLines]

end ThemeProps
