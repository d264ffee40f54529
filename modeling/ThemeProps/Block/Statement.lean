/-
  Statements of an executed block, one on each line:

      assign sizes = '12,14,16' | split: ','
      for size in sizes
        if forloop.index == 1
          echo '--font-size-base: ' | append: size | append: 'px;'
        endif
      endfor

  * `Statement` is the tree of a block's statements;
  * the readers in `Line` tell what a single line says;
  * `Statement.ofLines` pairs each opening line with its closing line and gives
    the trees of a list of lines. Lines that say nothing are passed over.
-/
import ThemeProps.Condition.Runtime

namespace ThemeProps

/-- A statement with the statements inside it. -/
inductive Statement where
  /-- `assign name = value` -/
  | assign (name : Text) (value : Expr)
  /-- `echo value` -/
  | echo (value : Expr)
  /-- `for item in array` … `endfor` -/
  | forEach (item array : Text) (body : List Statement)
  /-- `if` … `elsif` … `else` … `endif`: the bodies with their conditions; `else` has none -/
  | choose (arms : List (Option Condition × List Statement))
  /-- `unless condition` … `endunless` -/
  | whenNot (condition : Condition) (body : List Statement)

/-! ## Lines -/

namespace Line

/-- The line is a tag, alone or with arguments after a space. -/
def isTag (tag line : Text) : Bool :=
  match Text.stripFrom tag line with
  | some [] => true
  | some (c :: _) => c == ' '
  | none => false

/-- A line without a line break at its end. -/
def dropFinalBreak (s : Text) : Text := if s.getLast? = some '\n' then s.dropLast else s

/-- The argument of a tag, trimmed: what follows it after blanks, on the same line. -/
def argument? (tag line : Text) : Option Text :=
  (Text.stripFrom tag line).bind fun s =>
    let s := dropFinalBreak s
    if s.head?.any Text.isBlank then
      match Text.trimStart s with
      | [] => if 2 ≤ s.length ∧ s.getLast? ≠ some '\n' then some [] else none
      | t => if t.contains '\n' then none else some (Text.trim t)
    else none

/-- `assign name = value` -/
def assignment : Reader (Text × Text) := do
  Reader.literal "assign"
  Reader.blanks1
  let name ← Reader.run1 Text.isWord
  Reader.blanks
  Reader.char '='
  let value ← Reader.rest
  if value = [] then failure
  return (name, Text.trim value)

/-- `for item in array` -/
def loopHeader : Reader (Text × Text) := do
  Reader.literal "for"
  Reader.blanks1
  let item ← Reader.run1 Text.isWord
  Reader.blanks1
  Reader.literal "in"
  Reader.blanks1
  let array ← Reader.run1 Text.isWord
  return (item, array)

/-- The lines after the end of a comment. -/
def afterComment : List Text → List Text
  | [] => []
  | line :: lines => if line = "endcomment" then lines else afterComment lines

/-- The lines of a body up to its closing line, and the lines after it; `depth` further bodies of
the same kind are open inside it. -/
def collectBody (opener closer : Text) (depth : Nat) : List Text → List Text × List Text
  | [] => ([], [])
  | line :: lines =>
    let keep (depth : Nat) :=
      let (body, after) := collectBody opener closer depth lines
      (line :: body, after)
    if isTag opener line then keep (depth + 1)
    else if Text.startsWith line closer then
      match depth with
      | 0 => ([], lines)
      | depth + 1 => keep depth
    else keep depth

/-- The arms of a choice up to its `endif`, and the lines after it: the rest of the first arm, and
the further arms with their conditions. A malformed `elsif` is passed over. -/
def collectArms (depth : Nat) :
    List Text → (List Text × List (Option Text × List Text)) × List Text
  | [] => (([], []), [])
  | line :: lines =>
    let keep (depth : Nat) :=
      let ((first, more), after) := collectArms depth lines
      ((line :: first, more), after)
    let open_ (condition : Option Text) :=
      let ((first, more), after) := collectArms depth lines
      (([], (condition, first) :: more), after)
    if isTag "if" line then keep (depth + 1)
    else if Text.startsWith line "endif" then
      match depth with
      | 0 => (([], []), lines)
      | depth + 1 => keep depth
    else if depth = 0 ∧ isTag "elsif" line then
      match argument? "elsif" line with
      | some condition => open_ (some condition)
      | none => collectArms depth lines
    else if depth = 0 ∧ line = "else" then open_ none
    else keep depth

/-! ### Bodies are shorter than the lines they are taken from -/

theorem length_afterComment (lines : List Text) :
    (afterComment lines).length ≤ lines.length := by
  induction lines with
  | nil => simp [afterComment]
  | cons line lines ih =>
    simp only [afterComment, List.length_cons]
    split <;> omega

theorem length_collectBody (opener closer : Text) (depth : Nat) (lines : List Text) :
    (collectBody opener closer depth lines).1.length
      + (collectBody opener closer depth lines).2.length ≤ lines.length := by
  induction lines generalizing depth with
  | nil => simp [collectBody]
  | cons line lines ih =>
    have kept (d : Nat) := ih d
    simp only [collectBody]
    split
    · have := kept (depth + 1); simp only [List.length_cons]; omega
    · split
      · cases depth with
        | zero => simp
        | succ d => have := kept d; simp only [List.length_cons]; omega
      · have := kept depth; simp only [List.length_cons]; omega

theorem length_collectArms (depth : Nat) (lines : List Text) :
    (collectArms depth lines).1.1.length ≤ lines.length
      ∧ (∀ arm ∈ (collectArms depth lines).1.2, arm.2.length ≤ lines.length)
      ∧ (collectArms depth lines).2.length ≤ lines.length := by
  induction lines generalizing depth with
  | nil => simp [collectArms]
  | cons line lines ih =>
    have grow (d : Nat) : (collectArms d lines).1.1.length ≤ lines.length + 1
        ∧ (∀ arm ∈ (collectArms d lines).1.2, arm.2.length ≤ lines.length + 1)
        ∧ (collectArms d lines).2.length ≤ lines.length + 1 := by
      obtain ⟨h₁, h₂, h₃⟩ := ih d
      exact ⟨by omega, fun arm h => by have := h₂ arm h; omega, by omega⟩
    have opened (d : Nat) (c : Option Text) :
        ∀ arm ∈ (c, (collectArms d lines).1.1) :: (collectArms d lines).1.2,
          arm.2.length ≤ lines.length + 1 := by
      intro arm h
      rcases List.mem_cons.1 h with rfl | h
      · exact (grow d).1
      · exact (grow d).2.1 arm h
    have kept (d : Nat) : (line :: (collectArms d lines).1.1).length ≤ lines.length + 1 := by
      have := (ih d).1; simp only [List.length_cons]; omega
    simp only [collectArms, List.length_cons]
    split
    · exact ⟨kept _, (grow _).2⟩
    · split
      · cases depth with
        | zero => simp
        | succ d => exact ⟨kept _, (grow _).2⟩
      · split
        · split
          · exact ⟨by simp, opened _ _, (grow _).2.2⟩
          · exact grow _
        · split
          · exact ⟨by simp, opened _ _, (grow _).2.2⟩
          · exact ⟨kept _, (grow _).2⟩

end Line

/-! ## Trees -/

namespace Statement

/-- The body that a loop line opens, and the lines after it. -/
def loopBody (lines : List Text) : List Text × List Text :=
  Line.collectBody "for" "endfor" 0 lines

/-- The body that an `unless` line opens, and the lines after it. -/
def unlessBody (lines : List Text) : List Text × List Text :=
  Line.collectBody "unless" "endunless" 0 lines

theorem length_loopBody (lines : List Text) :
    (loopBody lines).1.length + (loopBody lines).2.length ≤ lines.length :=
  Line.length_collectBody ..

theorem length_unlessBody (lines : List Text) :
    (unlessBody lines).1.length + (unlessBody lines).2.length ≤ lines.length :=
  Line.length_collectBody ..

/-- The statements that some lines write. -/
def ofLines : List Text → List Statement
  | [] => []
  | line :: lines =>
    if Line.isTag "comment" line then ofLines (Line.afterComment lines)
    else if Line.isTag "assign" line then
      match Line.assignment line with
      | some ((name, value), _) => assign name (Expr.parse value) :: ofLines lines
      | none => ofLines lines
    else if Line.isTag "echo" line then
      echo (Expr.parse (Text.trim (line.drop 4))) :: ofLines lines
    else if Line.isTag "for" line then
      match Line.loopHeader line with
      | some ((item, array), _) =>
        forEach item array (ofLines (loopBody lines).1) :: ofLines (loopBody lines).2
      | none => ofLines (loopBody lines).2
    else if Line.isTag "if" line then
      match Line.argument? "if" line with
      | some condition =>
        choose ((some (Condition.parse condition), ofLines (Line.collectArms 0 lines).1.1) ::
            (Line.collectArms 0 lines).1.2.attach.map fun ⟨(condition, body), _⟩ =>
              (condition.map Condition.parse, ofLines body))
          :: ofLines (Line.collectArms 0 lines).2
      | none => ofLines lines
    else if Line.isTag "unless" line then
      match Line.argument? "unless" line with
      | some condition =>
        whenNot (Condition.parse condition) (ofLines (unlessBody lines).1)
          :: ofLines (unlessBody lines).2
      | none => ofLines (unlessBody lines).2
    else ofLines lines
termination_by lines => lines.length
decreasing_by
  all_goals simp only [List.length_cons]
  all_goals have comment := Line.length_afterComment lines
  all_goals have loop := length_loopBody lines
  all_goals have unless_ := length_unlessBody lines
  all_goals obtain ⟨first, more, after⟩ := Line.length_collectArms 0 lines
  all_goals first
    | omega
    | exact Nat.lt_succ_of_le (more _ ‹_›)

/-- The statements of a block's source: the lines trimmed, without the empty ones. -/
def ofSource (source : Text) : List Statement :=
  ofLines (((Text.lines source).map Text.trim).filter (· ≠ []))

end Statement
end ThemeProps
