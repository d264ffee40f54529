/-
  Collecting the bodies of blocks from written programs.

  `collectBody` and `collectArms` count the opening and closing lines of one kind
  of block alone. A stretch of lines is *closed* for such a count if the count
  passes over it and comes out where it went in; then the collector keeps all of
  it in the body at hand.

  * `BodyClosed` and `ArmClosed` say this of the two collectors, at every depth;
  * `BodyClosed.rules` and `ArmClosed.rules`: the lines of a program are closed
    for each kind of block, whatever blocks are nested in it;
  * `Program.collect_lines` and `Arms.collectArms_choice`: so the closing line
    that is found is the right one, and so are the lines that begin the arms of a
    choice.
-/
import ThemeProps.Proofs.Block.Program
import ThemeProps.Proofs.Text.Basic

namespace ThemeProps

/-! ## What single lines say -/

namespace Line

theorem isTag_iff {tag line : Text} :
    isTag tag line = true ↔ line = tag ∨ ∃ r, line = tag ++ ' ' :: r := by
  unfold isTag
  cases h : Text.stripFrom tag line with
  | none =>
    rw [Text.stripFrom_eq_none] at h
    simp only [Bool.false_eq_true, false_iff, not_or]
    exact ⟨fun he => h (he ▸ List.prefix_rfl), fun ⟨r, hr⟩ => h ⟨_, hr.symm⟩⟩
  | some r =>
    rw [Text.stripFrom_eq_some] at h
    cases r with
    | nil => simp [h]
    | cons c r => simp [h]

theorem isTag_ofTag_self (tag args : Text) : isTag tag (ofTag tag args) = true :=
  isTag_iff.2 (Or.inr ⟨args, rfl⟩)

/-- A line of a tag with arguments is a line of that tag alone. -/
theorem isTag_ofTag {tag w : Text} (args : Text) (htag : ' ' ∉ tag) (hw : ' ' ∉ w) :
    isTag tag (ofTag w args) = decide (tag = w) := by
  rw [Bool.eq_iff_iff, isTag_iff, decide_eq_true_eq, ofTag]
  constructor
  · rintro (h | ⟨r, h⟩)
    · exact absurd (h ▸ by simp) htag
    · have h₁ : tag <+: w := (Text.prefix_append_cons htag).1 ⟨_, h.symm⟩
      have h₂ : w <+: tag := (Text.prefix_append_cons hw).1 ⟨_, h⟩
      exact h₁.eq_of_length (le_antisymm h₁.length_le h₂.length_le)
  · rintro rfl; exact Or.inr ⟨args, rfl⟩

/-- Whether a line of a tag is a closing line is seen from the tag. -/
theorem startsWith_ofTag {closer : Text} (w args : Text) (h : ' ' ∉ closer) :
    Text.startsWith (ofTag w args) closer = Text.startsWith w closer := by
  rw [Bool.eq_iff_iff, Text.startsWith_iff, Text.startsWith_iff, ofTag, Text.prefix_append_cons h]

end Line

/-! ## Bodies of loops and of `unless` -/

/-- The blocks whose bodies end at their closing lines alone. -/
inductive BodyKind where
  | loop
  | unless_
deriving DecidableEq

namespace BodyKind

/-- The tag that opens a block. -/
def opener : BodyKind → Text
  | loop => "for"
  | unless_ => "unless"

/-- The line that closes a block. -/
def closer : BodyKind → Text
  | loop => "endfor"
  | unless_ => "endunless"

/-- The body of a block, and the lines after it, where `depth` further blocks are open. -/
def collect (k : BodyKind) (depth : Nat) (lines : List Text) : List Text × List Text :=
  Line.collectBody k.opener k.closer depth lines

variable {k : BodyKind} {line : Text}

theorem collect_opener (h : Line.isTag k.opener line = true) (depth : Nat) (rest : List Text) :
    k.collect depth (line :: rest) =
      (line :: (k.collect (depth + 1) rest).1, (k.collect (depth + 1) rest).2) := by
  simp only [collect, Line.collectBody, h, if_true]

theorem collect_closer_succ (k : BodyKind) (depth : Nat) (rest : List Text) :
    k.collect (depth + 1) (k.closer :: rest) =
      (k.closer :: (k.collect depth rest).1, (k.collect depth rest).2) := by
  rw [collect, Line.collectBody]
  cases k <;> rfl

theorem collect_closer_zero (k : BodyKind) (rest : List Text) :
    k.collect 0 (k.closer :: rest) = ([], rest) := by
  rw [collect, Line.collectBody]
  cases k <;> rfl

theorem collect_other (h₁ : Line.isTag k.opener line = false)
    (h₂ : Text.startsWith line k.closer = false) (depth : Nat) (rest : List Text) :
    k.collect depth (line :: rest) =
      (line :: (k.collect depth rest).1, (k.collect depth rest).2) := by
  simp only [collect, Line.collectBody, h₁, h₂, Bool.false_eq_true, if_false]

end BodyKind

/-- The count for a kind of block comes out of the lines where it went in: all of them stay in the
body. -/
def BodyClosed (k : BodyKind) (lines : List Text) : Prop :=
  ∀ depth rest, k.collect depth (lines ++ rest) =
    (lines ++ (k.collect depth rest).1, (k.collect depth rest).2)

namespace BodyClosed
variable {k : BodyKind} {lines more : List Text}

theorem append (h : BodyClosed k lines) (h' : BodyClosed k more) :
    BodyClosed k (lines ++ more) := by
  intro depth rest
  rw [List.append_assoc, h, h', List.append_assoc]

/-- A line that neither opens nor closes a block of the kind. -/
theorem single {line : Text} (h₁ : Line.isTag k.opener line = false)
    (h₂ : Text.startsWith line k.closer = false) : BodyClosed k [line] :=
  fun depth rest => BodyKind.collect_other h₁ h₂ depth rest

/-- A line of a tag that is not the kind's own. -/
theorem ofTag {w : Text} (args : Text) (h₁ : ' ' ∉ w) (h₂ : k.opener ≠ w)
    (h₃ : Text.startsWith w k.closer = false) : BodyClosed k [Line.ofTag w args] := by
  refine single ?_ ?_
  · rw [Line.isTag_ofTag args (by cases k <;> decide) h₁, decide_eq_false h₂]
  · rw [Line.startsWith_ofTag w args (by cases k <;> decide), h₃]

/-- A block of the kind: the count goes up at its first line and down at its last. -/
theorem block (args : Text) (h : BodyClosed k lines) :
    BodyClosed k (Line.ofTag k.opener args :: (lines ++ [k.closer])) := by
  intro depth rest
  rw [List.cons_append, List.append_assoc, List.singleton_append,
    BodyKind.collect_opener (Line.isTag_ofTag_self _ args), h, BodyKind.collect_closer_succ]
  simp only [List.cons_append, List.append_assoc, List.nil_append]

/-- A block of another kind, between two lines that the count passes over. -/
theorem around {line last : Text} (h₁ : BodyClosed k [line]) (h : BodyClosed k lines)
    (h₂ : BodyClosed k [last]) : BodyClosed k (line :: (lines ++ [last])) :=
  h₁.append (h.append h₂)

/-- The count passes over every program. -/
theorem rules (k : BodyKind) : LineRules (BodyClosed k) (BodyClosed k) where
  nil := fun _ _ => rfl
  append := append
  assign args := ofTag args (by decide) (by cases k <;> decide) (by cases k <;> decide)
  echo args := ofTag args (by decide) (by cases k <;> decide) (by cases k <;> decide)
  comment := single (by cases k <;> decide) (by cases k <;> decide)
  endcomment := single (by cases k <;> decide) (by cases k <;> decide)
  inner h := by
    cases k with
    | loop => exact single h.notFor h.notEndfor
    | unless_ => exact single h.notUnless h.notEndunless
  forEach args _ h := by
    cases k with
    | loop => exact h.block args
    | unless_ =>
      exact around (ofTag args (by decide) (by decide) (by decide)) h
        (single (by decide) (by decide))
  whenNot args _ h := by
    cases k with
    | loop =>
      exact around (ofTag args (by decide) (by decide) (by decide)) h
        (single (by decide) (by decide))
    | unless_ => exact h.block args
  choose args _ _ h h' :=
    (ofTag args (by decide) (by cases k <;> decide) (by cases k <;> decide)).append (h.append h')
  endif := single (by cases k <;> decide) (by cases k <;> decide)
  otherwise h :=
    around (single (by cases k <;> decide) (by cases k <;> decide)) h
      (single (by cases k <;> decide) (by cases k <;> decide))
  elsif args _ _ h h' :=
    (ofTag args (by decide) (by cases k <;> decide) (by cases k <;> decide)).append (h.append h')

end BodyClosed

/-- **The body of a loop or an `unless` ends at its own closing line.** -/
theorem Program.collect_lines (k : BodyKind) (p : Program) (rest : List Text) :
    k.collect 0 (p.lines ++ k.closer :: rest) = (p.lines, rest) := by
  rw [p.lines_of_rules (BodyClosed.rules k), k.collect_closer_zero, List.append_nil]

/-! ## Arms of choices -/

namespace Line

/-- The arguments of a tag are read back as they are written. -/
theorem argument?_ofTag (tag : Text) (c : Clause) :
    argument? tag (ofTag tag c.text) = some c.text := by
  have last : (' ' :: c.text).getLast? ≠ some '\n' := by
    rw [List.getLast?_cons_of_ne_nil c.nonempty]
    exact fun h => c.onOneLine (List.mem_of_getLast? h)
  have start : Text.trimStart (' ' :: c.text) = c.text := by
    rw [Text.trimStart, List.dropWhile_cons_of_pos (by decide)]
    exact Text.trimStart_eq_self (Text.head_not_blank c.trimmed)
  rw [argument?, ofTag, Text.stripFrom_append, Option.bind_some, dropFinalBreak, if_neg last]
  have blank : (' ' :: c.text).head?.any Text.isBlank = true := by
    rw [List.head?_cons, Option.any_some]; decide
  have written : ∃ d s, c.text = d :: s := List.exists_cons_of_ne_nil c.nonempty
  have oneLine : c.text.contains '\n' = false := by simpa using c.onOneLine
  obtain ⟨d, s, h⟩ := written
  simp only [blank, start, if_true]
  rw [h] at oneLine ⊢
  have trimmed : Text.trim (d :: s) = d :: s := h ▸ c.trimmed
  simp only [oneLine, Bool.false_eq_true, if_false, trimmed]

variable {line : Text}

/-- The lines before the next arm, the arms with their conditions, and the lines after them, with
some lines in front. -/
def keepFirst (kept : List Text)
    (found : (List Text × List (Option Text × List Text)) × List Text) :
    (List Text × List (Option Text × List Text)) × List Text :=
  ((kept ++ found.1.1, found.1.2), found.2)

theorem keepFirst_keepFirst (kept more : List Text)
    (found : (List Text × List (Option Text × List Text)) × List Text) :
    keepFirst kept (keepFirst more found) = keepFirst (kept ++ more) found := by
  simp only [keepFirst, List.append_assoc]

theorem collectArms_if (h : isTag "if" line = true) (depth : Nat) (rest : List Text) :
    collectArms depth (line :: rest) = keepFirst [line] (collectArms (depth + 1) rest) := by
  simp only [collectArms, h, if_true, keepFirst, List.singleton_append]

theorem collectArms_endif_succ (depth : Nat) (rest : List Text) :
    collectArms (depth + 1) ("endif".toList :: rest) =
      keepFirst ["endif".toList] (collectArms depth rest) := rfl

/-- In a nested choice every line but those that open or close one stays. -/
theorem collectArms_nested (h₁ : isTag "if" line = false)
    (h₂ : Text.startsWith line "endif" = false) (depth : Nat) (rest : List Text) :
    collectArms (depth + 1) (line :: rest) = keepFirst [line] (collectArms (depth + 1) rest) := by
  simp only [collectArms, h₁, h₂, keepFirst, Bool.false_eq_true, if_false, Nat.add_one_ne_zero,
    false_and, List.singleton_append]

theorem collectArms_other (h₁ : isTag "if" line = false)
    (h₂ : Text.startsWith line "endif" = false) (h₃ : isTag "elsif" line = false)
    (h₄ : line ≠ "else".toList) (depth : Nat) (rest : List Text) :
    collectArms depth (line :: rest) = keepFirst [line] (collectArms depth rest) := by
  simp only [collectArms, h₁, h₂, h₃, h₄, keepFirst, Bool.false_eq_true, if_false, and_false,
    List.singleton_append]

end Line

/-- The count of choices comes out of the lines where it went in, and no arm begins in them: all of
them stay in the arm at hand. -/
def ArmClosed (lines : List Text) : Prop :=
  ∀ depth rest, Line.collectArms depth (lines ++ rest) =
    Line.keepFirst lines (Line.collectArms depth rest)

/-- The lines close a nested choice and stay in the arm at hand. -/
def ClosesChoice (lines : List Text) : Prop :=
  ∀ depth rest, Line.collectArms (depth + 1) (lines ++ rest) =
    Line.keepFirst lines (Line.collectArms depth rest)

namespace ArmClosed
variable {lines more : List Text}

theorem append (h : ArmClosed lines) (h' : ArmClosed more) : ArmClosed (lines ++ more) := by
  intro depth rest
  rw [List.append_assoc, h, h', Line.keepFirst_keepFirst]

/-- A line that neither opens nor closes a choice and begins no arm. -/
theorem single {line : Text} (h₁ : Line.isTag "if" line = false)
    (h₂ : Text.startsWith line "endif" = false) (h₃ : Line.isTag "elsif" line = false)
    (h₄ : line ≠ "else".toList) : ArmClosed [line] :=
  fun depth rest => Line.collectArms_other h₁ h₂ h₃ h₄ depth rest

/-- A line of a tag that belongs to no choice. -/
theorem ofTag {w : Text} (args : Text) (h₁ : ' ' ∉ w) (h₂ : "if".toList ≠ w)
    (h₃ : Text.startsWith w "endif" = false) (h₄ : "elsif".toList ≠ w) :
    ArmClosed [Line.ofTag w args] := by
  refine single ?_ ?_ ?_ ?_
  · rw [Line.isTag_ofTag args (by decide) h₁, decide_eq_false h₂]
  · rw [Line.startsWith_ofTag w args (by decide), h₃]
  · rw [Line.isTag_ofTag args (by decide) h₁, decide_eq_false h₄]
  · intro h
    have : ' ' ∈ "else".toList := by rw [← h]; simp [Line.ofTag]
    exact absurd this (by decide)

theorem around {line last : Text} (h₁ : ArmClosed [line]) (h : ArmClosed lines)
    (h₂ : ArmClosed [last]) : ArmClosed (line :: (lines ++ [last])) :=
  h₁.append (h.append h₂)

/-- An arm of a nested choice, after the line that begins it. -/
theorem nestedArm {line : Text} (h₁ : Line.isTag "if" line = false)
    (h₂ : Text.startsWith line "endif" = false) (h : ArmClosed lines) (h' : ClosesChoice more) :
    ClosesChoice (line :: (lines ++ more)) := by
  intro depth rest
  rw [List.cons_append, Line.collectArms_nested h₁ h₂, List.append_assoc, h, h',
    Line.keepFirst_keepFirst, Line.keepFirst_keepFirst]
  rfl

/-- The count passes over every program. -/
theorem rules : LineRules ArmClosed ClosesChoice where
  nil := fun _ _ => rfl
  append := append
  assign args := ofTag args (by decide) (by decide) (by decide) (by decide)
  echo args := ofTag args (by decide) (by decide) (by decide) (by decide)
  comment := single (by decide) (by decide) (by decide) (by decide)
  endcomment := single (by decide) (by decide) (by decide) (by decide)
  inner h := single h.notIf h.notEndif h.notElsif h.notElse
  forEach args _ h :=
    around (ofTag args (by decide) (by decide) (by decide) (by decide)) h
      (single (by decide) (by decide) (by decide) (by decide))
  whenNot args _ h :=
    around (ofTag args (by decide) (by decide) (by decide) (by decide)) h
      (single (by decide) (by decide) (by decide) (by decide))
  choose args body arms h h' := by
    intro depth rest
    rw [List.cons_append, Line.collectArms_if (Line.isTag_ofTag_self _ args), List.append_assoc,
      h, h', Line.keepFirst_keepFirst, Line.keepFirst_keepFirst]
    rfl
  endif := fun depth rest => Line.collectArms_endif_succ depth rest
  otherwise h := nestedArm (by decide) (by decide) h fun depth rest =>
    Line.collectArms_endif_succ depth rest
  elsif args _ _ h h' := by
    refine nestedArm ?_ ?_ h h'
    · rw [Line.isTag_ofTag args (by decide) (by decide)]; rfl
    · rw [Line.startsWith_ofTag _ args (by decide)]; decide

end ArmClosed

/-- The conditions and the lines of the further arms of a choice; `else` has no condition. -/
def Arms.parts : Arms → List (Option Text × List Text)
  | .endif => []
  | .otherwise body => [(none, body.lines)]
  | .elsif condition body arms => (some condition.text, body.lines) :: arms.parts

theorem Program.collectArms_append (p : Program) (depth : Nat) (rest : List Text) :
    Line.collectArms depth (p.lines ++ rest) =
      Line.keepFirst p.lines (Line.collectArms depth rest) :=
  p.lines_of_rules ArmClosed.rules depth rest

/-- The further arms of a choice are found as they are written, and end at their own `endif`. -/
theorem Arms.collectArms_lines (rest : List Text) (arms : Arms) :
    Line.collectArms 0 (arms.lines ++ rest) = (([], arms.parts), rest) := by
  cases arms with
  | endif => rw [Arms.lines, Arms.parts]; rfl
  | otherwise body =>
    have opens (lines : List Text) : Line.collectArms 0 ("else".toList :: lines) =
        (([], (none, (Line.collectArms 0 lines).1.1) :: (Line.collectArms 0 lines).1.2),
          (Line.collectArms 0 lines).2) := rfl
    have closes : Line.collectArms 0 ("endif".toList :: rest) = (([], []), rest) := rfl
    rw [Arms.lines, Arms.parts, List.cons_append, opens, List.append_assoc,
      body.collectArms_append, List.singleton_append, closes, Line.keepFirst, List.append_nil]
  | elsif condition body arms =>
    have opens (lines : List Text) :
        Line.collectArms 0 (Line.ofTag "elsif" condition.text :: lines) =
          (([], (some condition.text, (Line.collectArms 0 lines).1.1) ::
            (Line.collectArms 0 lines).1.2), (Line.collectArms 0 lines).2) := by
      have h₁ : Line.isTag "if" (Line.ofTag "elsif" condition.text) = false := by
        rw [Line.isTag_ofTag _ (by decide) (by decide)]; rfl
      have h₂ : Text.startsWith (Line.ofTag "elsif" condition.text) "endif" = false := by
        rw [Line.startsWith_ofTag _ _ (by decide)]; decide
      have h₃ : Line.isTag "elsif" (Line.ofTag "elsif" condition.text) = true :=
        Line.isTag_ofTag_self _ _
      simp only [Line.collectArms, h₁, h₂, h₃, Line.argument?_ofTag, Bool.false_eq_true, if_false,
        and_self, if_true]
    rw [Arms.lines, Arms.parts, List.cons_append, opens, List.append_assoc,
      body.collectArms_append, Arms.collectArms_lines rest arms, Line.keepFirst, List.append_nil]

/-- **The arms of a choice are its own**: its first body and its further arms are found as they are
written, whatever choices are nested in them. -/
theorem Arms.collectArms_choice (body : Program) (arms : Arms) (rest : List Text) :
    Line.collectArms 0 (body.lines ++ (arms.lines ++ rest)) = ((body.lines, arms.parts), rest) := by
  rw [body.collectArms_append, arms.collectArms_lines, Line.keepFirst, List.append_nil]

end ThemeProps
