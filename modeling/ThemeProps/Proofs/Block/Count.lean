/-
  Counting blocks along lines, and the blocks that some lines leave open.

  The body of a block ends where its own count of opening and closing lines falls
  below zero, whatever other blocks are open by then.

  * `BlockKind.count` is the count of one kind of block behind one more line, and
    `BlockKind.collect` finds the arms of a block along it;
  * `BlockKind.Balanced`: the count comes out of the lines where it went in and
    never falls below, and no arm of an enclosing choice begins in them. Such
    lines stay in the arm that they stand in (`collect_of_balanced`);
  * `collect_of_closed` and `collect_of_open`: what is appended to the lines
    comes after the block if they close it, and else stands in its last arm;
  * `openBlocks` are the blocks that some lines leave open.
-/
import ThemeProps.Proofs.Block.Collect

namespace ThemeProps

/-! ## Arms that are found -/

namespace Line

/-- What is found of a block: the rest of its first arm, its further arms with their conditions, and
the lines after it. -/
abbrev Found := (List Text × List (Option Text × List Text)) × List Text

/-- A line that begins a further arm, in front of what is found. A malformed `elsif` is passed
over. -/
def beginArm (line : Text) (found : Found) : Found :=
  if isTag "elsif" line then
    match argument? "elsif" line with
    | some condition => (([], (some condition, found.1.1) :: found.1.2), found.2)
    | none => found
  else (([], (none, found.1.1) :: found.1.2), found.2)

/-- Some arms in front of what is found, where the last of them goes on. -/
def extendLast (first : List Text) : List (Option Text × List Text) → Found → Found
  | [], found => keepFirst first found
  | (condition, arm) :: more, found =>
    ((first, (condition, (extendLast arm more found).1.1) :: (extendLast arm more found).1.2),
      (extendLast arm more found).2)

/-- The last of some arms. -/
def lastArm (first : List Text) : List (Option Text × List Text) → List Text
  | [] => first
  | (_, arm) :: more => lastArm arm more

theorem extendLast_keepFirst (kept first : List Text) (more : List (Option Text × List Text))
    (found : Found) :
    extendLast (kept ++ first) more found = keepFirst kept (extendLast first more found) := by
  cases more with
  | nil => exact (keepFirst_keepFirst kept first found).symm
  | cons arm more => rfl

theorem extendLast_beginArm (line : Text) (arms found : Found) :
    extendLast (beginArm line arms).1.1 (beginArm line arms).1.2 found =
      beginArm line (extendLast arms.1.1 arms.1.2 found) := by
  simp only [beginArm]
  split_ifs
  · cases argument? "elsif" line <;> rfl
  · rfl

theorem extendLast_snd (first : List Text) (more : List (Option Text × List Text))
    (found : Found) : (extendLast first more found).2 = found.2 := by
  induction more generalizing first with
  | nil => rfl
  | cons arm more ih => exact ih arm.2

theorem lastArm_mem (first : List Text) (more : List (Option Text × List Text)) :
    lastArm first more = first ∨ ∃ arm ∈ more, lastArm first more = arm.2 := by
  induction more generalizing first with
  | nil => exact Or.inl rfl
  | cons arm more ih =>
    obtain here | ⟨other, mem, last⟩ := ih arm.2
    · exact Or.inr ⟨arm, List.mem_cons_self, here⟩
    · exact Or.inr ⟨other, List.mem_cons_of_mem arm mem, last⟩

theorem beginArm_snd (line : Text) (found : Found) : (beginArm line found).2 = found.2 := by
  rw [beginArm]
  split_ifs
  · cases argument? "elsif" line <;> rfl
  · rfl

end Line

/-! ## Counting -/

/-- The kinds of blocks. -/
inductive BlockKind where
  | body (k : BodyKind)
  | choice
deriving DecidableEq

namespace BlockKind

/-- The tag that opens a block. -/
def opener : BlockKind → Text
  | body k => k.opener
  | choice => "if"

/-- The beginning of the lines that close a block. -/
def closer : BlockKind → Text
  | body k => k.closer
  | choice => "endif"

/-- The line begins a further arm of a block. -/
def beginsArm : BlockKind → Text → Bool
  | body _, _ => false
  | choice, line => Line.isTag "elsif" line || decide (line = "else")

/-- The number of open blocks of a kind behind a line; none if it closes the one around them. -/
def count (k : BlockKind) (depth : Nat) (line : Text) : Option Nat :=
  if Line.isTag k.opener line then some (depth + 1)
  else if Text.startsWith line k.closer then
    match depth with
    | 0 => none
    | depth + 1 => some depth
  else some depth

/-- The same, as long as the line stays in the arm around it. -/
def countInArm (k : BlockKind) (depth : Nat) (line : Text) : Option Nat :=
  if depth = 0 ∧ k.beginsArm line then none else k.count depth line

/-- The lines close just the blocks of the kind that they open, and stay in the arm around them. -/
def Balanced (k : BlockKind) (lines : List Text) : Prop := lines.foldlM k.countInArm 0 = some 0

instance (k : BlockKind) (lines : List Text) : Decidable (k.Balanced lines) :=
  inferInstanceAs (Decidable (_ = _))

/-- The lines close a block that is open before them. -/
def Closes (k : BlockKind) (lines : List Text) : Prop := lines.foldlM k.count 0 = none

instance (k : BlockKind) (lines : List Text) : Decidable (k.Closes lines) :=
  inferInstanceAs (Decidable (_ = _))

/-- What is found of a block of a kind. -/
def collect (k : BlockKind) (depth : Nat) (lines : List Text) : Line.Found :=
  match k with
  | body k => (((k.collect depth lines).1, []), (k.collect depth lines).2)
  | choice => Line.collectArms depth lines

/-- A count along some lines goes on from what it is behind the first of them. -/
theorem counts_cons {σ : Type} {f : σ → Text → Option σ} {depth n : σ} {line : Text}
    {lines : List Text} :
    (line :: lines).foldlM f depth = some n ↔
      ∃ d, f depth line = some d ∧ lines.foldlM f d = some n := by
  rw [List.foldlM_cons, Option.bind_eq_bind, Option.bind_eq_some_iff]

section
variable {k : BlockKind} {depth n : Nat} {line : Text} {lines : List Text}

theorem countInArm_eq_some (h : k.countInArm depth line = some n) :
    ¬ (depth = 0 ∧ k.beginsArm line = true) ∧ k.count depth line = some n := by
  rw [countInArm] at h
  split_ifs at h with arm
  exact ⟨arm, h⟩

/-- Further blocks around a line only shift its count. -/
theorem countInArm_add (h : k.countInArm depth line = some n) (m : Nat) :
    k.countInArm (depth + m) line = some (n + m) := by
  obtain ⟨arm, h⟩ := countInArm_eq_some h
  have arm' : ¬ (depth + m = 0 ∧ k.beginsArm line = true) := fun ⟨hd, ha⟩ => arm ⟨by omega, ha⟩
  rw [countInArm, if_neg arm']
  simp only [count] at h ⊢
  split_ifs at h ⊢
  · rw [← Option.some.inj h, Nat.add_right_comm]
  · cases depth with
    | zero => cases h
    | succ depth =>
      rw [← Option.some.inj h, Nat.succ_add_eq_add_succ]
      rfl
  · rw [Option.some.inj h]

theorem foldlM_countInArm_add (h : lines.foldlM k.countInArm depth = some n) (m : Nat) :
    lines.foldlM k.countInArm (depth + m) = some (n + m) := by
  induction lines generalizing depth with
  | nil => rw [← Option.some.inj (show some depth = some n from h)]; rfl
  | cons line lines ih =>
    obtain ⟨d, first, rest⟩ := counts_cons.1 h
    exact counts_cons.2 ⟨d + m, countInArm_add first m, ih rest⟩

/-! ## Finding the arms of a block -/

/-- A line that begins no arm. -/
theorem collect_cons (h : ¬ (depth = 0 ∧ k.beginsArm line = true)) (rest : List Text) :
    k.collect depth (line :: rest) =
      match k.count depth line with
      | none => (([], []), rest)
      | some n => Line.keepFirst [line] (k.collect n rest) := by
  cases k with
  | body k =>
    simp only [collect, BodyKind.collect, Line.collectBody, count, opener, closer]
    by_cases opens : Line.isTag k.opener line = true
    · simp only [opens, if_true]; rfl
    by_cases closes : Text.startsWith line k.closer = true
    · cases depth <;> simp only [opens, closes, if_true] <;> rfl
    · simp only [opens, closes]; rfl
  | choice =>
    rw [beginsArm, Bool.or_eq_true, decide_eq_true_eq, and_or_left, not_or] at h
    simp only [collect, Line.collectArms, count, opener, closer, h, if_false]
    by_cases opens : Line.isTag "if" line = true
    · simp only [opens, if_true]; rfl
    by_cases closes : Text.startsWith line "endif" = true
    · cases depth <;> simp only [opens, closes, if_true] <;> rfl
    · simp only [opens, closes]; rfl

theorem collect_keep (h : ¬ (depth = 0 ∧ k.beginsArm line = true))
    (here : k.count depth line = some n) (rest : List Text) :
    k.collect depth (line :: rest) = Line.keepFirst [line] (k.collect n rest) := by
  rw [collect_cons h, here]

theorem not_choice_of_beginsArm (h : choice.beginsArm line = true) :
    Line.isTag "if" line = false ∧ Text.startsWith line "endif" = false := by
  rw [beginsArm, Bool.or_eq_true, decide_eq_true_eq] at h
  rcases h with elsif | rfl
  · rcases Line.isTag_iff.1 elsif with rfl | ⟨args, rfl⟩
    · exact ⟨by decide, by decide⟩
    · exact ⟨Line.isTag_ofTag args (by decide) (by decide),
        Line.startsWith_ofTag "elsif" args (by decide)⟩
  · exact ⟨by decide, by decide⟩

/-- A line that begins an arm of a block does not count. -/
theorem count_of_beginsArm (h : k.beginsArm line = true) (depth : Nat) :
    k.count depth line = some depth := by
  cases k with
  | body k => cases h
  | choice =>
    simp only [count, opener, closer, not_choice_of_beginsArm h, Bool.false_eq_true, if_false]

theorem collect_of_beginsArm (h : k.beginsArm line = true) (rest : List Text) :
    k.collect 0 (line :: rest) = Line.beginArm line (k.collect 0 rest) := by
  cases k with
  | body k => cases h
  | choice =>
    obtain ⟨notIf, notEndif⟩ := not_choice_of_beginsArm h
    rw [beginsArm, Bool.or_eq_true, decide_eq_true_eq] at h
    simp only [collect, Line.collectArms, notIf, notEndif, Bool.false_eq_true, if_false, true_and]
    rw [Line.beginArm]
    split_ifs with elsif otherwise
    · cases Line.argument? "elsif" line <;> rfl
    · rfl
    · exact absurd h (not_or.2 ⟨elsif, otherwise⟩)

/-- Lines that stay in the arm at hand. -/
theorem collect_of_countInArm (h : lines.foldlM k.countInArm depth = some n) (rest : List Text) :
    k.collect depth (lines ++ rest) = Line.keepFirst lines (k.collect n rest) := by
  induction lines generalizing depth with
  | nil => rw [← Option.some.inj (show some depth = some n from h)]; rfl
  | cons line lines ih =>
    obtain ⟨d, first, h⟩ := counts_cons.1 h
    obtain ⟨arm, here⟩ := countInArm_eq_some first
    rw [List.cons_append, collect_keep arm here, ih h, Line.keepFirst_keepFirst]
    rfl

/-- Balanced lines stay in the arm at hand, however many blocks are open around it. -/
theorem collect_of_balanced (h : k.Balanced lines) (depth : Nat) (rest : List Text) :
    k.collect depth (lines ++ rest) = Line.keepFirst lines (k.collect depth rest) := by
  have inner := foldlM_countInArm_add h depth
  rw [Nat.zero_add] at inner
  exact collect_of_countInArm inner rest

/-- Lines that do not close the block: what follows them goes on with its last arm. -/
theorem collect_of_open (h : lines.foldlM k.count depth = some n) (rest : List Text) :
    k.collect depth (lines ++ rest) =
      Line.extendLast (k.collect depth lines).1.1 (k.collect depth lines).1.2
        (k.collect n rest) := by
  induction lines generalizing depth with
  | nil =>
    rw [← Option.some.inj (show some depth = some n from h)]
    cases k <;> rfl
  | cons line lines ih =>
    obtain ⟨d, here, h⟩ := counts_cons.1 h
    rw [List.cons_append]
    by_cases arm : depth = 0 ∧ k.beginsArm line = true
    · obtain ⟨rfl, begins⟩ := arm
      obtain rfl : 0 = d := Option.some.inj ((count_of_beginsArm begins 0).symm.trans here)
      rw [collect_of_beginsArm begins, collect_of_beginsArm begins, ih h,
        Line.extendLast_beginArm]
    · rw [collect_keep arm here, collect_keep arm here, ih h, ← Line.extendLast_keepFirst]
      rfl

/-- Lines that close the block: what follows them comes after it. -/
theorem collect_of_closed (h : lines.foldlM k.count depth = none) (rest : List Text) :
    k.collect depth (lines ++ rest) =
      ((k.collect depth lines).1, (k.collect depth lines).2 ++ rest) := by
  induction lines generalizing depth with
  | nil => cases h
  | cons line lines ih =>
    rw [List.cons_append]
    by_cases arm : depth = 0 ∧ k.beginsArm line = true
    · obtain ⟨rfl, begins⟩ := arm
      rw [List.foldlM_cons, count_of_beginsArm begins] at h
      rw [collect_of_beginsArm begins, collect_of_beginsArm begins, ih h]
      simp only [Line.beginArm]
      split_ifs
      · cases Line.argument? "elsif" line <;> rfl
      · rfl
    · rw [collect_cons arm, collect_cons arm]
      cases here : k.count depth line with
      | none => rfl
      | some d =>
        rw [List.foldlM_cons, here] at h
        simp only [ih h, Line.keepFirst]

/-- The lines after a block are the last of the lines. -/
theorem collect_suffix (k : BlockKind) (depth : Nat) (lines : List Text) :
    (k.collect depth lines).2 <:+ lines := by
  induction lines generalizing depth with
  | nil => cases k <;> exact List.suffix_rfl
  | cons line lines ih =>
    refine List.IsSuffix.trans ?_ (List.suffix_cons line lines)
    by_cases arm : depth = 0 ∧ k.beginsArm line = true
    · obtain ⟨rfl, begins⟩ := arm
      rw [collect_of_beginsArm begins, Line.beginArm_snd]
      exact ih 0
    · rw [collect_cons arm]
      cases k.count depth line with
      | none => exact List.suffix_rfl
      | some n => exact ih n

/-- The last arm of a block that the lines do not close. -/
def innermost (k : BlockKind) (lines : List Text) : List Text :=
  Line.lastArm (k.collect 0 lines).1.1 (k.collect 0 lines).1.2

theorem length_innermost (k : BlockKind) (lines : List Text) :
    (k.innermost lines).length ≤ lines.length := by
  cases k with
  | body k => exact (Nat.le_add_right _ _).trans (Line.length_collectBody k.opener k.closer 0 lines)
  | choice =>
    obtain ⟨first, more, -⟩ := Line.length_collectArms 0 lines
    show (Line.lastArm (Line.collectArms 0 lines).1.1 (Line.collectArms 0 lines).1.2).length ≤ _
    obtain last | ⟨arm, mem, last⟩ :=
      Line.lastArm_mem (Line.collectArms 0 lines).1.1 (Line.collectArms 0 lines).1.2
    · rw [last]; exact first
    · rw [last]; exact more arm mem

end

end BlockKind

/-! ## Open blocks -/

/-- The block that a line opens. An `if` without a condition opens none. -/
def openedBy? (line : Text) : Option BlockKind :=
  if Line.isTag "for" line then some (.body .loop)
  else if Line.isTag "unless" line then some (.body .unless_)
  else if Line.isTag "if" line ∧ (Line.argument? "if" line).isSome then some .choice
  else none

/-- The blocks that some lines leave open, from the outside to the inside. What is hidden by a
comment opens and closes none, except that the end of a block around the comment is found as if
there were no comment. -/
def openBlocks : List Text → List BlockKind
  | [] => []
  | line :: lines =>
    if Line.isTag "comment" line then openBlocks (Line.afterComment lines)
    else
      match openedBy? line with
      | none => openBlocks lines
      | some k =>
        if k.Closes lines then openBlocks (k.collect 0 lines).2
        else k :: openBlocks (k.innermost lines)
termination_by lines => lines.length
decreasing_by
  all_goals simp only [List.length_cons, Nat.lt_succ_iff]
  · exact Line.length_afterComment lines
  · exact le_rfl
  · exact (BlockKind.collect_suffix _ 0 lines).length_le
  · exact BlockKind.length_innermost _ lines

end ThemeProps
