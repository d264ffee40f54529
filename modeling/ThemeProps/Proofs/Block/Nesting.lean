/-
  Nesting of blocks along lines.

  * `BlockKind.nest` follows the blocks that are open along some lines, innermost
    first. `WellNested` lines close each block that they open, the innermost one
    first, and begin arms in choices only;
  * `BlockKind.nest_cases`: what one line does inside an open block, to the stack of
    open blocks and to the count for the kind of that block;
  * `Program.wellNested`: the lines of every program are well nested.
-/
import ThemeProps.Proofs.Block.Comment

namespace ThemeProps

/-! ## Open and closed blocks -/

namespace BlockKind

/-- The kinds of blocks. -/
def all : List BlockKind := [.body .loop, .body .unless_, .choice]

/-- The block that a line opens, with its condition or without. -/
def opening? (line : Text) : Option BlockKind :=
  all.find? fun k => Line.isTag k.opener line

/-- The block that a line closes. -/
def closing? (line : Text) : Option BlockKind :=
  all.find? fun k => Text.startsWith line k.closer

/-- The open blocks behind a line, innermost first, if those before it are `stack`; none if the line
does not fit there. -/
def nest (stack : List BlockKind) (line : Text) : Option (List BlockKind) :=
  match opening? line, closing? line with
  | some k, _ => some (k :: stack)
  | none, some k => if stack.head? = some k then some stack.tail else none
  | none, none =>
    if choice.beginsArm line ∧ stack.head? ≠ some choice then none else some stack

end BlockKind

/-- Each block is closed, the innermost one first, and arms begin in choices only. -/
def WellNested (lines : List Text) : Prop := lines.foldlM BlockKind.nest [] = some []

instance (lines : List Text) : Decidable (WellNested lines) := inferInstanceAs (Decidable (_ = _))

namespace BlockKind

variable {j k : BlockKind} {line : Text}

/-! ## Words of lines -/

theorem head?_of_opener (h : Line.isTag k.opener line = true) : line.head? ≠ some 'e' := by
  rcases Line.isTag_iff.1 h with rfl | ⟨args, rfl⟩
  · rcases k with ⟨_ | _⟩ | _ <;> decide
  · rcases k with ⟨_ | _⟩ | _ <;> exact fun he => absurd (Option.some.inj he) (by decide)

theorem head?_of_closer (h : Text.startsWith line k.closer = true) : line.head? = some 'e' := by
  obtain ⟨rest, rfl⟩ := Text.startsWith_iff.1 h
  rcases k with ⟨_ | _⟩ | _ <;> rfl

theorem head?_of_beginsArm (h : k.beginsArm line = true) : line.head? = some 'e' := by
  cases k with
  | body k => cases h
  | choice =>
    rw [beginsArm, Bool.or_eq_true, decide_eq_true_eq] at h
    rcases h with elsif | rfl
    · rcases Line.isTag_iff.1 elsif with rfl | ⟨args, rfl⟩ <;> rfl
    · rfl

theorem startsWith_of_beginsArm (h : j.beginsArm line = true) (k : BlockKind) :
    Text.startsWith line k.closer = false := by
  have spaceless : ' ' ∉ k.closer := by rcases k with ⟨_ | _⟩ | _ <;> decide
  cases j with
  | body j => cases h
  | choice =>
    rw [beginsArm, Bool.or_eq_true, decide_eq_true_eq] at h
    rcases h with elsif | rfl
    · rcases Line.isTag_iff.1 elsif with rfl | ⟨args, rfl⟩
      · rcases k with ⟨_ | _⟩ | _ <;> decide
      · rw [← Line.ofTag, Line.startsWith_ofTag "elsif" args spaceless]
        rcases k with ⟨_ | _⟩ | _ <;> decide
    · rcases k with ⟨_ | _⟩ | _ <;> decide

theorem startsWith_closer_self (k : BlockKind) : Text.startsWith k.closer k.closer = true :=
  Text.startsWith_iff.2 List.prefix_rfl

theorem mem_all (k : BlockKind) : k ∈ all := by
  rcases k with ⟨_ | _⟩ | _ <;> decide

/-- No line opens blocks of two kinds. -/
theorem isTag_opener_of_ne (h : Line.isTag j.opener line = true) (ne : j ≠ k) :
    Line.isTag k.opener line = false := by
  have words : ' ' ∉ j.opener ∧ ' ' ∉ k.opener ∧ k.opener ≠ j.opener := by
    revert ne
    rcases j with ⟨_ | _⟩ | _ <;> rcases k with ⟨_ | _⟩ | _ <;> decide
  exact Line.isTag_eq_false h words.1 words.2.1 words.2.2

/-- No line closes blocks of two kinds. -/
theorem startsWith_closer_of_ne (h : Text.startsWith line j.closer = true) (ne : j ≠ k) :
    Text.startsWith line k.closer = false := by
  refine Bool.eq_false_iff.2 fun closes => ?_
  have compared := List.prefix_or_prefix_of_prefix (Text.startsWith_iff.1 h)
    (Text.startsWith_iff.1 closes)
  revert compared ne
  rcases j with ⟨_ | _⟩ | _ <;> rcases k with ⟨_ | _⟩ | _ <;> decide

/-- The first kind that has a property is the one that has it. -/
theorem find?_all {p : BlockKind → Bool} (only : ∀ j, p j = true → j ≠ k → p k = false)
    (h : p k = true) : all.find? p = some k := by
  cases found : all.find? p with
  | none => exact absurd h (List.find?_eq_none.1 found k (mem_all k))
  | some j =>
    by_cases same : j = k
    · rw [same]
    · rw [only j (List.find?_some found) same] at h
      cases h

theorem opening?_eq_some (h : Line.isTag k.opener line = true) : opening? line = some k :=
  find?_all (fun _ => isTag_opener_of_ne) h

theorem closing?_eq_some (h : Text.startsWith line k.closer = true) : closing? line = some k :=
  find?_all (fun _ => startsWith_closer_of_ne) h

theorem isTag_of_opening? (h : opening? line = some k) : Line.isTag k.opener line = true :=
  List.find?_some (p := fun k : BlockKind => Line.isTag k.opener line) h

theorem startsWith_of_closing? (h : closing? line = some k) :
    Text.startsWith line k.closer = true :=
  List.find?_some (p := fun k : BlockKind => Text.startsWith line k.closer) h

theorem isTag_of_opening?_none (h : opening? line = none) (k : BlockKind) :
    Line.isTag k.opener line = false :=
  Bool.eq_false_iff.2 (List.find?_eq_none.1 h k (mem_all k))

theorem startsWith_of_closing?_none (h : closing? line = none) (k : BlockKind) :
    Text.startsWith line k.closer = false :=
  Bool.eq_false_iff.2 (List.find?_eq_none.1 h k (mem_all k))

/-- A line that opens a block is a line of its tag. -/
theorem isTag_of_openedBy? (h : openedBy? line = some k) : Line.isTag k.opener line = true := by
  rw [openedBy?] at h
  split_ifs at h with loop unless_ choice <;> cases h
  · exact loop
  · exact unless_
  · exact choice.1

/-! ## Counting by lines -/

/-- A line of an opening tag raises the count of its own kind. -/
theorem count_of_opener (h : Line.isTag j.opener line = true) (k : BlockKind) (depth : Nat) :
    k.count depth line = some (if j = k then depth + 1 else depth) := by
  by_cases same : j = k
  · subst same
    simp only [count, h, if_true]
  · have notCloser : Text.startsWith line k.closer = false :=
      Bool.eq_false_iff.2 fun closes => head?_of_opener h (head?_of_closer closes)
    simp only [count, isTag_opener_of_ne h same, notCloser, if_neg same, Bool.false_eq_true,
      if_false]

/-- A closing line lowers the count of its own kind. -/
theorem count_of_closer (h : Text.startsWith line j.closer = true) (k : BlockKind) (depth : Nat) :
    k.count depth line =
      if j = k then (match depth with | 0 => none | depth + 1 => some depth) else some depth := by
  have notOpener : Line.isTag k.opener line = false :=
    Bool.eq_false_iff.2 fun opens => head?_of_opener opens (head?_of_closer h)
  by_cases same : j = k
  · subst same
    rw [if_pos rfl]
    cases depth <;> simp only [count, notOpener, h, Bool.false_eq_true, if_false, if_true]
  · simp only [count, notOpener, startsWith_closer_of_ne h same, if_neg same, Bool.false_eq_true,
      if_false]

/-! ## The stack line by line -/

variable {stack : List BlockKind}

theorem nest_opener (h : Line.isTag k.opener line = true) (stack : List BlockKind) :
    nest stack line = some (k :: stack) := by
  rw [nest, opening?_eq_some h]

theorem nest_closer (h : Text.startsWith line k.closer = true) (stack : List BlockKind) :
    nest (k :: stack) line = some stack := by
  have notOpener : opening? line = none := by
    refine List.find?_eq_none.2 fun j _ opens => ?_
    exact head?_of_opener opens (head?_of_closer h)
  simp only [nest, notOpener, closing?_eq_some h, List.head?_cons, List.tail_cons, if_true]

/-- A line that opens no block and closes none leaves the open blocks as they are. -/
theorem nest_other (opens : ∀ k : BlockKind, Line.isTag k.opener line = false)
    (closes : ∀ k : BlockKind, Text.startsWith line k.closer = false)
    (arm : choice.beginsArm line = true → stack.head? = some choice) :
    nest stack line = some stack := by
  have notOpener : opening? line = none :=
    List.find?_eq_none.2 fun k _ => Bool.eq_false_iff.1 (opens k)
  have notCloser : closing? line = none :=
    List.find?_eq_none.2 fun k _ => Bool.eq_false_iff.1 (closes k)
  simp only [nest, notOpener, notCloser]
  rw [if_neg (not_and_not_right.2 arm)]

/-- What a line does inside a block `k`, where the blocks `inner` are open in it and `outer` around
it: it closes the block, or begins an arm of it, or stays inside. Then the count for `k` goes along
with the number of blocks of that kind among the inner ones. -/
theorem nest_cases {inner outer : List BlockKind}
    (h : nest (inner ++ k :: outer) line = some stack) :
    (inner = [] ∧ stack = outer ∧ k.beginsArm line = false ∧ k.count 0 line = none) ∨
      (inner = [] ∧ stack = k :: outer ∧ k.beginsArm line = true) ∨
      ∃ inner', stack = inner' ++ k :: outer ∧ nest inner line = some inner' ∧
        ¬ (inner.count k = 0 ∧ k.beginsArm line = true) ∧
        k.count (inner.count k) line = some (inner'.count k) := by
  cases opened : opening? line with
  | some j =>
    have opens := isTag_of_opening? opened
    rw [nest_opener opens] at h
    obtain rfl := Option.some.inj h
    refine .inr (.inr ⟨j :: inner, rfl, nest_opener opens inner, fun arm => ?_, ?_⟩)
    · exact head?_of_opener opens (head?_of_beginsArm arm.2)
    · rw [count_of_opener opens, List.count_cons]
      by_cases same : j = k <;> simp [same]
  | none =>
    cases closed : closing? line with
    | some j =>
      have closes := startsWith_of_closing? closed
      have noArm (k : BlockKind) : k.beginsArm line = false := by
        refine Bool.eq_false_iff.2 fun arm => ?_
        rw [startsWith_of_beginsArm arm j] at closes
        cases closes
      simp only [nest, opened, closed] at h
      split_ifs at h with top
      obtain rfl := Option.some.inj h
      cases inner with
      | nil =>
        obtain rfl : k = j := Option.some.inj top
        refine .inl ⟨rfl, rfl, noArm k, ?_⟩
        rw [count_of_closer closes, if_pos rfl]
      | cons i inner =>
        obtain rfl : i = j := Option.some.inj top
        refine .inr (.inr ⟨inner, rfl, nest_closer closes inner, ?_, ?_⟩)
        · rw [noArm k]
          exact fun arm => nomatch arm.2
        · rw [count_of_closer closes, List.count_cons]
          by_cases same : i = k <;> simp [same]
    | none =>
      simp only [nest, opened, closed] at h
      split_ifs at h with misplaced
      obtain rfl := Option.some.inj h
      have stays : k.count (inner.count k) line = some (inner.count k) := by
        simp only [count, isTag_of_opening?_none opened k, startsWith_of_closing?_none closed k,
          Bool.false_eq_true, if_false]
      rw [not_and_not_right] at misplaced
      by_cases arm : inner = [] ∧ k.beginsArm line = true
      · obtain ⟨rfl, begins⟩ := arm
        exact .inr (.inl ⟨rfl, rfl, begins⟩)
      have inside (begins : choice.beginsArm line = true) : inner.head? = some choice := by
        cases inner with
        | nil =>
          obtain rfl : k = choice := Option.some.inj (misplaced begins)
          exact absurd ⟨rfl, begins⟩ arm
        | cons i inner => exact misplaced begins
      refine .inr (.inr ⟨inner, rfl, ?_, ?_, stays⟩)
      · exact nest_other (isTag_of_opening?_none opened) (startsWith_of_closing?_none closed) inside
      · rintro ⟨none, begins⟩
        cases k with
        | body k => cases begins
        | choice => exact List.count_eq_zero.1 none (List.mem_of_head? (inside begins))

end BlockKind

/-! ## Programs -/

/-- A line that stays in its body leaves the open blocks as they are. -/
theorem Line.IsInner.nest {line : Text} (h : Line.IsInner line) (stack : List BlockKind) :
    BlockKind.nest stack line = some stack := by
  have opens (k : BlockKind) : Line.isTag k.opener line = false := by
    rcases k with ⟨_ | _⟩ | _
    · exact h.notFor
    · exact h.notUnless
    · exact h.notIf
  have closes (k : BlockKind) : Text.startsWith line k.closer = false := by
    rcases k with ⟨_ | _⟩ | _
    · exact h.notEndfor
    · exact h.notEndunless
    · exact h.notEndif
  refine BlockKind.nest_other opens closes fun arm => ?_
  rw [BlockKind.beginsArm, h.notElsif, Bool.false_or, decide_eq_true_eq] at arm
  exact absurd arm h.notElse

/-- A line of a tag that belongs to no block stays in its body. -/
theorem Line.isInner_ofTag {w : Text} (args : Text) (spaceless : ' ' ∉ w)
    (tags : w ∉ ["for".toList, "if".toList, "unless".toList, "elsif".toList])
    (closes : ∀ k ∈ BlockKind.all, Text.startsWith w k.closer = false) :
    Line.IsInner (Line.ofTag w args) := by
  simp only [List.mem_cons, List.not_mem_nil, or_false, not_or] at tags
  have notTag {tag : Text} (ht : ' ' ∉ tag) (ne : ¬ w = tag) :
      Line.isTag tag (Line.ofTag w args) = false :=
    (Line.isTag_ofTag args ht spaceless).trans (decide_eq_false (Ne.symm ne))
  have notCloser (k : BlockKind) (hk : ' ' ∉ k.closer) :
      Text.startsWith (Line.ofTag w args) k.closer = false :=
    (Line.startsWith_ofTag w args hk).trans (closes k (BlockKind.mem_all k))
  refine {
    notFor := notTag (by decide) tags.1
    notIf := notTag (by decide) tags.2.1
    notUnless := notTag (by decide) tags.2.2.1
    notEndfor := notCloser (.body .loop) (by decide)
    notEndif := notCloser .choice (by decide)
    notEndunless := notCloser (.body .unless_) (by decide)
    notElsif := notTag (by decide) tags.2.2.2
    notElse := fun same => ?_ }
  have blank : ' ' ∈ "else".toList := by rw [← same]; simp [Line.ofTag]
  exact absurd blank (by decide)

/-- The lines close the blocks that they open, whatever blocks are open before them. -/
def Nested (lines : List Text) : Prop := ∀ stack, lines.foldlM BlockKind.nest stack = some stack

/-- The lines close the choice that is open before them. -/
def NestedArms (lines : List Text) : Prop :=
  ∀ stack, lines.foldlM BlockKind.nest (.choice :: stack) = some stack

namespace Nested

variable {line : Text} {lines more : List Text}

theorem append (h : Nested lines) (h' : Nested more) : Nested (lines ++ more) := by
  intro stack
  rw [List.foldlM_append, h stack]
  exact h' stack

theorem single (h : Line.IsInner line) : Nested [line] :=
  fun stack => BlockKind.counts_cons.2 ⟨stack, h.nest stack, rfl⟩

/-- The closing line of the innermost block closes it. -/
theorem nested_closer (k : BlockKind) (stack : List BlockKind) :
    [k.closer].foldlM BlockKind.nest (k :: stack) = some stack :=
  BlockKind.counts_cons.2 ⟨stack, BlockKind.nest_closer k.startsWith_closer_self stack, rfl⟩

/-- A block with its closing line. -/
theorem block {k : BlockKind} (opens : Line.isTag k.opener line = true) (h : Nested lines) :
    Nested (line :: (lines ++ [k.closer])) := by
  intro stack
  refine BlockKind.counts_cons.2 ⟨k :: stack, BlockKind.nest_opener opens stack, ?_⟩
  rw [List.foldlM_append, h (k :: stack)]
  exact nested_closer k stack

/-- A further arm of a choice. -/
theorem arm (begins : BlockKind.choice.beginsArm line = true) (h : Nested lines)
    (h' : NestedArms more) : NestedArms (line :: (lines ++ more)) := by
  intro stack
  have stays : BlockKind.nest (.choice :: stack) line = some (.choice :: stack) := by
    refine BlockKind.nest_other (fun k => Bool.eq_false_iff.2 fun opens => ?_)
      (BlockKind.startsWith_of_beginsArm begins) fun _ => rfl
    exact BlockKind.head?_of_opener opens (BlockKind.head?_of_beginsArm begins)
  refine BlockKind.counts_cons.2 ⟨.choice :: stack, stays, ?_⟩
  rw [List.foldlM_append, h (.choice :: stack)]
  exact h' stack

theorem rules : LineRules Nested NestedArms where
  nil _ := rfl
  append := append
  assign args := single (Line.isInner_ofTag args (by decide) (by decide) (by decide))
  echo args := single (Line.isInner_ofTag args (by decide) (by decide) (by decide))
  comment := single (by constructor <;> decide)
  endcomment := single (by constructor <;> decide)
  inner := single
  forEach args _ h := block (k := .body .loop) (Line.isTag_ofTag_self _ args) h
  whenNot args _ h := block (k := .body .unless_) (Line.isTag_ofTag_self _ args) h
  choose args body arms h h' := by
    intro stack
    refine BlockKind.counts_cons.2 ⟨.choice :: stack, ?_, ?_⟩
    · exact BlockKind.nest_opener (k := .choice) (Line.isTag_ofTag_self _ args) stack
    · rw [List.foldlM_append, h (.choice :: stack)]
      exact h' stack
  endif := nested_closer .choice
  otherwise h := arm (by decide) h (nested_closer .choice)
  elsif args _ _ h h' := by
    refine arm ?_ h h'
    rw [BlockKind.beginsArm, Line.isTag_ofTag_self, Bool.true_or]

end Nested

/-- The lines of a program are well nested. -/
theorem Program.wellNested (p : Program) : WellNested p.lines :=
  p.lines_of_rules Nested.rules []

end ThemeProps
