/-
  Comments in blocks.

  A comment is no statement, but the end of a block around it is found by counting
  lines, also those that the comment hides.

  * `Line.commentOpen`: some lines leave a comment open;
  * `Statement.ofLines_of_plain` and `Statement.ofLines_of_opens`: what one line
    does with the lines behind it;
  * `Statement.ofLines_insert`: lines that mean nothing by themselves mean nothing
    wherever they stand, if they are balanced for each block that is open there;
  * `runLines_comment`: so a comment has no effect on a run, if what it hides is
    balanced. `runLines_comment_counted`: it may have one if it is not.
-/
import ThemeProps.Proofs.Block.Count
import ThemeProps.Proofs.Block.Refinement

namespace ThemeProps

/-! ## Lines -/

namespace Line

/-- Some lines leave a comment open, where one is open before them or not. -/
def commentOpen (inside : Bool) : List Text → Bool
  | [] => inside
  | line :: lines =>
    commentOpen (if inside then decide (line ≠ "endcomment") else isTag "comment" line) lines

variable {tag other line : Text} {inside : Bool} {lines : List Text}

theorem isTag_eq_false (h : isTag tag line = true) (htag : ' ' ∉ tag) (hother : ' ' ∉ other)
    (hne : other ≠ tag) : isTag other line = false := by
  rcases isTag_iff.1 h with rfl | ⟨args, rfl⟩
  · rw [Bool.eq_false_iff]
    intro h'
    rcases isTag_iff.1 h' with rfl | ⟨args, rfl⟩
    · exact hne rfl
    · exact htag (by simp)
  · exact (isTag_ofTag args hother htag).trans (decide_eq_false hne)

/-- Lines that close a comment before them leave none open without it either. -/
theorem commentOpen_false (h : commentOpen inside lines = false) :
    commentOpen false lines = false := by
  induction lines generalizing inside with
  | nil => rfl
  | cons line lines ih =>
    cases inside with
    | false => exact h
    | true =>
      rw [commentOpen, if_pos rfl] at h
      rw [commentOpen, if_neg Bool.false_ne_true]
      by_cases last : line = "endcomment"
      · subst last
        exact ih h
      · cases isTag "comment" line with
        | false => exact ih h
        | true => rwa [decide_eq_true last] at h

theorem commentOpen_suffix {ending : List Text} (h : commentOpen false lines = false)
    (hs : ending <:+ lines) : commentOpen false ending = false := by
  induction lines with
  | nil => rw [List.suffix_nil.1 hs]; rfl
  | cons line lines ih =>
    rcases List.suffix_cons_iff.1 hs with rfl | hs
    · exact h
    · exact ih (commentOpen_false h) hs

/-- The lines after a comment, when more lines follow. -/
theorem afterComment_append (h : "endcomment".toList ∈ lines) (rest : List Text) :
    afterComment (lines ++ rest) = afterComment lines ++ rest := by
  induction lines with
  | nil => cases h
  | cons line lines ih =>
    rw [List.cons_append, afterComment, afterComment]
    split_ifs with last
    · rfl
    · exact ih ((List.mem_cons.1 h).resolve_left (Ne.symm last))

theorem afterComment_suffix (lines : List Text) : afterComment lines <:+ lines := by
  induction lines with
  | nil => exact List.suffix_rfl
  | cons line lines ih =>
    rw [afterComment]
    split_ifs
    · exact List.suffix_cons line lines
    · exact ih.trans (List.suffix_cons line lines)

theorem afterComment_of_notMem (h : "endcomment".toList ∉ lines) (rest : List Text) :
    afterComment (lines ++ "endcomment".toList :: rest) = rest := by
  induction lines with
  | nil => rw [List.nil_append, afterComment, if_pos rfl]
  | cons line lines ih =>
    rw [List.mem_cons, not_or] at h
    rw [List.cons_append, afterComment, if_neg (Ne.symm h.1), ih h.2]

/-- A comment that is not left open has its end. -/
theorem mem_of_commentOpen (h : commentOpen true lines = false) : "endcomment".toList ∈ lines := by
  induction lines with
  | nil => cases h
  | cons line lines ih =>
    by_cases last : line = "endcomment".toList
    · exact last ▸ List.mem_cons_self
    · rw [commentOpen, if_pos rfl, decide_eq_true last] at h
      exact List.mem_cons_of_mem line (ih h)

end Line

/-! ## Comments that stand in blocks -/

namespace BlockKind

variable {k : BlockKind} {line : Text} {lines : List Text}

/-- A line that opens no block, closes none and begins no arm does not count. -/
theorem countInArm_other (opens : Line.isTag k.opener line = false)
    (closes : Text.startsWith line k.closer = false) (arm : k.beginsArm line = false)
    (depth : Nat) : k.countInArm depth line = some depth := by
  simp only [countInArm, count, opens, closes, arm, Bool.false_eq_true, and_false, if_false]

/-- The first line of a comment does not count. -/
theorem countInArm_comment (h : Line.isTag "comment" line = true) (k : BlockKind) (depth : Nat) :
    k.countInArm depth line = some depth := by
  have other {tag : Text} (ht : ' ' ∉ tag) (hne : tag ≠ "comment") : Line.isTag tag line = false :=
    Line.isTag_eq_false h (by decide) ht hne
  refine countInArm_other ?opens ?closes ?arm depth
  case opens =>
    rcases k with ⟨_ | _⟩ | _ <;> exact other (by decide) (by decide)
  case closes =>
    have closes : Text.startsWith "comment" k.closer = false := by
      rcases k with ⟨_ | _⟩ | _ <;> decide
    rcases Line.isTag_iff.1 h with rfl | ⟨args, rfl⟩
    · exact closes
    · have spaceless : ' ' ∉ k.closer := by rcases k with ⟨_ | _⟩ | _ <;> decide
      exact (Line.startsWith_ofTag "comment" args spaceless).trans closes
  case arm =>
    rcases k with ⟨_ | _⟩ | _
    · rfl
    · rfl
    · rw [beginsArm, other (by decide) (by decide), Bool.false_or, decide_eq_false_iff_not]
      rintro rfl
      exact absurd h (by decide)

theorem countInArm_endcomment (k : BlockKind) (depth : Nat) :
    k.countInArm depth "endcomment" = some depth := by
  rcases k with ⟨_ | _⟩ | _ <;> exact countInArm_other (by decide) (by decide) (by decide) depth

/-- A comment is balanced if what it hides is. -/
theorem Balanced.comment {hidden : List Text} (h : k.Balanced hidden)
    (first : Line.isTag "comment" line = true) :
    k.Balanced (line :: (hidden ++ ["endcomment".toList])) := by
  have hidden : (hidden ++ ["endcomment".toList]).foldlM k.countInArm 0 = some 0 := by
    rw [List.foldlM_append, h, Option.bind_eq_bind, Option.bind_some]
    exact counts_cons.2 ⟨0, countInArm_endcomment k 0, rfl⟩
  exact counts_cons.2 ⟨0, countInArm_comment first k 0, hidden⟩

/-- A line that begins an arm neither begins a comment nor ends one. -/
theorem commentOpen_of_beginsArm (h : k.beginsArm line = true) (inside : Bool) :
    Line.commentOpen inside (line :: lines) = Line.commentOpen inside lines := by
  have other : Line.isTag "comment" line = false ∧ line ≠ "endcomment" := by
    cases k with
    | body k => cases h
    | choice =>
      rw [beginsArm, Bool.or_eq_true, decide_eq_true_eq] at h
      rcases h with elsif | rfl
      · refine ⟨Line.isTag_eq_false elsif (by decide) (by decide) (by decide), ?_⟩
        rintro rfl
        exact absurd elsif (by decide)
      · exact ⟨by decide, by decide⟩
  rw [Line.commentOpen, other.1, decide_eq_true other.2]
  cases inside <;> rfl

/-- The last arm of an open block leaves no comment open, if the lines do not. -/
theorem commentOpen_lastArm {depth n : Nat} {inside : Bool}
    (h : lines.foldlM k.count depth = some n) (hc : Line.commentOpen inside lines = false) :
    Line.commentOpen (inside && (k.collect depth lines).1.2.isEmpty)
      (Line.lastArm (k.collect depth lines).1.1 (k.collect depth lines).1.2) = false := by
  induction lines generalizing depth inside with
  | nil =>
    cases hc
    cases k <;> rfl
  | cons line lines ih =>
    obtain ⟨d, here, h⟩ := counts_cons.1 h
    by_cases arm : depth = 0 ∧ k.beginsArm line = true
    · obtain ⟨rfl, begins⟩ := arm
      obtain rfl : 0 = d := Option.some.inj ((count_of_beginsArm begins 0).symm.trans here)
      rw [commentOpen_of_beginsArm begins] at hc
      have last := ih h hc
      rw [collect_of_beginsArm begins, Line.beginArm]
      -- behind the beginning of a further arm, nothing is left of the comments before it
      have further := Line.commentOpen_false last
      split_ifs
      · cases Line.argument? "elsif" line with
        | some condition => rw [List.isEmpty_cons, Bool.and_false]; exact further
        | none => exact last
      · rw [List.isEmpty_cons, Bool.and_false]
        exact further
    · have last := ih h hc
      rw [collect_keep arm here]
      generalize k.collect d lines = found at last ⊢
      obtain ⟨⟨first, more⟩, after⟩ := found
      cases more with
      | nil =>
        rw [List.isEmpty_nil, Bool.and_true] at last
        rw [Line.keepFirst, List.isEmpty_nil, Bool.and_true]
        exact last
      | cons other more =>
        rw [List.isEmpty_cons, Bool.and_false] at last
        rw [Line.keepFirst, List.isEmpty_cons, Bool.and_false]
        exact last

end BlockKind

/-! ## One line and the lines behind it -/

namespace Statement

variable {line : Text} {lines : List Text} {k : BlockKind}

/-- A line that opens no block stands for itself. -/
theorem ofLines_of_plain (comment : Line.isTag "comment" line = false)
    (opens : openedBy? line = none) :
    ∃ statements, ∀ lines, ofLines (line :: lines) = statements ++ ofLines lines := by
  rw [openedBy?] at opens
  split_ifs at opens with loop unless_ choice
  have notComment : ¬ Line.isTag "comment" line = true := Bool.eq_false_iff.1 comment
  by_cases assigns : Line.isTag "assign" line = true
  · cases assigned : Line.assignment line with
    | none =>
      refine ⟨[], fun lines => ?_⟩
      rw [ofLines, if_neg notComment, if_pos assigns, assigned]
      rfl
    | some found =>
      obtain ⟨⟨name, value⟩, rest⟩ := found
      refine ⟨[assign name (Expr.parse value)], fun lines => ?_⟩
      rw [ofLines, if_neg notComment, if_pos assigns, assigned]
      rfl
  by_cases echoes : Line.isTag "echo" line = true
  · refine ⟨[echo (Expr.parse (Text.trim (line.drop 4)))], fun lines => ?_⟩
    rw [ofLines, if_neg notComment, if_neg assigns, if_pos echoes]
    rfl
  refine ⟨[], fun lines => ?_⟩
  rw [ofLines, if_neg notComment, if_neg assigns, if_neg echoes, if_neg loop]
  by_cases chooses : Line.isTag "if" line = true
  · have noCondition : Line.argument? "if" line = none := by
      rw [← Option.isNone_iff_eq_none, ← Option.not_isSome, Bool.not_eq_true']
      exact Bool.eq_false_iff.2 fun given => choice ⟨chooses, given⟩
    rw [if_pos chooses, noCondition]
    rfl
  · rw [if_neg chooses, if_neg unless_]
    rfl

/-- A line that opens a block makes something of its arms, whatever lines there are. -/
theorem ofLines_of_opens (opens : openedBy? line = some k) :
    ∃ make : List Statement → List (Option Condition × List Statement) → List Statement,
      ∀ lines, ofLines (line :: lines) =
        make (ofLines (k.collect 0 lines).1.1) (ofParts (k.collect 0 lines).1.2) ++
          ofLines (k.collect 0 lines).2 := by
  have other (tag : Text) {word : Text} (h : Line.isTag word line = true)
      (words : ' ' ∉ word ∧ ' ' ∉ tag ∧ tag ≠ word) : ¬ Line.isTag tag line = true :=
    Bool.eq_false_iff.1 (Line.isTag_eq_false h words.1 words.2.1 words.2.2)
  rw [openedBy?] at opens
  split_ifs at opens with loop unless_ choice
  · cases opens
    have comment := other "comment" loop (by decide)
    have assigns := other "assign" loop (by decide)
    have echoes := other "echo" loop (by decide)
    cases header : Line.loopHeader line with
    | none =>
      refine ⟨fun _ _ => [], fun lines => ?_⟩
      rw [ofLines, if_neg comment, if_neg assigns, if_neg echoes, if_pos loop, header]
      rfl
    | some found =>
      obtain ⟨⟨item, array⟩, rest⟩ := found
      refine ⟨fun body _ => [forEach item array body], fun lines => ?_⟩
      rw [ofLines, if_neg comment, if_neg assigns, if_neg echoes, if_pos loop, header]
      rfl
  · cases opens
    have comment := other "comment" unless_ (by decide)
    have assigns := other "assign" unless_ (by decide)
    have echoes := other "echo" unless_ (by decide)
    have chooses := other "if" unless_ (by decide)
    cases argument : Line.argument? "unless" line with
    | none =>
      refine ⟨fun _ _ => [], fun lines => ?_⟩
      rw [ofLines, if_neg comment, if_neg assigns, if_neg echoes, if_neg loop, if_neg chooses,
        if_pos unless_, argument]
      rfl
    | some condition =>
      refine ⟨fun body _ => [whenNot (Condition.parse condition) body], fun lines => ?_⟩
      rw [ofLines, if_neg comment, if_neg assigns, if_neg echoes, if_neg loop, if_neg chooses,
        if_pos unless_, argument]
      rfl
  · cases opens
    obtain ⟨chooses, given⟩ := choice
    have comment := other "comment" chooses (by decide)
    have assigns := other "assign" chooses (by decide)
    have echoes := other "echo" chooses (by decide)
    obtain ⟨condition, argument⟩ := Option.isSome_iff_exists.1 given
    refine ⟨fun first more => [choose ((some (Condition.parse condition), first) :: more)],
      fun lines => ?_⟩
    rw [ofLines, if_neg comment, if_neg assigns, if_neg echoes, if_neg loop, if_pos chooses,
      argument]
    simp only [ofParts_attach]
    rfl

/-- What follows the lines of an open block is read in its last arm. -/
theorem ofLines_extendLast {first : List Text} {more : List (Option Text × List Text)}
    (found found' : Line.Found) (further : found.1.2 = found'.1.2)
    (same : ofLines (Line.lastArm first more ++ found.1.1) =
      ofLines (Line.lastArm first more ++ found'.1.1)) :
    ofLines (Line.extendLast first more found).1.1 =
        ofLines (Line.extendLast first more found').1.1 ∧
      ofParts (Line.extendLast first more found).1.2 =
        ofParts (Line.extendLast first more found').1.2 := by
  induction more generalizing first with
  | nil => exact ⟨same, congrArg ofParts further⟩
  | cons arm more ih =>
    obtain ⟨here, there⟩ := ih same
    refine ⟨rfl, ?_⟩
    simp only [ofParts, Line.extendLast, List.map_cons] at there ⊢
    rw [here, there]

/-- Lines that mean nothing by themselves mean nothing behind other lines either, if those leave no
comment open and the lines are balanced for each block that is open there. -/
theorem ofLines_insert {inserted : List Text}
    (silent : ∀ behind, ofLines (inserted ++ behind) = ofLines behind) {before : List Text}
    (closed : Line.commentOpen false before = false)
    (balanced : ∀ k ∈ openBlocks before, k.Balanced inserted) (behind : List Text) :
    ofLines (before ++ (inserted ++ behind)) = ofLines (before ++ behind) := by
  induction before using openBlocks.induct generalizing behind with
  | case1 => exact silent behind
  | case2 line lines comment ih =>
    rw [openBlocks, if_pos comment] at balanced
    have ends : "endcomment".toList ∈ lines := by
      rw [Line.commentOpen, comment] at closed
      exact Line.mem_of_commentOpen closed
    have closed := Line.commentOpen_suffix (Line.commentOpen_false closed)
      ((Line.afterComment_suffix lines).trans (List.suffix_cons line lines))
    rw [List.cons_append, List.cons_append, ofLines, if_pos comment, ofLines, if_pos comment,
      Line.afterComment_append ends, Line.afterComment_append ends]
    exact ih closed balanced behind
  | case3 line lines comment opens ih =>
    rw [openBlocks, if_neg comment, opens] at balanced
    obtain ⟨statements, reads⟩ := ofLines_of_plain (Bool.eq_false_iff.2 comment) opens
    rw [List.cons_append, List.cons_append, reads, reads,
      ih (Line.commentOpen_false closed) balanced]
  | case4 line lines comment k opens ends ih =>
    simp only [openBlocks, if_neg comment, opens, if_pos ends] at balanced
    have closed := Line.commentOpen_suffix (Line.commentOpen_false closed)
      ((k.collect_suffix 0 lines).trans (List.suffix_cons line lines))
    obtain ⟨make, reads⟩ := ofLines_of_opens opens
    rw [List.cons_append, List.cons_append, reads, reads, BlockKind.collect_of_closed ends,
      BlockKind.collect_of_closed ends]
    exact congrArg _ (ih closed balanced behind)
  | case5 line lines comment k opens ends ih =>
    simp only [openBlocks, if_neg comment, opens, if_neg ends, List.forall_mem_cons] at balanced
    obtain ⟨n, stays⟩ := Option.ne_none_iff_exists'.1 ends
    have closed : Line.commentOpen false (k.innermost lines) = false := by
      have before := Line.commentOpen_suffix closed (List.suffix_cons line lines)
      have last := BlockKind.commentOpen_lastArm stays before
      rwa [Bool.false_and] at last
    -- the inserted lines go on with the last arm of the block, as the lines behind them do
    have inside := ih closed balanced.2 (k.collect n behind).1.1
    have moved : k.collect n (inserted ++ behind) =
        Line.keepFirst inserted (k.collect n behind) :=
      BlockKind.collect_of_balanced balanced.1 n behind
    obtain ⟨make, reads⟩ := ofLines_of_opens opens
    rw [List.cons_append, List.cons_append, reads, reads, BlockKind.collect_of_open stays,
      BlockKind.collect_of_open stays, moved]
    obtain ⟨first, more⟩ := ofLines_extendLast (Line.keepFirst inserted (k.collect n behind))
      (k.collect n behind) rfl inside
    rw [first, more, Line.extendLast_snd, Line.extendLast_snd]
    rfl

end Statement

/-! ## Comments -/

/-- **A comment has no effect where what it hides is balanced.**  A comment may stand behind any
lines that leave no comment open, in blocks of any kind and depth. It may hide any lines that close
just those blocks that they open, for each kind of block that is open there, and that begin no arm
of a choice around them. Then, from the same variables, the lines run as they do without the
comment: they echo the same text, leave the same variables, and go wrong in the same way, if they
do. -/
theorem runLines_comment {before hidden : List Text} {line : Text}
    (first : Line.isTag "comment" line = true) (inside : "endcomment".toList ∉ hidden)
    (closed : Line.commentOpen false before = false)
    (balanced : ∀ k ∈ openBlocks before, k.Balanced hidden) (store : Store)
    (behind : List Text) :
    runLines store (before ++ line :: (hidden ++ "endcomment".toList :: behind)) =
      runLines store (before ++ behind) := by
  have silent (behind : List Text) :
      Statement.ofLines (line :: (hidden ++ ["endcomment".toList]) ++ behind) =
        Statement.ofLines behind := by
    rw [List.cons_append, List.append_assoc, List.singleton_append, Statement.ofLines,
      if_pos first, Line.afterComment_of_notMem inside]
  have comments : ∀ k ∈ openBlocks before, k.Balanced (line :: (hidden ++ ["endcomment".toList])) :=
    fun k hk => (balanced k hk).comment first
  have same := Statement.ofLines_insert silent closed comments behind
  rw [List.cons_append, List.append_assoc, List.singleton_append] at same
  rw [runLines, same, runLines]

/-- A comment in a loop may hide a loop, and also a line of a choice, as no choice is open there. -/
theorem runLines_comment_draft :
    let before : List Text := ["for i in a".toList]
    let hidden : List Text := ["for j in i".toList, "else".toList, "endfor".toList]
    let behind : List Text := ["echo i".toList, "endfor".toList]
    openBlocks before = [.body .loop] ∧
      ∀ store, runLines store (before ++ "comment draft".toList ::
          (hidden ++ "endcomment".toList :: behind)) =
        runLines store (before ++ behind) := by
  intro before hidden behind
  have loop : openBlocks before = [.body .loop] := by decide +kernel
  refine ⟨loop, fun store => ?_⟩
  refine runLines_comment (by decide) (by decide) (by decide) ?_ store behind
  rw [loop, List.forall_mem_singleton]
  decide

/-- The lines that a comment hides are counted with those of the blocks around it: a hidden `endfor`
ends the loop. -/
theorem runLines_comment_counted :
    ¬ ∀ (before hidden behind : List Text) (line : Text) (store : Store),
      Line.isTag "comment" line = true → "endcomment".toList ∉ hidden →
      Line.commentOpen false before = false →
      runLines store (before ++ line :: (hidden ++ "endcomment".toList :: behind)) =
        runLines store (before ++ behind) := by
  intro claim
  have same := claim ["assign a = 'x,y' | split: ','".toList, "for i in a".toList]
    ["endfor".toList] ["echo i".toList, "endfor".toList] "comment" {}
    (by decide) (by decide) (by decide)
  have outputs := congrArg (fun run : Action Text => (run ⟨[], 0⟩).1) same
  exact absurd outputs (by decide +kernel)

end ThemeProps
