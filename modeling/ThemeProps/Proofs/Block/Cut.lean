/-
  Blocks that are left open at the end of the lines.

  * `BlockKind.nested_of_closed` and `BlockKind.nested_of_open`: what is collected
    for a block is what the stack of open blocks says;
  * `Statement.ofLines_closed`: lines that leave blocks open are read as if the
    closing lines of these stood behind them;
  * `runLines_cut`: so well-nested lines that are cut off anywhere run as if all
    blocks that are open there were closed.
-/
import ThemeProps.Proofs.Block.Nesting

namespace ThemeProps

/-- The closing lines of the blocks that some lines leave open, that of the innermost one first. -/
def missingClosers (lines : List Text) : List Text :=
  ((lines.foldlM BlockKind.nest []).getD []).map BlockKind.closer

namespace BlockKind

variable {k : BlockKind} {lines : List Text}

/-! ## Bodies of blocks along the stack -/

section
variable {outer stack : List BlockKind}

/-- Behind a block that the lines close, the blocks around it are open as they were before it. -/
theorem nested_of_closed (inner : List BlockKind)
    (h : lines.foldlM nest (inner ++ k :: outer) = some stack)
    (closes : lines.foldlM k.count (inner.count k) = none) :
    (k.collect (inner.count k) lines).2.foldlM nest outer = some stack := by
  induction lines generalizing inner with
  | nil => cases closes
  | cons line lines ih =>
    obtain ⟨next, first, rest⟩ := counts_cons.1 h
    obtain ⟨rfl, rfl, arm, here⟩ | ⟨rfl, rfl, begins⟩ | ⟨inner', rfl, -, arm, here⟩ :=
      nest_cases first
    · rw [List.count_nil, collect_cons (fun both => by rw [arm] at both; cases both.2), here]
      exact rest
    · rw [List.foldlM_cons, List.count_nil, count_of_beginsArm begins] at closes
      rw [List.count_nil, collect_of_beginsArm begins, Line.beginArm_snd]
      exact ih [] rest closes
    · rw [List.foldlM_cons, here] at closes
      rw [collect_keep arm here]
      exact ih inner' rest closes

/-- In a block that the lines leave open, the last arm leaves open the blocks inside it. -/
theorem nested_of_open {n : Nat} (inner : List BlockKind)
    (h : lines.foldlM nest (inner ++ k :: outer) = some stack)
    (stays : lines.foldlM k.count (inner.count k) = some n) :
    ∃ inner', stack = inner' ++ k :: outer ∧ inner'.count k = n ∧
      (Line.lastArm (k.collect (inner.count k) lines).1.1
        (k.collect (inner.count k) lines).1.2).foldlM nest
          (if (k.collect (inner.count k) lines).1.2.isEmpty then inner else []) = some inner' := by
  induction lines generalizing inner with
  | nil =>
    obtain rfl := Option.some.inj h
    obtain rfl := Option.some.inj stays
    refine ⟨inner, rfl, rfl, ?_⟩
    rcases k with ⟨_ | _⟩ | _ <;> rfl
  | cons line lines ih =>
    obtain ⟨next, first, rest⟩ := counts_cons.1 h
    obtain ⟨rfl, rfl, arm, here⟩ | ⟨rfl, rfl, begins⟩ | ⟨inner', rfl, inside, arm, here⟩ :=
      nest_cases first
    · rw [List.foldlM_cons, List.count_nil, here] at stays
      cases stays
    · rw [List.foldlM_cons, List.count_nil, count_of_beginsArm begins] at stays
      obtain ⟨inner', rfl, counted, last⟩ := ih [] rest stays
      refine ⟨inner', rfl, counted, ?_⟩
      rw [List.count_nil, ite_self] at last
      rw [List.count_nil, collect_of_beginsArm begins, ite_self, Line.beginArm]
      split_ifs
      · cases Line.argument? "elsif" line <;> exact last
      · exact last
    · rw [List.foldlM_cons, here] at stays
      obtain ⟨inner'', rfl, counted, last⟩ := ih inner' rest stays
      refine ⟨inner'', rfl, counted, ?_⟩
      rw [collect_keep arm here]
      generalize k.collect (inner'.count k) lines = found at last ⊢
      obtain ⟨⟨first, more⟩, after⟩ := found
      cases more with
      | nil => exact counts_cons.2 ⟨inner', inside, last⟩
      | cons other more => exact last

/-- The closing lines of the inner blocks stay in the block, and its own one ends it. -/
theorem collect_closers (k : BlockKind) (inner : List BlockKind) (rest : List Text) :
    k.collect (inner.count k) (inner.map closer ++ k.closer :: rest) =
      ((inner.map closer, []), rest) := by
  have noArm (j : BlockKind) (depth : Nat) : ¬ (depth = 0 ∧ k.beginsArm j.closer = true) := by
    rintro ⟨-, arm⟩
    have closed := j.startsWith_closer_self
    rw [startsWith_of_beginsArm arm j] at closed
    cases closed
  induction inner with
  | nil =>
    rw [List.count_nil, List.map_nil, List.nil_append, collect_cons (noArm k 0),
      count_of_closer k.startsWith_closer_self, if_pos rfl]
  | cons j inner ih =>
    have here : k.count ((j :: inner).count k) j.closer = some (inner.count k) := by
      rw [count_of_closer j.startsWith_closer_self, List.count_cons]
      by_cases same : j = k <;> simp [same]
    rw [List.map_cons, List.cons_append, collect_keep (noArm j _) here, ih]
    rfl

end

end BlockKind

/-! ## Closing what is open -/

theorem Line.afterComment_eq_nil {lines : List Text} (h : "endcomment".toList ∉ lines) :
    afterComment lines = [] := by
  induction lines with
  | nil => rfl
  | cons line lines ih =>
    rw [List.mem_cons, not_or] at h
    rw [afterComment, if_neg (Ne.symm h.1), ih h.2]

namespace Statement

open BlockKind

variable {lines : List Text}

/-- Closing lines without a block to close say nothing. -/
theorem ofLines_closers (stack : List BlockKind) : ofLines (stack.map closer) = [] := by
  induction stack with
  | nil => rw [List.map_nil, ofLines]
  | cons k stack ih =>
    have noTag : ∀ tag ∈ ["comment", "assign", "echo", "for", "if", "unless"],
        ¬ Line.isTag tag.toList k.closer = true := by
      rcases k with ⟨_ | _⟩ | _ <;> decide
    rw [List.map_cons, ofLines]
    simp only [List.forall_mem_cons] at noTag
    obtain ⟨comment, assigns, echoes, loop, choice, unless_, -⟩ := noTag
    rw [if_neg comment, if_neg assigns, if_neg echoes, if_neg loop, if_neg choice, if_neg unless_,
      ih]

/-- Lines in which the blocks `before` are open, and the blocks `stack` in the end, are read as if
these were closed. The blocks before the lines are those that a comment in front of them hides: they
are not there for the statements, and their closing lines do no harm. -/
theorem ofLines_closed {before stack : List BlockKind}
    (h : lines.foldlM nest before = some stack) :
    ofLines (lines ++ stack.map closer) = ofLines lines := by
  induction lines using openBlocks.induct generalizing before stack with
  | case1 =>
    rw [List.nil_append, ofLines_closers, ofLines]
  | case2 line lines comment ih =>
    obtain ⟨next, -, rest⟩ := counts_cons.1 h
    rw [List.cons_append, ofLines, if_pos comment, ofLines, if_pos comment]
    by_cases ends : "endcomment".toList ∈ lines
    · obtain ⟨hidden, behind⟩ := Line.afterComment_suffix lines
      rw [← behind, List.foldlM_append] at rest
      obtain ⟨after, -, rest⟩ := Option.bind_eq_some_iff.1 rest
      rw [Line.afterComment_append ends]
      exact ih rest
    · -- the comment goes on to the end, closing lines or not
      have ends' : "endcomment".toList ∉ lines ++ stack.map closer := by
        rw [List.mem_append, not_or]
        refine ⟨ends, fun among => ?_⟩
        obtain ⟨k, -, same⟩ := List.mem_map.1 among
        revert same
        rcases k with ⟨_ | _⟩ | _ <;> decide
      rw [Line.afterComment_eq_nil ends, Line.afterComment_eq_nil ends']
  | case3 line lines comment opens ih =>
    obtain ⟨next, -, rest⟩ := counts_cons.1 h
    obtain ⟨statements, reads⟩ := ofLines_of_plain (Bool.eq_false_iff.2 comment) opens
    rw [List.cons_append, reads, reads, ih rest]
  | case4 line lines comment k opens ends ih =>
    obtain ⟨next, first, rest⟩ := counts_cons.1 h
    rw [nest_opener (isTag_of_openedBy? opens)] at first
    obtain rfl := Option.some.inj first
    obtain ⟨make, reads⟩ := ofLines_of_opens opens
    rw [List.cons_append, reads, reads, collect_of_closed ends]
    exact congrArg _ (ih (nested_of_closed [] rest ends))
  | case5 line lines comment k opens ends ih =>
    obtain ⟨next, first, rest⟩ := counts_cons.1 h
    rw [nest_opener (isTag_of_openedBy? opens)] at first
    obtain rfl := Option.some.inj first
    obtain ⟨n, stays⟩ := Option.ne_none_iff_exists'.1 ends
    obtain ⟨inner, rfl, rfl, last⟩ := nested_of_open [] rest stays
    obtain ⟨make, reads⟩ := ofLines_of_opens opens
    -- without closing lines, nothing follows the last arm of the block
    have open_ : k.collect 0 lines =
        Line.extendLast (k.collect 0 lines).1.1 (k.collect 0 lines).1.2 (([], []), []) := by
      have nothing := collect_of_open stays []
      have empty : k.collect (inner.count k) [] = (([], []), []) := by cases k <;> rfl
      rwa [List.append_nil, empty] at nothing
    have inside : ofLines (k.innermost lines ++ inner.map closer) =
        ofLines (k.innermost lines ++ []) := by
      rw [List.append_nil]
      exact ih last
    obtain ⟨first, more⟩ := ofLines_extendLast ((inner.map closer, []), before.map closer)
      (([], []), []) rfl inside
    rw [List.cons_append, reads, reads, List.map_append, List.map_cons, collect_of_open stays,
      collect_closers, first, more, ← open_, Line.extendLast_snd, ofLines_closers, open_,
      Line.extendLast_snd, ofLines]

end Statement

/-! ## Cut lines -/

/-- The closing lines of some open blocks close them all. -/
theorem nest_closers (stack : List BlockKind) :
    (stack.map BlockKind.closer).foldlM BlockKind.nest stack = some [] := by
  induction stack with
  | nil => rfl
  | cons k stack ih =>
    exact BlockKind.counts_cons.2
      ⟨stack, BlockKind.nest_closer k.startsWith_closer_self stack, ih⟩

/-- The closing lines that some lines miss make them well nested. -/
theorem wellNested_append_closers {lines : List Text} {stack : List BlockKind}
    (h : lines.foldlM BlockKind.nest [] = some stack) :
    WellNested (lines ++ stack.map BlockKind.closer) := by
  rw [WellNested, List.foldlM_append, h]
  exact nest_closers stack

/-- **A block that is left open runs as if it were closed at the end of the lines.** Let well-nested
lines be cut off anywhere. The lines before the cut, with the closing lines that they miss behind
them, innermost block first, are well nested; and without these they run just the same: from the
same variables they echo the same text, leave the same variables, and go wrong in the same way, if
they do. -/
theorem runLines_cut {before after : List Text} (nested : WellNested (before ++ after))
    (store : Store) :
    WellNested (before ++ missingClosers before) ∧
      runLines store before = runLines store (before ++ missingClosers before) := by
  rw [WellNested, List.foldlM_append] at nested
  obtain ⟨stack, first, -⟩ := Option.bind_eq_some_iff.1 nested
  have missing : missingClosers before = stack.map BlockKind.closer := by
    rw [missingClosers, first, Option.getD_some]
  rw [missing]
  exact ⟨wellNested_append_closers first,
    by rw [runLines, runLines, Statement.ofLines_closed first]⟩

/-- The lines of a choice in a loop, cut off in its last arm. -/
theorem runLines_cut_choice :
    let before : List Text := ["for i in a".toList, "if i contains 'x'".toList, "echo i".toList,
      "else".toList, "echo 'n'".toList]
    let after : List Text := ["endif".toList, "echo ';'".toList, "endfor".toList]
    WellNested (before ++ after) ∧ missingClosers before = ["endif".toList, "endfor".toList] ∧
      ∀ store, runLines store before =
        runLines store (before ++ ["endif".toList, "endfor".toList]) := by
  intro before after
  have nested : WellNested (before ++ after) := by decide +kernel
  have missing : missingClosers before = ["endif".toList, "endfor".toList] := by decide +kernel
  exact ⟨nested, missing, fun store => missing ▸ (runLines_cut nested store).2⟩

end ThemeProps
