/-
  Conditionals that compare a name with a whole number:

      {% if columns > 2 %} … {% else %} … {% endif %}

  The stage that keeps the first branch of such a conditional comes behind the one
  that decides conditionals on settings, and that one takes every conditional.

  * `NumericTest` is such a comparison; the name is not that of a setting;
  * `NumericTest.reduceConditionals_conditional`: the comparison mentions no
    setting, so it does not hold, and the `else` branch is selected;
  * `toStylesheet_numericConditional`: the conditional becomes its `else` branch,
    or nothing if there is none.
-/
import ThemeProps.Proofs.Template.Branch

namespace ThemeProps

/-- The operators that compare numbers. -/
def comparisonOperators : List Text := ["==", "!=", "<", ">", "<=", ">="]

/-- A comparison of a name with a whole number. -/
structure NumericTest where
  /-- Word characters and points that name no setting. -/
  name : Text
  nonempty : name ≠ []
  isWordOrDot : ∀ c ∈ name, Text.isWordOrDot c = true
  noSetting : ¬ "settings.".toList <:+: name
  operator : Text
  isOperator : operator ∈ comparisonOperators
  /-- The digits of the number. -/
  number : Text
  isDigit : ∀ c ∈ number, Text.isDigit c = true

namespace NumericTest

variable {test : NumericTest} {t : Text} {otherwise : Option Text} {store : Store}

/-- The comparison as a template writes it. -/
def text (test : NumericTest) : Text :=
  test.name ++ ' ' :: (test.operator ++ ' ' :: test.number)

/-- What a conditional writes behind its first branch: an `else` branch, or nothing. -/
def writeElse : Option Text → Text
  | none => []
  | some e => Tag.writeWord "else" ++ e

/-- The conditional with the given first branch and perhaps an `else` branch. -/
def conditional (test : NumericTest) (t : Text) (otherwise : Option Text) : Text :=
  writeRegion test.text (t ++ writeElse otherwise)

/-! ## The comparison -/

/-- A character that is in no name, operator or number is not in the comparison. -/
theorem notMem_text {c : Char} (hc : c ≠ ' ') (hname : Text.isWordOrDot c = false)
    (hop : ∀ operator ∈ comparisonOperators, c ∉ operator) (hnumber : Text.isDigit c = false) :
    c ∉ test.text := by
  simp only [text, List.mem_append, List.mem_cons, not_or]
  refine ⟨fun h => ?_, hc, hop _ test.isOperator, hc, fun h => ?_⟩
  · rw [test.isWordOrDot c h] at hname
    cases hname
  · rw [test.isDigit c h] at hnumber
    cases hnumber

theorem stops_text : Reader.Stops Text.isBlank test.text := by
  refine Reader.stops_append test.nonempty (fun c hc => ?_) _
  exact Text.isBlank_of_isWordOrDot (test.isWordOrDot c (List.mem_of_mem_head? hc))

theorem text_ne_nil : test.text ≠ [] := by
  rw [text]
  exact List.append_ne_nil_of_left_ne_nil test.nonempty _

/-- The comparison mentions no setting, and neither does it with the blank behind it. -/
theorem noSetting_text : ¬ "settings.".toList <:+: test.text ++ [' '] := by
  have shape : test.text ++ [' '] =
      test.name ++ ' ' :: (test.operator ++ ' ' :: (test.number ++ [' '])) := by
    simp [text]
  have letter {s : Text} (h : 's' ∉ s) : ¬ "settings.".toList <:+: s := fun hs =>
    h (hs.subset (by decide))
  have operators : ∀ operator ∈ comparisonOperators, 's' ∉ operator := by decide
  have number : 's' ∉ test.number := fun h => absurd (test.isDigit _ h) (by decide)
  rw [shape, Text.infix_append_cons (by decide), Text.infix_append_cons (by decide),
    Text.infix_append_cons (by decide), not_or, not_or, not_or]
  exact ⟨test.noSetting, letter (operators _ test.isOperator), letter number, letter (by simp)⟩

/-! ## The stages -/

/-- A reader of tags refuses the conditional if it takes none of its tags. -/
theorem refuses_conditional {α : Type} {reader : Reader α} (h : Reader.Begins Tag.tagMark reader)
    (hif : ∀ s, reader (("\x7b% if " : Text) ++ s) = none)
    (helse : ∀ s, reader (Tag.writeWord "else" ++ s) = none)
    (hend : reader (Tag.writeWord "endif") = none) (ht : '{' ∉ t) (he : ∀ e ∈ otherwise, '{' ∉ e) :
    Reader.Refuses reader (test.conditional t otherwise) [] := by
  have plain {s : Text} (hs : '{' ∉ s) (b : Text) : Reader.Refuses reader s b :=
    h.refuses_of_notMem hs
  have condition : '{' ∉ test.text :=
    notMem_text (by decide) (by decide) (by decide) (by decide)
  have elsePart (b : Text) : Reader.Refuses reader (writeElse otherwise) b := by
    cases otherwise with
    | none => exact Reader.refuses_nil
    | some e =>
      rw [writeElse, Reader.refuses_append]
      exact ⟨Reader.refuses_cons.2 ⟨helse _, plain (by decide) _⟩, plain (he e rfl) b⟩
  refine refuses_writeRegion h condition
    (fun b => Reader.refuses_append.2 ⟨plain ht _, elsePart b⟩) ?_ ?_
  · rw [writeRegion_assoc]
    exact hif _
  · rw [List.append_nil]
    exact hend

/-- The conditional becomes its `else` branch. -/
theorem reduceConditionals_conditional (ht : '{' ∉ t) (he : ∀ e ∈ otherwise, '{' ∉ e) :
    reduceConditionals store (test.conditional t otherwise) = .ok (otherwise.getD []) := by
  have body : Reader.Refuses (Tag.word "endif") (t ++ writeElse otherwise)
      (Tag.writeWord "endif" ++ []) := by
    have plain {s : Text} (hs : '{' ∉ s) (b : Text) : Reader.Refuses (Tag.word "endif") s b :=
      (Tag.begins_word _).refuses_of_notMem hs
    rw [Reader.refuses_append]
    refine ⟨plain ht _, ?_⟩
    cases otherwise with
    | none => exact Reader.refuses_nil
    | some e =>
      have noEnd (s : Text) : Tag.word "endif" (Tag.writeWord "else" ++ s) = none :=
        rfl
      rw [writeElse, Reader.refuses_append]
      exact ⟨Reader.refuses_cons.2 ⟨noEnd _, plain (by decide) _⟩, plain (he e rfl) _⟩
  have hyphen : '-' ∉ test.text := notMem_text (by decide) (by decide) (by decide) (by decide)
  have percent : '%' ∉ test.text := notMem_text (by decide) (by decide) (by decide) (by decide)
  have found := reads_conditionalRegion text_ne_nil stops_text hyphen percent body
  have never : evaluateSettingCondition store (Text.trim (test.text ++ [' '])) = .ok false :=
    evaluateSettingCondition_of_noSetting
      (fun h => noSetting_text (h.trans (Text.isInfix_trim _))) store
  have selected : selectBranch store
      (splitBranches (test.text ++ [' ']) (t ++ writeElse otherwise)) =
      .ok (otherwise.getD []) := by
    cases otherwise with
    | none =>
      rw [writeElse, List.append_nil, splitBranches_plain ht, selectBranch, never]
      rfl
    | some e =>
      rw [writeElse, splitBranches_else ht (he e rfl), selectBranch, never]
      rfl
  rw [← List.append_nil (test.conditional t otherwise), conditional, reduceConditionals,
    Reader.replaceEveryM_of_reads found (by unfold writeRegion; simp),
    Reader.replaceEveryM_of_refuses Reader.refuses_nil]
  change (do
      let here ← selectBranch store (splitBranches (test.text ++ [' ']) (t ++ writeElse otherwise))
      let there ← pure []
      return here ++ there) = _
  rw [selected]
  exact congrArg Except.ok (List.append_nil _)

end NumericTest

open Template NumericTest in
/-- **A conditional that compares a name with a number** becomes its `else` branch, whatever the
settings are, and nothing if it has none: the conditionals on settings come first, and to them the
comparison never holds. -/
theorem toStylesheet_numericConditional (store : Store) (test : NumericTest) {t : Text}
    {otherwise : Option Text} (ht : '{' ∉ t) (he : ∀ e ∈ otherwise, '{' ∉ e) :
    toStylesheet store (test.conditional t otherwise) = .ok (otherwise.getD []) := by
  have kept {α : Type} {reader : Reader α} (h : Reader.Begins Tag.tagMark reader)
      (hif : ∀ s, reader (("\x7b% if " : Text) ++ s) = none)
      (helse : ∀ s, reader (Tag.writeWord "else" ++ s) = none)
      (hend : reader (Tag.writeWord "endif") = none) :
      Reader.Refuses reader (test.conditional t otherwise) [] :=
    refuses_conditional h hif helse hend ht he
  have blocks : runBlocks store (test.conditional t otherwise) =
      .ok (test.conditional t otherwise) :=
    Reader.replaceEveryM_of_refuses (kept ((Tag.begins_opening _).bind _)
      (fun _ => Reader.bind_none rfl _) (fun _ => Reader.bind_none rfl _) (Reader.bind_none rfl _))
  have loops : SchemeLoop.expand store (test.conditional t otherwise) =
      test.conditional t otherwise :=
    Reader.replaceEvery_of_refuses (kept ((Tag.begins_opening _).bind _)
      (fun _ => Reader.bind_none rfl _) (fun _ => Reader.bind_none rfl _) (Reader.bind_none rfl _))
  have assigns : Reader.removeEvery assignTag (test.conditional t otherwise) =
      test.conditional t otherwise :=
    Reader.replaceEvery_of_refuses (kept (Tag.begins_openTag.bind _)
      (fun _ => rfl) (fun _ => rfl) rfl)
  have plain : '{' ∉ otherwise.getD [] := by
    cases otherwise with
    | none => simp
    | some e => exact he e rfl
  have noMark {mark : Text} (h : '{' ∈ mark) : ¬ mark <:+: otherwise.getD [] :=
    fun hm => plain (hm.subset h)
  have noTag : ¬ Tag.tagMark <:+: otherwise.getD [] := noMark (by decide)
  have noOutput : ¬ Tag.outputMark <:+: otherwise.getD [] := noMark (by decide)
  have scheme : fillSchemeSettings store (otherwise.getD []) = .ok (otherwise.getD []) :=
    Reader.replaceEveryM_of_refuses (begins_settingOutput.refuses noOutput)
  have settings : fillSettings store (otherwise.getD []) = .ok (otherwise.getD []) :=
    Reader.replaceEveryM_of_refuses (begins_settingOutput.refuses noOutput)
  rw [toStylesheet_eq, blocks, Evaluation.ok_bind, loops, assigns,
    reduceConditionals_conditional ht he, Evaluation.ok_bind, keepFirstBranches_of_noTag noTag,
    scheme, Evaluation.ok_bind, settings, Evaluation.ok_bind, fillBareOutputs_of_noOutput noOutput,
    removeLeftovers_of_plain noTag noOutput]
  rfl

/-- A number of columns that is compared with two. -/
def NumericTest.columns : NumericTest where
  name := "section.columns"
  nonempty := by decide
  isWordOrDot := List.all_eq_true.1 rfl
  noSetting := by decide
  operator := ">="
  isOperator := by decide
  number := "2"
  isDigit := List.all_eq_true.1 rfl

theorem toStylesheet_numericConditional_columns :
    toStylesheet {} (NumericTest.columns.conditional "--gap: 2px;" (some "--gap: 1px;")) =
      .ok "--gap: 1px;" :=
  toStylesheet_numericConditional {} NumericTest.columns (by decide)
    (fun e he => by obtain rfl := Option.some.inj he; decide)

/-- The first branch is not kept. -/
theorem toStylesheet_firstBranch_lost :
    ¬ ∀ (store : Store) (test : NumericTest) (t : Text) (otherwise : Option Text),
      '{' ∉ t ∧ '}' ∉ t → (∀ e ∈ otherwise, '{' ∉ e ∧ '}' ∉ e) →
        toStylesheet store (test.conditional t otherwise) = .ok t := by
  intro h
  have kept := h {} NumericTest.columns "--gap: 2px;" none (by decide) nofun
  exact absurd kept (by decide +kernel)

end ThemeProps
