/-
  A setting that is compared with a quoted text:

      settings.layout.gap >= '8px'

  Executed blocks and regions of a stylesheet read such a comparison by different
  rules.

  * `SettingCondition.parse_comparison`: in a region it is a setting, an operator and
    a text;
  * `Condition.settingSide` is the left side of it in a block;
  * `evaluateCondition_setting`: a setting that is present compares alike in both.
-/
import ThemeProps.Condition.Static
import ThemeProps.Proofs.Condition.Written

namespace ThemeProps

variable {operator s : Text} {q : Char} (path : DottedPath)

/-! ## In regions of a stylesheet -/

namespace SettingCondition

/-- A quoted text behind a space. -/
theorem reads_literal (hq : Text.isQuoteMark q = true) (notMem : q ∉ s) (noBreak : '\n' ∉ s) :
    literal (' ' :: q :: (s ++ [q])) = some (.str s, []) := by
  have quoted : quotedLiteral (q :: (s ++ [q])) = some (.str s, []) := by
    have mark : Reader.satisfy (fun c => c == '\x27' || c == '"') (q :: (s ++ [q])) =
        some (q, s ++ [q]) := if_pos hq
    have inside : ∀ c ∈ s, decide (c ≠ q ∧ c ≠ '\n') = true := fun c hc =>
      decide_eq_true ⟨fun he => notMem (he ▸ hc), fun he => noBreak (he ▸ hc)⟩
    rw [quotedLiteral, Reader.bind_of mark,
      Reader.bind_of (Reader.reads_run inside (Reader.stops_cons.2 (by simp))),
      Reader.bind_of (Reader.reads_char q [])]
    rfl
  rw [literal, Reader.bind_of (Reader.reads_blanks_cons (by decide)
    (Reader.stops_cons.2 (isBlank_of_isQuoteMark hq)))]
  exact Reader.orElse_of quoted

/-- An operator and a literal. -/
theorem reads_operation {t : Text} {v : Value} (h : literal t = some (v, [])) (symbol : Text)
    (c : Comparison) : operation symbol c (symbol ++ t) = some ((c, v), []) := by
  rw [operation, Reader.bind_of (Reader.reads_literal symbol t), Reader.bind_of h]
  rfl

/-- An operator of executed blocks, and a literal behind a space. No longer operator begins with
it. -/
theorem reads_operations {t : Text} {v : Value} (h : operator ∈ Condition.operators)
    (read : literal (' ' :: t) = some (v, [])) :
    (operation "==" .equal <|> operation "!=" .unequal <|> operation "<=" .atMost
      <|> operation ">=" .atLeast <|> operation "<" .below <|> operation ">" .above)
      (operator ++ ' ' :: t) = some ((.ofOperator operator, v), []) := by
  simp only [Condition.operators, List.mem_cons, List.not_mem_nil, or_false] at h
  rcases h with rfl | rfl | rfl | rfl | rfl
  · exact (Reader.orElse_none rfl).trans <| (Reader.orElse_none rfl).trans <|
      (Reader.orElse_none rfl).trans <| Reader.orElse_of (reads_operation read ">=" .atLeast)
  · exact (Reader.orElse_none rfl).trans <| (Reader.orElse_none rfl).trans <|
      Reader.orElse_of (reads_operation read "<=" .atMost)
  · exact (Reader.orElse_none rfl).trans <| (Reader.orElse_none rfl).trans <|
      (Reader.orElse_none rfl).trans <| (Reader.orElse_none rfl).trans <|
      (Reader.orElse_none rfl).trans <| reads_operation read ">" .above
  · exact (Reader.orElse_none rfl).trans <| (Reader.orElse_none rfl).trans <|
      (Reader.orElse_none rfl).trans <| (Reader.orElse_none rfl).trans <|
      Reader.orElse_of (reads_operation read "<" .below)
  · exact Reader.orElse_of (reads_operation read "==" .equal)

theorem reads_comparison (h : operator ∈ Condition.operators) (hq : Text.isQuoteMark q = true)
    (notMem : q ∉ s) (noBreak : '\n' ∉ s) :
    comparison ("settings." ++ (path.text ++ ' ' :: (operator ++ ' ' :: q :: (s ++ [q])))) =
      some (.compare path.text (.ofOperator operator) (.str s), []) := by
  have referenced (t : Text) : reference ("settings." ++ (path.text ++ ' ' :: t)) =
      some (path.text, ' ' :: t) := by
    rw [reference, Reader.bind_of (Reader.reads_literal "settings." _)]
    exact Reader.reads_run1 path.text_ne_nil path.isWordOrDot_text
      (Reader.stops_cons.2 (by decide))
  have table : ∀ operator ∈ Condition.operators, operator ≠ [] ∧
      Reader.Stops Text.isBlank operator := by decide
  obtain ⟨nonempty, start⟩ := table operator h
  rw [comparison, Reader.bind_of (referenced _),
    Reader.bind_of (Reader.reads_blanks_cons (by decide) (Reader.stops_append nonempty start _)),
    Reader.bind_of (reads_operations h (reads_literal hq notMem noBreak))]
  rfl

theorem parse_comparison (h : operator ∈ Condition.operators) (hq : Text.isQuoteMark q = true)
    (notMem : q ∉ s) (noBreak : '\n' ∉ s) :
    parse ("settings." ++ (path.text ++ ' ' :: (operator ++ ' ' :: q :: (s ++ [q])))) =
      .compare path.text (.ofOperator operator) (.str s) := by
  have shape : "settings." ++ (path.text ++ ' ' :: (operator ++ ' ' :: q :: (s ++ [q]))) =
      ("settings." ++ (path.text ++ ' ' :: (operator ++ [' ']))) ++ q :: (s ++ [q]) := by simp
  have trimmed := Expr.trim_append_quoted
    (s := "settings." ++ (path.text ++ ' ' :: (operator ++ [' ']))) (t := s) (by simp)
    (Reader.stops_append (by decide) (by decide) _) hq
  rw [← shape] at trimmed
  have found := Reader.findFirst_append (a := []) Reader.refuses_nil
    (reads_comparison path h hq notMem noBreak)
  rw [List.nil_append] at found
  rw [parse, trimmed, found]

end SettingCondition

/-! ## In executed blocks -/

namespace Condition

theorem isWordOrDot_setting : ∀ c ∈ "settings." ++ path.text, Text.isWordOrDot c = true :=
  List.forall_mem_append.2 ⟨Text.forall_mem_of_all rfl, path.isWordOrDot_text⟩

/-- A character that is no word character and no point is not in a setting. -/
theorem notMem_setting {c : Char} (h : Text.isWordOrDot c = false) :
    c ∉ "settings." ++ path.text := fun hc => by
  rw [isWordOrDot_setting path c hc] at h
  cases h

/-- A setting. -/
def settingSide : Side where
  text := "settings." ++ path.text
  nonempty := List.append_ne_nil_of_left_ne_nil (by decide) _
  trimmed := Text.trim_of_notBlank fun c hc =>
    Text.isBlank_of_isWordOrDot (isWordOrDot_setting path c hc)
  noContains := not_contains_of_notMem (notMem_setting path (by decide)) fun he => by
    have dot : '.' ∈ "settings." ++ path.text := List.mem_append_left _ (by decide)
    exact absurd (he ▸ dot) (by decide)

end Condition

/-! ## In both of them -/

/-- A setting, an operator and a quoted text. -/
def settingComparison (path : DottedPath) (operator : Text) (q : Char) (s : Text) : Text :=
  "settings." ++ (path.text ++ ' ' :: (operator ++ ' ' :: q :: (s ++ [q])))

section
variable {store : Store} {path : DottedPath}

/-- In an executed block the setting is compared with the text. -/
theorem evaluateCondition_settingComparison (b : Bindings) (present : store.get path.text ≠ .null)
    (h : operator ∈ Condition.operators) (hq : Text.isQuoteMark q = true) (notMem : q ∉ s)
    (noContains : ¬ Condition.containsWord <:+: s) :
    evaluateCondition store b (settingComparison path operator q s) =
      (store.get path.text).compareBy (.ofOperator operator) (.str s) := by
  have parsed := Condition.parse_comparison (Condition.settingSide path)
    (Condition.quotedSide hq noContains) h (Condition.notMem_setting path (by decide))
    (Condition.notMem_setting path (by decide))
    fun he => Condition.notMem_setting path (c := '=') (by decide) (he.subset (by decide))
  have left := evaluate_setting store b path
  have right := evaluate_quoted store b hq notMem
  have shape : settingComparison path operator q s = (Condition.settingSide path).text ++
      ' ' :: (operator ++ ' ' :: (Condition.quotedSide hq noContains).text) :=
    (List.append_assoc "settings.".toList path.text _).symm
  rw [evaluateCondition, shape, parsed]
  change (do
      let v ← evaluate store b ("settings." ++ path.text)
      let w ← evaluate store b (q :: (s ++ [q]))
      v.compareBy (.ofOperator operator) w) = _
  rw [left, right, Store.getOrEmpty_of_present present]
  rfl

/-- In a region of a stylesheet the setting is compared with the text. -/
theorem evaluateSettingCondition_settingComparison (h : operator ∈ Condition.operators)
    (hq : Text.isQuoteMark q = true) (notMem : q ∉ s) (noBreak : '\n' ∉ s) :
    evaluateSettingCondition store (settingComparison path operator q s) =
      (store.get path.text).compareBy (.ofOperator operator) (.str s) := by
  exact congrArg (SettingCondition.holds store)
    (SettingCondition.parse_comparison path h hq notMem noBreak)

end

/-- **Comparisons of a setting with a quoted text** come out alike in executed blocks and in regions
of a stylesheet, if the setting is present. The text may hold operators and pipes, but no line break
and no `contains` between spaces. -/
theorem evaluateCondition_setting (store : Store) (b : Bindings) (path : DottedPath)
    (present : store.get path.text ≠ .null) (h : operator ∈ Condition.operators)
    (hq : Text.isQuoteMark q = true) (notMem : q ∉ s) (noBreak : '\n' ∉ s)
    (noContains : ¬ (" contains " : Text) <:+: s) :
    evaluateCondition store b (settingComparison path operator q s) =
      evaluateSettingCondition store (settingComparison path operator q s) := by
  rw [evaluateCondition_settingComparison b present h hq notMem noContains,
    evaluateSettingCondition_settingComparison h hq notMem noBreak]

/-- The path of a caption. -/
def captionPath : DottedPath where
  names := ["caption"]
  nonempty := by decide
  isName := List.forall_mem_singleton.2 ⟨by decide, Text.forall_mem_of_all rfl⟩

/-- The text has an operator and a pipe. -/
theorem evaluateCondition_setting_caption :
    let store : Store := ⟨[("caption", .str "a >= b | c")], []⟩
    store.get "caption" = .str "a >= b | c" ∧
      evaluateCondition store [] "settings.caption == 'a >= b | c'" =
        evaluateSettingCondition store "settings.caption == 'a >= b | c'" := by
  intro store
  have written : settingComparison captionPath "==" '\x27' "a >= b | c" =
      "settings.caption == 'a >= b | c'" := by decide +kernel
  have setting : store.get captionPath.text = .str "a >= b | c" := rfl
  have present : store.get captionPath.text ≠ .null := by
    rw [setting]
    exact Value.noConfusion
  refine ⟨setting, ?_⟩
  rw [← written]
  exact evaluateCondition_setting store [] captionPath present (by decide) rfl (by decide)
    (by decide) (by decide)

end ThemeProps
