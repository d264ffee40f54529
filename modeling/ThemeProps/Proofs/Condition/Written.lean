/-
  Conditions of executed blocks as they are written.

  * `Condition.Side` is a text on one side of an operator or of `contains`;
  * `Condition.parse_comparison`: the first operator is the one between the sides, if
    the left side has none. The right side may have any;
  * `Condition.parse_contains`: a search is cut at its `contains`;
  * `evaluateCondition_written`: what such conditions evaluate to.
-/
import ThemeProps.Condition.Runtime
import ThemeProps.Proofs.Expr.Parse
import ThemeProps.Proofs.Text.Pieces

namespace ThemeProps

namespace Condition

/-- The operators of comparisons. -/
def operators : List Text := [">=", "<=", ">", "<", "=="]

/-- The word that a search is written with. -/
def containsWord : Text := " contains "

/-- One side of a condition: a trimmed text that is not empty, in which `contains` is no word set
off by spaces. -/
structure Side where
  text : Text
  nonempty : text ≠ []
  trimmed : Text.trim text = text
  noContains : ¬ containsWord <:+: ' ' :: (text ++ [' '])

/-- A text without spaces says `contains` only if it is that word. -/
theorem not_contains_of_notMem {s : Text} (space : ' ' ∉ s) (other : s ≠ "contains".toList) :
    ¬ containsWord <:+: ' ' :: (s ++ [' ']) := by
  rw [List.infix_cons_iff, not_or]
  constructor
  · intro begins
    have word : "contains".toList ++ [' '] <+: s ++ [' '] := (List.cons_prefix_cons.1 begins).2
    exact other ((Text.append_cons_prefix (by decide) space).1 word).1.symm
  · intro inside
    have spaces : (containsWord.count ' ') ≤ (s ++ [' ']).count ' ' := inside.sublist.count_le ' '
    rw [List.count_append, List.count_eq_zero.2 space] at spaces
    exact absurd spaces (by decide)

/-- A quoted text. -/
def quotedSide {q : Char} {s : Text} (hq : Text.isQuoteMark q = true)
    (noContains : ¬ containsWord <:+: s) : Side where
  text := q :: (s ++ [q])
  nonempty := List.cons_ne_nil _ _
  trimmed := Text.trim_quoted hq s
  noContains := by
    have mark : q ∉ containsWord := by
      rw [Text.isQuoteMark, Bool.or_eq_true, beq_iff_eq, beq_iff_eq] at hq
      rcases hq with rfl | rfl <;> decide
    have shape : ' ' :: (q :: (s ++ [q]) ++ [' ']) = [' '] ++ q :: (s ++ q :: [' ']) := by simp
    rw [shape, Text.infix_append_cons mark, Text.infix_append_cons mark, not_or, not_or]
    exact ⟨by decide, noContains, by decide⟩

variable {operator : Text} (left right : Side)

/-! ## Comparisons -/

theorem begins_operator (symbol : Text) (c : Comparison) :
    Reader.Begins symbol (Condition.operator symbol c) :=
  (Reader.begins_literal symbol).bind _

/-- An operator with a text behind it is read. -/
theorem reads_anyOperator (h : operator ∈ operators) (s : Text) :
    anyOperator (operator ++ ' ' :: s) = some ((.ofOperator operator, ' ' :: s), []) := by
  simp only [operators, List.mem_cons, List.not_mem_nil, or_false] at h
  rcases h with rfl | rfl | rfl | rfl | rfl <;> rfl

/-- No operator is read in a text that has none, before a space. -/
theorem refuses_anyOperator {s : Text} (below : '<' ∉ s) (above : '>' ∉ s)
    (equal : ¬ ("==" : Text) <:+: s) (t : Text) :
    Reader.Refuses anyOperator (s ++ [' ']) t := by
  have first (symbol : Text) (c : Comparison) {d : Char} {w : Text} (hw : symbol = d :: w)
      (hd : d ≠ ' ') (hs : d ∉ s) :
      Reader.Refuses (Condition.operator symbol c) (s ++ [' ']) t := by
    subst hw
    exact (begins_operator _ _).refuses_of_notMem (by simp [hd, hs])
  have equals : Reader.Refuses (Condition.operator "==" .equal) (s ++ [' ']) t := by
    rw [Reader.refuses_append]
    refine ⟨(begins_operator _ _).refuses_before equal ?_,
      (begins_operator _ _).refuses_of_notMem (c := '=') (w := ['=']) (by decide)⟩
    exact Reader.stops_cons.2 (by decide)
  exact (first ">=" .atLeast rfl (by decide) above).orElse <|
    (first "<=" .atMost rfl (by decide) below).orElse <|
    (first ">" .above rfl (by decide) above).orElse <|
    (first "<" .below rfl (by decide) below).orElse equals

/-- `contains` does not stand in a comparison if it stands on neither side. -/
theorem not_contains_comparison (h : operator ∈ operators) :
    ¬ containsWord <:+: left.text ++ ' ' :: (operator ++ ' ' :: right.text) := by
  have shape : left.text ++ ' ' :: (operator ++ ' ' :: right.text) =
      (left.text ++ [' ']) ++ (operator ++ ' ' :: right.text) := by simp
  have nonempty : operator ≠ [] := by
    rintro rfl
    exact absurd h (by decide)
  have apart : ∀ c ∈ operator, c ∉ containsWord := by
    simp only [operators, List.mem_cons, List.not_mem_nil, or_false] at h
    rcases h with rfl | rfl | rfl | rfl | rfl <;> exact Text.forall_mem_of_all rfl
  rw [shape, Text.infix_append_between nonempty apart, not_or]
  constructor
  · exact fun inside => left.noContains (inside.trans (List.suffix_cons _ _).isInfix)
  · exact fun inside => right.noContains (inside.trans (List.prefix_append _ [' ']).isInfix)

/-- **Comparisons.** A condition is cut at the operator between its sides, if the left one has no
operator. -/
theorem parse_comparison (h : operator ∈ operators) (below : '<' ∉ left.text)
    (above : '>' ∉ left.text) (equal : ¬ ("==" : Text) <:+: left.text) :
    parse (left.text ++ ' ' :: (operator ++ ' ' :: right.text)) =
      .compare (Expr.parse left.text) (.ofOperator operator) (Expr.parse right.text) := by
  have whole : Text.splitOn " contains " (left.text ++ ' ' :: (operator ++ ' ' :: right.text)) =
      [left.text ++ ' ' :: (operator ++ ' ' :: right.text)] :=
    Text.splitOn_of_not_infix (not_contains_comparison left right h)
  have cut : comparison? (left.text ++ ' ' :: (operator ++ ' ' :: right.text)) =
      some (left.text ++ [' '], .ofOperator operator, ' ' :: right.text) := by
    -- An operator is looked for behind the first character.
    obtain ⟨c, s, hs⟩ := List.exists_cons_of_ne_nil left.nonempty
    rw [hs] at below above equal ⊢
    have shape : s ++ ' ' :: (operator ++ ' ' :: right.text) =
        (s ++ [' ']) ++ (operator ++ ' ' :: right.text) := by simp
    have refused := refuses_anyOperator (List.not_mem_of_not_mem_cons below)
      (List.not_mem_of_not_mem_cons above)
      (fun hi => equal (hi.trans (List.suffix_cons c s).isInfix)) (operator ++ ' ' :: right.text)
    rw [List.cons_append, comparison?, shape,
      Reader.findFirst_append refused (reads_anyOperator h right.text)]
    rfl
  have trimLeft : Text.trim (left.text ++ [' ']) = left.text :=
    Text.trim_append (a := []) (by simp) left.trimmed left.nonempty (Text.forall_mem_of_all rfl)
  have trimRight : Text.trim (' ' :: right.text) = right.text :=
    (Text.trim_cons_blank (by decide) _).trans right.trimmed
  rw [parse, whole, cut]
  dsimp only
  rw [trimLeft, trimRight]

/-! ## Searches -/

/-- **Searches.** A condition is cut at the `contains` between its sides. -/
theorem parse_contains : parse (left.text ++ (containsWord ++ right.text)) =
    .contains (Expr.parse left.text) (Expr.parse right.text) := by
  have apart (t : Text) (ht : t <:+ left.text) (hne : t ≠ []) :
      ¬ containsWord <+: t ++ (containsWord ++ right.text) := by
    intro begins
    -- It would end with the first space behind the left side at the latest.
    have within : containsWord <+: t ++ [' '] :=
      Text.prefix_append_marked (w := "contains") (by decide) hne begins
    obtain ⟨r, hr⟩ := ht
    have ending : t ++ [' '] <:+ ' ' :: (left.text ++ [' ']) :=
      ⟨' ' :: r, by rw [← hr, List.append_assoc]; rfl⟩
    exact left.noContains (within.isInfix.trans ending.isInfix)
  have pieces : Text.splitOn " contains " (left.text ++ (containsWord ++ right.text)) =
      [left.text, right.text] := by
    have behind : ¬ containsWord <:+: right.text := fun inside =>
      right.noContains ((inside.trans (List.prefix_append _ [' ']).isInfix).trans
        (List.suffix_cons _ _).isInfix)
    rw [← Text.splitOn_of_not_infix behind]
    exact Text.splitOn_append (by decide) apart
  rw [parse, pieces]
  dsimp only
  rw [left.trimmed, right.trimmed]

end Condition

/-! ## What conditions evaluate to -/

/-- **Conditions as they are written.** A comparison, of which the left side has no operator, holds
if the values of its sides compare, and a search holds if the output form of the value of the right
side occurs in that of the left one. -/
theorem evaluateCondition_written (store : Store) (b : Bindings) (left right : Condition.Side) :
    (∀ operator ∈ Condition.operators, '<' ∉ left.text → '>' ∉ left.text →
      ¬ ("==" : Text) <:+: left.text →
      evaluateCondition store b (left.text ++ ' ' :: (operator ++ ' ' :: right.text)) = do
        let v ← evaluate store b left.text
        let w ← evaluate store b right.text
        v.compareBy (.ofOperator operator) w) ∧
    evaluateCondition store b (left.text ++ " contains " ++ right.text) = do
      let whole ← (← evaluate store b left.text).toText
      let part ← (← evaluate store b right.text).toText
      return decide (part <:+: whole) := by
  constructor
  · intro operator h below above equal
    rw [evaluateCondition, Condition.parse_comparison left right h below above equal]
    rfl
  · have occurs (whole part : Text) : decide (part <:+: whole) = Text.occursIn part whole := by
      rw [Bool.eq_iff_iff, decide_eq_true_iff, Text.occursIn_iff]
    simp only [occurs]
    rw [List.append_assoc, evaluateCondition]
    exact congrArg (Condition.holds store b) (Condition.parse_contains left right)

/-- A name. -/
def Condition.labelSide : Condition.Side where
  text := "label"
  nonempty := by decide
  trimmed := by decide
  noContains := Condition.not_contains_of_notMem (by decide) (by decide)

/-- The operator in the text on the right is not the one that compares. -/
theorem evaluateCondition_written_label :
    let b : Bindings := [("label", .str "a > 5")]
    evaluateCondition {} b "label == '> 5'" = .ok false ∧
      evaluateCondition {} b "label contains '> 5'" = .ok true := by
  intro b
  have name : evaluate {} b "label" = .ok (.str "a > 5") :=
    evaluate_name {} b (by decide +kernel)
  have quoted : evaluate {} b "'> 5'" = .ok (.str "> 5") :=
    evaluate_quoted {} b (q := '\x27') (s := "> 5") rfl (by decide)
  have noContains : ¬ Condition.containsWord <:+: "> 5" := by decide
  obtain ⟨compared, searched⟩ := evaluateCondition_written {} b
    Condition.labelSide (Condition.quotedSide (q := '\x27') (s := "> 5") rfl noContains)
  have equal : evaluateCondition {} b "label == '> 5'" = (do
      let v ← evaluate {} b "label"
      let w ← evaluate {} b "'> 5'"
      v.compareBy (.ofOperator "==") w) :=
    compared "==" (by decide) (by decide) (by decide) (by decide)
  have occurs : evaluateCondition {} b "label contains '> 5'" = (do
      let whole ← (← evaluate {} b "label").toText
      let part ← (← evaluate {} b "'> 5'").toText
      return decide (part <:+: whole)) := searched
  rw [equal, occurs, name, quoted]
  decide +kernel

end ThemeProps
