/-
  Comparisons: `a < b` is `b > a`, and whole numbers are compared as doubles.

  * `Evaluation.toOption_comm`: two evaluations may change places, but if both go
    wrong, the first one says how;
  * `looseEquals_comm` and `compareBy_flip`: hence the sides of an equality and of an
    order may change places;
  * `mirrored` is an operator read from the other side, and `compareBy_mirrored` puts
    this together for all operators;
  * `looseEquals_int`: whole numbers are compared as the doubles nearest to them, and
    `looseEquals_whole` says for which ones this is equality.
-/
import ThemeProps.Proofs.Decimal.Conversion
import ThemeProps.Value.Compare

namespace ThemeProps

/-! ## Two evaluations -/

/-- Two evaluations may change places: what is made of their values stays the same. -/
theorem Evaluation.toOption_comm {α β γ : Type} {x : Evaluation α} {y : Evaluation β}
    {f : α → β → Evaluation γ} {g : β → α → Evaluation γ}
    (h : ∀ a b, (f a b).toOption = (g b a).toOption) :
    (do let a ← x; let b ← y; f a b).toOption = (do let b ← y; let a ← x; g b a).toOption := by
  cases x with
  | ok a =>
    cases y with
    | ok b => exact h a b
    | error e => rfl
  | error e => cases y <;> rfl

/-! ## Equality -/

theorem Identity.same_comm (i j : Identity) : i.same j = j.same i := by
  by_cases h : i = j
  · rw [h]
  · rw [Identity.same, Identity.same, beq_false_of_ne h, beq_false_of_ne (Ne.symm h),
      Bool.and_false, Bool.and_false]

theorem Operand.equals_comm (a b : Operand) : (a.equals b).toOption = (b.equals a).toOption := by
  have numbers : (do let x ← a.toFloat; let y ← b.toFloat; return x == y).toOption =
      (do let y ← b.toFloat; let x ← a.toFloat; return y == x).toOption :=
    Evaluation.toOption_comm fun _ _ => congrArg some BEq.comm
  cases a with
  | text s =>
    cases b with
    | text t => exact congrArg some Bool.beq_comm
    | number n => exact numbers
  | number m => cases b <;> exact numbers

theorem Value.looseEquals_comm (v w : Value) :
    (v.looseEquals w).toOption = (w.looseEquals v).toOption := by
  have operands : (do (← v.operand).equals (← w.operand)).toOption =
      (do (← w.operand).equals (← v.operand)).toOption :=
    Evaluation.toOption_comm Operand.equals_comm
  cases v <;> cases w
  case list.list i xs j ys => exact congrArg some (i.same_comm j)
  case map.map i fs j gs => exact congrArg some (i.same_comm j)
  all_goals first
    | rfl
    | exact operands

/-! ## Order -/

theorem Comparison.holds_flip (c : Comparison) (x y : Float) :
    c.holds x y = c.flip.holds y x := by
  cases c with
  | equal => exact BEq.comm
  | unequal => exact congrArg not BEq.comm
  | _ => rfl

theorem Value.compareBy_flip (c : Comparison) (v w : Value) :
    (v.compareBy c w).toOption = (w.compareBy c.flip v).toOption := by
  have order : (do
      let x ← v.toNumber
      let y ← w.toNumber
      return !(x.isNaN || y.isNaN) && c.holds x y).toOption = (do
      let y ← w.toNumber
      let x ← v.toNumber
      return !(y.isNaN || x.isNaN) && c.flip.holds y x).toOption :=
    Evaluation.toOption_comm fun x y => by rw [Bool.or_comm, c.holds_flip]
  have unequal : (do return !(← v.looseEquals w)).toOption =
      (do return !(← w.looseEquals v)).toOption := by
    have equal := v.looseEquals_comm w
    generalize v.looseEquals w = x at equal ⊢
    generalize w.looseEquals v = y at equal ⊢
    cases x <;> cases y <;> cases equal <;> rfl
  cases c with
  | equal => exact v.looseEquals_comm w
  | unequal => exact unequal
  | _ => exact order

/-! ## Operators -/

/-- An operator read from the other side. -/
def mirrored (operator : Text) : Text :=
  if operator = "<" then ">"
  else if operator = ">" then "<"
  else if operator = "<=" then ">="
  else if operator = ">=" then "<="
  else operator

theorem Comparison.ofOperator_mirrored (operator : Text) :
    ofOperator (mirrored operator) = (ofOperator operator).flip := by
  unfold mirrored
  split_ifs with less greater atMost atLeast
  · rw [less]; rfl
  · rw [greater]; rfl
  · rw [atMost]; rfl
  · rw [atLeast]; rfl
  · simp only [ofOperator, less, greater, atMost, atLeast, if_false]
    split_ifs <;> rfl

/-- **Comparisons read the same from both sides.** With the operator read from the other side, the
sides of a comparison may change places: it goes wrong for the same values, and else it comes out
the same. -/
theorem Value.compareBy_mirrored (v w : Value) (operator : Text) :
    (v.compareBy (.ofOperator operator) w).toOption =
      (w.compareBy (.ofOperator (mirrored operator)) v).toOption := by
  rw [Comparison.ofOperator_mirrored]
  exact v.compareBy_flip _ w

/-! ## Whole numbers -/

section
variable {m n : Int}
open Double

theorem Double.beq_ofInt (hm : Fits m) (hn : Fits n) :
    (Float.ofInt m == Float.ofInt n) = decide (nearest m = nearest n) := by
  rw [Bool.eq_iff_iff, beq_iff, amount_ofInt, amount_ofInt, if_pos hm, if_pos hn,
    decide_eq_true_iff]
  simp [eq_comm]

theorem Number.toFloat_int (n : Int) :
    (int n).toFloat = if Fits n then .ok (Float.ofInt n) else .error .tooLarge := by
  rw [toFloat, roundInt?_eq]
  split_ifs <;> rfl

namespace Value

/-- Whole numbers are equal if the numbers of 53 bits nearest to them are. -/
theorem looseEquals_int (m n : Int) :
    (number (.int m)).looseEquals (.number (.int n)) =
      if Fits m ∧ Fits n then .ok (decide (nearest m = nearest n)) else .error .tooLarge := by
  show (do
    let x ← (Number.int m).toFloat
    let y ← (Number.int n).toFloat
    return x == y) = _
  rw [Number.toFloat_int, Number.toFloat_int]
  by_cases hm : Fits m
  · by_cases hn : Fits n
    · rw [if_pos hm, if_pos hn, if_pos (And.intro hm hn), ← beq_ofInt hm hn]
      rfl
    · rw [if_pos hm, if_neg hn, if_neg (mt And.right hn)]
      rfl
  · rw [if_neg hm, if_neg (mt And.left hm)]
    rfl

/-- Up to `2 ^ 53`, whole numbers are equal if they are the same. -/
theorem looseEquals_int_of_le (hm : m.natAbs ≤ 2 ^ 53) (hn : n.natAbs ≤ 2 ^ 53) :
    (number (.int m)).looseEquals (.number (.int n)) = .ok (decide (m = n)) := by
  rw [looseEquals_int, if_pos ⟨fits_of_le hm, fits_of_le hn⟩, nearest_of_le hm, nearest_of_le hn]

/-- **Whole numbers are compared as doubles.** They are equal if they round to the same 53 bits, and
there is no answer if one of them is too large for a double. So the answer tells whether they are
the same only if both fit and are not different numbers with the same 53 bits. -/
theorem looseEquals_whole (m n : Int) :
    ((number (.int m)).looseEquals (.number (.int n)) =
      if Fits m ∧ Fits n then .ok (decide (nearest m = nearest n)) else .error .tooLarge) ∧
    ((number (.int m)).looseEquals (.number (.int n)) = .ok (decide (m = n)) ↔
      Fits m ∧ Fits n ∧ (nearest m = nearest n → m = n)) := by
  refine ⟨looseEquals_int m n, ?_⟩
  rw [looseEquals_int]
  split_ifs with fits
  · have same : m = n → nearest m = nearest n := fun h => h ▸ rfl
    rw [Except.ok.injEq, decide_eq_decide]
    exact ⟨fun h => ⟨fits.1, fits.2, h.1⟩, fun h => ⟨h.2.2, same⟩⟩
  · exact iff_of_false nofun fun h => fits ⟨h.1, h.2.1⟩

/-- The first two whole numbers that are taken for the same. -/
theorem looseEquals_int_neighbours : ¬ ∀ m n : Int,
    (number (.int m)).looseEquals (.number (.int n)) = .ok (decide (m = n)) := by
  intro law
  have found := law (2 ^ 53) (2 ^ 53 + 1)
  have same : nearest (2 ^ 53) = nearest (2 ^ 53 + 1) := by decide +kernel
  rw [looseEquals_int, if_pos (by decide +kernel), same] at found
  exact absurd found (by decide)

end Value
end

end ThemeProps
