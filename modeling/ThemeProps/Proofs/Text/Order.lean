/-
  The order of texts, which is that of lists of characters.
-/
import ThemeProps.Text.Basic
import Mathlib.Data.List.Basic
import Mathlib.Tactic.Common

namespace ThemeProps.Text

theorem compare_eq (s t : Text) : compare s t = Ord.compare s t := by
  show _ = List.compareLex Ord.compare s t
  induction s generalizing t with
  | nil => cases t <;> rfl
  | cons c s ih =>
    cases t with
    | nil => rfl
    | cons d t =>
      rw [compare, List.compareLex_cons_cons, ih]
      show _ = (compareOfLessAndEq c d).then _
      unfold compareOfLessAndEq
      by_cases less : c < d
      · rw [if_pos less, if_pos (show c.toNat < d.toNat from less)]
        rfl
      · rw [if_neg less, if_neg (show ¬ c.toNat < d.toNat from less)]
        by_cases same : c = d
        · subst same
          rw [if_pos rfl, if_neg (Nat.lt_irrefl _)]
          rfl
        · have notLess : ¬ c.toNat < d.toNat := less
          have differ : c.toNat ≠ d.toNat := fun h => same (Char.toNat_inj.1 h)
          rw [if_neg same, if_pos (by omega)]
          rfl

@[simp, grind =] theorem compare_eq_lt {s t : Text} : compare s t = .lt ↔ s < t := by
  induction s generalizing t with
  | nil => cases t <;> simp [compare]
  | cons c s ih =>
    cases t with
    | nil => simp [compare]
    | cons d t =>
      have order : c < d ↔ c.toNat < d.toNat := Iff.rfl
      have same : c = d ↔ c.toNat = d.toNat := Char.toNat_inj.symm
      rw [compare, List.cons_lt_cons_iff, order, same, ← ih]
      split_ifs with less greater
      · exact iff_of_true rfl (.inl less)
      · exact iff_of_false nofun (by omega)
      · rw [or_iff_right less, and_iff_right (by omega)]

end ThemeProps.Text
