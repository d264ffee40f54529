/-
  Balanced texts and the bodies of rules.

  * `Balanced s`: whatever rules are open, the search for a closing brace passes
    over `s` as over a text without braces;
  * texts without braces are balanced, and so are balanced texts one after the
    other and a balanced text in braces;
  * `Balanced.body?`: a balanced text before a closing brace is the body.
-/
import ThemeProps.Stylesheet.Brace
import Mathlib.Data.List.Basic

namespace ThemeProps.Stylesheet

variable {a b : Text}

@[simp] theorem closingBrace?_open (depth : Nat) (s : Text) :
    closingBrace? depth ('{' :: s) = (closingBrace? (depth + 1) s).map (· + 1) := by
  rw [closingBrace?.eq_def]
  rfl

@[simp]
theorem closingBrace?_plain {c : Char} (ho : c ≠ '{') (hc : c ≠ '}') (depth : Nat) (s : Text) :
    closingBrace? depth (c :: s) = (closingBrace? depth s).map (· + 1) := by
  rw [closingBrace?.eq_def]
  simp only [if_neg ho, if_neg hc]

/-- Each rule that is opened in the text is closed in it, and no other is. -/
def Balanced (a : Text) : Prop :=
  ∀ depth s, closingBrace? depth (a ++ s) = (closingBrace? depth s).map (· + a.length)

@[simp] theorem balanced_nil : Balanced [] := by
  intro depth s
  simp

theorem balanced_of_notMem (ho : '{' ∉ a) (hc : '}' ∉ a) : Balanced a := by
  intro depth s
  induction a with
  | nil => simp
  | cons c a ih =>
    rw [List.mem_cons, not_or] at ho hc
    rw [List.cons_append, closingBrace?_plain (Ne.symm ho.1) (Ne.symm hc.1), ih ho.2 hc.2,
      Option.map_map]
    rfl

theorem Balanced.append (ha : Balanced a) (hb : Balanced b) : Balanced (a ++ b) := by
  intro depth s
  rw [List.append_assoc, ha, hb, Option.map_map, List.length_append]
  congr 1
  funext n
  simp only [Function.comp_apply]
  omega

theorem balanced_flatMap {ι : Type} {f : ι → Text} {is : List ι} (h : ∀ i ∈ is, Balanced (f i)) :
    Balanced (is.flatMap f) := by
  induction is with
  | nil => exact balanced_nil
  | cons i is ih =>
    rw [List.forall_mem_cons] at h
    exact h.1.append (ih h.2)

/-- A rule in braces is balanced if its body is. -/
theorem Balanced.block (h : Balanced a) : Balanced ('{' :: (a ++ ['}'])) := by
  intro depth s
  have closes : closingBrace? (depth + 1) ('}' :: s) = (closingBrace? depth s).map (· + 1) := rfl
  rw [List.cons_append, List.append_assoc, List.singleton_append, closingBrace?_open, h,
    closes, Option.map_map, Option.map_map]
  congr 1
  funext n
  simp only [Function.comp_apply, List.length_cons, List.length_append, List.length_nil]
  omega

/-- A balanced text before a closing brace is the body of the rule. -/
theorem Balanced.body? (h : Balanced a) (s : Text) :
    Stylesheet.body? (a ++ '}' :: s) = some a := by
  have closes : closingBrace? 0 ('}' :: s) = some 1 := rfl
  have offset : 1 + a.length - 1 = a.length := by omega
  rw [Stylesheet.body?, h, closes, Option.map_some, Option.map_some, offset, List.take_left]

end ThemeProps.Stylesheet
