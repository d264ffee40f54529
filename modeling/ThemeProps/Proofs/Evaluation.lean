/-
  Evaluations that go well, and what they give.

  * `ok_bind`, `error_bind` and `ok_map` run an evaluation whose outcome is
    known, and `bind_eq_ok` takes one apart that goes well;
  * `Gives p x`: whatever the evaluation gives has the property, so nothing is
    asked of one that goes wrong. It is closed under `do`.
-/
import ThemeProps.Evaluation
import Mathlib.Tactic.Common

namespace ThemeProps

namespace Evaluation

variable {α β : Type}

@[simp] theorem pure_eq_ok (a : α) : (pure a : Evaluation α) = .ok a := rfl

@[simp] theorem ok_bind (a : α) (f : α → Evaluation β) : (Except.ok a >>= f) = f a := rfl

@[simp] theorem error_bind (e : EvalError) (f : α → Evaluation β) :
    (Except.error e >>= f) = Except.error e := rfl

@[simp] theorem bind_ok (x : Evaluation α) : (x >>= Except.ok) = x := bind_pure x

@[simp] theorem ok_map (f : α → β) (a : α) :
    (f <$> (Except.ok a : Evaluation α)) = Except.ok (f a) := rfl

/-- A step followed by another goes well iff both do. -/
theorem bind_eq_ok {x : Evaluation α} {f : α → Evaluation β} {b : β} :
    (x >>= f) = .ok b ↔ ∃ a, x = .ok a ∧ f a = .ok b := by
  cases x with
  | error e => simp
  | ok a => simp

end Evaluation

/-- Whatever result the evaluation gives has the property. -/
def Gives {α : Type} (p : α → Prop) (x : Evaluation α) : Prop := ∀ a, x = .ok a → p a

namespace Gives

variable {α β : Type} {p : α → Prop} {q : β → Prop} {x : Evaluation α}

theorem ok {a : α} (h : p a) : Gives p (.ok a) := by
  rintro _ ⟨⟩
  exact h

theorem error (e : EvalError) : Gives p (.error e) := by
  rintro _ ⟨⟩

theorem any (x : Evaluation α) : Gives (fun _ => True) x := fun _ _ => trivial

theorem bind {f : α → Evaluation β} (hx : Gives p x) (hf : ∀ a, p a → Gives q (f a)) :
    Gives q (x >>= f) := by
  intro b hb
  obtain ⟨a, ha, hb⟩ := Evaluation.bind_eq_ok.1 hb
  exact hf a (hx a ha) b hb

end Gives

end ThemeProps
