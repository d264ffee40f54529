/-
  Filling a setting in, and echoing it.

  The stage that fills settings in and the expressions of statement blocks both
  write settings.

  * `Value.IsScalar`: texts, numbers and truth values, which both of them write
    alike;
  * `accessor?_eq_none`: a path that does not end in `.rgb` or `.rgba` is looked up
    as it is;
  * `fillSettings_eq_evaluate`: an output of a setting shows the value of the
    expression in it, with and without a suffix.
-/
import ThemeProps.Proofs.Expr.Parse
import ThemeProps.Proofs.Template.Stage

namespace ThemeProps

/-! ## Values -/

/-- A text, a number or a truth value. -/
def Value.IsScalar : Value → Prop
  | .str _ | .number _ | .bool _ => True
  | _ => False

theorem Value.IsScalar.format_eq {v : Value} (h : v.IsScalar) : v.format = v.toText := by
  cases v with
  | str s => rfl
  | number n => rfl
  | bool b => rfl
  | null => exact h.elim
  | list id items => exact h.elim
  | map id fields => exact h.elim

/-! ## Settings -/

variable {store : Store} {path : DottedPath}

/-- A path without a color accessor is looked up as it is. -/
theorem accessor?_eq_none (rgb : ¬ (".rgb" : Text) <:+ path.text)
    (rgba : ¬ (".rgba" : Text) <:+ path.text) : accessor? path.text = none := by
  have written {first last : Text} {more : List Text}
      (h : path.names.reverse = last :: first :: more) : '.' :: last <:+ path.text := by
    have names : path.names = (first :: more).reverse ++ [last] := by
      rw [← List.reverse_cons, ← h, List.reverse_reverse]
    rw [DottedPath.text, names, Text.join_append _ (by simp) (by simp)]
    exact ⟨Text.join "." (first :: more).reverse, by rw [List.append_assoc]; rfl⟩
  rw [accessor?, path.splitAtChar_text]
  split
  · next last first more h =>
    have ending := written h
    refine if_neg ?_
    rintro (rfl | rfl)
    · exact rgb ending
    · exact rgba ending
  · rfl

/-- A setting without a color accessor is written in its output form. -/
theorem renderSetting_eq (plain : accessor? path.text = none)
    (scalar : (store.get path.text).IsScalar) :
    store.renderSetting path.text = (store.get path.text).toText := by
  have rendered : store.renderSetting path.text = (store.get path.text).format := by
    rw [Store.renderSetting, renderSettingBy, plain]
    cases h : store.get path.text with
    | null =>
      rw [h] at scalar
      exact scalar.elim
    | _ => simp [renderPlainBy, h]
  rw [rendered, scalar.format_eq]

theorem getOrEmpty_eq (scalar : (store.get path.text).IsScalar) :
    store.getOrEmpty path.text = store.get path.text :=
  Store.getOrEmpty_of_present fun absent => by
    rw [absent] at scalar
    exact scalar.elim

/-- **Filling in and echoing.** If a setting is a text, a number or a truth value and its path does
not end in a color accessor, the stage that fills settings in writes for its output what the
expression in the output evaluates to, under any bindings. The same holds with a quoted text
appended, which is written whenever the setting is. -/
theorem fillSettings_eq_evaluate (b : Bindings) (scalar : (store.get path.text).IsScalar)
    (rgb : ¬ (".rgb" : Text) <:+ path.text) (rgba : ¬ (".rgba" : Text) <:+ path.text) :
    (∃ v, evaluate store b ("settings." ++ path.text) = .ok v ∧
      Template.fillSettings store ("\x7b\x7b settings." ++ path.text ++ " \x7d\x7d") = v.toText) ∧
    ∀ t : Text, t ≠ [] → '\x27' ∉ t → '"' ∉ t →
      let filled := Template.fillSettings store
        ("\x7b\x7b settings." ++ path.text ++ " | append: '" ++ t ++ "' \x7d\x7d")
      filled = (do
        (← evaluate store b ("settings." ++ path.text ++ " | append: '" ++ t ++ "'")).toText) ∧
      ∀ s, (store.get path.text).toText = .ok s → filled = .ok (s ++ t) := by
  have rendered := renderSetting_eq (accessor?_eq_none rgb rgba) scalar
  refine ⟨⟨_, evaluate_setting store b path, ?_⟩, fun t ht single double => ?_⟩
  · have filled := Template.fillSettings_output store path.text_ne_nil path.isWordOrDot_text []
    rw [List.append_nil, Template.fillSettings_nil, rendered, ← getOrEmpty_eq scalar] at filled
    simpa only [Evaluation.ok_bind, List.append_nil, bind_pure] using filled
  · have echoed := evaluate_setting_append store b path (q := '\x27') rfl single
    have filled := Template.fillSettings_suffixOutput store path.text_ne_nil path.isWordOrDot_text
      ht single double []
    rw [List.append_nil, Template.fillSettings_nil, rendered] at filled
    simp only [Evaluation.ok_bind, List.append_nil] at filled
    have shape : "settings." ++ path.text ++ " | append: '" ++ t ++ "'" =
        "settings." ++ path.text ++ " | append: " ++ '\x27' :: (t ++ ['\x27']) := by simp
    refine ⟨?_, fun s hs => ?_⟩
    · rw [shape, echoed, getOrEmpty_eq scalar, filled, bind_assoc]
      rfl
    · rw [filled, hs]
      rfl

/-- A store with a gap. -/
def gapStore : Store := ⟨[("layout", .map .fresh [("gap", .str "8px")])], []⟩

/-- The path of the gap. -/
def gapPath : DottedPath where
  names := ["layout", "gap"]
  nonempty := by decide
  isName := List.forall_mem_cons.2 ⟨⟨by decide, Text.forall_mem_of_all rfl⟩,
    List.forall_mem_singleton.2 ⟨by decide, Text.forall_mem_of_all rfl⟩⟩

/-- Pipes, braces and a backslash at the end are a part of the quoted text. -/
theorem fillSettings_eq_evaluate_gap :
    let filled := Template.fillSettings gapStore
      "\x7b\x7b settings.layout.gap | append: ' | \x7d\x7d\\' \x7d\x7d"
    filled = (do
      (← evaluate gapStore [] "settings.layout.gap | append: ' | \x7d\x7d\\'").toText) ∧
    filled = .ok "8px | \x7d\x7d\\" := by
  have expression : "settings." ++ gapPath.text ++ " | append: '" ++ " | \x7d\x7d\\" ++ "'" =
      "settings.layout.gap | append: ' | \x7d\x7d\\'" := by decide +kernel
  have output : "\x7b\x7b settings." ++ gapPath.text ++ " | append: '" ++ " | \x7d\x7d\\" ++
      "' \x7d\x7d" = "\x7b\x7b settings.layout.gap | append: ' | \x7d\x7d\\' \x7d\x7d" := by
    decide +kernel
  have setting : gapStore.get gapPath.text = .str "8px" := rfl
  have scalar : (gapStore.get gapPath.text).IsScalar := by
    rw [setting]
    trivial
  rw [← expression, ← output]
  obtain ⟨echoed, written⟩ := (fillSettings_eq_evaluate [] scalar (by decide) (by decide)).2
    " | \x7d\x7d\\" (by decide) (by decide) (by decide)
  exact ⟨echoed, written "8px" rfl⟩

end ThemeProps
