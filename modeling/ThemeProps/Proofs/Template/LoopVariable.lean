/-
  The loop variable in the body of a loop over the color schemes.

  Its settings become settings of `scheme` wherever they stand in the body, be it
  in an output or not.

  * `rename_append`: a text that does not mention them stays as it is;
  * `Renaming` says how a body reads without its outputs of settings, with them,
    and with them renamed; `Renaming.rename_eq`: if the settings stand nowhere but
    in their outputs, these are all that is renamed.
-/
import ThemeProps.Template.SchemeLoop
import ThemeProps.Proofs.Template.Tag

namespace ThemeProps.SchemeLoop

/-- The variable of a loop. -/
structure LoopVariable where
  text : Text
  nonempty : text ≠ []
  isWord : ∀ c ∈ text, Text.isWord c = true

/-- What stands in front of the path of a setting of the loop variable. -/
def LoopVariable.settings (name : LoopVariable) : Text := name.text ++ ".settings."

/-- The text with the settings of the loop variable renamed. -/
def rename (name s : Text) : Text := Reader.replaceEvery (renamedWord name) id s

variable {name : LoopVariable} {a b s : Text} {c : Char}

theorem LoopVariable.notMem (name : LoopVariable) (hc : Text.isWord c = false) :
    c ∉ name.text := by
  intro hm
  rw [name.isWord c hm] at hc
  cases hc

theorem LoopVariable.stops (name : LoopVariable) : Reader.Stops Text.isBlank name.text :=
  fun c hc => Text.isBlank_of_isWord (name.isWord c (List.mem_of_mem_head? hc))

theorem LoopVariable.settings_ne_nil (name : LoopVariable) : name.settings ≠ [] :=
  List.append_ne_nil_of_left_ne_nil name.nonempty _

theorem LoopVariable.stops_settings (name : LoopVariable) :
    Reader.Stops Text.isBlank name.settings := Reader.stops_append name.nonempty name.stops _

theorem isWordOrDot_of_mem_settings : ∀ c ∈ ".settings.".toList, Text.isWordOrDot c = true :=
  Text.forall_mem_of_all rfl

theorem LoopVariable.notMem_settings (name : LoopVariable) (hc : Text.isWordOrDot c = false) :
    c ∉ name.settings := by
  rw [settings, List.mem_append, not_or]
  refine ⟨name.notMem (Bool.or_eq_false_iff.1 hc).1, fun hm => ?_⟩
  rw [isWordOrDot_of_mem_settings c hm] at hc
  cases hc

theorem rename_nil (name : Text) : rename name [] = [] :=
  Reader.replaceEvery_of_refuses Reader.refuses_nil

theorem rename_cons {name : Text} (hc : Text.isWord c = false) (s : Text) :
    rename name (c :: s) = c :: rename name s := by
  have refused : Reader.Refuses (renamedWord name) [c] s :=
    Reader.refuses_cons.2
      ⟨Reader.bind_none (Reader.run1_none (Reader.stops_cons.2 hc)) _, Reader.refuses_nil⟩
  exact Reader.replaceEvery_append refused

/-- A word stays if it is not the loop variable in front of its settings. -/
theorem rename_word {w : Text} (hne : w ≠ []) (hw : ∀ c ∈ w, Text.isWord c = true)
    (hs : Reader.Stops Text.isWord s) (h : w = name.text → ¬ ".settings.".toList <+: s) :
    rename name.text (w ++ s) = w ++ rename name.text s := by
  have other : (do
      if w ≠ name.text then failure
      Reader.literal ".settings."
      return "scheme.settings." : Reader Text) s = none := by
    by_cases hn : w = name.text
    · rw [if_neg (not_not_intro hn)]
      exact Reader.bind_none (Reader.literal_eq_none.2 (h hn)) _
    · rw [if_pos hn]
      exact Reader.bind_none rfl _
  have read : renamedWord name.text (w ++ s) = some (w, s) := by
    rw [renamedWord, Reader.bind_of (Reader.reads_run1 hne hw hs)]
    exact Reader.orElse_none other
  exact Reader.replaceEvery_of_reads read hne

theorem rename_settings (name : LoopVariable) (s : Text) :
    rename name.text (name.settings ++ s) = "scheme.settings." ++ rename name.text s := by
  have stops : Reader.Stops Text.isWord (".settings." ++ s) := Reader.stops_cons.2 (by decide)
  have read : renamedWord name.text (name.settings ++ s) = some ("scheme.settings.".toList, s) := by
    rw [LoopVariable.settings, List.append_assoc, renamedWord,
      Reader.bind_of (Reader.reads_run1 name.nonempty name.isWord stops)]
    refine Reader.orElse_of ?_
    rw [if_neg (not_not_intro rfl)]
    exact Reader.bind_of (Reader.reads_literal _ s) _
  exact Reader.replaceEvery_of_reads read name.settings_ne_nil

/-- A text without the settings of the loop variable stays as it is, if what follows cannot complete
them. -/
theorem rename_append (ha : ¬ name.settings <:+: a) (hb : Reader.Stops Text.isWordOrDot b) :
    rename name.text (a ++ b) = a ++ rename name.text b := by
  -- word by word, on the length of the text
  induction hn : a.length using Nat.strong_induction_on generalizing a with
  | _ n ih =>
  cases a with
  | nil => rfl
  | cons c a =>
    cases hc : Text.isWord c with
    | false =>
      have behind : ¬ name.settings <:+: a := fun h => ha (h.trans (List.suffix_cons c a).isInfix)
      rw [List.cons_append, rename_cons hc, ih a.length (by simp [← hn]) behind rfl,
        List.cons_append]
    | true =>
      obtain ⟨w, u, he, hne, hw, hu⟩ : ∃ w u, c :: a = w ++ u ∧ w ≠ [] ∧
          (∀ c ∈ w, Text.isWord c = true) ∧ Reader.Stops Text.isWord u :=
        ⟨(c :: a).takeWhile Text.isWord, (c :: a).dropWhile Text.isWord,
          List.takeWhile_append_dropWhile.symm, by simp [hc], fun _ => List.mem_takeWhile_imp,
          Reader.stops_dropWhile⟩
      rw [he] at ha hn ⊢
      have behind : ¬ name.settings <:+: u := fun h => ha (h.trans (List.suffix_append w u).isInfix)
      have shorter : u.length < n := by
        rw [← hn, List.length_append]
        have := List.length_pos_iff.2 hne
        omega
      have stops : Reader.Stops Text.isWord (u ++ b) := by
        cases u with
        | nil => exact fun d hd => (Bool.or_eq_false_iff.1 (hb d hd)).1
        | cons d u => exact hu
      rw [List.append_assoc, rename_word hne hw stops ?_, ih u.length shorter behind rfl,
        List.append_assoc]
      -- what follows does not go on with the settings
      rintro rfl within
      have within : ".settings.".toList <+: u := by
        cases b with
        | nil => rwa [List.append_nil] at within
        | cons d b =>
          have outside : d ∉ ".settings.".toList := by
            intro hm
            rw [Reader.stops_cons, isWordOrDot_of_mem_settings d hm] at hb
            cases hb
          exact (Text.prefix_append_cons outside).1 within
      exact ha ((List.prefix_append_right_inj _).2 within).isInfix

/-! ## Bodies -/

/-- How a text reads without the settings of the loop variable in its outputs, with them, and with
them renamed. -/
inductive Renaming (name : LoopVariable) : Text → Text → Text → Prop where
  | nil : Renaming name [] [] []
  | text (t : Text) {bare source renamed : Text} (h : Renaming name bare source renamed) :
    Renaming name (t ++ bare) (t ++ source) (t ++ renamed)
  | setting (path : Text) {bare source renamed : Text} (h : Renaming name bare source renamed) :
    Renaming name (Tag.writeOutput path ++ bare)
      (Tag.writeOutput (name.settings ++ path) ++ source)
      (Tag.writeOutput ("scheme.settings." ++ path) ++ renamed)

namespace Renaming

variable {bare source renamed bare' source' renamed' : Text}

theorem append (h : Renaming name bare source renamed) (h' : Renaming name bare' source' renamed') :
    Renaming name (bare ++ bare') (source ++ source') (renamed ++ renamed') := by
  induction h with
  | nil => exact h'
  | text t h ih =>
    rw [List.append_assoc, List.append_assoc, List.append_assoc]
    exact ih.text t
  | setting path h ih =>
    rw [List.append_assoc, List.append_assoc, List.append_assoc]
    exact ih.setting path

/-- A text without outputs of settings reads the same. -/
theorem same (t : Text) : Renaming name t t t := by
  have text : Renaming name (t ++ []) (t ++ []) (t ++ []) := .text t .nil
  rwa [List.append_nil] at text

theorem output (path : Text) : Renaming name (Tag.writeOutput path)
    (Tag.writeOutput (name.settings ++ path)) (Tag.writeOutput ("scheme.settings." ++ path)) := by
  have setting : Renaming name _ _ _ := .setting path .nil
  rwa [List.append_nil, List.append_nil, List.append_nil] at setting

theorem flatMap {ι : Type} {f g k : ι → Text} (h : ∀ i, Renaming name (f i) (g i) (k i))
    (is : List ι) : Renaming name (is.flatMap f) (is.flatMap g) (is.flatMap k) := by
  induction is with
  | nil => exact .nil
  | cons i is ih => exact (h i).append ih

/-- If the settings of the loop variable stand nowhere but in their outputs, these are all that is
renamed. -/
theorem rename_eq (h : Renaming name bare source renamed) (hb : ¬ name.settings <:+: a ++ bare) :
    rename name.text (a ++ source) = a ++ renamed := by
  induction h generalizing a with
  | nil => rw [rename_append (by simpa using hb) Reader.stops_nil, rename_nil]
  | text t h ih =>
    rw [← List.append_assoc] at hb
    rw [← List.append_assoc, ih hb, List.append_assoc]
  | @setting path bare source renamed h ih =>
    have blank : ' ' ∉ name.settings := name.notMem_settings (by decide)
    have shown : a ++ (Tag.writeOutput path ++ bare) =
        (a ++ ['{', '{']) ++ ' ' :: (path ++ ' ' :: (['}', '}'] ++ bare)) := by
      rw [Tag.writeOutput_append]; simp
    rw [shown, Text.infix_append_cons blank, Text.infix_append_cons blank, not_or, not_or] at hb
    obtain ⟨before, within, behind⟩ := hb
    have written : a ++ (Tag.writeOutput (name.settings ++ path) ++ source) =
        (a ++ ['{', '{']) ++ ' ' :: (name.settings ++ (path ++ ' ' :: (['}', '}'] ++ source))) := by
      rw [Tag.writeOutput_append]; simp
    rw [written, rename_append before (Reader.stops_cons.2 (by decide)), rename_cons (by decide),
      rename_settings, rename_append within (Reader.stops_cons.2 (by decide)),
      rename_cons (by decide), ih behind, Tag.writeOutput_append]
    simp

end Renaming

end ThemeProps.SchemeLoop
