/-
  Replacing a text, and cutting at it.

  * `Filter.parse_split` and `Filter.parse_replace`: the filters with quoted
    arguments, whatever stands between the quote marks but other quote marks;
  * `applyFilter_split` and `applyFilter_replace`: what they make of a value;
  * `replace_eq_join_split`: to replace a text is to cut at it and to put the
    pieces together with the other text.
-/
import ThemeProps.Proofs.Expr.Parse
import ThemeProps.Proofs.Text.Split

namespace ThemeProps

/-- A text in single quote marks. -/
def Text.inMarks (s : Text) : Text := '\x27' :: (s ++ ['\x27'])

namespace Filter

variable {s t : Text}

theorem stops_inMarks (s : Text) : Reader.Stops Text.isBlank s.inMarks := Reader.stops_cons.2 rfl

theorem dropOuterQuotes_inMarks (s : Text) : dropOuterQuotes s.inMarks = s := by
  have inner : (s ++ ['\x27']).reverse = '\x27' :: s.reverse := by
    rw [List.reverse_append, List.reverse_singleton, List.singleton_append]
  have mark : Text.isQuoteMark '\x27' = true := rfl
  unfold dropOuterQuotes Text.inMarks
  simp only [mark, if_true, inner]
  exact List.reverse_reverse s

theorem parse_split (s : Text) : Filter.parse ("split: " ++ s.inMarks) = .split s := by
  have called : call? ("split: " ++ s.inMarks) = some (("split" : Text), some s.inMarks) :=
    call?_argument "split" (by decide) (Text.forall_mem_of_all rfl) (List.cons_ne_nil _ _)
      (stops_inMarks s)
  rw [Filter.parse, called]
  show split (dropOuterQuotes s.inMarks) = _
  rw [dropOuterQuotes_inMarks]

/-- A quoted text, and another argument behind it. -/
theorem reads_replaceArguments (hs : ∀ c ∈ s, Text.isQuoteMark c = false) :
    replaceArguments.readAll? (s.inMarks ++ ", " ++ t) = some (s, Text.trim t) := by
  have shape : s.inMarks ++ ", " ++ t = '\x27' :: (s ++ '\x27' :: ',' :: ' ' :: t) := by
    simp [Text.inMarks]
  have mark (a : Text) : Reader.satisfy Text.isQuoteMark ('\x27' :: a) = some ('\x27', a) := rfl
  have inner : Reader.run (fun c => !Text.isQuoteMark c) (s ++ '\x27' :: ',' :: ' ' :: t) =
      some (s, '\x27' :: ',' :: ' ' :: t) :=
    Reader.reads_run (by simpa using hs) (Reader.stops_cons.2 rfl)
  have noBlank : Reader.blanks (',' :: ' ' :: t) = some ((), ',' :: ' ' :: t) :=
    Reader.reads_blanks_append (s := []) (by simp) (Reader.stops_cons.2 rfl)
  have whole : replaceArguments (s.inMarks ++ ", " ++ t) = some ((s, Text.trim t), []) := by
    rw [shape, replaceArguments, Reader.bind_of (mark _), Reader.bind_of inner,
      Reader.bind_of (mark _), Reader.bind_of noBlank, Reader.bind_of (Reader.reads_char ',' _),
      Reader.bind_of (show Reader.rest (' ' :: t) = some (' ' :: t, []) from rfl)]
    rw [if_neg (List.cons_ne_nil _ _), Text.trim_cons_blank rfl]
    rfl
  rw [Reader.readAll?, whole]

theorem parse_replace (hs : ∀ c ∈ s, Text.isQuoteMark c = false) (trimmed : Text.trim t = t) :
    Filter.parse ("replace: " ++ (s.inMarks ++ ", " ++ t)) = .replace s t t := by
  have called : call? ("replace: " ++ (s.inMarks ++ ", " ++ t)) =
      some (("replace" : Text), some (s.inMarks ++ ", " ++ t)) :=
    call?_argument "replace" (by decide) (Text.forall_mem_of_all rfl) (List.cons_ne_nil _ _)
      (Reader.stops_cons.2 rfl)
  have read : (some (s.inMarks ++ ", " ++ t)).bind replaceArguments.readAll? = some (s, t) := by
    rw [Option.bind_some, reads_replaceArguments hs, trimmed]
  rw [Filter.parse, called]
  dsimp only
  rw [if_neg (by decide), if_pos rfl, read]

end Filter

section
variable (store : Store) (b : Bindings) (v : Value) {s r : Text}

/-- A filter whose argument ends with a quote mark is trimmed. -/
theorem trim_append_inMarks (name s : Text) (start : Reader.Stops Text.isBlank name)
    (hne : name ≠ []) :
    Text.trim (name ++ s.inMarks) = name ++ s.inMarks := by
  refine Text.trim_eq_self (Reader.stops_append hne start _) ?_
  rw [Text.inMarks, ← List.cons_append, List.reverse_append, List.reverse_append]
  exact Reader.stops_cons.2 rfl

theorem applyFilter_split (hs : s ≠ []) :
    applyFilter store b ("split: " ++ s.inMarks) v =
      do return .list .fresh ((Text.splitOn s (← v.toText)).map .str) := by
  have trimmed : Text.trim ("split: " ++ s.inMarks) = "split: " ++ s.inMarks :=
    trim_append_inMarks "split: " s (by decide) (by decide)
  rw [applyFilter, trimmed, Filter.parse_split]
  show v.splitText s = _
  simp only [Value.splitText, if_neg hs]

theorem applyFilter_replace (hs : s ≠ []) (noQuote : ∀ c ∈ s, Text.isQuoteMark c = false)
    (hr : ∀ c ∈ r, Text.isQuoteMark c = false) :
    applyFilter store b ("replace: " ++ (s.inMarks ++ ", " ++ r.inMarks)) v =
      do return .str (Text.join r (Text.splitOn s (← v.toText))) := by
  have noMark : '\x27' ∉ r := fun mem => by cases hr _ mem
  have parsed : Expr.parse r.inMarks = .chain (.quoted r) [] := Expr.parse_quoted rfl noMark
  have differ : r ≠ r.inMarks := fun same => by
    have longer := congrArg List.length same
    simp only [Text.inMarks, List.length_cons, List.length_append, List.length_nil] at longer
    omega
  have replacement : replacementValue r.inMarks (.str r) = .str r := if_neg fun h => differ h.1
  have trimmed : Text.trim ("replace: " ++ (s.inMarks ++ ", " ++ r.inMarks)) =
      "replace: " ++ (s.inMarks ++ ", " ++ r.inMarks) := by
    have ends := trim_append_inMarks ("replace: " ++ s.inMarks ++ ", ") r (Reader.stops_cons.2 rfl)
      (List.cons_ne_nil _ _)
    simpa only [List.append_assoc] using ends
  have argument : Text.trim r.inMarks = r.inMarks := Text.trim_quoted rfl r
  rw [applyFilter, trimmed, Filter.parse_replace noQuote argument, Filter.map, parsed, evalFilter,
    Expr.eval, evalBase]
  show v.replaceText s (replacementValue r.inMarks (.str r)) = _
  simp only [replacement, Value.replaceText, Value.toText, Evaluation.ok_bind, Text.replaceAll,
    if_neg hs, Text.replaceEvery_literal hs]

/-- **To replace is to cut and to put together.** With a text to look for that is not empty and a
replacement, both without quote marks, the filter `replace` gives the pieces that the filter `split`
makes, with the replacement between them. With the text itself between them they are the output
form of the value, and none of them contains it. -/
theorem replace_eq_join_split (hs : s ≠ []) (noQuote : ∀ c ∈ s, Text.isQuoteMark c = false)
    (hr : ∀ c ∈ r, Text.isQuoteMark c = false) :
    ∃ pieces : Evaluation (List Text),
      applyFilter store b ("split: '" ++ s ++ "'") v =
        (do return .list .fresh ((← pieces).map .str)) ∧
      applyFilter store b ("replace: '" ++ s ++ "', '" ++ r ++ "'") v =
        (do return .str (Text.join r (← pieces))) ∧
      (do return Text.join s (← pieces)) = v.toText ∧ Gives (∀ p ∈ ·, ¬ s <:+: p) pieces := by
  have splitFilter : ("split: '" ++ s ++ "'" : Text) = "split: " ++ s.inMarks := by
    simp [Text.inMarks]
  have replaceFilter : ("replace: '" ++ s ++ "', '" ++ r ++ "'" : Text) =
      "replace: " ++ (s.inMarks ++ ", " ++ r.inMarks) := by
    simp [Text.inMarks]
  refine ⟨do return Text.splitOn s (← v.toText), ?_, ?_, ?_, ?_⟩
  · rw [splitFilter, applyFilter_split store b v hs, bind_assoc]
    rfl
  · rw [replaceFilter, applyFilter_replace store b v hs noQuote hr, bind_assoc]
    rfl
  · simp only [bind_assoc, pure_bind, Text.join_splitOn hs, bind_pure]
  · exact (Gives.any _).bind fun text _ => .ok (Text.not_infix_of_mem_splitOn hs text)

end

/-- The first of two overlapping occurrences is replaced, and nothing in either text has a meaning
of its own. -/
theorem replace_eq_join_split_overlap :
    ∃ pieces : List Text,
      applyFilter {} [] "split: '.|.'" (.str "a.|.|.b") =
        .ok (.list .fresh (pieces.map .str)) ∧
      applyFilter {} [] "replace: '.|.', '\\0, '" (.str "a.|.|.b") =
        .ok (.str (Text.join "\\0, " pieces)) ∧
      Text.join ".|." pieces = "a.|.|.b".toList ∧ ∀ p ∈ pieces, ¬ ".|.".toList <:+: p := by
  obtain ⟨pieces, cut, replaced, joined, apart⟩ := replace_eq_join_split {} [] (.str "a.|.|.b")
    (s := ".|.".toList) (r := "\\0, ".toList)
    (by decide) (Text.forall_mem_of_all rfl) (Text.forall_mem_of_all rfl)
  obtain ⟨found, rfl, rest⟩ := Evaluation.bind_eq_ok.1 joined
  exact ⟨found, cut, replaced, Except.ok.inj rest, apart found rfl⟩

end ThemeProps
