/-
  The brace that closes a rule, and rules that none closes.

  * `Closes s start stop`: by the counts of the braces, the one right before `stop`
    closes the rule whose body starts at `start`;
  * `findMatchingBrace_closes`: the search finds the only such brace, and it
    finds none exactly if the rest of the text closes no rule around it;
  * `bodiesOf_of_unclosed`: a rule without a closing brace is passed over;
  * `rootDeclarations_unclosed`: an unclosed `:root` rule in front of other rules
    takes nothing from them.
-/
import ThemeProps.Stylesheet.Region
import ThemeProps.Proofs.Stylesheet.Extent

namespace ThemeProps.Stylesheet

variable {a b r s t : Text} {start stop : Nat}

/-! ## The closing brace -/

/-- The brace right before `stop` closes the rule whose body starts at `start`: each brace that
closes between the two answers one that opens there, and each one that opens is answered. -/
structure Closes (s : Text) (start stop : Nat) : Prop where
  start_lt : start < stop
  le_length : stop ≤ s.length
  brace : s[stop - 1]? = some '}'
  within : Within 0 (s.extract start (stop - 1))
  balance : (s.extract start (stop - 1)).count '}' = (s.extract start (stop - 1)).count '{'

/-- The body of a closed rule, its closing brace, and the text behind it. -/
theorem Closes.drop_eq (h : Closes s start stop) :
    s.drop start = s.extract start (stop - 1) ++ '}' :: s.drop stop := by
  have lt := h.start_lt
  have behind : stop - 1 + 1 = stop := by omega
  have offset : start + (stop - 1 - start) = stop - 1 := by omega
  obtain ⟨inside, brace⟩ := List.getElem?_eq_some_iff.1 h.brace
  have rest : '}' :: s.drop stop = s.drop (stop - 1) := by
    rw [List.drop_eq_getElem_cons inside, brace, behind]
  calc s.drop start
      = (s.drop start).take (stop - 1 - start) ++ (s.drop start).drop (stop - 1 - start) :=
        (List.take_append_drop _ _).symm
    _ = s.extract start (stop - 1) ++ '}' :: s.drop stop := by
        rw [List.drop_drop, offset, rest, List.extract_eq_take_drop]

theorem extract_of_drop (h : s.drop start = a ++ '}' :: r) :
    s.extract start (start + (a.length + 1) - 1) = a := by
  have size : start + (a.length + 1) - 1 - start = a.length := by omega
  rw [List.extract_eq_take_drop, size, h, List.take_left]

/-- A closing brace, with the body in front of it. -/
theorem closes_iff :
    Closes s start stop ↔ ∃ a r, s.drop start = a ++ '}' :: r ∧ stop = start + (a.length + 1) ∧
      Within 0 a ∧ a.count '}' = a.count '{' := by
  constructor
  · intro h
    have lt := h.start_lt
    have le := h.le_length
    refine ⟨_, _, h.drop_eq, ?_, h.within, h.balance⟩
    rw [List.extract_eq_take_drop, List.length_take, List.length_drop]
    omega
  · rintro ⟨a, r, whole, rfl, within, balance⟩
    have size := congrArg List.length whole
    rw [List.length_drop, List.length_append, List.length_cons] at size
    have offset : start + (a.length + 1) - 1 = start + a.length := by omega
    refine ⟨by omega, by omega, ?_, ?_, ?_⟩
    · rw [offset, ← List.getElem?_drop, whole, List.getElem?_append_right (Nat.le_refl _),
        Nat.sub_self, List.getElem?_cons_zero]
    · rwa [extract_of_drop whole]
    · rwa [extract_of_drop whole]

/-- Behind a balanced text the closing brace is next, so a longer text in front of a closing brace
does not begin with it, unless that closes a rule around it. -/
theorem eq_nil_of_closing (balance : a.count '}' = a.count '{') (within : Within 0 (a ++ b))
    (h : '}' :: r = b ++ '}' :: t) : b = [] := by
  cases b with
  | nil => rfl
  | cons c b =>
    obtain ⟨rfl, -⟩ := List.cons.inj h
    have closed : a ++ ['}'] <+: a ++ '}' :: b := ⟨b, by simp⟩
    exact absurd within (not_within balance closed)

/-- There is one closing brace at most. -/
theorem Closes.unique {stop' : Nat} (h : Closes s start stop) (h' : Closes s start stop') :
    stop' = stop := by
  obtain ⟨a, r, whole, rfl, within, balance⟩ := closes_iff.1 h
  obtain ⟨b, t, whole', rfl, within', balance'⟩ := closes_iff.1 h'
  -- One of the two bodies begins with the other one.
  rcases List.append_eq_append_iff.1 (whole.symm.trans whole') with ⟨c, rfl, hc⟩ | ⟨c, rfl, hc⟩
  · rw [eq_nil_of_closing balance within' hc, List.append_nil]
  · rw [eq_nil_of_closing balance' within hc, List.append_nil]

theorem Closes.not_within (h : Closes s start stop) : ¬ Within 0 (s.drop start) := by
  obtain ⟨a, r, whole, -, -, balance⟩ := closes_iff.1 h
  exact Stylesheet.not_within balance ⟨r, by rw [whole]; simp⟩

theorem findMatchingBrace_eq_none : findMatchingBrace s start = none ↔ Within 0 (s.drop start) :=
  Option.map_eq_none_iff.trans closingBrace?_eq_none

theorem closes_of_findMatchingBrace (h : findMatchingBrace s start = some stop) :
    Closes s start stop := by
  obtain ⟨n, found, rfl⟩ := Option.map_eq_some_iff.1 h
  obtain ⟨a, r, whole, rfl, closed, balance⟩ := closingBrace?_eq_some found
  exact closes_iff.2 ⟨a, r, whole, rfl, closingBrace?_eq_none.1 closed, balance⟩

theorem Closes.findMatchingBrace (h : Closes s start stop) :
    findMatchingBrace s start = some stop := by
  -- The search finds some closing brace, and there is only one.
  have closed := h.not_within
  rw [← findMatchingBrace_eq_none] at closed
  obtain ⟨stop', found⟩ := Option.ne_none_iff_exists'.1 closed
  rw [found, h.unique (closes_of_findMatchingBrace found)]

/-- **The closing brace is found exactly.** The search gives the offset behind the only brace that
closes the rule. It fails exactly if no brace does, and that is so exactly if no part in front of
the rest of the text has more closing braces than opening ones. -/
theorem findMatchingBrace_closes (s : Text) (start : Nat) :
    (∀ stop, findMatchingBrace s start = some stop ↔
      Closes s start stop ∧ ∀ other, Closes s start other → other = stop) ∧
    (findMatchingBrace s start = none ↔ ¬ ∃ stop, Closes s start stop) ∧
    (findMatchingBrace s start = none ↔ Within 0 (s.drop start)) := by
  refine ⟨fun stop => ?_, ?_, findMatchingBrace_eq_none⟩
  · constructor
    · intro h
      have closes := closes_of_findMatchingBrace h
      exact ⟨closes, fun other => closes.unique⟩
    · exact fun h => h.1.findMatchingBrace
  · rw [Option.eq_none_iff_forall_ne_some, not_exists]
    exact forall_congr' fun stop =>
      not_congr ⟨closes_of_findMatchingBrace, Closes.findMatchingBrace⟩

example : findMatchingBrace "a \x7b b \x7b \x7d \x7d c" 3 = some 11 := by decide

/-! ## Rules without a closing brace -/

theorem body?_eq_none : body? s = none ↔ Within 0 s :=
  Option.map_eq_none_iff.trans closingBrace?_eq_none

section
variable {α : Type} {opening : Reader α} {w : Text} {v : α}

/-- A rule that is not closed is passed over with its opening alone. -/
theorem bodiesOf_of_unclosed (h : opening (w ++ r) = some (v, r)) (hw : w ≠ [])
    (hr : Within 0 r) : bodiesOf opening (w ++ r) = bodiesOf opening r := by
  rw [bodiesOf, openings_of_reads h hw]
  simp only [List.filterMap_cons, body?_eq_none.2 hr, Option.map_none, bodiesOf]

end

/-- Where `:root` does not stand in a line, no rule opens in it. -/
theorem refuses_rootOpening_line (hroot : ¬ rootMarker <:+: a) (b : Text) :
    Reader.Refuses rootOpening (a ++ ['\n']) b := by
  refine Reader.refuses_append.2 ⟨begins_rootOpening.refuses_before hroot ?_, ?_⟩
  · exact Reader.stops_cons.2 (by decide)
  · exact begins_rootOpening.refuses_of_notMem (by decide)

/-- **An unclosed `:root` rule costs only itself.** In front of a text that closes no rule around
it, such as any with balanced braces, a `:root` rule that is opened and not closed changes no
declaration: those of the text are made, in the same order, and no others. -/
theorem rootDeclarations_unclosed {d r : Text} (ho : '{' ∉ d) (hc : '}' ∉ d)
    (hroot : ¬ rootMarker <:+: d) (hr : Within 0 r) (file : Text) :
    rootDeclarations file (":root \x7b" ++ d ++ '\n' :: r) = rootDeclarations file r := by
  have blank : ∀ c ∈ (" " : Text), Text.isBlank c = true := Text.forall_mem_of_all rfl
  have opened (s : Text) : rootOpening (":root \x7b" ++ s) = some ((), s) :=
    reads_rootOpening blank s
  have line : '{' ∉ d ++ ['\n'] ∧ '}' ∉ d ++ ['\n'] := by simp [ho, hc]
  have unclosed : Within 0 (d ++ ['\n'] ++ r) := by
    rw [← closingBrace?_eq_none, balanced_of_notMem line.1 line.2, closingBrace?_eq_none.2 hr]
    rfl
  have shape : ":root \x7b" ++ d ++ '\n' :: r = ":root \x7b" ++ (d ++ ['\n'] ++ r) := by simp
  have bodies : bodiesOf rootOpening (":root \x7b" ++ d ++ '\n' :: r) = bodiesOf rootOpening r := by
    rw [shape, bodiesOf_of_unclosed (opened _) (by simp) unclosed,
      bodiesOf_append (refuses_rootOpening_line hroot r)]
  rw [rootDeclarations, bodies, rootDeclarations]

/-- The rule behind the unclosed one keeps its declarations, those in a media query too. -/
theorem rootDeclarations_unclosed_print :
    let d : Text := " --a: 1;"
    let r : Text := ":root \x7b --b: 2; @media print \x7b --b: 3; \x7d \x7d"
    '{' ∉ d ∧ '}' ∉ d ∧ ¬ rootMarker <:+: d ∧ Within 0 r ∧
      rootDeclarations "f" (":root \x7b" ++ d ++ '\n' :: r) = rootDeclarations "f" r ∧
      rootDeclarations "f" r = [⟨"--b", "2", "f", none⟩, ⟨"--b", "3", "f", none⟩,
        ⟨"--b", "3", "f", some "print"⟩] := by
  intro d r
  have ho : '{' ∉ d := by decide
  have hc : '}' ∉ d := by decide
  have hroot : ¬ rootMarker <:+: d := by decide
  have hr : Within 0 r := closingBrace?_eq_none.1 (by decide)
  exact ⟨ho, hc, hroot, hr, rootDeclarations_unclosed ho hc hroot hr "f", by decide +kernel⟩

end ThemeProps.Stylesheet
