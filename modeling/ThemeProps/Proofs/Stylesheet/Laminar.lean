/-
  Rules of a text are nested in each other or apart.

  * `ruleStarts` are the offsets at which the bodies of the `:root`, media and class
    rules of a text start, right behind their opening braces, whether they are
    closed or not; `ruleSpans` are the closed ones with the offsets at which they end;
  * `map_body_spansOf`: the bodies of the rules are what stands in their spans;
  * `Closes.inner`: a brace that opens inside a rule is closed inside it, wherever
    the search for it starts;
  * `rules_laminar`: two rules with different opening braces are nested or apart.
-/
import ThemeProps.Proofs.Stylesheet.Matching

namespace ThemeProps.Stylesheet

variable {s : Text} {start stop : Nat}

/-! ## Openings -/

theorem endsWith_rootOpening : Reader.EndsWith '{' rootOpening := by
  refine Reader.endsWith_behind (Reader.leaves_literal _) fun _ => ?_
  refine Reader.endsWith_behind Reader.leaves_blanks fun _ => ?_
  refine Reader.endsWith_behind Reader.takes_get fun _ => ?_
  have further := takes_furtherSelector (p := fun _ => True) (fun _ _ => trivial)
    (fun _ _ => trivial) ⟨trivial, trivial, trivial⟩
  exact Reader.endsWith_behind (Takes.furtherSelectors further _) fun _ => Reader.endsWith_char '{'

theorem endsWith_mediaOpening : Reader.EndsWith '{' mediaOpening := by
  refine Reader.endsWith_behind (Reader.leaves_literal _) fun _ => ?_
  refine Reader.endsWith_behind (Reader.leaves_run1 _) fun query => ?_
  exact (Reader.endsWith_char '{').bind_pure fun _ => Text.trim query

theorem endsWith_classOpening : Reader.EndsWith '{' classOpening := by
  refine Reader.endsWith_behind (Reader.leaves_char _) fun _ => ?_
  refine Reader.endsWith_behind (Reader.leaves_run1 _) fun _ => ?_
  exact Reader.endsWith_behind Reader.leaves_blanks fun _ => Reader.endsWith_char '{'

/-! ## Where rules start and end -/

/-- A rule in a text: its body starts at `start`, right behind the opening brace, and its closing
brace stands right before `stop`. -/
structure RuleSpan where
  start : Nat
  stop : Nat
deriving DecidableEq

namespace RuleSpan

variable (x y : RuleSpan)

/-- What stands between the braces. -/
def body (s : Text) : Text := s.extract x.start (x.stop - 1)

/-- One rule is closed before the other one is opened. -/
def Apart : Prop := x.stop < y.start ∨ y.stop < x.start

/-- The rule stands in the body of the other one, with its braces. -/
def Inside : Prop := y.start < x.start ∧ x.stop < y.stop

end RuleSpan

section
variable {α : Type} {opening : Reader α}

/-- The offsets right behind the openings that a reader finds. -/
def startsOf (opening : Reader α) (s : Text) : List Nat :=
  (openings opening s).map fun (_, behind) => s.length - behind.length

/-- The closed rules among those that a reader opens. -/
def spansOf (opening : Reader α) (s : Text) : List RuleSpan :=
  (startsOf opening s).filterMap fun start => (findMatchingBrace s start).map (⟨start, ·⟩)

theorem openings_endsWith (h : Reader.EndsWith '{' opening) {v : α} {behind : Text}
    (found : (v, behind) ∈ openings opening s) : ∃ front, s = front ++ '{' :: behind := by
  have leaves : Reader.Leaves (do let a ← opening; return (a, ← get) : Reader (α × Text)) :=
    h.leaves.bind fun _ => Reader.takes_get.bind fun _ => Reader.leaves_pure _
  obtain ⟨front, w, r, rfl, read⟩ := Reader.mem_findEvery leaves found
  obtain ⟨u, t, opened, kept⟩ := Reader.bind_eq_some.1 read
  obtain ⟨same, rfl⟩ := Prod.mk.inj (Option.some.inj kept)
  obtain ⟨-, rfl⟩ := Prod.mk.inj same
  obtain ⟨w', he⟩ := h _ _ _ opened
  exact ⟨front ++ w', by rw [he, List.append_assoc]⟩

/-- The offset right behind a character. -/
theorem length_sub_behind (front behind : Text) (c : Char) :
    (front ++ c :: behind).length - behind.length = front.length + 1 := by
  rw [List.length_append, List.length_cons]
  omega

/-- A brace opens right before the body of a rule. -/
theorem getElem?_of_mem_startsOf (h : Reader.EndsWith '{' opening)
    (found : start ∈ startsOf opening s) : s[start - 1]? = some '{' := by
  obtain ⟨⟨v, behind⟩, opened, rfl⟩ := List.mem_map.1 found
  obtain ⟨front, rfl⟩ := openings_endsWith h opened
  simp only [length_sub_behind, Nat.add_sub_cancel]
  rw [List.getElem?_append_right (Nat.le_refl _), Nat.sub_self, List.getElem?_cons_zero]

theorem mem_spansOf {x : RuleSpan} :
    x ∈ spansOf opening s ↔
      x.start ∈ startsOf opening s ∧ findMatchingBrace s x.start = some x.stop := by
  obtain ⟨start, stop⟩ := x
  rw [spansOf, List.mem_filterMap]
  constructor
  · rintro ⟨start', found, closed⟩
    obtain ⟨stop', closes, same⟩ := Option.map_eq_some_iff.1 closed
    obtain ⟨rfl, rfl⟩ := RuleSpan.mk.inj same
    exact ⟨found, closes⟩
  · rintro ⟨found, closes⟩
    exact ⟨start, found, by rw [closes, Option.map_some]⟩

/-- The bodies of rules are what stands in their spans. -/
theorem map_body_spansOf (h : Reader.EndsWith '{' opening) (s : Text) :
    (spansOf opening s).map (·.body s) = (bodiesOf opening s).map Prod.snd := by
  rw [spansOf, startsOf, bodiesOf, List.filterMap_map, List.map_filterMap, List.map_filterMap]
  refine List.filterMap_congr fun found opened => ?_
  obtain ⟨v, behind⟩ := found
  obtain ⟨front, rfl⟩ := openings_endsWith h opened
  have rest : (front ++ '{' :: behind).drop (front.length + 1) = behind := by
    rw [List.drop_append, List.drop_eq_nil_of_le (Nat.le_succ _)]
    simp
  simp only [Function.comp_apply, length_sub_behind, findMatchingBrace, rest, body?, Option.map_map]
  refine Option.map_congr fun n _ => ?_
  have size : front.length + 1 + n - 1 - (front.length + 1) = n - 1 := by omega
  simp only [Function.comp_apply, RuleSpan.body, List.extract_eq_take_drop, size, rest]

end

/-- The offsets at which the bodies of the `:root`, media and class rules of a text start. -/
def ruleStarts (s : Text) : List Nat :=
  startsOf rootOpening s ++ startsOf mediaOpening s ++ startsOf classOpening s

/-- The `:root`, media and class rules of a text that are closed. -/
def ruleSpans (s : Text) : List RuleSpan :=
  spansOf rootOpening s ++ spansOf mediaOpening s ++ spansOf classOpening s

/-- The bodies of the `:root`, media and class rules of a text. -/
def ruleBodies (s : Text) : List Text :=
  (bodiesOf rootOpening s).map Prod.snd ++ (bodiesOf mediaOpening s).map Prod.snd ++
    (bodiesOf classOpening s).map Prod.snd

theorem map_body_ruleSpans (s : Text) : (ruleSpans s).map (·.body s) = ruleBodies s := by
  rw [ruleSpans, List.map_append, List.map_append, map_body_spansOf endsWith_rootOpening,
    map_body_spansOf endsWith_mediaOpening, map_body_spansOf endsWith_classOpening, ruleBodies]

theorem getElem?_of_mem_ruleStarts (h : start ∈ ruleStarts s) : s[start - 1]? = some '{' := by
  rcases List.mem_append.1 h with h | h
  · rcases List.mem_append.1 h with h | h
    · exact getElem?_of_mem_startsOf endsWith_rootOpening h
    · exact getElem?_of_mem_startsOf endsWith_mediaOpening h
  · exact getElem?_of_mem_startsOf endsWith_classOpening h

theorem mem_ruleSpans {x : RuleSpan} :
    x ∈ ruleSpans s ↔ x.start ∈ ruleStarts s ∧ findMatchingBrace s x.start = some x.stop := by
  simp only [ruleSpans, ruleStarts, List.mem_append, mem_spansOf, or_and_right]

/-! ## Rules in rules -/

/-- A brace that opens in a balanced text is closed in it. -/
theorem exists_closing {a b : Text} (within : Within 0 (a ++ '{' :: b))
    (balance : (a ++ '{' :: b).count '}' = (a ++ '{' :: b).count '{') :
    ∃ c r, b = c ++ '}' :: r ∧ Within 0 c ∧ c.count '}' = c.count '{' := by
  -- The text in front closes no more than it opens, so the one behind closes one rule more.
  have front : a.count '}' ≤ a.count '{' + 0 := within a (List.prefix_append a _)
  have more : ¬ Within 0 b := by
    intro inner
    have whole := inner b List.prefix_rfl
    simp only [List.count_append, List.count_cons_self,
      List.count_cons_of_ne (by decide : '{' ≠ '}')] at balance
    omega
  rw [← closingBrace?_eq_none] at more
  obtain ⟨n, found⟩ := Option.ne_none_iff_exists'.1 more
  obtain ⟨c, r, rfl, -, closed, balanced⟩ := closingBrace?_eq_some found
  exact ⟨c, r, rfl, closingBrace?_eq_none.1 closed, balanced⟩

/-- A brace that opens inside a rule is closed inside it. -/
theorem Closes.inner (h : Closes s start stop) {i : Nat} (after : start < i) (before : i < stop)
    (opens : s[i - 1]? = some '{') : ∃ stop', Closes s i stop' ∧ stop' < stop := by
  obtain ⟨a, r, whole, rfl, within, balance⟩ := closes_iff.1 h
  obtain ⟨k, rfl⟩ : ∃ k, i = start + (k + 1) := ⟨i - start - 1, by omega⟩
  have inside : k < a.length := by omega
  have brace : a[k] = '{' := by
    rw [← Nat.add_assoc, Nat.add_sub_cancel, ← List.getElem?_drop, whole,
      List.getElem?_append_left inside, List.getElem?_eq_getElem inside] at opens
    exact Option.some.inj opens
  have parts : a = a.take k ++ '{' :: a.drop (k + 1) := by
    rw [← brace, ← List.drop_eq_getElem_cons inside, List.take_append_drop]
  rw [parts] at within balance
  obtain ⟨c, t, inner, within', balance'⟩ := exists_closing within balance
  have rest : s.drop (start + (k + 1)) = c ++ '}' :: (t ++ '}' :: r) := by
    rw [← List.drop_drop, whole, List.drop_append_of_le_length inside, inner, List.append_assoc,
      List.cons_append]
  refine ⟨_, closes_iff.2 ⟨c, _, rest, rfl, within', balance'⟩, ?_⟩
  have size := congrArg List.length inner
  rw [List.length_drop, List.length_append, List.length_cons] at size
  omega

/-- The next brace that opens stands behind a rule or in it. -/
theorem Closes.laminar (h : Closes s start stop) {i : Nat} (after : start < i)
    (opens : s[i - 1]? = some '{') :
    stop < i ∨ i < stop ∧ ∃ stop', Closes s i stop' ∧ stop' < stop := by
  rcases Nat.lt_trichotomy stop i with behind | rfl | before
  · exact .inl behind
  · rw [h.brace] at opens
    exact absurd (Option.some.inj opens) (by decide)
  · exact .inr ⟨before, h.inner after before opens⟩

/-- **Rules are nested or apart.** Take two `:root`, media or class rules of a text with different
opening braces, of which the first one is closed. The brace that opens the second one stands behind
the first one, or it stands in its body, and then the second one is closed there too. So any two
bodies are apart, or one of them stands in the other. -/
theorem rules_laminar (s : Text) :
    (∀ i ∈ ruleStarts s, ∀ j ∈ ruleStarts s, i < j →
      ∀ stop, findMatchingBrace s i = some stop →
        stop < j ∨ j < stop ∧ ∃ stop', findMatchingBrace s j = some stop' ∧ stop' < stop) ∧
    (ruleSpans s).map (·.body s) = ruleBodies s ∧
    ∀ x ∈ ruleSpans s, ∀ y ∈ ruleSpans s, x.start ≠ y.start →
      x.Apart y ∨ x.Inside y ∨ y.Inside x := by
  have braces : ∀ i ∈ ruleStarts s, ∀ j ∈ ruleStarts s, i < j →
      ∀ stop, findMatchingBrace s i = some stop →
        stop < j ∨ j < stop ∧ ∃ stop', findMatchingBrace s j = some stop' ∧ stop' < stop := by
    intro i _ j hj lt stop closed
    rcases (closes_of_findMatchingBrace closed).laminar lt (getElem?_of_mem_ruleStarts hj) with
      behind | ⟨before, stop', closes, shorter⟩
    · exact .inl behind
    · exact .inr ⟨before, stop', closes.findMatchingBrace, shorter⟩
  have nested {x y : RuleSpan} (hx : x ∈ ruleSpans s) (hy : y ∈ ruleSpans s)
      (lt : x.start < y.start) : x.stop < y.start ∨ y.Inside x := by
    obtain ⟨startX, closedX⟩ := mem_ruleSpans.1 hx
    obtain ⟨startY, closedY⟩ := mem_ruleSpans.1 hy
    rcases braces _ startX _ startY lt _ closedX with behind | ⟨-, stop, closed, shorter⟩
    · exact .inl behind
    · obtain rfl : stop = y.stop := Option.some.inj (closed.symm.trans closedY)
      exact .inr ⟨lt, shorter⟩
  refine ⟨braces, map_body_ruleSpans s, fun x hx y hy ne => ?_⟩
  rcases Nat.lt_or_gt_of_ne ne with lt | gt
  · exact (nested hx hy lt).imp .inl .inr
  · exact (nested hy hx gt).imp .inr .inl

/-- A text with a media rule in a `:root` rule, a class rule, and an unclosed media rule around it
whose opening has a closing brace in it. -/
theorem rules_laminar_print :
    let css : Text := "\x7d :root \x7b @media print \x7b .a \x7b --b: 1; \x7d \x7d --c: 2; \x7d " ++
      "@media \x7d x \x7b .d \x7b --e: 3; \x7d"
    9 ∈ ruleStarts css ∧ 24 ∈ ruleStarts css ∧ findMatchingBrace css 9 = some 51 ∧
      (51 < 24 ∨ 24 < 51 ∧ ∃ stop, findMatchingBrace css 24 = some stop ∧ stop < 51) ∧
      ⟨9, 51⟩ ∈ ruleSpans css ∧ ⟨69, 79⟩ ∈ ruleSpans css ∧
      (RuleSpan.Apart ⟨9, 51⟩ ⟨69, 79⟩ ∨ RuleSpan.Inside ⟨9, 51⟩ ⟨69, 79⟩ ∨
        RuleSpan.Inside ⟨69, 79⟩ ⟨9, 51⟩) := by
  intro css
  have root : 9 ∈ ruleStarts css := by decide +kernel
  have media : 24 ∈ ruleStarts css := by decide +kernel
  have closed : findMatchingBrace css 9 = some 51 := by decide
  have first : ⟨9, 51⟩ ∈ ruleSpans css := by decide +kernel
  have second : ⟨69, 79⟩ ∈ ruleSpans css := by decide +kernel
  obtain ⟨braces, -, spans⟩ := rules_laminar css
  exact ⟨root, media, closed, braces 9 root 24 media (by decide) 51 closed, first, second,
    spans _ first _ second (by decide)⟩

end ThemeProps.Stylesheet
