/-
  Writing alternatives out.

  A group is a pair of braces without braces between them; its options stand
  between commas. The first group is written out first, so groups in an option
  come before the group around them.

  * `count_lt_of_found`: with a group one opening brace is taken away, so
    `expandBraces_eq` comes to an end, and `noGroup_of_mem_expandBraces`: then no
    group is left;
  * `BracePattern` is a pattern with groups nested to any depth, and `Chooses`
    says what it stands for: one option is chosen for each group;
  * `BracePattern.expandBraces_text`: a pattern is written out to its
    `expansions`, which are the texts that it chooses (`mem_expansions`), each
    option of a group once for every way to write the other ones out;
  * `expandBraces_alternation`: the texts that are written out are those that the
    pattern chooses; without nested groups each choice comes up once, in order.
-/
import ThemeProps.File.Glob
import ThemeProps.Proofs.Text.Pieces
import Mathlib.Data.List.Forall2

namespace ThemeProps

/-! ## Groups -/

section
variable {s a b inner r before after w : Text} {options : List Text}

/-- No group stands in the text: no braces without braces between them. -/
def NoGroup (s : Text) : Prop :=
  ∀ inner, '{' ∉ inner → '}' ∉ inner → ¬ '{' :: (inner ++ ['}']) <:+: s

theorem reads_alternatives (ho : '{' ∉ inner) (hc : '}' ∉ inner) (r : Text) :
    alternatives ('{' :: (inner ++ '}' :: r)) = some (Text.splitAtChar ',' inner, r) := by
  have inside : ∀ c ∈ inner, (c ≠ '{' && c ≠ '}') = true := by
    intro c hm
    have first : c ≠ '{' := fun he => ho (he ▸ hm)
    have last : c ≠ '}' := fun he => hc (he ▸ hm)
    simp [first, last]
  rw [alternatives, Reader.bind_of (Reader.reads_char _ _),
    Reader.bind_of (Reader.reads_run inside (Reader.stops_cons.2 (by decide))),
    Reader.bind_of (Reader.reads_char _ _)]
  rfl

theorem alternatives_eq_some (h : alternatives s = some (options, r)) :
    ∃ inner, s = '{' :: (inner ++ '}' :: r) ∧ '{' ∉ inner ∧ '}' ∉ inner ∧
      options = Text.splitAtChar ',' inner := by
  obtain ⟨_, s₁, opened, h⟩ := Reader.bind_eq_some.1 h
  obtain ⟨inner, s₂, read, h⟩ := Reader.bind_eq_some.1 h
  obtain ⟨_, s₃, closed, h⟩ := Reader.bind_eq_some.1 h
  obtain rfl := Reader.char_eq_some.1 opened
  obtain rfl := Reader.char_eq_some.1 closed
  obtain ⟨rfl, rfl⟩ : Text.splitAtChar ',' inner = options ∧ s₃ = r :=
    Prod.mk.inj (Option.some.inj h)
  obtain ⟨taken, left⟩ := Prod.mk.inj (Option.some.inj read)
  have inside : ∀ c ∈ inner, c ≠ '{' ∧ c ≠ '}' := by
    intro c hm
    rw [← taken] at hm
    simpa using List.mem_takeWhile_imp hm
  refine ⟨inner, ?_, fun hm => (inside _ hm).1 rfl, fun hm => (inside _ hm).2 rfl, rfl⟩
  rw [← taken, ← left, List.takeWhile_append_dropWhile]

theorem noGroup_iff : NoGroup s ↔ Reader.findFirst alternatives s = none := by
  rw [Reader.findFirst_eq_none]
  constructor
  · intro h t ht
    by_contra hr
    obtain ⟨⟨options, r⟩, read⟩ := Option.ne_none_iff_exists'.1 hr
    obtain ⟨inner, rfl, ho, hc, -⟩ := alternatives_eq_some read
    refine h inner ho hc (List.IsInfix.trans ⟨[], r, ?_⟩ ht.isInfix)
    simp
  · rintro h inner ho hc ⟨before, r, rfl⟩
    have read := reads_alternatives ho hc r
    rw [h _ ⟨before, by simp⟩] at read
    cases read

theorem noGroup_of_notMem (h : '}' ∉ s) : NoGroup s :=
  fun inner _ _ hi => h (hi.subset (by simp))

/-- Text without closing braces completes no group. -/
theorem NoGroup.append (h : NoGroup a) (hb : '}' ∉ b) : NoGroup (a ++ b) := by
  rintro inner ho hc ⟨before, r, he⟩
  have cut : a ++ b = before ++ '{' :: inner ++ '}' :: r := by rw [← he]; simp
  rcases List.append_eq_append_iff.1 cut with ⟨a', -, rfl⟩ | ⟨a', rfl, closing⟩
  · exact hb (by simp)
  · cases a' with
    | nil =>
      obtain rfl : '}' :: r = b := closing
      exact hb List.mem_cons_self
    | cons c a' =>
      obtain ⟨rfl, -⟩ := List.cons.inj closing
      exact h inner ho hc ⟨before, a', by simp⟩

/-- A group is not found before its opening brace. -/
theorem NoGroup.refuses (h : NoGroup a) (b : Text) :
    Reader.Refuses alternatives a ('{' :: b) := by
  intro t ht hne
  by_contra hr
  obtain ⟨⟨options, r⟩, read⟩ := Option.ne_none_iff_exists'.1 hr
  obtain ⟨inner, he, ho, hc, -⟩ := alternatives_eq_some read
  obtain ⟨c, t, rfl⟩ := List.exists_cons_of_ne_nil hne
  obtain ⟨rfl, inside⟩ := List.cons.inj he
  obtain ⟨behind, rfl, closing⟩ := Text.eq_append_of_cons inside ho
  cases behind with
  | nil => cases closing
  | cons c behind =>
    obtain ⟨rfl, -⟩ := List.cons.inj closing
    refine h inner ho hc (List.IsInfix.trans ⟨[], behind, ?_⟩ ht.isInfix)
    simp

/-! ## Writing groups out -/

/-- Each option in the place of the first group leaves one opening brace less. -/
theorem count_lt_of_found
    (h : Reader.findFirst alternatives s = some (before, options, after)) :
    ∀ option ∈ options, (before ++ option ++ after).count '{' < s.count '{' := by
  obtain ⟨b, rfl, read⟩ := Reader.findFirst_eq_some h
  obtain ⟨inner, rfl, ho, hc, rfl⟩ := alternatives_eq_some read
  intro option hm
  have plain : '{' ∉ option := fun hb => ho (Text.subset_of_mem_splitAtChar hm hb)
  have closing : ('}' :: after).count '{' = after.count '{' := List.count_cons_of_ne (by decide)
  simp only [List.count_append, List.count_cons_self, List.count_eq_zero_of_not_mem plain, closing]
  omega

/-- A pattern without groups stands for itself; else the first group is written out. -/
theorem expandBraces_eq (s : Text) :
    expandBraces s =
      match Reader.findFirst alternatives s with
      | none => [s]
      | some (before, options, after) =>
        options.flatMap fun option => expandBraces (before ++ option ++ after) := by
  rw [expandBraces]
  cases found : Reader.findFirst alternatives s with
  | none => rfl
  | some group =>
    exact List.flatMap_congr fun option hm => if_pos (count_lt_of_found found option hm)

theorem expandBraces_of_noGroup (h : NoGroup s) : expandBraces s = [s] := by
  rw [expandBraces_eq, noGroup_iff.1 h]

/-- The first group, with the text around it. -/
theorem expandBraces_group (ha : NoGroup a) (ho : '{' ∉ inner) (hc : '}' ∉ inner) (b : Text) :
    expandBraces (a ++ '{' :: (inner ++ '}' :: b)) =
      (Text.splitAtChar ',' inner).flatMap fun option => expandBraces (a ++ option ++ b) := by
  rw [expandBraces_eq,
    Reader.findFirst_append (ha.refuses _) (reads_alternatives ho hc b)]

/-- No group is left. -/
theorem noGroup_of_mem_expandBraces (h : w ∈ expandBraces s) : NoGroup w := by
  induction hn : s.count '{' using Nat.strong_induction_on generalizing s with
  | _ n ih =>
    cases found : Reader.findFirst alternatives s with
    | none =>
      have plain := noGroup_iff.2 found
      rw [expandBraces_of_noGroup plain, List.mem_singleton] at h
      rwa [h]
    | some group =>
      obtain ⟨before, options, after⟩ := group
      rw [expandBraces_eq, found] at h
      obtain ⟨option, hm, h⟩ := List.mem_flatMap.1 h
      exact ih _ (hn ▸ count_lt_of_found found option hm) h rfl

/-- What is written out stands for itself. -/
theorem expandBraces_of_mem (h : w ∈ expandBraces s) : expandBraces w = [w] :=
  expandBraces_of_noGroup (noGroup_of_mem_expandBraces h)

end

/-! ## Patterns with groups -/

/-- Literal text of a pattern: it has no braces in it, and no commas if it stands in a group. -/
structure PatternLiteral (inGroup : Bool) where
  text : Text
  noOpening : '{' ∉ text
  noClosing : '}' ∉ text
  noComma : inGroup = true → ',' ∉ text

mutual
/-- A pattern: literal text and groups, one after the other. An option of a group is a pattern in a
group. -/
inductive BracePattern : Bool → Type where
  | nil {inGroup : Bool} : BracePattern inGroup
  | literal {inGroup : Bool} (s : PatternLiteral inGroup) (rest : BracePattern inGroup) :
    BracePattern inGroup
  | group {inGroup : Bool} (options : BraceOptions) (rest : BracePattern inGroup) :
    BracePattern inGroup
/-- The options of a group. There is at least one. -/
inductive BraceOptions : Type where
  | last (option : BracePattern true)
  | more (option : BracePattern true) (others : BraceOptions)
end

mutual
/-- The pattern as it is written. -/
def BracePattern.text {inGroup : Bool} : BracePattern inGroup → Text
  | .nil => []
  | .literal s rest => s.text ++ rest.text
  | .group options rest => '{' :: (options.text ++ '}' :: rest.text)
/-- The options with commas between them. -/
def BraceOptions.text : BraceOptions → Text
  | .last option => option.text
  | .more option others => option.text ++ ',' :: others.text
end

mutual
/-- The text is the pattern with one option chosen for each group; only groups in the chosen option
are chosen from in turn. -/
def BracePattern.Chooses {inGroup : Bool} : BracePattern inGroup → Text → Prop
  | .nil, w => w = []
  | .literal s rest, w => ∃ v, rest.Chooses v ∧ w = s.text ++ v
  | .group options rest, w => ∃ u v, options.Chooses u ∧ rest.Chooses v ∧ w = u ++ v
/-- The text is one of the options, with one option chosen for each group in it. -/
def BraceOptions.Chooses : BraceOptions → Text → Prop
  | .last option, w => option.Chooses w
  | .more option others, w => option.Chooses w ∨ others.Chooses w
end

mutual
/-- The texts that a pattern is written out to. Inner groups are written out first, so each option
of a group comes up once for every way to write the other ones out. -/
def BracePattern.expansions {inGroup : Bool} : BracePattern inGroup → List Text
  | .nil => [[]]
  | .literal s rest => rest.expansions.map (s.text ++ ·)
  | .group options rest =>
    options.rounds.flatten.flatMap fun w => rest.expansions.map (w ++ ·)
/-- The ways to write the options of a group out: a text for each of them. -/
def BraceOptions.rounds : BraceOptions → List (List Text)
  | .last option => option.expansions.map fun w => [w]
  | .more option others =>
    option.expansions.flatMap fun w => others.rounds.map fun ws => w :: ws
end

/-! ## What is written out -/

/-- The text has no braces in it, and no commas if it stands in a group. -/
def PatternText (inGroup : Bool) (w : Text) : Prop :=
  '{' ∉ w ∧ '}' ∉ w ∧ (inGroup = true → ',' ∉ w)

theorem PatternLiteral.patternText {inGroup : Bool} (s : PatternLiteral inGroup) :
    PatternText inGroup s.text := ⟨s.noOpening, s.noClosing, s.noComma⟩

theorem PatternText.append {inGroup : Bool} {v w : Text} (hv : PatternText inGroup v)
    (hw : PatternText inGroup w) : PatternText inGroup (v ++ w) := by
  refine ⟨?_, ?_, fun h => ?_⟩
  · exact List.not_mem_append hv.1 hw.1
  · exact List.not_mem_append hv.2.1 hw.2.1
  · exact List.not_mem_append (hv.2.2 h) (hw.2.2 h)

theorem PatternText.weaken {inGroup : Bool} {w : Text} (h : PatternText true w) :
    PatternText inGroup w := ⟨h.1, h.2.1, fun _ => h.2.2 rfl⟩

mutual
theorem BracePattern.patternText {inGroup : Bool} : ∀ p : BracePattern inGroup,
    ∀ w ∈ p.expansions, PatternText inGroup w
  | .nil, w, h => by
    rw [BracePattern.expansions, List.mem_singleton] at h
    rw [h]
    exact ⟨List.not_mem_nil, List.not_mem_nil, fun _ => List.not_mem_nil⟩
  | .literal s rest, w, h => by
    rw [BracePattern.expansions] at h
    obtain ⟨v, hv, rfl⟩ := List.mem_map.1 h
    exact s.patternText.append (rest.patternText v hv)
  | .group options rest, w, h => by
    rw [BracePattern.expansions] at h
    obtain ⟨u, hu, h⟩ := List.mem_flatMap.1 h
    obtain ⟨ws, hws, hu⟩ := List.mem_flatten.1 hu
    obtain ⟨v, hv, rfl⟩ := List.mem_map.1 h
    exact ((options.patternText ws hws).2 u hu).weaken.append (rest.patternText v hv)
theorem BraceOptions.patternText : ∀ options : BraceOptions,
    ∀ ws ∈ options.rounds, ws ≠ [] ∧ ∀ w ∈ ws, PatternText true w
  | .last option, ws, h => by
    rw [BraceOptions.rounds] at h
    obtain ⟨w, hw, rfl⟩ := List.mem_map.1 h
    exact ⟨List.cons_ne_nil _ _, List.forall_mem_singleton.2 (option.patternText w hw)⟩
  | .more option others, ws, h => by
    rw [BraceOptions.rounds] at h
    obtain ⟨w, hw, h⟩ := List.mem_flatMap.1 h
    obtain ⟨ws, hws, rfl⟩ := List.mem_map.1 h
    exact ⟨List.cons_ne_nil _ _, List.forall_mem_cons.2
      ⟨option.patternText w hw, (others.patternText ws hws).2⟩⟩
end

mutual
/-- A pattern is written out behind any text that completes no group, whatever follows. -/
theorem BracePattern.expandBraces_append {inGroup : Bool} : ∀ (p : BracePattern inGroup)
    {front : Text}, NoGroup front → ∀ behind : Text,
    expandBraces (front ++ p.text ++ behind) =
      p.expansions.flatMap fun w => expandBraces (front ++ w ++ behind)
  | .nil, front, _, behind => by
    rw [BracePattern.text, BracePattern.expansions, List.flatMap_singleton]
  | .literal s rest, front, h, behind => by
    have further := rest.expandBraces_append (h.append s.noClosing) behind
    rw [BracePattern.text, BracePattern.expansions, List.flatMap_map, ← List.append_assoc, further]
    simp only [List.append_assoc]
  | .group options rest, front, h, behind => by
    have opened : NoGroup (front ++ ['{']) := h.append (by decide)
    have inside := options.expandBraces_append opened ('}' :: (rest.text ++ behind))
    have shape : front ++ (BracePattern.group options rest : BracePattern inGroup).text ++ behind =
        front ++ ['{'] ++ options.text ++ '}' :: (rest.text ++ behind) := by
      simp [BracePattern.text]
    rw [shape, inside, BracePattern.expansions, List.flatten_eq_flatMap, List.flatMap_assoc,
      List.flatMap_assoc]
    refine List.flatMap_congr fun ws hws => ?_
    -- the options are written out: the group is the first one
    obtain ⟨hne, texts⟩ := options.patternText ws hws
    have noOpening : '{' ∉ Text.join "," ws :=
      Text.notMem_join (by decide) fun w hw => (texts w hw).1
    have noClosing : '}' ∉ Text.join "," ws :=
      Text.notMem_join (by decide) fun w hw => (texts w hw).2.1
    have group : front ++ ['{'] ++ Text.join "," ws ++ '}' :: (rest.text ++ behind) =
        front ++ '{' :: (Text.join "," ws ++ '}' :: (rest.text ++ behind)) := by simp
    have split : Text.splitAtChar ',' (Text.join "," ws) = ws :=
      Text.splitAtChar_join hne fun w hw => (texts w hw).2.2 rfl
    rw [group, expandBraces_group h noOpening noClosing, split]
    refine List.flatMap_congr fun w hw => ?_
    have further := rest.expandBraces_append (h.append (texts w hw).2.1) behind
    rw [← List.append_assoc, further, List.flatMap_map]
    simp only [List.append_assoc]
theorem BraceOptions.expandBraces_append : ∀ (options : BraceOptions) {front : Text},
    NoGroup front → ∀ behind : Text,
    expandBraces (front ++ options.text ++ behind) =
      options.rounds.flatMap fun ws => expandBraces (front ++ Text.join "," ws ++ behind)
  | .last option, front, h, behind => by
    rw [BraceOptions.text, BraceOptions.rounds, List.flatMap_map, option.expandBraces_append h]
    rfl
  | .more option others, front, h, behind => by
    have first := option.expandBraces_append h (',' :: (others.text ++ behind))
    have shape : front ++ (BraceOptions.more option others).text ++ behind =
        front ++ option.text ++ ',' :: (others.text ++ behind) := by simp [BraceOptions.text]
    rw [shape, first, BraceOptions.rounds, List.flatMap_assoc]
    refine List.flatMap_congr fun w hw => ?_
    have noClosing : '}' ∉ w := (option.patternText w hw).2.1
    have further := others.expandBraces_append
      ((h.append noClosing).append (by decide : '}' ∉ [','])) behind
    have comma : front ++ w ++ ',' :: (others.text ++ behind) =
        front ++ w ++ [','] ++ others.text ++ behind := by simp
    rw [comma, further, List.flatMap_map]
    refine List.flatMap_congr fun ws hws => ?_
    rw [Text.join_cons _ _ (others.patternText ws hws).1]
    congr 1
    simp
end

/-- A pattern is written out to its expansions, in their order. -/
theorem BracePattern.expandBraces_text {inGroup : Bool} (p : BracePattern inGroup) :
    expandBraces p.text = p.expansions := by
  have written := p.expandBraces_append (noGroup_of_notMem (List.not_mem_nil (a := '}'))) []
  have self : ∀ w ∈ p.expansions, expandBraces ([] ++ w ++ []) = [w] := by
    intro w hw
    rw [List.nil_append, List.append_nil]
    exact expandBraces_of_noGroup (noGroup_of_notMem (p.patternText w hw).2.1)
  rw [List.nil_append, List.append_nil, List.flatMap_congr self, List.flatMap_singleton'] at written
  exact written

/-! ## Choices -/

mutual
theorem BracePattern.expansions_ne_nil {inGroup : Bool} : ∀ p : BracePattern inGroup,
    p.expansions ≠ []
  | .nil => List.cons_ne_nil _ _
  | .literal s rest => by
    rw [BracePattern.expansions, ne_eq, List.map_eq_nil_iff]
    exact rest.expansions_ne_nil
  | .group options rest => by
    obtain ⟨ws, hws⟩ := List.exists_mem_of_ne_nil _ options.rounds_ne_nil
    obtain ⟨w, hw⟩ := List.exists_mem_of_ne_nil _ (options.patternText ws hws).1
    obtain ⟨v, hv⟩ := List.exists_mem_of_ne_nil _ rest.expansions_ne_nil
    refine List.ne_nil_of_mem (a := w ++ v) ?_
    rw [BracePattern.expansions]
    exact List.mem_flatMap.2 ⟨w, List.mem_flatten.2 ⟨ws, hws, hw⟩, List.mem_map.2 ⟨v, hv, rfl⟩⟩
theorem BraceOptions.rounds_ne_nil : ∀ options : BraceOptions, options.rounds ≠ []
  | .last option => by
    rw [BraceOptions.rounds, ne_eq, List.map_eq_nil_iff]
    exact option.expansions_ne_nil
  | .more option others => by
    obtain ⟨w, hw⟩ := List.exists_mem_of_ne_nil _ option.expansions_ne_nil
    obtain ⟨ws, hws⟩ := List.exists_mem_of_ne_nil _ others.rounds_ne_nil
    refine List.ne_nil_of_mem (a := w :: ws) ?_
    rw [BraceOptions.rounds]
    exact List.mem_flatMap.2 ⟨w, hw, List.mem_map.2 ⟨ws, hws, rfl⟩⟩
end

mutual
/-- The expansions are the texts that the pattern chooses. -/
theorem BracePattern.mem_expansions {inGroup : Bool} : ∀ (p : BracePattern inGroup) (w : Text),
    w ∈ p.expansions ↔ p.Chooses w
  | .nil, w => by rw [BracePattern.expansions, List.mem_singleton, BracePattern.Chooses]
  | .literal s rest, w => by
    simp only [BracePattern.expansions, BracePattern.Chooses, List.mem_map,
      BracePattern.mem_expansions rest, eq_comm]
  | .group options rest, w => by
    simp only [BracePattern.expansions, BracePattern.Chooses, List.mem_flatMap, List.mem_map,
      BracePattern.mem_expansions rest, BraceOptions.mem_rounds options]
    constructor
    · rintro ⟨u, hu, v, hv, rfl⟩
      exact ⟨u, v, hu, hv, rfl⟩
    · rintro ⟨u, v, hu, hv, rfl⟩
      exact ⟨u, hu, v, hv, rfl⟩
theorem BraceOptions.mem_rounds : ∀ (options : BraceOptions) (w : Text),
    w ∈ options.rounds.flatten ↔ options.Chooses w
  | .last option, w => by
    simp only [BraceOptions.rounds, BraceOptions.Chooses, ← BracePattern.mem_expansions option]
    simp
  | .more option others, w => by
    -- an option is there in every round, and there are rounds of the other ones
    obtain ⟨v, hv⟩ := List.exists_mem_of_ne_nil _ option.expansions_ne_nil
    obtain ⟨vs, hvs⟩ := List.exists_mem_of_ne_nil _ others.rounds_ne_nil
    simp only [BraceOptions.rounds, BraceOptions.Chooses, ← BracePattern.mem_expansions option,
      ← BraceOptions.mem_rounds others, List.mem_flatten, List.mem_flatMap, List.mem_map]
    constructor
    · rintro ⟨-, ⟨u, hu, us, hus, rfl⟩, hw⟩
      rcases List.mem_cons.1 hw with rfl | hw
      · exact .inl hu
      · exact .inr ⟨us, hus, hw⟩
    · rintro (hw | ⟨us, hus, hw⟩)
      · exact ⟨w :: vs, ⟨w, hw, vs, hvs, rfl⟩, List.mem_cons_self⟩
      · exact ⟨v :: us, ⟨v, hv, us, hus, rfl⟩, List.mem_cons_of_mem _ hw⟩
end

/-! ## Patterns without nested groups -/

/-- No group stands in the pattern. -/
def BracePattern.IsLiteral {inGroup : Bool} : BracePattern inGroup → Prop
  | .nil => True
  | .literal _ rest => rest.IsLiteral
  | .group _ _ => False

/-- No group stands in the options. -/
def BraceOptions.AreLiteral : BraceOptions → Prop
  | .last option => option.IsLiteral
  | .more option others => option.IsLiteral ∧ others.AreLiteral

/-- No group stands in a group. -/
def BracePattern.IsFlat {inGroup : Bool} : BracePattern inGroup → Prop
  | .nil => True
  | .literal _ rest => rest.IsFlat
  | .group options rest => options.AreLiteral ∧ rest.IsFlat

/-- The options as they are written. -/
def BraceOptions.texts : BraceOptions → List Text
  | .last option => [option.text]
  | .more option others => option.text :: others.texts

/-- How many options each group has, from left to right. -/
def BracePattern.sizes {inGroup : Bool} : BracePattern inGroup → List Nat
  | .nil => []
  | .literal _ rest => rest.sizes
  | .group options rest => options.texts.length :: rest.sizes

/-- The pattern with the option of a given number chosen for each group. -/
def BracePattern.chosen {inGroup : Bool} : BracePattern inGroup → List Nat → Text
  | .nil, _ => []
  | .literal s rest, picks => s.text ++ rest.chosen picks
  | .group options rest, pick :: picks => options.texts[pick]?.getD [] ++ rest.chosen picks
  | .group _ _, [] => []

/-- The ways to pick a number below each of some sizes; the first number changes slowest. -/
def picksBelow : List Nat → List (List Nat)
  | [] => [[]]
  | size :: sizes =>
    (List.range size).flatMap fun pick => (picksBelow sizes).map fun picks => pick :: picks

theorem mem_picksBelow {sizes picks : List Nat} :
    picks ∈ picksBelow sizes ↔ List.Forall₂ (· < ·) picks sizes := by
  induction sizes generalizing picks with
  | nil => rw [picksBelow, List.mem_singleton, List.forall₂_nil_right_iff]
  | cons size sizes ih =>
    simp only [picksBelow, List.mem_flatMap, List.mem_range, List.mem_map, ih,
      List.forall₂_cons_right_iff]
    constructor
    · rintro ⟨pick, less, picks, rest, rfl⟩
      exact ⟨pick, picks, less, rest, rfl⟩
    · rintro ⟨pick, picks, less, rest, rfl⟩
      exact ⟨pick, less, picks, rest, rfl⟩

/-- The picks stand in lexicographic order, so none of them comes up twice. -/
theorem pairwise_picksBelow (sizes : List Nat) : (picksBelow sizes).Pairwise (· < ·) := by
  induction sizes with
  | nil => exact List.pairwise_singleton _ _
  | cons size sizes ih =>
    rw [picksBelow, List.pairwise_flatMap]
    refine ⟨fun pick _ => List.pairwise_map.2 (ih.imp fun less => .cons less), ?_⟩
    refine List.pairwise_lt_range.imp fun {pick pick'} less picks hp picks' hp' => ?_
    obtain ⟨rest, -, rfl⟩ := List.mem_map.1 hp
    obtain ⟨rest', -, rfl⟩ := List.mem_map.1 hp'
    exact .rel less

theorem BracePattern.expansions_of_isLiteral {inGroup : Bool} : ∀ {p : BracePattern inGroup},
    p.IsLiteral → p.expansions = [p.text]
  | .nil, _ => rfl
  | .literal s rest, h => by
    have further : rest.expansions = [rest.text] := expansions_of_isLiteral h
    rw [BracePattern.expansions, further, BracePattern.text, List.map_singleton]

theorem BraceOptions.rounds_of_areLiteral : ∀ {options : BraceOptions},
    options.AreLiteral → options.rounds = [options.texts]
  | .last option, h => by
    rw [BraceOptions.rounds, BracePattern.expansions_of_isLiteral h, BraceOptions.texts,
      List.map_singleton]
  | .more option others, h => by
    rw [BraceOptions.rounds, BracePattern.expansions_of_isLiteral h.1, rounds_of_areLiteral h.2,
      BraceOptions.texts, List.flatMap_singleton, List.map_singleton]

/-- Without nested groups each way to pick an option for every group is written out once. -/
theorem BracePattern.expansions_of_isFlat {inGroup : Bool} : ∀ {p : BracePattern inGroup},
    p.IsFlat → p.expansions = (picksBelow p.sizes).map p.chosen
  | .nil, _ => rfl
  | .literal s rest, h => by
    have further : rest.expansions = (picksBelow rest.sizes).map rest.chosen :=
      expansions_of_isFlat h
    rw [BracePattern.expansions, further, List.map_map]
    rfl
  | .group options rest, h => by
    have numbered : options.texts =
        (List.range options.texts.length).map fun pick => options.texts[pick]?.getD [] := by
      refine List.ext_getElem (by simp) fun pick h _ => ?_
      rw [List.getElem_map, List.getElem_range, List.getElem?_eq_getElem h, Option.getD_some]
    have once : options.rounds.flatten =
        (List.range options.texts.length).map fun pick => options.texts[pick]?.getD [] := by
      rw [BraceOptions.rounds_of_areLiteral h.1, List.flatten_singleton]
      exact numbered
    rw [BracePattern.expansions, once, expansions_of_isFlat h.2, List.flatMap_map,
      BracePattern.sizes, picksBelow, List.map_flatMap]
    refine List.flatMap_congr fun pick _ => ?_
    rw [List.map_map, List.map_map]
    rfl

/-- **Alternatives.** Every pattern is written out: a pattern without groups is left, and an option
in the place of the first group leaves one opening brace less. No group is left at the end. A
pattern with groups, nested to any depth, is written out to the texts in which one option is chosen
for each group; if no group stands in another one, each choice is written out once, in the
lexicographic order of the choices. -/
theorem expandBraces_alternation :
    (∀ s, expandBraces s =
      match Reader.findFirst alternatives s with
      | none => [s]
      | some (before, options, after) =>
        options.flatMap fun option => expandBraces (before ++ option ++ after)) ∧
    (∀ s before options after,
      Reader.findFirst alternatives s = some (before, options, after) →
      ∀ option ∈ options, (before ++ option ++ after).count '{' < s.count '{') ∧
    (∀ s, ∀ w ∈ expandBraces s, NoGroup w) ∧
    (∀ (p : BracePattern false) w, w ∈ expandBraces p.text ↔ p.Chooses w) ∧
    ∀ p : BracePattern false, p.IsFlat →
      expandBraces p.text = (picksBelow p.sizes).map p.chosen ∧
      (picksBelow p.sizes).Pairwise (· < ·) ∧
      ∀ picks, picks ∈ picksBelow p.sizes ↔ List.Forall₂ (· < ·) picks p.sizes := by
  refine ⟨expandBraces_eq, fun s before options after => count_lt_of_found,
    fun s w => noGroup_of_mem_expandBraces, fun p w => ?_, fun p flat => ⟨?_, ?_, ?_⟩⟩
  · rw [p.expandBraces_text]
    exact p.mem_expansions w
  · rw [p.expandBraces_text]
    exact BracePattern.expansions_of_isFlat flat
  · exact pairwise_picksBelow p.sizes
  · exact fun picks => mem_picksBelow

example : expandBraces "\x7ba,b\x7bc,d\x7d\x7d" = ["a", "bc", "a", "bd"] := by decide +kernel

end ThemeProps
