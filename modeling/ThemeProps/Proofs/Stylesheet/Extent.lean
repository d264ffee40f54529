/-
  How far the values of declarations reach.

  A value reaches to the next semicolon, also where the block around its
  declaration ends before it.

  * `Within n s`: read from left to right, the text closes at most `n` rules that
    are open in front of it. `closingBrace?_eq_none`: the search for a closing
    brace fails exactly on such a text;
  * `blocks` are the texts in which declarations are looked for: the bodies of
    the `:root` rules and of the media rules in them;
  * `Standing` is the place at which a declaration stands in a block;
  * `values_extent`: a value stays in the innermost block around its declaration
    exactly if its semicolon does, and it never leaves the rule in whose body it
    is found.
-/
import ThemeProps.Proofs.Stylesheet.Rule

namespace ThemeProps.Stylesheet

variable {a b s body : Text} {n : Nat}

/-! ## Rules that a text closes -/

/-- Read from left to right, the text closes at most `n` rules more than it opens. -/
def Within (n : Nat) (s : Text) : Prop := ∀ p, p <+: s → p.count '}' ≤ p.count '{' + n

theorem within_nil : Within n [] := by
  intro p hp
  rw [List.prefix_nil.1 hp]
  exact Nat.zero_le _

theorem within_cons {c : Char} :
    Within n (c :: s) ↔ ∀ p, p <+: s → (c :: p).count '}' ≤ (c :: p).count '{' + n := by
  constructor
  · exact fun h p hp => h (c :: p) (List.cons_prefix_cons.2 ⟨rfl, hp⟩)
  · intro h p hp
    rcases List.prefix_cons_iff.1 hp with rfl | ⟨q, rfl, hq⟩
    · exact Nat.zero_le _
    · exact h q hq

theorem closingBrace?_eq_none : closingBrace? n s = none ↔ Within n s := by
  induction s generalizing n with
  | nil => exact ⟨fun _ => within_nil, fun _ => rfl⟩
  | cons c s ih =>
    rw [within_cons]
    by_cases ho : c = '{'
    · subst ho
      rw [closingBrace?_open, Option.map_eq_none_iff, ih]
      refine forall₂_congr fun p _ => ?_
      simp only [List.count_cons_self, List.count_cons_of_ne (by decide : '{' ≠ '}')]
      omega
    by_cases hc : c = '}'
    · subst hc
      simp only [List.count_cons_self, List.count_cons_of_ne (by decide : '}' ≠ '{')]
      cases n with
      | zero =>
        refine ⟨fun h => (by cases h), fun h => ?_⟩
        have closed := h [] List.nil_prefix
        simp at closed
      | succ n =>
        have closes : closingBrace? (n + 1) ('}' :: s) = (closingBrace? n s).map (· + 1) := rfl
        rw [closes, Option.map_eq_none_iff, ih]
        refine forall₂_congr fun p _ => ?_
        omega
    · rw [closingBrace?_plain ho hc, Option.map_eq_none_iff, ih]
      simp only [List.count_cons_of_ne ho, List.count_cons_of_ne hc]
      exact Iff.rfl

/-- The number of rules that are open behind a text. -/
def depth (s : Text) : Nat := s.count '{' - s.count '}'

theorem within_append :
    Within n (a ++ b) ↔
      Within n a ∧ ∀ p, p <+: b → a.count '}' + p.count '}' ≤ a.count '{' + p.count '{' + n := by
  constructor
  · refine fun h => ⟨fun p hp => h p (hp.trans (List.prefix_append a b)), fun p hp => ?_⟩
    have whole := h (a ++ p) ((List.prefix_append_right_inj a).2 hp)
    rwa [List.count_append, List.count_append] at whole
  · rintro ⟨front, back⟩ p hp
    rcases List.prefix_or_prefix_of_prefix hp (List.prefix_append a b) with within | ⟨q, rfl⟩
    · exact front p within
    · rw [List.count_append, List.count_append]
      exact back q ((List.prefix_append_right_inj a).1 hp)

/-- What stands behind a text closes only the rules that the text leaves open. -/
theorem Within.behind (h : Within 0 (a ++ b)) : Within (depth a) b := by
  intro p hp
  have whole := (within_append.1 h).2 p hp
  unfold depth
  omega

/-- Texts without braces do not count. -/
theorem within_around {before behind : Text} (hb : '{' ∉ before ∧ '}' ∉ before)
    (he : '{' ∉ behind ∧ '}' ∉ behind) : Within n (before ++ s ++ behind) ↔ Within n s := by
  have none {c : Char} {p : Text} (hp : p <+: behind) (hc : c ∉ behind) : p.count c = 0 :=
    List.count_eq_zero.2 fun hm => hc (hp.subset hm)
  have front : Within n (before ++ s) ↔ Within n s := by
    rw [← closingBrace?_eq_none, balanced_of_notMem hb.1 hb.2, Option.map_eq_none_iff,
      closingBrace?_eq_none]
  rw [within_append, front]
  refine ⟨And.left, fun h => ⟨h, fun p hp => ?_⟩⟩
  have all := (front.2 h) (before ++ s) List.prefix_rfl
  rw [none hp he.1, none hp he.2]
  omega

theorem within_trim : Within n (Text.trim s) ↔ Within n s := by
  have noBrace {t : Text} (ht : ∀ c ∈ t, Text.isBlank c = true) : '{' ∉ t ∧ '}' ∉ t :=
    ⟨fun hm => absurd (ht _ hm) (by decide), fun hm => absurd (ht _ hm) (by decide)⟩
  obtain ⟨before, behind, he, hbefore, hbehind⟩ := Text.eq_trim_append s
  conv_rhs => rw [he]
  exact (within_around (noBrace hbefore) (noBrace hbehind)).symm

/-- Where the search for a closing brace succeeds: the text in front closes as many rules as are
open and no more, and then the brace follows. -/
theorem closingBrace?_eq_some {m : Nat} (h : closingBrace? n s = some m) :
    ∃ a r, s = a ++ '}' :: r ∧ m = a.length + 1 ∧ closingBrace? n a = none ∧
      a.count '}' = a.count '{' + n := by
  induction s generalizing m n with
  | nil => cases h
  | cons c s ih =>
    by_cases ho : c = '{'
    · subst ho
      rw [closingBrace?_open] at h
      obtain ⟨k, hk, rfl⟩ := Option.map_eq_some_iff.1 h
      obtain ⟨a, r, rfl, rfl, open_, balance⟩ := ih hk
      refine ⟨'{' :: a, r, rfl, rfl, by rw [closingBrace?_open, open_]; rfl, ?_⟩
      rw [List.count_cons_self, List.count_cons_of_ne (by decide), balance]
      omega
    by_cases hc : c = '}'
    · subst hc
      cases n with
      | zero =>
        obtain rfl : 1 = m := Option.some.inj h
        exact ⟨[], s, rfl, rfl, rfl, rfl⟩
      | succ n =>
        have closes (t : Text) :
            closingBrace? (n + 1) ('}' :: t) = (closingBrace? n t).map (· + 1) := rfl
        rw [closes] at h
        obtain ⟨k, hk, rfl⟩ := Option.map_eq_some_iff.1 h
        obtain ⟨a, r, rfl, rfl, open_, balance⟩ := ih hk
        refine ⟨'}' :: a, r, rfl, rfl, by rw [closes, open_]; rfl, ?_⟩
        rw [List.count_cons_self, List.count_cons_of_ne (by decide), balance]
        omega
    · rw [closingBrace?_plain ho hc] at h
      obtain ⟨k, hk, rfl⟩ := Option.map_eq_some_iff.1 h
      obtain ⟨a, r, rfl, rfl, open_, balance⟩ := ih hk
      refine ⟨c :: a, r, rfl, rfl, by rw [closingBrace?_plain ho hc, open_]; rfl, ?_⟩
      rw [List.count_cons_of_ne ho, List.count_cons_of_ne hc, balance]

/-- A text is not within the rules that are open if it closes one more. -/
theorem not_within (balance : a.count '}' = a.count '{' + n) (h : a ++ ['}'] <+: s) :
    ¬ Within n s := by
  intro within
  have closed := within _ h
  simp only [List.count_append, List.count_singleton_self] at closed
  have other : ['}'].count '{' = 0 := by decide
  omega

/-- The body of a rule closes no rule around it. -/
theorem within_body (h : body? s = some body) : Within 0 body := by
  obtain ⟨m, hm, rfl⟩ := Option.map_eq_some_iff.1 h
  obtain ⟨a, r, rfl, rfl, open_, -⟩ := closingBrace?_eq_some hm
  rwa [Nat.add_sub_cancel, List.take_left, ← closingBrace?_eq_none]

/-! ## Blocks -/

/-- The texts in which declarations are looked for, with the query for those of a media rule: the
body of each `:root` rule, and the bodies of the media rules in it. -/
def blocks (s : Text) : List (Option Text × Text) :=
  (bodiesOf rootOpening s).flatMap fun (_, body) =>
    (none, body) :: (bodiesOf mediaOpening body).map fun (query, inner) => (some query, inner)

theorem rootDeclarations_eq (file s : Text) :
    rootDeclarations file s =
      (blocks s).flatMap fun block => declarations file block.1 block.2 := by
  rw [rootDeclarations, blocks, List.flatMap_assoc]
  refine List.flatMap_congr fun found _ => ?_
  obtain ⟨_, body⟩ := found
  rw [List.flatMap_cons, List.flatMap_map]
  rfl

theorem within_block {query : Option Text} (h : (query, body) ∈ blocks s) : Within 0 body := by
  have ofBody {α : Type} {opening : Reader α} {v : α} {t inner : Text}
      (h : (v, inner) ∈ bodiesOf opening t) : Within 0 inner := by
    obtain ⟨⟨u, behind⟩, -, he⟩ := List.mem_filterMap.1 h
    obtain ⟨found, closed, same⟩ := Option.map_eq_some_iff.1 he
    obtain ⟨-, rfl⟩ := Prod.mk.inj same
    exact within_body closed
  obtain ⟨⟨_, outer⟩, ho, h⟩ := List.mem_flatMap.1 h
  rcases List.mem_cons.1 h with he | h
  · obtain ⟨-, rfl⟩ := Prod.mk.inj he
    exact ofBody ho
  · obtain ⟨⟨q, inner⟩, hi, he⟩ := List.mem_map.1 h
    obtain ⟨-, rfl⟩ := Prod.mk.inj he
    exact ofBody hi

/-! ## Declarations in blocks -/

/-- The place of a declaration in a text: the text in front, the name with its colon, the value as
it is written, and the text behind the semicolon. -/
structure Standing where
  before : Text
  head : Text
  written : Text
  behind : Text

namespace Standing

variable (place : Standing)

/-- The text from the value on. -/
def fromValue : Text := place.written ++ ';' :: place.behind

/-- The declaration stands at this place of the text. -/
structure Of (d : Declaration) (s : Text) : Prop where
  text : s = place.before ++ (place.head ++ place.fromValue)
  name : propertyName (place.head ++ place.fromValue) = some (d.name, place.fromValue)
  value : d.value = Text.trim place.written
  noSemicolon : ';' ∉ place.written

/-- The innermost block around the place is not closed before the semicolon. -/
def Terminated : Prop :=
  ∀ n, closingBrace? 0 place.fromValue = some n → place.written.length < n

end Standing

theorem takes_propertyName : Reader.Takes (fun c => c ≠ '{' ∧ c ≠ '}') propertyName := by
  have noBrace {p : Char → Bool} (opens : p '{' = false) (closes : p '}' = false) (c : Char)
      (hc : p c = true) : c ≠ '{' ∧ c ≠ '}' :=
    ⟨ne_of_apply_ne p (by simp [hc, opens]), ne_of_apply_ne p (by simp [hc, closes])⟩
  refine (Reader.takes_literal (Text.forall_mem_of_all rfl)).bind fun _ => ?_
  refine (Reader.takes_run1 (noBrace (by decide) (by decide))).bind fun _ => ?_
  refine (Reader.takes_blanks (noBrace (by decide) (by decide))).bind fun _ => ?_
  exact (Reader.takes_char (by decide)).bind fun _ => Reader.takes_pure _

theorem leaves_declaration : Reader.Leaves declaration := by
  refine takes_propertyName.leaves.bind fun _ => (Reader.leaves_run1 _).bind fun _ => ?_
  exact (Reader.leaves_char _).bind fun _ => Reader.leaves_pure _

/-- A declaration of a text stands at some place in it. -/
theorem exists_standing {file : Text} {query : Option Text} {d : Declaration}
    (h : d ∈ declarations file query s) : ∃ place : Standing, place.Of d s := by
  obtain ⟨⟨name, value⟩, hv, rfl⟩ := List.mem_map.1 h
  obtain ⟨before, w, behind, rfl, read⟩ := Reader.mem_findEvery leaves_declaration hv
  rw [declaration] at read
  obtain ⟨name', r, readName, read⟩ := Reader.bind_eq_some.1 read
  obtain ⟨written, r', readValue, read⟩ := Reader.bind_eq_some.1 read
  obtain ⟨_, r'', readEnd, read⟩ := Reader.bind_eq_some.1 read
  obtain ⟨he, rfl⟩ := Prod.mk.inj (Option.some.inj read)
  obtain ⟨rfl, rfl⟩ := Prod.mk.inj he
  obtain rfl := Reader.char_eq_some.1 readEnd
  obtain ⟨rfl, -, letters⟩ := Reader.run1_eq_some readValue
  obtain ⟨head, same, -⟩ := takes_propertyName _ _ _ readName
  refine ⟨⟨before, head, written, r''⟩, congrArg (before ++ ·) same, ?_, rfl, fun hm => ?_⟩
  · rw [same] at readName
    exact readName
  · simpa using letters ';' hm

namespace Standing

variable {place : Standing} {d : Declaration}

/-- A value stays in the block around its declaration exactly if the semicolon does. -/
theorem Of.within_iff (h : place.Of d s) : Within 0 d.value ↔ place.Terminated := by
  rw [h.value, within_trim]
  constructor
  · intro within n hn
    obtain ⟨a, r, he, rfl, -, balance⟩ := closingBrace?_eq_some hn
    by_contra longer
    have closed : a ++ ['}'] <+: place.fromValue := ⟨r, by rw [he]; simp⟩
    have value : place.written <+: place.fromValue := List.prefix_append _ _
    exact not_within balance
      (List.prefix_of_prefix_length_le closed value (by simpa using longer)) within
  · intro terminated
    by_contra past
    rw [← closingBrace?_eq_none] at past
    obtain ⟨m, hm⟩ := Option.ne_none_iff_exists'.1 past
    obtain ⟨a, r, he, -, -, balance⟩ := closingBrace?_eq_some hm
    have closed : a ++ ['}'] <+: place.written := ⟨r, by rw [he]; simp⟩
    have whole : ¬ Within 0 place.fromValue :=
      not_within balance (closed.trans (List.prefix_append _ _))
    rw [← closingBrace?_eq_none] at whole
    obtain ⟨n, hn⟩ := Option.ne_none_iff_exists'.1 whole
    obtain ⟨a', r', he', rfl, open_, -⟩ := closingBrace?_eq_some hn
    have longer : place.written <+: a' := by
      refine List.prefix_of_prefix_length_le (List.prefix_append _ (';' :: place.behind)) ?_
        (Nat.lt_succ_iff.1 (terminated _ hn))
      exact ⟨'}' :: r', he'.symm⟩
    exact not_within balance (closed.trans longer) (closingBrace?_eq_none.1 open_)

/-- A value does not leave the text in which its declaration stands. -/
theorem Of.within_depth (h : place.Of d s) (hs : Within 0 s) :
    Within (depth place.before) d.value := by
  rw [h.value, within_trim]
  rw [h.text] at hs
  obtain ⟨head, he, plain⟩ := takes_propertyName _ _ _ h.name
  obtain rfl : place.head = head := List.append_cancel_right he
  have noBrace : '{' ∉ place.head ∧ '}' ∉ place.head :=
    ⟨fun hm => (plain _ hm).1 rfl, fun hm => (plain _ hm).2 rfl⟩
  have behind := hs.behind
  rw [Standing.fromValue, ← List.append_assoc] at behind
  have front := (within_append.1 behind).1
  have nothing : '{' ∉ ([] : Text) ∧ '}' ∉ ([] : Text) := by simp
  rw [← List.append_nil (place.head ++ place.written)] at front
  exact (within_around noBrace nothing).1 front

end Standing

/-- **How far values reach.** The value of every declaration that the `:root` rules of a text
give, in a media query or not, reaches from the declaration to the next semicolon. It stays in the
innermost block around the declaration exactly if that semicolon does, and it never passes the end
of the `:root` rule, or of the media rule, in whose body the declaration is found: it closes no more
rules than are open in front of the declaration. -/
theorem values_extent (file s : Text) :
    ∀ d ∈ rootDeclarations file s, ∃ block place,
      (d.query, block) ∈ blocks s ∧ Standing.Of place d block ∧
      (Within 0 d.value ↔ place.Terminated) ∧ Within (depth place.before) d.value := by
  intro d hd
  rw [rootDeclarations_eq] at hd
  obtain ⟨⟨query, block⟩, hblock, hd⟩ := List.mem_flatMap.1 hd
  obtain ⟨place, standing⟩ := exists_standing hd
  obtain ⟨⟨name, value⟩, -, rfl⟩ := List.mem_map.1 hd
  exact ⟨block, place, hblock, standing, standing.within_iff,
    standing.within_depth (within_block hblock)⟩

/-- In this sheet a value runs past the end of a media rule. -/
theorem values_extent_print :
    let css : Text := ":root \x7b @media print \x7b --a: 1 \x7d --b: 2; \x7d"
    let d : Declaration := ⟨"--a", "1 \x7d --b: 2", "f", none⟩
    d ∈ rootDeclarations "f" css ∧ ∃ block place,
      (none, block) ∈ blocks css ∧ Standing.Of place d block ∧
      (Within 0 d.value ↔ place.Terminated) ∧ Within (depth place.before) d.value := by
  intro css d
  have hd : d ∈ rootDeclarations "f" css := by decide +kernel
  exact ⟨hd, values_extent "f" css d hd⟩

/-- Not every registered value stays in the block of its declaration. -/
theorem value_past_block :
    ¬ ∀ file css : Text, ∀ e ∈ (Registry.declareAll {} (rootDeclarations file css)).entries,
      Within 0 e.value := by
  intro h
  have registered : ⟨"--a", "1 \x7d --b: 2", "f", []⟩ ∈ (Registry.declareAll {}
      (rootDeclarations "f" ":root \x7b @media print \x7b --a: 1 \x7d --b: 2; \x7d")).entries := by
    decide +kernel
  have closes := h _ _ _ registered "1 \x7d" (by decide)
  exact absurd closes (by decide)

end ThemeProps.Stylesheet
