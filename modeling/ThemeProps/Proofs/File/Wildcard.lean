/-
  Wildcard patterns that are put together.

  * `accepts_append`: patterns side by side accept texts side by side;
  * `accepts_parse_self`: a pattern without wildcards stands for itself;
  * `setTexts` are the texts of the sets in a pattern. `setText?_eq_some`: where a
    set ends does not depend on what stands behind it;
  * `parse_append_slash`: a slash that no set reaches over cuts a pattern into the
    patterns on both sides, and `accepts_append_slash`: a slash matches it.
-/
import ThemeProps.File.Wildcard
import ThemeProps.Proofs.Text.Basic

namespace ThemeProps.Wildcard

/-! ## What patterns accept -/

variable {w : Wildcard} {ws ws' : List Wildcard} {s t b : Text} {c : Char}

theorem mem_endings : t ∈ endings s ↔ t <:+ s := by
  induction s with
  | nil => simp [endings]
  | cons c s ih => rw [endings, List.mem_cons, ih, List.suffix_cons_iff]

theorem accepts_anyText :
    accepts (anyText :: ws) s = true ↔ ∃ t, t <:+ s ∧ accepts ws t = true := by
  rw [accepts, List.any_eq_true]
  simp only [mem_endings]

theorem accepts_char (hw : w ≠ anyText) :
    accepts (w :: ws) s = true ↔
      ∃ c t, s = c :: t ∧ acceptsChar c w = true ∧ accepts ws t = true := by
  cases s with
  | nil => cases w <;> simp_all [accepts]
  | cons c s => cases w <;> simp_all [accepts]

theorem accepts_exactly : accepts (exactly c :: ws) (c :: s) = accepts ws s := by
  rw [accepts, acceptsChar, beq_self_eq_true, Bool.true_and]
  exact nofun

/-- Patterns side by side accept texts side by side. -/
theorem accepts_append (hs : accepts ws s = true) (ht : accepts ws' t = true) :
    accepts (ws ++ ws') (s ++ t) = true := by
  induction ws generalizing s with
  | nil =>
    rw [accepts, List.isEmpty_iff] at hs
    rwa [hs]
  | cons w ws ih =>
    by_cases hw : w = anyText
    · subst hw
      obtain ⟨u, ⟨v, rfl⟩, hu⟩ := accepts_anyText.1 hs
      exact accepts_anyText.2 ⟨u ++ t, ⟨v, by rw [List.append_assoc]⟩, ih hu⟩
    · obtain ⟨c, u, rfl, hc, hu⟩ := (accepts_char hw).1 hs
      exact (accepts_char hw).2 ⟨c, u ++ t, rfl, hc, ih hu⟩

/-- A pattern without wildcards stands for itself. -/
theorem accepts_parse_self (h : ∀ c ∈ s, c ≠ '*' ∧ c ≠ '?' ∧ c ≠ '[') :
    accepts (parse s) s = true := by
  induction s with
  | nil => rw [parse, accepts, List.isEmpty_nil]
  | cons c s ih =>
    obtain ⟨⟨noStar, noMark, noBracket⟩, further⟩ := List.forall_mem_cons.1 h
    rw [parse, if_neg noStar, if_neg noMark, if_neg noBracket, accepts_exactly]
    exact ih further

/-! ## Sets -/

/-- The texts of the sets in a pattern. -/
def setTexts : Text → List Text
  | [] => []
  | c :: cs =>
    if c = '[' then
      match setText? cs with
      | some (s, behind) =>
        if behind.length < cs.length then s :: setTexts behind else setTexts cs
      | none => setTexts cs
    else setTexts cs
termination_by s => s.length

/-- The text up to the next closing bracket, with what stands in front of it. -/
def closeSet (front s : Text) : Option (Text × Text) :=
  match s.dropWhile (· ≠ ']') with
  | [] => none
  | _ :: behind => some (front ++ s.takeWhile (· ≠ ']'), behind)

theorem closeSet_eq_some {front : Text} :
    closeSet front s = some (t, b) ↔ ∃ u, ']' ∉ u ∧ t = front ++ u ∧ s = u ++ ']' :: b := by
  constructor
  · intro h
    rw [closeSet] at h
    split at h
    · cases h
    · next d behind drop =>
      obtain ⟨rfl, rfl⟩ : front ++ s.takeWhile (· ≠ ']') = t ∧ behind = b := by simpa using h
      have bracket : d = ']' := by
        have := List.head?_dropWhile_not (fun c => decide (c ≠ ']')) s
        rw [drop] at this
        simpa using this
      refine ⟨_, fun hm => ?_, rfl, ?_⟩
      · simpa using List.mem_takeWhile_imp hm
      · rw [← bracket, ← drop, bracket, List.takeWhile_append_dropWhile]
  · rintro ⟨u, inside, rfl, rfl⟩
    have inside : ∀ c ∈ u, decide (c ≠ ']') = true := fun c hc =>
      decide_eq_true fun he => inside (he ▸ hc)
    rw [closeSet, List.takeWhile_append_of_pos inside, List.dropWhile_append_of_pos inside]
    simp

/-- The exclamation mark at the beginning of a set, if there is one, and the text behind it. -/
def markOf : Text → Text × Text
  | '!' :: s => (['!'], s)
  | s => ([], s)

/-- The closing bracket that a set begins with, if there is one, and the text behind it. -/
def bracketOf : Text → Text × Text
  | ']' :: s => ([']'], s)
  | s => ([], s)

theorem markOf_cons (hc : c ≠ '!') (s : Text) : markOf (c :: s) = ([], c :: s) := by
  unfold markOf
  split
  · next h => exact absurd (List.cons.inj h).1 hc
  · rfl

theorem bracketOf_cons (hc : c ≠ ']') (s : Text) : bracketOf (c :: s) = ([], c :: s) := by
  unfold bracketOf
  split
  · next h => exact absurd (List.cons.inj h).1 hc
  · rfl

theorem setText?_eq_closeSet (s : Text) : setText? s =
    closeSet ((markOf s).1 ++ (bracketOf (markOf s).2).1) (bracketOf (markOf s).2).2 := rfl

/-- A closing bracket in front, also behind an exclamation mark, does not end a set. The character
behind that does not count. -/
theorem setText?_eq (s : Text) : ∃ front r, s = front ++ r ∧
    ∀ r', r'.head? = r.head? → setText? (front ++ r') = closeSet front r' := by
  have start {c : Char} {s r' : Text} (h : r'.head? = (c :: s).head?) : ∃ s', r' = c :: s' :=
    List.head?_eq_some_iff.1 h
  by_cases mark : ∃ r, s = '!' :: r
  · obtain ⟨r, rfl⟩ := mark
    cases r with
    | nil => exact ⟨"!", [], rfl, fun r' h => by rw [List.head?_eq_none_iff.1 h]; rfl⟩
    | cons c r =>
      by_cases hc : c = ']'
      · exact ⟨"!]", r, by rw [hc]; rfl, fun r' _ => rfl⟩
      · refine ⟨['!'], c :: r, rfl, fun r' h => ?_⟩
        obtain ⟨r', rfl⟩ := start h
        have behind : markOf (['!'] ++ c :: r') = (['!'], c :: r') := rfl
        rw [setText?_eq_closeSet, behind, bracketOf_cons hc, List.append_nil]
  · cases s with
    | nil => exact ⟨[], [], rfl, fun r' h => by rw [List.head?_eq_none_iff.1 h]; rfl⟩
    | cons c r =>
      have hm : c ≠ '!' := fun he => mark ⟨r, by rw [he]⟩
      by_cases hc : c = ']'
      · exact ⟨"]", r, by rw [hc]; rfl, fun r' _ => rfl⟩
      · refine ⟨[], c :: r, rfl, fun r' h => ?_⟩
        obtain ⟨r', rfl⟩ := start h
        rw [List.nil_append, setText?_eq_closeSet, markOf_cons hm, bracketOf_cons hc,
          List.append_nil]

/-- Where a set ends does not depend on what stands behind it. -/
theorem setText?_eq_some (h : setText? s = some (t, b)) :
    s = t ++ ']' :: b ∧ ∀ v, setText? (t ++ ']' :: v) = some (t, v) := by
  obtain ⟨front, r, rfl, closed⟩ := setText?_eq s
  rw [closed r rfl] at h
  obtain ⟨u, inside, rfl, rfl⟩ := closeSet_eq_some.1 h
  refine ⟨(List.append_assoc _ _ _).symm, fun v => ?_⟩
  rw [List.append_assoc, closed _ (by cases u <;> rfl)]
  exact closeSet_eq_some.2 ⟨u, inside, rfl, rfl⟩

theorem parse_set (h : setText? s = some (t, b)) :
    parse ('[' :: s) = set t :: parse b ∧ setTexts ('[' :: s) = t :: setTexts b := by
  have shorter : b.length < s.length := by
    rw [(setText?_eq_some h).1, List.length_append, List.length_cons]
    omega
  constructor
  · rw [parse, if_neg (by decide), if_neg (by decide), if_pos rfl, h]
    exact if_pos shorter
  · rw [setTexts, if_pos rfl, h]
    exact if_pos shorter

theorem parse_open (h : setText? s = none) :
    parse ('[' :: s) = exactly '[' :: parse s ∧ setTexts ('[' :: s) = setTexts s := by
  constructor
  · rw [parse, if_neg (by decide), if_neg (by decide), if_pos rfl, h]
  · rw [setTexts, if_pos rfl, h]

/-- The part of a pattern that a character other than an opening bracket is. -/
def ofChar (c : Char) : Wildcard :=
  if c = '*' then anyText else if c = '?' then anyChar else exactly c

theorem parse_char (hc : c ≠ '[') (s : Text) :
    parse (c :: s) = ofChar c :: parse s ∧ setTexts (c :: s) = setTexts s := by
  constructor
  · rw [parse, ofChar]
    split_ifs <;> rfl
  · rw [setTexts, if_neg hc]

/-! ## Patterns with slashes -/

/-- A bracket that stays open is open in front of more text, too. -/
theorem setText?_append_none (h : setText? (s ++ t) = none) : setText? s = none := by
  cases closes : setText? s with
  | none => rfl
  | some found =>
    obtain ⟨rfl, again⟩ := setText?_eq_some closes
    rw [List.append_assoc, List.cons_append, again] at h
    cases h

/-- A set that does not reach over a slash ends in front of it. -/
theorem setText?_append_slash {p q : Text} (h : setText? (p ++ '/' :: q) = some (t, b))
    (ht : '/' ∉ t) : ∃ r, p = t ++ ']' :: r ∧ b = r ++ '/' :: q := by
  have inside : '/' ∉ t ++ [']'] := by simp [ht]
  have cut : p ++ '/' :: q = t ++ [']'] ++ b := by rw [(setText?_eq_some h).1]; simp
  obtain ⟨r, hp, hb⟩ := Text.eq_append_of_cons cut inside
  exact ⟨r, by rw [hp, List.append_assoc, List.singleton_append], hb⟩

/-- A slash that no set reaches over cuts a pattern. -/
theorem parse_append_slash {p q : Text} (hp : '/' ∉ p)
    (closed : ∀ t ∈ setTexts (p ++ '/' :: q), '/' ∉ t) :
    parse (p ++ '/' :: q) = parse p ++ exactly '/' :: parse q ∧
      setTexts (p ++ '/' :: q) = setTexts p ++ setTexts q := by
  match p with
  | [] =>
    obtain ⟨parsed, texts⟩ := parse_char (c := '/') (by decide) q
    rw [List.nil_append, parsed, texts, parse, setTexts]
    exact ⟨rfl, rfl⟩
  | c :: p =>
    have noSlash : '/' ∉ p := List.not_mem_of_not_mem_cons hp
    rw [List.cons_append] at closed ⊢
    by_cases bracket : c = '['
    · subst bracket
      cases ends : setText? (p ++ '/' :: q) with
      | none =>
        obtain ⟨parsed, texts⟩ := parse_open ends
        obtain ⟨parsed', texts'⟩ := parse_open (setText?_append_none ends)
        rw [texts] at closed
        obtain ⟨further, furtherTexts⟩ := parse_append_slash noSlash closed
        rw [parsed, texts, parsed', texts', further, furtherTexts]
        exact ⟨rfl, rfl⟩
      | some found =>
        obtain ⟨t, b⟩ := found
        obtain ⟨parsed, texts⟩ := parse_set ends
        rw [texts, List.forall_mem_cons] at closed
        obtain ⟨r, rest, rfl⟩ := setText?_append_slash ends closed.1
        obtain ⟨parsed', texts'⟩ := parse_set ((setText?_eq_some ends).2 r)
        have noSlash : '/' ∉ r := fun hm => noSlash (by simp [rest, hm])
        have shorter : r.length < p.length := by
          rw [rest, List.length_append, List.length_cons]
          omega
        obtain ⟨further, furtherTexts⟩ := parse_append_slash noSlash closed.2
        rw [parsed, texts, rest, parsed', texts', further, furtherTexts]
        exact ⟨rfl, rfl⟩
    · obtain ⟨parsed, texts⟩ := parse_char bracket (p ++ '/' :: q)
      obtain ⟨parsed', texts'⟩ := parse_char bracket p
      rw [texts] at closed
      obtain ⟨further, furtherTexts⟩ := parse_append_slash noSlash closed
      rw [parsed, texts, parsed', texts', further, furtherTexts]
      exact ⟨rfl, rfl⟩
termination_by p.length
decreasing_by all_goals simp only [List.length_cons]; omega

/-- A slash that no set reaches over is matched by a slash. -/
theorem accepts_append_slash {p q : Text} (hp : '/' ∉ p)
    (closed : ∀ t ∈ setTexts (p ++ '/' :: q), '/' ∉ t) (hs : accepts (parse p) s = true)
    (ht : accepts (parse q) t = true) : accepts (parse (p ++ '/' :: q)) (s ++ '/' :: t) = true := by
  rw [(parse_append_slash hp closed).1]
  exact accepts_append hs (accepts_exactly.trans ht)

end ThemeProps.Wildcard
