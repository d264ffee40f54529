/-
  Beginnings and occurrences of texts, and trimmed texts.

  * `stripFrom_eq_some`: what `stripFrom` takes off is a beginning of the text;
  * `occursIn_iff`: `occursIn` finds a text wherever it stands;
  * `subset_of_mem_splitOn`: cutting a text at a separator makes no characters;
  * `splitAtChar_join`: pieces that are joined are found again;
  * `head_not_blank`: a trimmed text does not begin with a blank.
-/
import ThemeProps.Text.Blank
import ThemeProps.Text.Digit
import ThemeProps.Text.Word
import Mathlib.Data.List.Basic
import Mathlib.Data.List.DropRight
import Mathlib.Data.List.Infix
import Mathlib.Data.List.TakeWhile

namespace ThemeProps.Text

/-! ## Characters -/

/-- What holds of each character of a text, checked one after the other. -/
theorem forall_mem_of_all {p : Char → Prop} [DecidablePred p] {s : Text}
    (h : s.all (fun c => decide (p c)) = true) : ∀ c ∈ s, p c :=
  fun c hc => of_decide_eq_true (List.all_eq_true.1 h c hc)

/-- What holds of each character below a bound, checked one after the other. -/
theorem forall_below_of_ofNat {p : Char → Prop} {bound : Nat}
    (h : ∀ n < bound, p (Char.ofNat n)) (c : Char) (hc : c.toNat < bound) : p c := by
  have entry := h c.toNat hc
  rwa [Char.ofNat_toNat] at entry

/-! ## Beginnings -/

@[simp, grind =] theorem stripFrom_append (w s : Text) : stripFrom w (w ++ s) = some s := by
  induction w with
  | nil => rfl
  | cons c w ih => simp [stripFrom, ih]

/-- What is left after a beginning. -/
@[simp, grind =]
theorem stripFrom_eq_some {w s r : Text} : stripFrom w s = some r ↔ s = w ++ r := by
  constructor
  · intro h
    induction w generalizing s with
    | nil => simpa [stripFrom] using h
    | cons c w ih =>
      cases s with
      | nil => simp [stripFrom] at h
      | cons d s =>
        simp only [stripFrom] at h
        split at h
        · next he => rw [he, ih h, List.cons_append]
        · cases h
  · rintro rfl; exact stripFrom_append w r

@[simp, grind =] theorem stripFrom_eq_none {w s : Text} : stripFrom w s = none ↔ ¬ w <+: s := by
  rw [Option.eq_none_iff_forall_ne_some]
  constructor
  · rintro h ⟨r, rfl⟩; exact h r (stripFrom_append w r)
  · intro h r hr; exact h ⟨r, (stripFrom_eq_some.1 hr).symm⟩

@[simp, grind =] theorem startsWith_iff {s w : Text} : startsWith s w = true ↔ w <+: s := by
  rw [startsWith, Option.isSome_iff_ne_none, ne_eq, stripFrom_eq_none, not_not]

/-- A beginning without the character `c` lies before the first `c`. -/
theorem prefix_append_cons {w a b : Text} {c : Char} (hw : c ∉ w) :
    w <+: a ++ c :: b ↔ w <+: a := by
  refine ⟨fun h => ?_, fun h => h.trans (List.prefix_append _ _)⟩
  rcases List.prefix_or_prefix_of_prefix h (List.prefix_append a (c :: b)) with h' | ⟨t, rfl⟩
  · exact h'
  · cases t with
    | nil => rw [List.append_nil]
    | cons d t =>
      rw [List.prefix_append_right_inj, List.cons_prefix_cons] at h
      exact absurd (by simp [h.1]) hw

/-- Up to the first `c`, a text and its beginning are the same. -/
theorem append_cons_prefix {a b s t : Text} {c : Char} (ha : c ∉ a) (hb : c ∉ b) :
    a ++ c :: s <+: b ++ c :: t ↔ a = b ∧ s <+: t := by
  induction a generalizing b with
  | nil =>
    cases b with
    | nil => simp
    | cons y b => simp [List.ne_of_not_mem_cons hb]
  | cons x a ih =>
    cases b with
    | nil => simp [(List.ne_of_not_mem_cons ha).symm]
    | cons y b =>
      rw [List.cons_append, List.cons_append, List.cons_prefix_cons, List.cons.injEq, and_assoc, ih
        (List.not_mem_of_not_mem_cons ha) (List.not_mem_of_not_mem_cons hb)]

/-- A beginning without the character `c` ends before the first `c`. -/
theorem eq_append_of_cons {a b w r : Text} {c : Char} (h : a ++ c :: b = w ++ r) (hw : c ∉ w) :
    ∃ a', a = w ++ a' ∧ r = a' ++ c :: b := by
  obtain ⟨a', rfl⟩ := (prefix_append_cons hw).1 (⟨r, h.symm⟩ : w <+: a ++ c :: b)
  rw [List.append_assoc] at h
  exact ⟨a', rfl, (List.append_cancel_left h).symm⟩

/-- A beginning that ends with its only `c` does not pass another one. -/
theorem prefix_append_closed {w a b : Text} {c : Char} (hw : c ∉ w)
    (h : w ++ [c] <+: a ++ c :: b) : w ++ [c] <+: a ++ [c] := by
  obtain ⟨r, hr⟩ := h
  rw [List.append_assoc, List.singleton_append] at hr
  obtain ⟨a', rfl, behind⟩ := eq_append_of_cons hr.symm hw
  rw [List.append_assoc, List.prefix_append_right_inj]
  cases a' with
  | nil => exact List.prefix_rfl
  | cons d a' =>
    obtain ⟨rfl, -⟩ := List.cons.inj behind
    exact List.prefix_append [c] (a' ++ [c])

/-- A beginning between two `c` with none inside ends at the next `c` behind the first, so it does
not pass one. -/
theorem prefix_append_marked {w a b : Text} {c : Char} (hw : c ∉ w) (ha : a ≠ [])
    (h : c :: (w ++ [c]) <+: a ++ c :: b) : c :: (w ++ [c]) <+: a ++ [c] := by
  obtain ⟨d, a, rfl⟩ := List.exists_cons_of_ne_nil ha
  obtain ⟨rfl, inside⟩ := List.cons_prefix_cons.1 h
  exact List.cons_prefix_cons.2 ⟨rfl, prefix_append_closed hw inside⟩

/-! ## Occurrences -/

@[simp, grind =] theorem cutAt_eq_none {w s : Text} : cutAt w s = none ↔ ¬ w <:+: s := by
  induction s with
  | nil =>
    by_cases h : w = [] <;> simp [cutAt, h]
  | cons c cs ih =>
    rw [List.infix_cons_iff, not_or, ← stripFrom_eq_none, ← ih, cutAt]
    cases stripFrom w (c :: cs) <;> simp

theorem cutAt_eq_some {w s before after : Text} (h : cutAt w s = some (before, after)) :
    s = before ++ w ++ after := by
  induction s generalizing before with
  | nil =>
    rw [cutAt] at h
    split_ifs at h with hw
    obtain ⟨rfl, rfl⟩ : [] = before ∧ [] = after := by simpa using h
    rw [hw, List.append_nil, List.append_nil]
  | cons c s ih =>
    rw [cutAt] at h
    split at h
    · next rest found =>
      obtain ⟨rfl, rfl⟩ : [] = before ∧ rest = after := by simpa using h
      rw [stripFrom_eq_some.1 found, List.nil_append]
    · rw [Option.map_eq_some_iff] at h
      obtain ⟨⟨before', after'⟩, found, he⟩ := h
      obtain ⟨rfl, rfl⟩ : c :: before' = before ∧ after' = after := by simpa using he
      rw [ih found, List.cons_append, List.cons_append]

/-- A text is cut at an occurrence if none begins before it. -/
theorem cutAt_append {w a b : Text} (hw : w ≠ [])
    (h : ∀ t, t <:+ a → t ≠ [] → ¬ w <+: t ++ (w ++ b)) :
    cutAt w (a ++ (w ++ b)) = some (a, b) := by
  induction a with
  | nil =>
    obtain ⟨c, w, rfl⟩ := List.exists_cons_of_ne_nil hw
    have found : stripFrom (c :: w) (c :: (w ++ b)) = some b := stripFrom_append (c :: w) b
    rw [List.nil_append, List.cons_append, cutAt, found]
  | cons c a ih =>
    have here : stripFrom w (c :: (a ++ (w ++ b))) = none :=
      stripFrom_eq_none.2 (h (c :: a) List.suffix_rfl (List.cons_ne_nil c a))
    rw [List.cons_append, cutAt, here, ih fun t ht => h t (ht.trans (List.suffix_cons c a))]
    rfl

/-- `occursIn` finds a text wherever it stands in another one. -/
@[simp, grind =] theorem occursIn_iff {w s : Text} : occursIn w s = true ↔ w <:+: s := by
  rw [occursIn, Option.isSome_iff_ne_none, ne_eq, cutAt_eq_none, not_not]

/-- A text without the character `c` occurs before it or behind it. -/
theorem infix_append_cons {w a b : Text} {c : Char} (hw : c ∉ w) :
    w <:+: a ++ c :: b ↔ w <:+: a ∨ w <:+: b := by
  induction a with
  | nil =>
    rw [List.nil_append, List.infix_cons_iff]
    have before : w <+: c :: b ↔ w <+: [] := prefix_append_cons (a := []) hw
    rw [before, List.prefix_nil, List.infix_nil]
  | cons d a ih =>
    rw [List.cons_append, List.infix_cons_iff, List.infix_cons_iff, ih, ← List.cons_append,
      prefix_append_cons hw, or_assoc]

/-- A text without any of the characters of `m` occurs before `m` or behind it. -/
theorem infix_append_between {w a b m : Text} (hm : m ≠ []) (h : ∀ c ∈ m, c ∉ w) :
    w <:+: a ++ (m ++ b) ↔ w <:+: a ∨ w <:+: b := by
  induction m generalizing a with
  | nil => exact absurd rfl hm
  | cons c m ih =>
    rw [List.forall_mem_cons] at h
    rw [List.cons_append, infix_append_cons h.1]
    rcases eq_or_ne m [] with rfl | more
    · rfl
    · have empty : w <:+: [] → w <:+: b := fun hw =>
        (List.infix_nil.1 hw).symm ▸ List.nil_infix
      have behind : w <:+: [] ++ (m ++ b) ↔ w <:+: [] ∨ w <:+: b := ih more h.2
      rw [List.nil_append] at behind
      rw [behind, or_iff_right_of_imp empty]

/-! ## Pieces -/

/-- The pieces between separators are made from the characters of the text. -/
theorem subset_of_mem_splitOn {w s p : Text} (h : p ∈ splitOn w s) : p ⊆ s := by
  induction s using splitOn.induct w with
  | case1 s hnone =>
    rw [splitOn, hnone, List.mem_singleton] at h
    rw [h]
    exact List.Subset.refl s
  | case2 s before after hcut shorter ih =>
    have parts := cutAt_eq_some hcut
    rw [splitOn, hcut] at h
    simp only [if_pos shorter, List.mem_cons] at h
    rcases h with rfl | h
    · rw [parts, List.append_assoc]
      exact List.subset_append_left _ _
    · rw [parts]
      exact List.Subset.trans (ih h) (List.subset_append_right _ _)
  | case3 s before after hcut longer =>
    rw [splitOn, hcut] at h
    simp only [if_neg longer, List.mem_singleton] at h
    rw [h]
    exact List.Subset.refl s

theorem splitOn_of_not_infix {w s : Text} (h : ¬ w <:+: s) : splitOn w s = [s] := by
  rw [splitOn, cutAt_eq_none.2 h]

theorem splitOn_append {w a b : Text} (hw : w ≠ [])
    (h : ∀ t, t <:+ a → t ≠ [] → ¬ w <+: t ++ (w ++ b)) :
    splitOn w (a ++ (w ++ b)) = a :: splitOn w b := by
  have shorter : b.length < (a ++ (w ++ b)).length := by
    have := List.length_pos_iff.2 hw
    simp only [List.length_append]
    omega
  rw [splitOn, cutAt_append hw h]
  exact if_pos shorter

theorem subset_of_mem_splitAtChar {sep : Char} {s p : Text} (h : p ∈ splitAtChar sep s) :
    p ⊆ s := by
  induction s generalizing p with
  | nil =>
    rw [splitAtChar, List.mem_singleton] at h
    rw [h]
    exact List.Subset.refl _
  | cons c s ih =>
    have later {q : Text} (hq : q ∈ splitAtChar sep s) : q ⊆ c :: s :=
      List.Subset.trans (ih hq) (List.subset_cons_self c s)
    rw [splitAtChar] at h
    split_ifs at h
    · rcases List.mem_cons.1 h with rfl | h
      · exact List.nil_subset _
      · exact later h
    · split at h
      · rw [List.mem_singleton] at h
        rw [h]
        exact List.cons_subset_cons c (List.nil_subset s)
      · next piece pieces he =>
        rcases List.mem_cons.1 h with rfl | h
        · exact List.cons_subset_cons c (ih (by rw [he]; exact List.mem_cons_self))
        · exact later (by rw [he]; exact List.mem_cons_of_mem _ h)

theorem notMem_of_mem_splitAtChar {sep : Char} {s p : Text} (h : p ∈ splitAtChar sep s) :
    sep ∉ p := by
  induction s generalizing p with
  | nil =>
    rw [splitAtChar, List.mem_singleton] at h
    rw [h]
    exact List.not_mem_nil
  | cons c s ih =>
    rw [splitAtChar] at h
    split_ifs at h with hc
    · rcases List.mem_cons.1 h with rfl | h
      · exact List.not_mem_nil
      · exact ih h
    · split at h
      · rw [List.mem_singleton.1 h, List.mem_singleton]
        exact Ne.symm hc
      · next piece pieces he =>
        rcases List.mem_cons.1 h with rfl | h
        · rw [List.mem_cons, not_or]
          exact ⟨Ne.symm hc, ih (by rw [he]; exact List.mem_cons_self)⟩
        · exact ih (by rw [he]; exact List.mem_cons_of_mem _ h)

theorem splitAtChar_of_notMem {sep : Char} {s : Text} (h : sep ∉ s) : splitAtChar sep s = [s] := by
  induction s with
  | nil => rfl
  | cons c s ih =>
    rw [List.mem_cons, not_or] at h
    rw [splitAtChar, if_neg (Ne.symm h.1), ih h.2]

/-- A text without the separator in front of a first separator is the first piece. -/
theorem splitAtChar_append {sep : Char} {s : Text} (h : sep ∉ s) (t : Text) :
    splitAtChar sep (s ++ sep :: t) = s :: splitAtChar sep t := by
  induction s with
  | nil => rw [List.nil_append, splitAtChar, if_pos rfl]
  | cons c s ih =>
    rw [List.mem_cons, not_or] at h
    rw [List.cons_append, splitAtChar, if_neg (Ne.symm h.1), ih h.2]

theorem join_cons (sep s : Text) {ss : List Text} (h : ss ≠ []) :
    join sep (s :: ss) = s ++ sep ++ join sep ss := by
  obtain ⟨t, ss, rfl⟩ := List.exists_cons_of_ne_nil h
  rfl

theorem join_append (sep : Text) {ss ts : List Text} (hs : ss ≠ []) (ht : ts ≠ []) :
    join sep (ss ++ ts) = join sep ss ++ sep ++ join sep ts := by
  induction ss with
  | nil => exact absurd rfl hs
  | cons s ss ih =>
    rcases eq_or_ne ss [] with rfl | more
    · rw [List.singleton_append, join_cons _ _ ht]
      rfl
    · rw [List.cons_append, join_cons _ _ (List.append_ne_nil_of_left_ne_nil more _), ih more,
        join_cons _ _ more]
      simp

/-- Pieces without the separator are found again. -/
theorem splitAtChar_join {sep : Char} {ss : List Text} (hne : ss ≠ []) (h : ∀ s ∈ ss, sep ∉ s) :
    splitAtChar sep (join [sep] ss) = ss := by
  induction ss with
  | nil => exact absurd rfl hne
  | cons s ss ih =>
    rw [List.forall_mem_cons] at h
    rcases eq_or_ne ss [] with rfl | more
    · exact splitAtChar_of_notMem h.1
    · rw [join_cons _ _ more, List.append_assoc, List.singleton_append, splitAtChar_append h.1,
        ih more h.2]

theorem notMem_join {c : Char} {sep : Text} (hsep : c ∉ sep) {pieces : List Text}
    (h : ∀ p ∈ pieces, c ∉ p) : c ∉ join sep pieces := by
  induction pieces with
  | nil => simp [join]
  | cons p ps ih =>
    rw [List.forall_mem_cons] at h
    cases ps with
    | nil => exact h.1
    | cons q qs =>
      rw [join, List.mem_append, List.mem_append, not_or, not_or]
      exact ⟨⟨h.1, hsep⟩, ih h.2⟩

/-! ## Pairs of characters -/

/-- Each `c` in the text is followed by a character other than `d`. -/
def NoPair (c d : Char) : Text → Prop
  | [] => True
  | x :: s => (x = c → s.head?.any (· ≠ d) = true) ∧ NoPair c d s

instance decidableNoPair (c d : Char) : (s : Text) → Decidable (NoPair c d s)
  | [] => inferInstanceAs (Decidable True)
  | _ :: s => have := decidableNoPair c d s; inferInstanceAs (Decidable (_ ∧ _))

section
variable {c d : Char} {s t : Text}

theorem noPair_of_notMem (h : c ∉ s) : NoPair c d s := by
  induction s with
  | nil => trivial
  | cons x s ih =>
    rw [List.mem_cons, not_or] at h
    exact ⟨fun he => absurd he.symm h.1, ih h.2⟩

theorem NoPair.append (hs : NoPair c d s) (ht : NoPair c d t) : NoPair c d (s ++ t) := by
  induction s with
  | nil => exact ht
  | cons x s ih =>
    obtain ⟨here, there⟩ := hs
    refine ⟨fun he => ?_, ih there⟩
    cases s with
    | nil => exact absurd (here he) (by simp)
    | cons y s => exact here he

theorem NoPair.flatMap {α : Type} {f : α → Text} {as : List α} (h : ∀ a ∈ as, NoPair c d (f a)) :
    NoPair c d (as.flatMap f) := by
  induction as with
  | nil => trivial
  | cons a as ih =>
    rw [List.forall_mem_cons] at h
    exact h.1.append (ih h.2)

theorem NoPair.not_isInfix (h : NoPair c d s) : ¬ [c, d] <:+: s := by
  induction s with
  | nil => simp
  | cons x s ih =>
    rw [List.infix_cons_iff, not_or]
    refine ⟨fun hp => ?_, ih h.2⟩
    obtain ⟨hc, hp⟩ := List.cons_prefix_cons.1 hp
    have next := h.1 hc.symm
    cases s with
    | nil => cases next
    | cons y s =>
      have hd : y ≠ d := by simpa using next
      exact hd (List.cons_prefix_cons.1 hp).1.symm

end

/-! ## Trimmed texts -/

/-- A character is not blank if it has a property that no blank has. -/
theorem isBlank_eq_false {p : Char → Bool} {c : Char}
    (tables : ∀ range ∈ blankRanges, ∀ n ∈ List.range' range.1 (range.2 - range.1 + 1),
      p (Char.ofNat n) = false) (h : p c = true) : isBlank c = false := by
  by_contra hb
  rw [Bool.not_eq_false, isBlank, inRanges, List.any_eq_true] at hb
  obtain ⟨range, hr, hc⟩ := hb
  simp only [Bool.and_eq_true, decide_eq_true_eq] at hc
  have := tables range hr c.toNat (by rw [List.mem_range'_1]; omega)
  rw [Char.ofNat_toNat, h] at this
  cases this

@[grind →] theorem isBlank_of_isWord {c : Char} (h : isWord c = true) : isBlank c = false :=
  isBlank_eq_false (by decide +kernel) h

@[grind →] theorem isBlank_of_isDigit {c : Char} (h : isDigit c = true) : isBlank c = false :=
  isBlank_eq_false (by decide +kernel) h

@[grind →]
theorem isBlank_of_isWordOrHyphen {c : Char} (h : isWordOrHyphen c = true) : isBlank c = false := by
  rw [isWordOrHyphen, Bool.or_eq_true] at h
  rcases h with h | h
  · exact isBlank_of_isWord h
  · rw [of_decide_eq_true h]
    decide

@[grind →]
theorem isBlank_of_isWordOrDot {c : Char} (h : isWordOrDot c = true) : isBlank c = false := by
  rw [isWordOrDot, Bool.or_eq_true] at h
  rcases h with h | h
  · exact isBlank_of_isWord h
  · rw [of_decide_eq_true h]
    decide

/-- A text is its trimmed text between blanks. -/
theorem eq_trim_append (s : Text) :
    ∃ a b, s = a ++ trim s ++ b ∧ (∀ c ∈ a, isBlank c = true) ∧ ∀ c ∈ b, isBlank c = true := by
  refine ⟨s.takeWhile isBlank, ((trimStart s).reverse.takeWhile isBlank).reverse, ?_,
    fun c hc => List.mem_takeWhile_imp hc,
    fun c hc => List.mem_takeWhile_imp (List.mem_reverse.1 hc)⟩
  have start : trimStart s = trim s ++ ((trimStart s).reverse.takeWhile isBlank).reverse := by
    rw [trim, trimEnd, ← List.reverse_append, List.takeWhile_append_dropWhile, List.reverse_reverse]
  rw [List.append_assoc, ← start, trimStart, List.takeWhile_append_dropWhile]

/-- A trimmed text is a stretch of the text. -/
theorem isInfix_trim (s : Text) : trim s <:+: s := by
  have start : trimStart s <:+ s := List.dropWhile_suffix _
  have stop : trim s <+: trimStart s := by
    rw [trim, trimEnd, ← List.reverse_suffix, List.reverse_reverse]
    exact List.dropWhile_suffix _
  exact stop.isInfix.trans start.isInfix

theorem trimStart_eq_self {s : Text} (h : ∀ c ∈ s.head?, isBlank c = false) : trimStart s = s := by
  cases s with
  | nil => rfl
  | cons c s => rw [trimStart, List.dropWhile_cons_of_neg (by simpa using h c rfl)]

@[simp] theorem trimStart_trimStart (s : Text) : trimStart (trimStart s) = trimStart s :=
  List.dropWhile_idempotent _ s

/-- Blanks in front do not count. -/
theorem trim_cons_blank {c : Char} (h : isBlank c = true) (s : Text) : trim (c :: s) = trim s := by
  rw [trim, trimStart, List.dropWhile_cons_of_pos h, ← trimStart, ← trim]

/-- The first character of a trimmed text is not blank. -/
theorem head_not_blank {s : Text} (h : trim s = s) : ∀ c ∈ s.head?, isBlank c = false := by
  intro c hc
  cases s with
  | nil => cases hc
  | cons d s =>
    obtain rfl : d = c := by simpa using hc
    by_contra hb
    have hlen : (trim (d :: s)).length ≤ s.length := by
      rw [trim_cons_blank (by simpa using hb), trim, trimEnd, List.length_reverse]
      refine (List.dropWhile_suffix _).length_le.trans ?_
      rw [List.length_reverse]
      exact (List.dropWhile_suffix _).length_le
    rw [h, List.length_cons] at hlen
    omega

/-- The last character of a trimmed text is not blank. -/
theorem last_not_blank {s : Text} (h : trim s = s) : ∀ c ∈ s.reverse.head?, isBlank c = false := by
  intro c hc
  rw [trim, trimStart_eq_self (head_not_blank h), trimEnd, List.reverse_eq_iff] at h
  cases hs : s.reverse with
  | nil => rw [hs] at hc; cases hc
  | cons d r =>
    rw [hs] at hc h
    obtain rfl : d = c := by simpa using hc
    exact eq_false_of_ne_true (List.dropWhile_eq_self_iff.1 h (by simp))

/-- A text that has no blank at its ends is trimmed. -/
theorem trim_eq_self {s : Text} (start : ∀ c ∈ s.head?, isBlank c = false)
    (stop : ∀ c ∈ s.reverse.head?, isBlank c = false) : trim s = s := by
  rw [trim, trimStart_eq_self start, trimEnd, ← trimStart, trimStart_eq_self stop,
    List.reverse_reverse]

theorem trim_of_notBlank {s : Text} (h : ∀ c ∈ s, isBlank c = false) : trim s = s :=
  trim_eq_self (fun c hc => h c (List.mem_of_mem_head? hc))
    fun c hc => h c (List.mem_reverse.1 (List.mem_of_mem_head? hc))

/-- Blanks around a trimmed text are trimmed off. -/
theorem trim_append {a s b : Text} (ha : ∀ c ∈ a, isBlank c = true) (hs : trim s = s) (hne : s ≠ [])
    (hb : ∀ c ∈ b, isBlank c = true) : trim (a ++ s ++ b) = s := by
  have start : trimStart (a ++ s ++ b) = s ++ b := by
    obtain ⟨d, t, rfl⟩ := List.exists_cons_of_ne_nil hne
    rw [trimStart, List.append_assoc, List.dropWhile_append_of_pos ha, ← trimStart]
    exact trimStart_eq_self fun c hc => head_not_blank hs c hc
  have stop : (b.reverse ++ s.reverse).dropWhile isBlank = s.reverse := by
    rw [List.dropWhile_append_of_pos fun c hc => hb c (List.mem_reverse.1 hc)]
    exact trimStart_eq_self (last_not_blank hs)
  rw [trim, start, trimEnd, List.reverse_append, stop, List.reverse_reverse]

end ThemeProps.Text
