/-
  What readers take off a text, and what they need in it.

  * `Takes p reader`: whatever the reader takes has the property `p` at every
    character. `Leaves` says only that the rest is an end of the text, and
    `Proceeds` that something is taken;
  * `EndsWith c reader`: whatever the reader takes ends with a `c`;
  * `Needs p c reader`: the reader takes only texts in which a `c` stands behind
    characters with the property `p`. This says where it refuses.
-/
import ThemeProps.Proofs.Text.Pieces

namespace ThemeProps.Reader

variable {α β : Type} {reader : Reader α} {a b s r w : Text} {c : Char} {v : α}

/-! ## What readers take -/

/-- What the reader takes off the text has the property at every character. -/
def Takes (p : Char → Prop) (reader : Reader α) : Prop :=
  ∀ s v r, reader s = some (v, r) → ∃ a, s = a ++ r ∧ ∀ c ∈ a, p c

section
variable {p : Char → Prop} {q : Char → Bool}

@[simp] theorem takes_pure (v : α) : Takes p (pure v) := by
  intro s v' r h
  obtain rfl : s = r := (Prod.mk.inj (Option.some.inj h)).2
  exact ⟨[], rfl, by simp⟩

@[simp] theorem takes_get : Takes p (get : Reader Text) := by
  intro s v r h
  obtain rfl : s = r := (Prod.mk.inj (Option.some.inj h)).2
  exact ⟨[], rfl, by simp⟩

@[grind →] theorem satisfy_eq_some (h : satisfy q s = some (c, r)) : s = c :: r ∧ q c = true := by
  cases s with
  | nil => cases h
  | cons d s =>
    rw [satisfy] at h
    split at h
    · next hd =>
      obtain ⟨rfl, rfl⟩ : d = c ∧ s = r := Prod.mk.inj (Option.some.inj h)
      exact ⟨rfl, hd⟩
    · cases h

theorem takes_satisfy (hq : ∀ c, q c = true → p c) : Takes p (satisfy q) := by
  intro s v r h
  obtain ⟨rfl, hv⟩ := satisfy_eq_some h
  exact ⟨[v], rfl, by simpa using hq v hv⟩

theorem takes_char (hc : p c) : Takes p (char c) := by
  intro s v r h
  obtain rfl := char_eq_some.1 h
  exact ⟨[c], rfl, by simpa using hc⟩

theorem takes_maybe (hc : p c) : Takes p (maybe c) := by
  intro s v r h
  cases s with
  | nil =>
    obtain rfl : [] = r := (Prod.mk.inj (Option.some.inj h)).2
    exact ⟨[], rfl, by simp⟩
  | cons d s =>
    rw [maybe] at h
    split at h
    · next hd =>
      obtain rfl : s = r := (Prod.mk.inj (Option.some.inj h)).2
      exact ⟨[d], rfl, by simpa [hd] using hc⟩
    · obtain rfl : d :: s = r := (Prod.mk.inj (Option.some.inj h)).2
      exact ⟨[], rfl, by simp⟩

theorem takes_keyword (hw : ∀ letter ∈ w, ∀ c, Text.sameLetter letter c = true → p c) :
    Takes p (keyword w) := by
  induction w with
  | nil => exact takes_pure ()
  | cons letter w ih =>
    rw [List.forall_mem_cons] at hw
    intro s v r h
    cases s with
    | nil => cases h
    | cons d s =>
      rw [keyword] at h
      split at h
      · next hd =>
        obtain ⟨a, rfl, ha⟩ := ih hw.2 s v r h
        exact ⟨d :: a, rfl, List.forall_mem_cons.2 ⟨hw.1 d hd, ha⟩⟩
      · cases h

theorem takes_literal (hw : ∀ c ∈ w, p c) : Takes p (literal w) :=
  fun _ _ _ h => ⟨w, literal_eq_some.1 h, hw⟩

theorem takes_run (hq : ∀ c, q c = true → p c) : Takes p (run q) := by
  intro s v r h
  obtain rfl : s.dropWhile q = r := (Prod.mk.inj (Option.some.inj h)).2
  exact ⟨s.takeWhile q, List.takeWhile_append_dropWhile.symm,
    fun c hc => hq c (List.mem_takeWhile_imp hc)⟩

/-- A run is not empty, and all its characters satisfy the test. -/
@[grind →]
theorem run1_eq_some (h : run1 q s = some (w, r)) : s = w ++ r ∧ w ≠ [] ∧ ∀ c ∈ w, q c = true := by
  cases s with
  | nil => cases h
  | cons d s =>
    rw [run1] at h
    split at h
    · next hd =>
      obtain ⟨rfl, rfl⟩ : d :: s.takeWhile q = w ∧ s.dropWhile q = r := by simpa using h
      rw [List.cons_append, List.takeWhile_append_dropWhile]
      exact ⟨rfl, List.cons_ne_nil _ _, List.forall_mem_cons.2 ⟨hd, fun c hc =>
        List.mem_takeWhile_imp hc⟩⟩
    · cases h

theorem takes_run1 (hq : ∀ c, q c = true → p c) : Takes p (run1 q) := by
  intro s v r h
  obtain ⟨rfl, -, letters⟩ := run1_eq_some h
  exact ⟨v, rfl, fun c hc => hq c (letters c hc)⟩

theorem takes_blanks (hp : ∀ c, Text.isBlank c = true → p c) : Takes p blanks := by
  intro s v r h
  obtain rfl : s.dropWhile Text.isBlank = r := (Prod.mk.inj (Option.some.inj h)).2
  exact ⟨s.takeWhile Text.isBlank, List.takeWhile_append_dropWhile.symm,
    fun c hc => hp c (List.mem_takeWhile_imp hc)⟩

theorem Takes.bind {f : α → Reader β} (h : Takes p reader) (hf : ∀ v, Takes p (f v)) :
    Takes p (reader >>= f) := by
  intro s v r hs
  obtain ⟨u, t, h₁, h₂⟩ := bind_eq_some.1 hs
  obtain ⟨a, rfl, ha⟩ := h s u t h₁
  obtain ⟨b, rfl, hb⟩ := hf u t v r h₂
  exact ⟨a ++ b, (List.append_assoc a b r).symm, List.forall_mem_append.2 ⟨ha, hb⟩⟩

theorem Takes.orElse {other : Reader α} (h : Takes p reader) (h' : Takes p other) :
    Takes p (reader <|> other) := by
  intro s v r hs
  cases hr : reader s with
  | none => rw [orElse_none hr] at hs; exact h' s v r hs
  | some found => rw [orElse_of hr] at hs; exact h s v r (hr.trans hs)

end

/-- What the reader leaves is an end of the text. -/
abbrev Leaves (reader : Reader α) : Prop := Takes (fun _ => True) reader

section
variable (c : Char) (w : Text) (q : Char → Bool)

@[simp] theorem leaves_pure (v : α) : Leaves (pure v) := takes_pure v

@[simp] theorem leaves_char : Leaves (char c) := takes_char trivial

@[simp] theorem leaves_maybe : Leaves (maybe c) := takes_maybe trivial

@[simp] theorem leaves_satisfy : Leaves (satisfy q) := takes_satisfy fun _ _ => trivial

@[simp] theorem leaves_literal : Leaves (literal w) := takes_literal fun _ _ => trivial

@[simp] theorem leaves_keyword : Leaves (keyword w) := takes_keyword fun _ _ _ _ => trivial

@[simp] theorem leaves_run : Leaves (run q) := takes_run fun _ _ => trivial

@[simp] theorem leaves_run1 : Leaves (run1 q) := takes_run1 fun _ _ => trivial

@[simp] theorem leaves_blanks : Leaves blanks := takes_blanks fun _ _ => trivial

@[simp] theorem leaves_blanks1 : Leaves blanks1 := (leaves_run1 _).bind fun _ => leaves_pure ()

end

theorem Takes.leaves {p : Char → Prop} (h : Takes p reader) : Leaves reader := by
  intro s v r hs
  obtain ⟨w, rfl, -⟩ := h s v r hs
  exact ⟨w, rfl, fun _ _ => trivial⟩

theorem Takes.suffix {p : Char → Prop} (h : Takes p reader) (hs : reader s = some (v, r)) :
    r <:+ s := by
  obtain ⟨w, rfl, -⟩ := h s v r hs
  exact List.suffix_append w r

/-- The stretch before an end, in which no end is found, and the end. -/
theorem upTo_eq_some_iff {t : Text} :
    upTo reader s = some ((t, v), r) ↔
      ∃ b, s = t ++ b ∧ Refuses reader t b ∧ reader b = some (v, r) := by
  constructor
  · intro h
    induction s generalizing t with
    | nil =>
      obtain ⟨⟨v', r'⟩, found, he⟩ := Option.map_eq_some_iff.1 h
      obtain ⟨⟨rfl, rfl⟩, rfl⟩ : ([] = t ∧ v' = v) ∧ r' = r := by simpa using he
      exact ⟨[], rfl, refuses_nil, found⟩
    | cons c s ih =>
      rw [upTo] at h
      split at h
      · next v' r' found =>
        obtain ⟨⟨rfl, rfl⟩, rfl⟩ : ([] = t ∧ v' = v) ∧ r' = r := by simpa using h
        exact ⟨c :: s, rfl, refuses_nil, found⟩
      · next none =>
        obtain ⟨⟨⟨t', v'⟩, r'⟩, found, he⟩ := Option.map_eq_some_iff.1 h
        obtain ⟨⟨rfl, rfl⟩, rfl⟩ : (c :: t' = t ∧ v' = v) ∧ r' = r := by simpa using he
        obtain ⟨b, rfl, refused, read⟩ := ih found
        exact ⟨b, rfl, refuses_cons.2 ⟨none, refused⟩, read⟩
  · rintro ⟨b, rfl, refused, read⟩
    exact upTo_append refused read

/-- The stretch before an end, and the end. -/
theorem upTo_eq_some {t : Text} (h : upTo reader s = some ((t, v), r)) :
    ∃ b, s = t ++ b ∧ reader b = some (v, r) := by
  obtain ⟨b, he, -, read⟩ := upTo_eq_some_iff.1 h
  exact ⟨b, he, read⟩

theorem Takes.upTo (h : Leaves reader) : Leaves (upTo reader) := by
  rintro s ⟨t, v⟩ r hs
  obtain ⟨b, rfl, hb⟩ := upTo_eq_some hs
  obtain ⟨w, rfl, -⟩ := h b v r hb
  exact ⟨t ++ w, (List.append_assoc t w r).symm, fun _ _ => trivial⟩

/-- The reader takes at least one character. -/
def Proceeds (reader : Reader α) : Prop :=
  ∀ s v r, reader s = some (v, r) → ∃ w, w ≠ [] ∧ s = w ++ r

theorem Proceeds.leaves (h : Proceeds reader) : Leaves reader := by
  intro s v r hs
  obtain ⟨w, -, rfl⟩ := h s v r hs
  exact ⟨w, rfl, fun _ _ => trivial⟩

@[simp] theorem proceeds_char (c : Char) : Proceeds (char c) := by
  intro s v r h
  obtain rfl := char_eq_some.1 h
  exact ⟨[c], List.cons_ne_nil c [], rfl⟩

theorem Proceeds.bind {f : α → Reader β} (h : Proceeds reader) (hf : ∀ v, Leaves (f v)) :
    Proceeds (reader >>= f) := by
  intro s v r hs
  obtain ⟨u, t, h₁, h₂⟩ := bind_eq_some.1 hs
  obtain ⟨a, ha, rfl⟩ := h s u t h₁
  obtain ⟨b, rfl, -⟩ := hf u t v r h₂
  exact ⟨a ++ b, by simp [ha], (List.append_assoc a b r).symm⟩

/-- A stretch up to an end does not pass a place where an end stands. -/
theorem upTo_within {t : Text} (h : upTo reader (a ++ b) = some ((t, v), r))
    (hb : reader b ≠ none) : t <+: a := by
  induction a generalizing t with
  | nil =>
    rw [List.nil_append] at h
    obtain ⟨⟨v', r'⟩, found⟩ := Option.ne_none_iff_exists'.1 hb
    cases b with
    | nil =>
      rw [upTo, found] at h
      obtain ⟨⟨rfl, -⟩, -⟩ : ([] = t ∧ v' = v) ∧ r' = r := by simpa using h
      exact List.prefix_rfl
    | cons c b =>
      rw [upTo, found] at h
      obtain ⟨⟨rfl, -⟩, -⟩ : ([] = t ∧ v' = v) ∧ r' = r := by simpa using h
      exact List.prefix_rfl
  | cons c a ih =>
    rw [List.cons_append, upTo] at h
    split at h
    · next v' r' _ =>
      obtain ⟨⟨rfl, -⟩, -⟩ : ([] = t ∧ v' = v) ∧ r' = r := by simpa using h
      exact List.nil_prefix
    · obtain ⟨⟨⟨t', v'⟩, r'⟩, found, he⟩ := Option.map_eq_some_iff.1 h
      obtain ⟨⟨rfl, rfl⟩, rfl⟩ : (c :: t' = t ∧ v' = v) ∧ r' = r := by simpa using he
      exact List.cons_prefix_cons.2 ⟨rfl, ih found⟩

/-- An end that stands in the text, or one in front of it, is found. -/
theorem upTo_ne_none (hb : reader b ≠ none) : upTo reader (a ++ b) ≠ none := by
  induction a with
  | nil =>
    obtain ⟨⟨v, r⟩, found⟩ := Option.ne_none_iff_exists'.1 hb
    cases b with
    | nil =>
      rw [List.nil_append, upTo, found]
      exact Option.some_ne_none _
    | cons c b =>
      rw [List.nil_append, upTo, found]
      exact Option.some_ne_none _
  | cons c a ih =>
    rw [List.cons_append, upTo]
    split
    · exact Option.some_ne_none _
    · rwa [ne_eq, Option.map_eq_none_iff]

/-- A text and its pieces, along the constructs in it. A construct of which nothing is taken leaves
the character where it stands. -/
theorem pieces_induction {R : Text → List (Piece α) → Prop} (h : Leaves reader) (nil : R [] [])
    (plain : ∀ c s, (∀ v r, reader (c :: s) = some (v, r) → r = c :: s) →
      R s (pieces reader s) → R (c :: s) (.plain c :: pieces reader s))
    (found : ∀ w v r, w ≠ [] → reader (w ++ r) = some (v, r) →
      R r (pieces reader r) → R (w ++ r) (.found w v :: pieces reader r))
    (s : Text) : R s (pieces reader s) := by
  induction s using pieces.induct reader with
  | case1 =>
    rw [pieces]
    exact nil
  | case2 c s v r read shorter ih =>
    obtain ⟨w, he, -⟩ := h _ _ _ read
    have taken : w ≠ [] := by
      rintro rfl
      rw [← show c :: s = r from he, List.length_cons] at shorter
      omega
    rw [he] at read ⊢
    rw [pieces_of_reads read taken]
    exact found w v r taken read ih
  | case3 c s v r read longer ih =>
    obtain ⟨w, he, -⟩ := h _ _ _ read
    have lengths := congrArg List.length he
    rw [List.length_append, List.length_cons] at lengths
    obtain rfl : w = [] := List.eq_nil_of_length_eq_zero (by omega)
    have passed : pieces reader (c :: s) = .plain c :: pieces reader s := by
      rw [pieces, read]
      simp only [if_neg longer]
    rw [passed]
    refine plain c s (fun v' r' read' => ?_) ih
    rw [read] at read'
    rw [← (Prod.mk.inj (Option.some.inj read')).2]
    exact he.symm
  | case4 c s none ih =>
    rw [pieces, none]
    exact plain c s (fun v r read => by rw [none] at read; cases read) ih

/-- A text and what it becomes, along the constructs in it. -/
theorem replaceEvery_induction {write : α → Text} {R : Text → Text → Prop} (h : Leaves reader)
    (nil : R [] [])
    (plain : ∀ c s, (∀ v r, reader (c :: s) = some (v, r) → r = c :: s) →
      R s (replaceEvery reader write s) → R (c :: s) (c :: replaceEvery reader write s))
    (found : ∀ w v r, w ≠ [] → reader (w ++ r) = some (v, r) →
      R r (replaceEvery reader write r) → R (w ++ r) (write v ++ replaceEvery reader write r))
    (s : Text) : R s (replaceEvery reader write s) := by
  refine pieces_induction
    (R := fun s ps => pieces reader s = ps → R s (replaceEvery reader write s)) h ?_ ?_ ?_ s rfl
  · intro hp
    rw [replaceEvery, hp]
    exact nil
  · intro c s unread ih hp
    rw [replaceEvery, hp]
    exact plain c s unread (ih rfl)
  · intro w v r taken read ih hp
    rw [replaceEvery, hp]
    exact found w v r taken read (ih rfl)

/-- What is written in place of constructs comes from the text or from what is written for them. -/
theorem mem_replaceEvery {write : α → Text} (h : Leaves reader) (s : Text)
    (hc : c ∈ replaceEvery reader write s) : c ∈ s ∨ ∃ v, c ∈ write v := by
  refine replaceEvery_induction (R := fun s t => c ∈ t → c ∈ s ∨ ∃ v, c ∈ write v) h ?_ ?_ ?_ s hc
  · exact .inl
  · intro d s _ ih hc
    rcases List.mem_cons.1 hc with rfl | hc
    · exact .inl List.mem_cons_self
    · exact (ih hc).imp_left (List.mem_cons_of_mem d)
  · intro w v r _ _ ih hc
    rcases List.mem_append.1 hc with hc | hc
    · exact .inr ⟨v, hc⟩
    · exact (ih hc).imp_left (List.mem_append_right w)

/-- What is found in a text is read at some place in it. -/
theorem mem_findEvery (h : Leaves reader) (hv : v ∈ findEvery reader s) :
    ∃ a w r, s = a ++ (w ++ r) ∧ reader (w ++ r) = some (v, r) := by
  obtain ⟨piece, hp, he⟩ := List.mem_filterMap.1 hv
  cases piece with
  | plain c => cases he
  | found w u =>
    obtain rfl : u = v := Option.some.inj he
    refine pieces_induction (R := fun s ps => .found w u ∈ ps →
      ∃ a w r, s = a ++ (w ++ r) ∧ reader (w ++ r) = some (u, r)) h ?_ ?_ ?_ s hp
    · exact fun hp => absurd hp List.not_mem_nil
    · intro c s _ ih hp
      obtain ⟨a, t, r, rfl, read⟩ := ih ((List.mem_cons.1 hp).resolve_left nofun)
      exact ⟨c :: a, t, r, rfl, read⟩
    · intro w' u' r _ read ih hp
      rcases List.mem_cons.1 hp with he | hp
      · obtain ⟨rfl, rfl⟩ := Piece.found.inj he
        exact ⟨[], w, r, rfl, read⟩
      · obtain ⟨a, t, r, rfl, found⟩ := ih hp
        exact ⟨w' ++ a, t, r, (List.append_assoc w' a _).symm, found⟩

/-! ## Where readers end -/

/-- Whatever the reader takes ends with the character. -/
def EndsWith (c : Char) (reader : Reader α) : Prop :=
  ∀ s v r, reader s = some (v, r) → ∃ w, s = w ++ c :: r

@[simp] theorem endsWith_char (c : Char) : EndsWith c (char c) :=
  fun _ _ _ h => ⟨[], char_eq_some.1 h⟩

theorem endsWith_behind {f : α → Reader β} (h : Leaves reader) (hf : ∀ v, EndsWith c (f v)) :
    EndsWith c (reader >>= f) := by
  intro s v r hs
  obtain ⟨u, t, first, second⟩ := bind_eq_some.1 hs
  obtain ⟨a, rfl, -⟩ := h s u t first
  obtain ⟨b, rfl⟩ := hf u t v r second
  exact ⟨a ++ b, (List.append_assoc a b (c :: r)).symm⟩

/-- A reader that ends with the character, and then gives a value. -/
theorem EndsWith.bind_pure (h : EndsWith c reader) (f : α → β) :
    EndsWith c (reader >>= fun v => pure (f v)) := by
  intro s v r hs
  obtain ⟨u, t, first, second⟩ := bind_eq_some.1 hs
  obtain ⟨-, rfl⟩ := Prod.mk.inj (Option.some.inj second)
  exact h s u t first

theorem EndsWith.leaves (h : EndsWith c reader) : Leaves reader := by
  intro s v r hs
  obtain ⟨w, rfl⟩ := h s v r hs
  exact ⟨w ++ [c], by rw [List.append_assoc, List.singleton_append], fun _ _ => trivial⟩

/-! ## What readers need -/

section
variable {p : Char → Prop}

/-- The reader takes only texts in which a `c` stands behind characters with the property. -/
def Needs (p : Char → Prop) (c : Char) (reader : Reader α) : Prop :=
  ∀ s, reader s ≠ none → ∃ a b, s = a ++ c :: b ∧ ∀ d ∈ a, p d

@[simp] theorem needs_char (c : Char) : Needs p c (char c) := by
  intro s hs
  cases s with
  | nil => exact absurd rfl hs
  | cons d s =>
    by_cases hd : d = c
    · exact ⟨[], s, by rw [hd, List.nil_append], by simp⟩
    · exact absurd (if_neg hd) hs

theorem Needs.bind (h : Needs p c reader) (f : α → Reader β) : Needs p c (reader >>= f) :=
  fun s hs => h s fun hn => hs (bind_none hn f)

/-- What follows what a reader takes is needed behind it. -/
theorem needs_behind {f : α → Reader β} (h : Takes p reader) (hf : ∀ v, Needs p c (f v)) :
    Needs p c (reader >>= f) := by
  intro s hs
  obtain ⟨⟨v, r⟩, hv⟩ := Option.ne_none_iff_exists'.1 hs
  obtain ⟨u, t, h₁, h₂⟩ := bind_eq_some.1 hv
  obtain ⟨a, rfl, ha⟩ := h s u t h₁
  obtain ⟨a', b, rfl, ha'⟩ := hf u t (by rw [h₂]; exact Option.some_ne_none _)
  exact ⟨a ++ a', b, (List.append_assoc a a' (c :: b)).symm, List.forall_mem_append.2 ⟨ha, ha'⟩⟩

/-- A reader refuses where a character that it needs does not occur. -/
theorem Needs.refuses (h : Needs p c reader) (hs : c ∉ s) : Refuses reader s [] := by
  intro t ht hne
  by_contra hr
  obtain ⟨a, b, found, -⟩ := h _ hr
  rw [List.append_nil] at found
  exact hs (ht.subset (by simp [found]))

theorem Needs.findFirst_eq_none (h : Needs p c reader) (hs : c ∉ s) :
    findFirst reader s = none := by
  refine Reader.findFirst_eq_none.2 fun t ht => ?_
  by_contra hr
  obtain ⟨a, b, rfl, -⟩ := h t hr
  exact hs (ht.subset (by simp))

/-- A reader refuses where the character that it needs stands behind a character that it does not
take. -/
theorem Needs.refuses_before {stop : Char} (h : Needs p c reader) (hstop : ¬ p stop)
    (hc : c ∉ s ++ [stop]) (b : Text) : Refuses reader (s ++ [stop]) b := by
  intro t ht hne
  by_contra hr
  obtain ⟨a, r, found, ha⟩ := h _ hr
  obtain ⟨t, rfl⟩ : ∃ t', t = t' ++ [stop] := by
    rcases List.suffix_concat_iff.1 ht with rfl | ⟨t', rfl, -⟩
    · exact absurd rfl hne
    · exact ⟨t', rfl⟩
  have absent : c ∉ t ++ [stop] := fun hm => hc (ht.subset hm)
  rcases List.append_eq_append_iff.1 found with ⟨as, rfl, -⟩ | ⟨bs, hb, hr⟩
  · exact hstop (ha stop (by simp))
  · cases bs with
    | nil => exact hstop (ha stop (by rw [List.append_nil] at hb; simp [← hb]))
    | cons d bs =>
      obtain ⟨rfl, -⟩ := List.cons.inj hr
      exact absent (by simp [hb])

end

end ThemeProps.Reader
