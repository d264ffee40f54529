/-
  Carving texts that are put together from pieces.

  * `Refuses reader a b`: the reader finds nothing at any position of `a` if `b`
    follows it. `pieces_append` says that `a` is then passed over, and
    `pieces_of_reads` what a construct in front does;
  * what is made from the pieces follows: `replaceEvery_append` and
    `replaceEvery_of_reads`, `findEvery_append` and `findEvery_of_reads`, and
    `upTo_append` for the search for an end. Where writing may go wrong,
    `eq_of_replaceEveryM` says what is there if it does not;
  * `findFirst_append` is the first construct behind a text that is passed over;
  * `Begins w reader`: the reader takes only texts that begin with `w`. This says
    where a reader refuses.
-/
import ThemeProps.Text.Pieces
import ThemeProps.Proofs.Text.Reader

namespace ThemeProps.Reader

variable {α β : Type} {reader : Reader α} {a a' b s r w : Text} {c : Char} {v : α}

/-! ## Texts that are passed over -/

/-- The reader finds nothing at any position of `a` if `b` follows. -/
def Refuses (reader : Reader α) (a b : Text) : Prop :=
  ∀ t, t <:+ a → t ≠ [] → reader (t ++ b) = none

@[simp] theorem refuses_nil : Refuses reader [] b := fun _ h hne => absurd (List.suffix_nil.1 h) hne

@[grind =] theorem refuses_cons :
    Refuses reader (c :: a) b ↔ reader (c :: (a ++ b)) = none ∧ Refuses reader a b := by
  constructor
  · intro h
    exact ⟨h (c :: a) List.suffix_rfl (List.cons_ne_nil c a),
      fun t ht => h t (ht.trans (List.suffix_cons c a))⟩
  · rintro ⟨here, there⟩ t ht hne
    rcases List.suffix_cons_iff.1 ht with rfl | ht
    · exact here
    · exact there t ht hne

theorem refuses_append :
    Refuses reader (a ++ a') b ↔ Refuses reader a (a' ++ b) ∧ Refuses reader a' b := by
  induction a with
  | nil => simp
  | cons c a ih =>
    rw [List.cons_append, refuses_cons, refuses_cons, ih, List.append_assoc, and_assoc]

theorem refuses_flatMap {ι : Type} {f : ι → Text} {is : List ι}
    (h : ∀ i ∈ is, ∀ b, Refuses reader (f i) b) (b : Text) : Refuses reader (is.flatMap f) b := by
  induction is with
  | nil => exact refuses_nil
  | cons i is ih =>
    rw [List.forall_mem_cons] at h
    exact refuses_append.2 ⟨h.1 _, ih h.2⟩

theorem Refuses.bind (h : Refuses reader a b) (f : α → Reader β) : Refuses (reader >>= f) a b :=
  fun t ht hne => bind_none (h t ht hne) f

theorem Refuses.orElse {other : Reader α} (h : Refuses reader a b) (h' : Refuses other a b) :
    Refuses (reader <|> other) a b :=
  fun t ht hne => (orElse_none (h t ht hne)).trans (h' t ht hne)

/-! ## Pieces -/

/-- What is refused is passed over character by character. -/
theorem pieces_append (h : Refuses reader a b) :
    pieces reader (a ++ b) = a.map .plain ++ pieces reader b := by
  induction a with
  | nil => rfl
  | cons c a ih =>
    obtain ⟨here, there⟩ := refuses_cons.1 h
    rw [List.cons_append, pieces, here, ih there]
    rfl

theorem pieces_of_refuses (h : Refuses reader s []) : pieces reader s = s.map .plain := by
  have all := pieces_append h
  rwa [List.append_nil, pieces, List.append_nil] at all

/-- A construct in front is found. -/
theorem pieces_of_reads (h : reader (w ++ r) = some (v, r)) (hw : w ≠ []) :
    pieces reader (w ++ r) = .found w v :: pieces reader r := by
  obtain ⟨c, w, rfl⟩ := List.exists_cons_of_ne_nil hw
  rw [List.cons_append] at h
  rw [List.cons_append, pieces, h]
  have shorter : r.length ≤ (w ++ r).length := by simp
  have taken : (w ++ r).length + 1 - r.length = (c :: w).length := by simp; omega
  simp only [if_pos shorter, taken]
  rw [← List.cons_append, List.take_left]

/-! ## Replacing and finding -/

theorem replaceEvery_append {write : α → Text} (h : Refuses reader a b) :
    replaceEvery reader write (a ++ b) = a ++ replaceEvery reader write b := by
  rw [replaceEvery, pieces_append h, List.flatMap_append, List.flatMap_map, List.flatMap_singleton',
    replaceEvery]

theorem replaceEvery_of_refuses {write : α → Text} (h : Refuses reader s []) :
    replaceEvery reader write s = s := by
  rw [replaceEvery, pieces_of_refuses h, List.flatMap_map, List.flatMap_singleton']

theorem replaceEvery_of_reads {write : α → Text} (h : reader (w ++ r) = some (v, r)) (hw : w ≠ []) :
    replaceEvery reader write (w ++ r) = write v ++ replaceEvery reader write r := by
  rw [replaceEvery, pieces_of_reads h hw, List.flatMap_cons, replaceEvery]

/-- What is made from a text, one piece in front after the other. -/
theorem piecewise_flatMap {γ ι : Type} {F : Text → List γ} {f : ι → Text} {g : ι → List γ}
    {is : List ι} (h : ∀ i ∈ is, ∀ b, F (f i ++ b) = g i ++ F b) (b : Text) :
    F (is.flatMap f ++ b) = is.flatMap g ++ F b := by
  induction is with
  | nil => rfl
  | cons i is ih =>
    rw [List.forall_mem_cons] at h
    rw [List.flatMap_cons, List.append_assoc, h.1, ih h.2, List.flatMap_cons, List.append_assoc]

section
variable {m : Type → Type} [Monad m] [LawfulMonad m] {write : α → m Text}

theorem replaceEveryM_append (h : Refuses reader a b) :
    replaceEveryM reader write (a ++ b) = (a ++ ·) <$> replaceEveryM reader write b := by
  rw [replaceEveryM, replaceEveryM, pieces_append h]
  clear h
  induction a with
  | nil => exact (id_map _).symm
  | cons c a ih =>
    rw [List.map_cons, List.cons_append, writePieces, ih, bind_pure_comp, Functor.map_map]
    rfl

theorem replaceEveryM_of_refuses (h : Refuses reader s []) :
    replaceEveryM reader write s = pure s := by
  have all : replaceEveryM reader write (s ++ []) = _ := replaceEveryM_append h
  have behind : replaceEveryM reader write [] = pure [] := by
    rw [replaceEveryM, pieces, writePieces]
  rwa [List.append_nil, behind, map_pure, List.append_nil] at all

end

section
variable {m : Type → Type} [Monad m] [LawfulMonad m] {ι : Type} {F : Text → m Text} {f : ι → Text}
  {is : List ι}

/-- What an action makes from a text, one piece in front after the other. -/
theorem piecewise_mapM {g : ι → m Text}
    (h : ∀ i ∈ is, ∀ b, F (f i ++ b) = do return (← g i) ++ (← F b)) (b : Text) :
    F (is.flatMap f ++ b) = do return (← is.mapM g).flatten ++ (← F b) := by
  induction is with
  | nil => simp
  | cons i is ih =>
    rw [List.forall_mem_cons] at h
    rw [List.flatMap_cons, List.append_assoc, h.1, ih h.2, List.mapM_cons]
    simp only [bind_assoc, pure_bind, List.flatten_cons, List.append_assoc]

/-- So it does if only what comes behind the pieces is an action. -/
theorem piecewise_flatMapM {g : ι → Text}
    (h : ∀ i ∈ is, ∀ b, F (f i ++ b) = (g i ++ ·) <$> F b) (b : Text) :
    F (is.flatMap f ++ b) = (is.flatMap g ++ ·) <$> F b := by
  have each : ∀ i ∈ is, ∀ b, F (f i ++ b) = do return (← pure (g i)) ++ (← F b) := by
    intro i hi b
    rw [h i hi b, pure_bind, bind_pure_comp]
  rw [piecewise_mapM each b]
  simp [List.flatMap]

end

theorem replaceEveryM_of_reads {m : Type → Type} [Monad m] {write : α → m Text}
    (h : reader (w ++ r) = some (v, r)) (hw : w ≠ []) :
    replaceEveryM reader write (w ++ r) = (do
      let here ← write v
      let there ← replaceEveryM reader write r
      return here ++ there) := by
  rw [replaceEveryM, pieces_of_reads h hw, writePieces, replaceEveryM]

/-- If no writing goes wrong, the constructs are replaced by what is written for them. -/
theorem eq_of_replaceEveryM {ε : Type} {write : α → Except ε Text} {t : Text}
    (h : replaceEveryM reader write s = .ok t) :
    t = replaceEvery reader (fun v => (write v).toOption.getD []) s := by
  rw [replaceEveryM] at h
  rw [replaceEvery]
  generalize pieces reader s = ps at h
  induction ps generalizing t with
  | nil =>
    rw [writePieces] at h
    cases h
    rfl
  | cons p ps ih =>
    cases p with
    | plain c =>
      rw [writePieces] at h
      cases hps : writePieces write ps with
      | error e => rw [hps] at h; cases h
      | ok u =>
        rw [hps] at h
        cases h
        rw [List.flatMap_cons, ← ih hps]
        rfl
    | found w v =>
      rw [writePieces] at h
      cases hv : write v with
      | error e => rw [hv] at h; cases h
      | ok here =>
        cases hps : writePieces write ps with
        | error e => rw [hv, hps] at h; cases h
        | ok u =>
          rw [hv, hps] at h
          cases h
          rw [List.flatMap_cons, ← ih hps]
          change here ++ u = (write v).toOption.getD [] ++ u
          rw [hv]
          rfl

theorem findEvery_append (h : Refuses reader a b) :
    findEvery reader (a ++ b) = findEvery reader b := by
  rw [findEvery, pieces_append h, List.filterMap_append, List.filterMap_map, findEvery]
  simp

theorem findEvery_of_refuses (h : Refuses reader s []) : findEvery reader s = [] := by
  have all := findEvery_append h
  rwa [List.append_nil, findEvery, findEvery, pieces] at all

theorem findEvery_of_reads (h : reader (w ++ r) = some (v, r)) (hw : w ≠ []) :
    findEvery reader (w ++ r) = v :: findEvery reader r := by
  rw [findEvery, pieces_of_reads h hw, findEvery]
  rfl

theorem startsFrom_plain (n : Nat) (a : Text) (ps : List (Piece α)) :
    startsFrom n (a.map .plain ++ ps) = startsFrom (n + a.length) ps := by
  induction a generalizing n with
  | nil => rfl
  | cons c a ih =>
    rw [List.map_cons, List.cons_append, startsFrom, ih, List.length_cons, Nat.add_right_comm,
      Nat.add_assoc]

/-- What is refused moves the constructs behind it on by its length. -/
theorem startsFrom_append (h : Refuses reader a b) (n : Nat) :
    startsFrom n (pieces reader (a ++ b)) = startsFrom (n + a.length) (pieces reader b) := by
  rw [pieces_append h, startsFrom_plain]

theorem startsFrom_of_reads (h : reader (w ++ r) = some (v, r)) (hw : w ≠ []) (n : Nat) :
    startsFrom n (pieces reader (w ++ r)) =
      (n, v) :: startsFrom (n + w.length) (pieces reader r) := by
  rw [pieces_of_reads h hw, startsFrom]

/-- The stretch before an end is the first one after which the end is found. -/
theorem upTo_append (h : Refuses reader a b) (hb : reader b = some (v, r)) :
    upTo reader (a ++ b) = some ((a, v), r) := by
  induction a with
  | nil =>
    cases b with
    | nil => rw [List.nil_append, upTo, hb]; rfl
    | cons d b => rw [List.nil_append, upTo, hb]
  | cons c a ih =>
    obtain ⟨here, there⟩ := refuses_cons.1 h
    rw [List.cons_append, upTo, here, ih there]
    rfl

/-! ## The first construct -/

/-- The first construct stands behind a stretch that is refused. -/
theorem findFirst_append (h : Refuses reader a b) (hb : reader b = some (v, r)) :
    findFirst reader (a ++ b) = some (a, v, r) := by
  induction a with
  | nil =>
    cases b with
    | nil => rw [List.nil_append, findFirst, hb]; rfl
    | cons d b => rw [List.nil_append, findFirst, hb]
  | cons c a ih =>
    obtain ⟨here, there⟩ := refuses_cons.1 h
    rw [List.cons_append, findFirst, here, ih there]
    rfl

/-- The first construct is read where the text before it ends. -/
theorem findFirst_eq_some (h : findFirst reader s = some (a, v, r)) :
    ∃ b, s = a ++ b ∧ reader b = some (v, r) := by
  induction s generalizing a with
  | nil =>
    obtain ⟨⟨u, t⟩, read, same⟩ := Option.map_eq_some_iff.1 h
    obtain ⟨rfl, rfl, rfl⟩ : [] = a ∧ u = v ∧ t = r := by simpa using same
    exact ⟨[], rfl, read⟩
  | cons c s ih =>
    rw [findFirst] at h
    split at h
    · next read =>
      obtain ⟨rfl, rfl, rfl⟩ := h
      exact ⟨c :: s, rfl, read⟩
    · obtain ⟨⟨before, u, t⟩, there, same⟩ := Option.map_eq_some_iff.1 h
      obtain ⟨rfl, rfl, rfl⟩ : c :: before = a ∧ u = v ∧ t = r := by simpa using same
      obtain ⟨b, rfl, read⟩ := ih there
      exact ⟨b, rfl, read⟩

/-- Where nothing is found, the reader takes no end of the text. -/
theorem findFirst_eq_none : findFirst reader s = none ↔ ∀ t, t <:+ s → reader t = none := by
  induction s with
  | nil => simp [findFirst]
  | cons c s ih =>
    rw [findFirst]
    constructor
    · intro h t ht
      split at h
      · cases h
      · next here =>
        rcases List.suffix_cons_iff.1 ht with rfl | ht
        · exact here
        · exact ih.1 (Option.map_eq_none_iff.1 h) t ht
    · intro h
      rw [h _ List.suffix_rfl]
      exact Option.map_eq_none_iff.2 (ih.2 fun t ht => h t (ht.trans (List.suffix_cons c s)))

/-! ## What readers ask for -/

/-- The reader takes only texts that begin with `w`. -/
def Begins (w : Text) (reader : Reader α) : Prop := ∀ s, reader s ≠ none → w <+: s

@[simp] theorem begins_nil : Begins [] reader := fun _ _ => List.nil_prefix

@[simp] theorem begins_literal (w : Text) : Begins w (literal w) := by
  intro s h
  by_contra hw
  exact h (literal_eq_none.2 hw)

theorem Begins.bind (h : Begins w reader) (f : α → Reader β) : Begins w (reader >>= f) :=
  fun s hs => h s fun hn => hs (bind_none hn f)

theorem Begins.orElse {other : Reader α} (h : Begins w reader) (h' : Begins w other) :
    Begins w (reader <|> other) := by
  intro s hs
  by_cases hr : reader s = none
  · rw [orElse_none hr] at hs
    exact h' s hs
  · exact h s hr

theorem begins_char_bind {f : Unit → Reader β} (h : Begins w (f ())) :
    Begins (c :: w) (char c >>= f) := by
  intro s hs
  cases s with
  | nil => exact absurd rfl hs
  | cons d s =>
    by_cases hd : d = c
    · subst hd
      rw [bind_of (reads_char d s)] at hs
      exact List.cons_prefix_cons.2 ⟨rfl, h s hs⟩
    · exact absurd (bind_none (if_neg hd) f) hs

/-- A reader refuses where its first character does not occur. -/
theorem Begins.refuses_of_notMem (h : Begins (c :: w) reader) (ha : c ∉ a) :
    Refuses reader a b := by
  intro t ht hne
  obtain ⟨d, t, rfl⟩ := List.exists_cons_of_ne_nil hne
  by_contra hs
  have first : c = d := (List.cons_prefix_cons.1 (h _ hs)).1
  exact ha (ht.subset (first ▸ List.mem_cons_self))

/-- A reader refuses where its first two characters do not follow each other. -/
theorem Begins.refuses_of_noPair {d : Char} (h : Begins (c :: d :: w) reader)
    (ha : Text.NoPair c d a) (b : Text) : Refuses reader a b := by
  induction a with
  | nil => exact refuses_nil
  | cons x a ih =>
    refine refuses_cons.2 ⟨?_, ih ha.2⟩
    by_contra hr
    obtain ⟨hx, hd⟩ := List.cons_prefix_cons.1 (h _ hr)
    have next := ha.1 hx.symm
    cases a with
    | nil => cases next
    | cons y a =>
      have hy : y ≠ d := by simpa using next
      exact hy (List.cons_prefix_cons.1 hd).1.symm

/-- A reader refuses where its first two characters do not stand together, if the text behind does
not begin with the second one. -/
theorem Begins.refuses_of_notInfix {d : Char} (h : Begins (c :: d :: w) reader)
    (ha : ¬ [c, d] <:+: a) (hb : Stops (· == d) b) : Refuses reader a b := by
  intro t ht hne
  obtain ⟨x, t, rfl⟩ := List.exists_cons_of_ne_nil hne
  by_contra hr
  obtain ⟨rfl, next⟩ := List.cons_prefix_cons.1 (h _ hr)
  cases t with
  | nil =>
    obtain ⟨r, rfl⟩ := next
    exact absurd hb (by simp)
  | cons y t =>
    obtain ⟨rfl, -⟩ := List.cons_prefix_cons.1 next
    exact ha ((List.prefix_append [c, d] t).isInfix.trans ht.isInfix)

/-- A reader refuses where its beginning does not occur, if the text behind begins with a character
that is not in the beginning. -/
theorem Begins.refuses_before (h : Begins w reader) (ha : ¬ w <:+: a)
    (hb : Stops (· ∈ w) b) : Refuses reader a b := by
  intro t ht hne
  by_contra hr
  rcases List.prefix_or_prefix_of_prefix (h _ hr) (List.prefix_append t b) with within | ⟨u, rfl⟩
  · exact ha (within.isInfix.trans ht.isInfix)
  · cases u with
    | nil => exact ha (by rw [List.append_nil]; exact ht.isInfix)
    | cons c u =>
      obtain ⟨r, hr⟩ := (List.prefix_append_right_inj t).1 (h _ hr)
      rw [← hr, List.cons_append, stops_cons] at hb
      exact of_decide_eq_false hb (by simp)

/-- A reader refuses where its beginning does not occur. -/
theorem Begins.refuses (h : Begins w reader) (hs : ¬ w <:+: s) : Refuses reader s [] :=
  h.refuses_before hs stops_nil

/-- A reader finds nothing where its beginning does not occur. -/
theorem Begins.findFirst_eq_none (h : Begins w reader) (hs : ¬ w <:+: s) :
    findFirst reader s = none := by
  have refused (t : Text) (ht : ¬ w <+: t) : reader t = none := by
    by_contra hr
    exact ht (h t hr)
  induction s with
  | nil => rw [findFirst, refused [] fun hp => hs hp.isInfix]; rfl
  | cons c s ih =>
    rw [List.infix_cons_iff, not_or] at hs
    rw [findFirst, refused _ hs.1, ih hs.2]
    rfl

/-- All constructs that are found have the property of all that the reader gives. -/
theorem Yields.of_mem_findEvery {q : α → Prop} (h : Yields q reader)
    (found : v ∈ findEvery reader s) : q v := by
  obtain ⟨piece, hp, he⟩ := List.mem_filterMap.1 found
  obtain ⟨w, rfl⟩ : ∃ w, piece = .found w v := by
    cases piece with
    | plain c => cases he
    | found w u => exact ⟨w, by rw [Option.some.inj he]⟩
  clear found he
  induction s using pieces.induct reader with
  | case1 =>
    rw [pieces] at hp
    exact absurd hp List.not_mem_nil
  | case2 c s u r read shorter ih =>
    rw [pieces, read] at hp
    simp only [if_pos shorter] at hp
    rcases List.mem_cons.1 hp with he | hp
    · rw [(Piece.found.inj he).2]
      exact h _ _ _ read
    · exact ih hp
  | case3 c s u r read longer ih =>
    rw [pieces, read] at hp
    simp only [if_neg longer] at hp
    exact ih ((List.mem_cons.1 hp).resolve_left nofun)
  | case4 c s none ih =>
    rw [pieces, none] at hp
    exact ih ((List.mem_cons.1 hp).resolve_left nofun)

/-- The first construct that is found has the property of all that the reader gives. -/
theorem Yields.of_findFirst {q : α → Prop} (h : Yields q reader)
    (found : findFirst reader s = some (b, v, r)) : q v := by
  induction s generalizing b with
  | nil =>
    obtain ⟨⟨w, t⟩, read, same⟩ := Option.map_eq_some_iff.1 found
    obtain ⟨rfl, rfl, rfl⟩ : [] = b ∧ w = v ∧ t = r := by simpa using same
    exact h _ _ _ read
  | cons c s ih =>
    rw [findFirst] at found
    split at found
    · next here =>
      obtain ⟨rfl, rfl, rfl⟩ := found
      exact h _ _ _ here
    · obtain ⟨⟨before, w, t⟩, there, same⟩ := Option.map_eq_some_iff.1 found
      obtain ⟨rfl, rfl, rfl⟩ : c :: before = b ∧ w = v ∧ t = r := by simpa using same
      exact ih there

end ThemeProps.Reader
