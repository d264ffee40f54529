/-
  What readers do at the beginning of a text.

  * `bind_of` and `bind_none` run a reader made of two, once it is known what the
    first one does; `reads_literal`, `reads_run1` and so on say that for single
    constructs with text behind them;
  * `Stops`: a run of characters ends where the text behind it stops it;
  * `Yields`: the values that a reader gives have some property.
-/
import ThemeProps.Text.Reader
import ThemeProps.Proofs.Text.Basic

namespace ThemeProps.Reader

variable {α β : Type} {p : Char → Bool} {s t r : Text}

/-! ## Readers one after the other -/

theorem bind_of {x : Reader α} {a : α} (h : x s = some (a, r)) (f : α → Reader β) :
    (x >>= f) s = f a r := by
  show (x s).bind (fun q => f q.1 q.2) = _
  rw [h]; rfl

theorem bind_none {x : Reader α} (h : x s = none) (f : α → Reader β) : (x >>= f) s = none := by
  show (x s).bind (fun q => f q.1 q.2) = _
  rw [h]; rfl

/-- Two readers in a row succeed if both do. -/
theorem bind_eq_some {x : Reader α} {f : α → Reader β} {b : β} :
    (x >>= f) s = some (b, r) ↔ ∃ a t, x s = some (a, t) ∧ f a t = some (b, r) := by
  show (x s).bind (fun q => f q.1 q.2) = _ ↔ _
  rw [Option.bind_eq_some_iff]
  constructor
  · rintro ⟨⟨a, t⟩, h₁, h₂⟩; exact ⟨a, t, h₁, h₂⟩
  · rintro ⟨a, t, h₁, h₂⟩; exact ⟨(a, t), h₁, h₂⟩

theorem orElse_of {x y : Reader α} {a : α} (h : x s = some (a, r)) :
    (x <|> y) s = some (a, r) := by
  show (x s <|> y s) = _
  rw [h]; rfl

theorem orElse_none {x y : Reader α} (h : x s = none) : (x <|> y) s = y s := by
  show (x s <|> y s) = _
  rw [h]; rfl

/-- What one of two readers takes is taken by the first or by the second. -/
theorem orElse_eq_some {x y : Reader α} {a : α} (h : (x <|> y) s = some (a, r)) :
    x s = some (a, r) ∨ y s = some (a, r) := by
  cases hx : x s with
  | none => exact .inr ((orElse_none hx).symm.trans h)
  | some found => exact .inl ((orElse_of hx).symm.trans h)

/-! ## Single constructs -/

@[simp, grind =] theorem reads_literal (w s : Text) : literal w (w ++ s) = some ((), s) := by
  rw [literal, Text.stripFrom_append]; rfl

@[simp, grind =]
theorem literal_eq_some {w : Text} {u : Unit} : literal w s = some (u, r) ↔ s = w ++ r := by
  rw [literal, Option.map_eq_some_iff]
  constructor
  · rintro ⟨r', h, he⟩; obtain rfl : r' = r := (Prod.mk.inj he).2
    exact Text.stripFrom_eq_some.1 h
  · rintro rfl; exact ⟨r, Text.stripFrom_append w r, rfl⟩

@[simp, grind =] theorem literal_eq_none {w : Text} : literal w s = none ↔ ¬ w <+: s := by
  rw [literal, Option.map_eq_none_iff, Text.stripFrom_eq_none]

/-- A word is read in its own letters. -/
theorem reads_keyword {w : Text} (h : ∀ c ∈ w, Text.sameLetter c c = true) (s : Text) :
    keyword w (w ++ s) = some ((), s) := by
  induction w with
  | nil => rfl
  | cons c w ih =>
    rw [List.forall_mem_cons] at h
    rw [List.cons_append, keyword, if_pos h.1, ih h.2]

/-- No character with the property stands at the beginning of the text. -/
def Stops (p : Char → Bool) (s : Text) : Prop := ∀ c ∈ s.head?, p c = false

@[simp] theorem stops_nil : Stops p [] := fun _ h => by cases h

@[simp] theorem stops_cons {c : Char} : Stops p (c :: s) ↔ p c = false := by
  simp [Stops]

instance : Decidable (Stops p s) :=
  decidable_of_iff (s.head?.all (! p ·) = true) (by cases s <;> simp [Stops])

theorem stops_append (hs : s ≠ []) (h : Stops p s) (t : Text) : Stops p (s ++ t) := by
  obtain ⟨c, s, rfl⟩ := List.exists_cons_of_ne_nil hs
  exact h

@[simp] theorem stops_dropWhile : Stops p (s.dropWhile p) := by
  intro c hc
  have first := List.head?_dropWhile_not p s
  rw [hc] at first
  exact first

theorem takeWhile_append_stops (h : ∀ c ∈ s, p c = true) (ht : Stops p t) :
    (s ++ t).takeWhile p = s := by
  rw [List.takeWhile_append_of_pos h]
  cases t with
  | nil => simp
  | cons c t => rw [List.takeWhile_cons_of_neg (by simpa using ht), List.append_nil]

theorem dropWhile_append_stops (h : ∀ c ∈ s, p c = true) (ht : Stops p t) :
    (s ++ t).dropWhile p = t := by
  rw [List.dropWhile_append_of_pos h]
  cases t with
  | nil => rfl
  | cons c t => rw [List.dropWhile_cons_of_neg (by simpa using ht)]

theorem reads_run1 (hs : s ≠ []) (h : ∀ c ∈ s, p c = true) (ht : Stops p t) :
    run1 p (s ++ t) = some (s, t) := by
  obtain ⟨c, s, rfl⟩ := List.exists_cons_of_ne_nil hs
  have hs : ∀ d ∈ s, p d = true := fun d hd => h d (by simp [hd])
  rw [List.cons_append, run1, if_pos (h c (by simp)), takeWhile_append_stops hs ht,
    dropWhile_append_stops hs ht]

theorem reads_run (h : ∀ c ∈ s, p c = true) (ht : Stops p t) : run p (s ++ t) = some (s, t) := by
  rw [run, takeWhile_append_stops h ht, dropWhile_append_stops h ht]

@[simp] theorem run1_none (h : Stops p s) : run1 p s = none := by
  cases s with
  | nil => rfl
  | cons c s => rw [run1, if_neg (by simpa using h)]

/-- Blanks before other text. -/
theorem reads_blanks_append (hs : ∀ c ∈ s, Text.isBlank c = true) (h : Stops Text.isBlank t) :
    blanks (s ++ t) = some ((), t) := by
  rw [blanks, dropWhile_append_stops hs h]

theorem reads_blanks_cons {c : Char} (hc : Text.isBlank c = true) (h : Stops Text.isBlank s) :
    blanks (c :: s) = some ((), s) :=
  reads_blanks_append (s := [c]) (by simpa using hc) h

/-- One blank before other text. -/
theorem reads_blanks1 (h : Stops Text.isBlank s) : blanks1 (' ' :: s) = some ((), s) := by
  have : run1 Text.isBlank ([' '] ++ s) = some ([' '], s) :=
    reads_run1 (by simp) (by simp; decide) h
  exact bind_of this _

/-- All blanks in front are read, those of the text behind included. -/
theorem reads_blanks1_append (hs : s ≠ []) (blank : ∀ c ∈ s, Text.isBlank c = true) (t : Text) :
    blanks1 (s ++ t) = some ((), t.dropWhile Text.isBlank) := by
  obtain ⟨c, s, rfl⟩ := List.exists_cons_of_ne_nil hs
  rw [List.forall_mem_cons] at blank
  have run : run1 Text.isBlank (c :: (s ++ t)) = some _ := if_pos blank.1
  rw [List.cons_append, blanks1, bind_of run, List.dropWhile_append_of_pos blank.2]
  rfl

@[simp, grind =] theorem reads_char (c : Char) (s : Text) : char c (c :: s) = some ((), s) := by
  rw [char, if_pos rfl]

@[simp, grind =]
theorem char_eq_some {c : Char} {u : Unit} : char c s = some (u, r) ↔ s = c :: r := by
  refine ⟨fun h => ?_, fun h => h ▸ reads_char c r⟩
  cases s with
  | nil => cases h
  | cons d s =>
    rw [char] at h
    split at h
    · next hd => rw [hd, (Prod.mk.inj (Option.some.inj h)).2]
    · cases h

@[simp] theorem char_of_ne {c d : Char} (h : d ≠ c) : char c (d :: s) = none := if_neg h

@[simp]
theorem maybe_of_ne {c d : Char} (h : d ≠ c) : maybe c (d :: s) = some ((), d :: s) := if_neg h

theorem maybe_eq_some {c : Char} {u : Unit} (h : maybe c s = some (u, r)) : s = r ∨ s = c :: r := by
  cases s with
  | nil => exact .inl (Prod.mk.inj (Option.some.inj h)).2
  | cons d s =>
    rw [maybe] at h
    split at h
    · next hd => exact .inr (by rw [hd, (Prod.mk.inj (Option.some.inj h)).2])
    · exact .inl (Prod.mk.inj (Option.some.inj h)).2

/-! ## What readers give -/

/-- Whatever the reader reads, its value has the property. -/
def Yields (q : α → Prop) (reader : Reader α) : Prop := ∀ s v r, reader s = some (v, r) → q v

section
variable {q : α → Prop} {q' : β → Prop}

@[simp]
theorem yields_any (reader : Reader α) : Yields (fun _ => True) reader := fun _ _ _ _ => trivial

theorem yields_pure {v : α} (h : q v) : Yields q (pure v) := by
  intro s v' r read
  obtain ⟨rfl, -⟩ := Prod.mk.inj (Option.some.inj read)
  exact h

theorem Yields.bind {x : Reader α} {f : α → Reader β} (hx : Yields q x)
    (hf : ∀ a, q a → Yields q' (f a)) : Yields q' (x >>= f) := by
  intro s v r read
  obtain ⟨a, t, first, then_⟩ := bind_eq_some.1 read
  exact hf a (hx _ _ _ first) _ _ _ then_

theorem Yields.orElse {x y : Reader α} (hx : Yields q x) (hy : Yields q y) :
    Yields q (x <|> y) := by
  intro s v r read
  cases h : x s with
  | none =>
    rw [orElse_none h] at read
    exact hy _ _ _ read
  | some found =>
    rw [orElse_of h] at read
    exact hx _ _ _ (h.trans read)

end

end ThemeProps.Reader
