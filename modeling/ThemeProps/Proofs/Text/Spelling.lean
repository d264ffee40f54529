/-
  Words in any letter case.

  * `Text.small` writes a text in small letters; a word is spelled by every text
    of which it is the small form, and `Reader.keyword_eq_some` says that these
    are what the reader of the word takes. Blanks and marks spell themselves only;
  * `Reader.BeginsWithin W reader`: the reader takes only texts that begin with one
    of the beginnings in `W`. `BeginsWithin.refuses` says where it refuses.
-/
import ThemeProps.Proofs.Text.Takes

namespace ThemeProps

/-! ## Small letters -/

namespace Text

variable {t : Text} {c : Char}

/-- The text in small letters. -/
def small (t : Text) : Text := t.map smallLetter

@[simp] theorem small_cons (c : Char) (t : Text) : small (c :: t) = smallLetter c :: small t := rfl

@[simp] theorem length_small (t : Text) : (small t).length = t.length := List.length_map _

@[simp, grind =]
theorem sameLetter_iff {letter : Char} : sameLetter letter c = true ↔ smallLetter c = letter :=
  beq_iff_eq

/-- A character that is not in the small form is not in the text. -/
theorem notMem_of_small (hc : smallLetter c ∉ small t) : c ∉ t :=
  fun h => hc (List.mem_map_of_mem h)

/-- A blank has no small form but itself. -/
theorem smallLetter_of_isBlank (h : isBlank c = true) : smallLetter c = c := by
  by_contra hc
  have noBlank : isBlank c = false :=
    isBlank_eq_false (p := fun c => smallLetter c ≠ c) (by decide +kernel) (decide_eq_true hc)
  rw [noBlank] at h
  cases h

end Text

namespace Reader

variable {α β : Type} {reader : Reader α} {a s t w r : Text}

/-- A word is read off a text that begins with a spelling of it. -/
theorem keyword_eq_some {u : Unit} :
    keyword w s = some (u, r) ↔ ∃ t, Text.small t = w ∧ s = t ++ r := by
  induction w generalizing s with
  | nil =>
    constructor
    · intro h
      exact ⟨[], rfl, (Prod.mk.inj (Option.some.inj h)).2⟩
    · rintro ⟨t, spelled, rfl⟩
      obtain rfl : t = [] := List.map_eq_nil_iff.1 spelled
      rfl
  | cons letter w ih =>
    cases s with
    | nil =>
      constructor
      · intro h
        cases h
      · rintro ⟨t, spelled, he⟩
        obtain ⟨rfl, -⟩ := List.append_eq_nil_iff.1 he.symm
        cases spelled
    | cons c s =>
      rw [keyword]
      constructor
      · intro h
        split at h
        · next same =>
          obtain ⟨t, spelled, rfl⟩ := ih.1 h
          refine ⟨c :: t, ?_, rfl⟩
          rw [Text.small_cons, Text.sameLetter_iff.1 same, spelled]
        · cases h
      · rintro ⟨t, spelled, he⟩
        cases t with
        | nil => cases spelled
        | cons d t =>
          obtain ⟨rfl, rfl⟩ := List.cons.inj he
          obtain ⟨same, spelled⟩ := List.cons.inj spelled
          rw [if_pos (Text.sameLetter_iff.2 same)]
          exact ih.2 ⟨t, spelled, rfl⟩

theorem reads_spelling (h : Text.small t = w) (r : Text) : keyword w (t ++ r) = some ((), r) :=
  keyword_eq_some.2 ⟨t, h, rfl⟩

/-- A word that is read within a text stands at the beginning of its small form. -/
theorem prefix_of_keyword (within : w.length ≤ t.length) (h : keyword w (t ++ s) ≠ none) :
    w <+: Text.small t := by
  obtain ⟨⟨_, r⟩, read⟩ := Option.ne_none_iff_exists'.1 h
  obtain ⟨u, rfl, he⟩ := keyword_eq_some.1 read
  have front : u <+: t := by
    refine List.prefix_of_prefix_length_le ⟨r, he.symm⟩ (List.prefix_append t s) ?_
    rwa [Text.length_small] at within
  exact front.map _

/-! ## Several beginnings -/

/-- The reader takes only texts that begin with one of the beginnings. -/
def BeginsWithin (W : Text → Prop) (reader : Reader α) : Prop :=
  ∀ s, reader s ≠ none → ∃ w, W w ∧ w <+: s

variable {W : Text → Prop}

theorem BeginsWithin.bind (h : BeginsWithin W reader) (f : α → Reader β) :
    BeginsWithin W (reader >>= f) :=
  fun s hs => h s fun hn => hs (bind_none hn f)

theorem beginsWithin_keyword (h : ∀ t, Text.small t = w → W t) : BeginsWithin W (keyword w) := by
  intro s hs
  obtain ⟨⟨_, r⟩, read⟩ := Option.ne_none_iff_exists'.1 hs
  obtain ⟨t, spelled, rfl⟩ := keyword_eq_some.1 read
  exact ⟨t, h t spelled, List.prefix_append t r⟩

/-- A reader refuses where none of its beginnings occurs, if the text behind begins with a character
that stands in no beginning but in front. -/
theorem BeginsWithin.refuses (h : BeginsWithin W reader) (free : ∀ w, W w → ¬ w <:+: a)
    (front : ∀ w, W w → ∃ d v, w = d :: v ∧ ∀ c ∈ s.head?, c ∉ v) : Refuses reader a s := by
  intro t ht hne
  by_contra read
  obtain ⟨w, hw, begins⟩ := h _ read
  suffices inside : w <+: t from free w hw (inside.isInfix.trans ht.isInfix)
  cases s with
  | nil => rwa [List.append_nil] at begins
  | cons c s =>
    obtain ⟨d, v, rfl, notMem⟩ := front w hw
    obtain ⟨d', t, rfl⟩ := List.exists_cons_of_ne_nil hne
    obtain ⟨rfl, further⟩ := List.cons_prefix_cons.1 begins
    exact List.cons_prefix_cons.2 ⟨rfl, (Text.prefix_append_cons (notMem c rfl)).1 further⟩

end Reader
end ThemeProps
