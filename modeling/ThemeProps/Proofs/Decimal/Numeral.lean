/-
  Numerals as they are written.

  * `Unsigned`, `Exponent` and `Written` are the parts of a numeral and the whole,
    with its text and what it stands for;
  * `Written.reads`: a numeral that is written in front of something else is read as
    it is, and `exists_written`: nothing else is read.
-/
import ThemeProps.Decimal.Numeral
import ThemeProps.Proofs.Text.Takes
import Mathlib.Tactic.Common

namespace ThemeProps.Numeral

open Text (isDigit)

/-- The character is a digit or a point. -/
def isPart (c : Char) : Bool := isDigit c || c == '.'

theorem isPart_of_isDigit {c : Char} (h : isDigit c = true) : isPart c = true :=
  Bool.or_eq_true_iff.2 (.inl h)

theorem stops_isDigit {s : Text} (h : Reader.Stops isPart s) : Reader.Stops isDigit s :=
  fun c hc => (Bool.or_eq_false_iff.1 (h c hc)).1

/-! ## Signs -/

/-- A plus or minus sign, or nothing. -/
inductive WrittenSign where
  | absent
  | plus
  | minus
deriving DecidableEq

namespace WrittenSign

def text : WrittenSign → Text
  | absent => []
  | plus => ['+']
  | minus => ['-']

/-- The character is a sign. -/
def isSign (c : Char) : Bool := c == '+' || c == '-'

theorem isSign_of_isPart {c : Char} (h : isPart c = true) : isSign c = false := by
  by_contra hs
  rw [Bool.not_eq_false, isSign, Bool.or_eq_true_iff, beq_iff_eq, beq_iff_eq] at hs
  rcases hs with rfl | rfl <;> exact absurd h (by decide)

theorem reads (s : WrittenSign) {t : Text} (ht : Reader.Stops isSign t) :
    sign (s.text ++ t) = some (decide (s = minus), t) := by
  cases s with
  | plus => rfl
  | minus => rfl
  | absent =>
    cases t with
    | nil => rfl
    | cons c t =>
      have other : ¬ (c = '+' ∨ c = '-') := by simpa [isSign] using ht
      show sign (c :: t) = _
      rw [sign.eq_def]
      split
      · next h => exact absurd (.inr (List.cons.inj h).1) other
      · next h => exact absurd (.inl (List.cons.inj h).1) other
      · rfl

end WrittenSign

theorem exists_sign {s r : Text} {negative : Bool} (h : sign s = some (negative, r)) :
    ∃ w : WrittenSign, s = w.text ++ r ∧ negative = decide (w = .minus) := by
  rw [sign.eq_def] at h
  split at h
  · obtain ⟨rfl, rfl⟩ := Prod.mk.inj (Option.some.inj h)
    exact ⟨.minus, rfl, rfl⟩
  · obtain ⟨rfl, rfl⟩ := Prod.mk.inj (Option.some.inj h)
    exact ⟨.plus, rfl, rfl⟩
  · obtain ⟨rfl, rfl⟩ := Prod.mk.inj (Option.some.inj h)
    exact ⟨.absent, rfl, rfl⟩

/-! ## Numbers without a sign -/

/-- Digits in front of a point and behind it, or without a point. -/
structure Unsigned where
  whole : Text
  fraction : Option Text
  /-- There are only digits, and there is one. -/
  digits : ∀ c ∈ whole ++ fraction.getD [], isDigit c = true
  nonempty : whole ++ fraction.getD [] ≠ []

namespace Unsigned

def text (u : Unsigned) : Text :=
  u.whole ++ match u.fraction with
    | none => []
    | some f => '.' :: f

def places (u : Unsigned) : Nat := (u.fraction.getD []).length

theorem isPart_of_mem (u : Unsigned) {c : Char} (hc : c ∈ u.text) : isPart c = true := by
  obtain ⟨whole, fraction, digits, nonempty⟩ := u
  have digit {c : Char} (hc : c ∈ whole ++ fraction.getD []) : isPart c = true :=
    isPart_of_isDigit (digits c hc)
  rcases List.mem_append.1 hc with hc | hc
  · exact digit (List.mem_append_left _ hc)
  · cases fraction with
    | none => cases hc
    | some f =>
      rcases List.mem_cons.1 hc with rfl | hc
      · decide
      · exact digit (List.mem_append_right _ hc)

theorem text_ne_nil (u : Unsigned) : u.text ≠ [] := by
  obtain ⟨whole, fraction, digits, nonempty⟩ := u
  cases fraction with
  | none => simpa [text] using nonempty
  | some f => simp [text]

theorem reads (u : Unsigned) {r : Text} (hr : Reader.Stops isPart r) :
    unsigned (u.text ++ r) = some ((u.whole ++ u.fraction.getD [], u.places), r) := by
  obtain ⟨whole, fraction, digits, nonempty⟩ := u
  obtain ⟨digits₁, digits₂⟩ := List.forall_mem_append.1 digits
  have stops := stops_isDigit hr
  have point : isDigit '.' = false := by decide
  cases fraction with
  | none =>
    have hwhole : whole ≠ [] := by simpa using nonempty
    show unsigned (whole ++ [] ++ r) = _
    rw [List.append_nil, unsigned, Reader.reads_run1 hwhole digits₁ stops]
    split
    · next h =>
      obtain ⟨-, rfl⟩ := Prod.mk.inj (Option.some.inj h)
      exact absurd (hr '.' rfl) (by decide)
    · next h =>
      obtain ⟨rfl, rfl⟩ := Prod.mk.inj (Option.some.inj h)
      simp [places]
    · next h => cases h
  | some f =>
    have digits₂ : ∀ c ∈ f, isDigit c = true := digits₂
    show unsigned (whole ++ '.' :: f ++ r) = _
    rw [List.append_assoc, List.cons_append]
    obtain rfl | hwhole := eq_or_ne whole []
    · have hf : f ≠ [] := by simpa using nonempty
      have read : pointed ('.' :: (f ++ r)) = some ((f, f.length), r) := by
        rw [pointed, Reader.bind_of (Reader.reads_char '.' _),
          Reader.bind_of (Reader.reads_run1 hf digits₂ stops)]
        rfl
      rw [List.nil_append, unsigned, Reader.run1_none (Reader.stops_cons.2 point)]
      exact read
    · rw [unsigned, Reader.reads_run1 hwhole digits₁ (Reader.stops_cons.2 point)]
      show some ((whole ++ (f ++ r).takeWhile isDigit, ((f ++ r).takeWhile isDigit).length),
        (f ++ r).dropWhile isDigit) = _
      rw [Reader.takeWhile_append_stops digits₂ stops, Reader.dropWhile_append_stops digits₂ stops]
      rfl

end Unsigned

theorem exists_unsigned {s r d : Text} {k : Nat} (h : unsigned s = some ((d, k), r)) :
    ∃ u : Unsigned, s = u.text ++ r ∧ d = u.whole ++ u.fraction.getD [] ∧ k = u.places := by
  rw [unsigned] at h
  split at h
  · next whole cs read =>
    obtain ⟨rfl, hwhole, digits⟩ := Reader.run1_eq_some read
    obtain ⟨⟨rfl, rfl⟩, rfl⟩ : (_ ∧ _) ∧ _ := by simpa only [Option.some_inj, Prod.mk.injEq] using h
    refine ⟨⟨whole, some (cs.takeWhile isDigit), ?_, by simp [hwhole]⟩, ?_, rfl, rfl⟩
    · exact List.forall_mem_append.2 ⟨digits, fun c hc => List.mem_takeWhile_imp hc⟩
    · show _ = whole ++ '.' :: cs.takeWhile isDigit ++ cs.dropWhile isDigit
      rw [List.append_assoc, List.cons_append, List.takeWhile_append_dropWhile]
  · next whole cs _ read =>
    obtain ⟨rfl, hwhole, digits⟩ := Reader.run1_eq_some read
    obtain ⟨⟨rfl, rfl⟩, rfl⟩ : (_ ∧ _) ∧ _ := by simpa only [Option.some_inj, Prod.mk.injEq] using h
    refine ⟨⟨whole, none, by simpa using digits, by simpa using hwhole⟩, ?_, ?_, rfl⟩
    · simp [Unsigned.text]
    · simp
  · obtain ⟨_, t, point, h⟩ := Reader.bind_eq_some.1 h
    obtain ⟨f, t', read, same⟩ := Reader.bind_eq_some.1 h
    obtain rfl := Reader.char_eq_some.1 point
    obtain ⟨rfl, hf, digits⟩ := Reader.run1_eq_some read
    obtain ⟨⟨rfl, rfl⟩, rfl⟩ : (_ ∧ _) ∧ _ := by
      simpa only [Option.some_inj, Prod.mk.injEq] using Option.some.inj same
    exact ⟨⟨[], some f, by simpa using digits, by simpa using hf⟩, rfl, rfl, rfl⟩

/-! ## Exponents -/

/-- The mark of an exponent, a sign and digits. -/
structure Exponent where
  mark : Char
  sign : WrittenSign
  digits : Text
  isMark : mark = 'e' ∨ mark = 'E'
  isDigits : ∀ c ∈ digits, isDigit c = true
  nonempty : digits ≠ []

namespace Exponent

def text (e : Exponent) : Text := e.mark :: (e.sign.text ++ e.digits)

def value (e : Exponent) : Int :=
  if e.sign = .minus then -Text.numberOfDigits e.digits else Text.numberOfDigits e.digits

theorem reads (e : Exponent) {r : Text} (hr : Reader.Stops isDigit r) :
    exponentPart (e.text ++ r) = some (e.value, r) := by
  obtain ⟨mark, s, digits, isMark, isDigits, nonempty⟩ := e
  have marked (t : Text) : (Reader.char 'e' <|> Reader.char 'E') (mark :: t) = some ((), t) := by
    rcases isMark with rfl | rfl
    · exact Reader.orElse_of (Reader.reads_char 'e' t)
    · exact (Reader.orElse_none (Reader.char_of_ne (by decide))).trans (Reader.reads_char 'E' t)
  have unmarked : Reader.Stops WrittenSign.isSign (digits ++ r) := by
    refine Reader.stops_append nonempty (fun c hc => ?_) r
    have digit := isDigits c (List.mem_of_mem_head? hc)
    exact WrittenSign.isSign_of_isPart (isPart_of_isDigit digit)
  show exponentPart (mark :: (s.text ++ digits) ++ r) = _
  rw [List.cons_append, List.append_assoc, exponentPart, Reader.bind_of (marked _),
    Reader.bind_of (s.reads unmarked), Reader.bind_of (Reader.reads_run1 nonempty isDigits hr)]
  simp [value]
  rfl

end Exponent

theorem exists_exponent {s r : Text} {e : Int} (h : exponentPart s = some (e, r)) :
    ∃ x : Exponent, s = x.text ++ r ∧ e = x.value := by
  obtain ⟨_, t, marked, h⟩ := Reader.bind_eq_some.1 h
  obtain ⟨negative, t', signed, h⟩ := Reader.bind_eq_some.1 h
  obtain ⟨digits, t'', read, same⟩ := Reader.bind_eq_some.1 h
  obtain ⟨rfl, rfl⟩ := Prod.mk.inj (Option.some.inj same)
  obtain ⟨rfl, nonempty, isDigits⟩ := Reader.run1_eq_some read
  obtain ⟨w, rfl, rfl⟩ := exists_sign signed
  obtain ⟨mark, rfl, isMark⟩ : ∃ mark, s = mark :: (w.text ++ (digits ++ t'')) ∧
      (mark = 'e' ∨ mark = 'E') := by
    cases small : Reader.char 'e' s with
    | some p =>
      rw [Reader.orElse_of small] at marked
      exact ⟨'e', Reader.char_eq_some.1 (small.trans marked), .inl rfl⟩
    | none =>
      rw [Reader.orElse_none small] at marked
      exact ⟨'E', Reader.char_eq_some.1 marked, .inr rfl⟩
  refine ⟨⟨mark, w, digits, isMark, isDigits, nonempty⟩, ?_, ?_⟩
  · simp [Exponent.text]
  · simp [Exponent.value]

/-! ## Numerals -/

/-- A numeral as it is written. -/
structure Written where
  sign : WrittenSign
  unsigned : Unsigned
  exponent : Option Exponent

namespace Written

def text (w : Written) : Text :=
  w.sign.text ++ (w.unsigned.text ++ (w.exponent.map Exponent.text).getD [])

/-- The number that is written. -/
def numeral (w : Written) : Numeral :=
  ⟨decide (w.sign = .minus),
    Text.numberOfDigits (w.unsigned.whole ++ w.unsigned.fraction.getD []),
    (w.exponent.map Exponent.value).getD 0 - w.unsigned.places⟩

/-- A numeral goes on with the character. -/
def goesOn (c : Char) : Bool := isPart c || c == 'e' || c == 'E'

theorem reads (w : Written) {r : Text} (hr : Reader.Stops goesOn r) :
    read (w.text ++ r) = some (w.numeral, r) := by
  obtain ⟨s, u, e⟩ := w
  have hr : ∀ c ∈ r.head?, isPart c = false ∧ c ≠ 'e' ∧ c ≠ 'E' := fun c hc => by
    simpa [goesOn, and_assoc] using hr c hc
  have last : Reader.Stops isPart r := fun c hc => (hr c hc).1
  have unsigned (t : Text) : Reader.Stops WrittenSign.isSign (u.text ++ t) :=
    Reader.stops_append u.text_ne_nil
      (fun c hc => WrittenSign.isSign_of_isPart (u.isPart_of_mem (List.mem_of_mem_head? hc))) t
  show read (s.text ++ (u.text ++ _) ++ r) = _
  rw [List.append_assoc, List.append_assoc, read, Reader.bind_of (s.reads (unsigned _))]
  cases e with
  | none =>
    have none : exponentPart r = none := by
      refine Reader.bind_none ?_ _
      cases r with
      | nil => rfl
      | cons c r =>
        obtain ⟨-, small, capital⟩ := hr c rfl
        rw [Reader.orElse_none (Reader.char_of_ne small), Reader.char_of_ne capital]
    rw [Option.map_none, Option.getD_none, List.nil_append, Reader.bind_of (u.reads last)]
    show ((exponentPart <|> pure 0) >>= _) r = _
    rw [Reader.bind_of (a := 0) (Reader.orElse_none none)]
    rfl
  | some x =>
    have marked : Reader.Stops isPart (x.text ++ r) := by
      rw [Exponent.text, List.cons_append, Reader.stops_cons]
      rcases x.isMark with mark | mark <;> rw [mark] <;> decide
    rw [Option.map_some, Option.getD_some, Reader.bind_of (u.reads marked)]
    show ((exponentPart <|> pure 0) >>= _) (x.text ++ r) = _
    rw [Reader.bind_of (Reader.orElse_of (x.reads (stops_isDigit last)))]
    rfl

end Written

theorem exists_written {s r : Text} {n : Numeral} (h : read s = some (n, r)) :
    ∃ w : Written, s = w.text ++ r ∧ n = w.numeral := by
  obtain ⟨negative, t, signed, h⟩ := Reader.bind_eq_some.1 h
  obtain ⟨⟨digits, places⟩, t', number, h⟩ := Reader.bind_eq_some.1 h
  obtain ⟨e, t'', raised, same⟩ := Reader.bind_eq_some.1 h
  obtain ⟨rfl, rfl⟩ := Prod.mk.inj (Option.some.inj same)
  obtain ⟨sg, rfl, rfl⟩ := exists_sign signed
  obtain ⟨u, rfl, rfl, rfl⟩ := exists_unsigned number
  cases found : exponentPart t' with
  | none =>
    rw [Reader.orElse_none found] at raised
    obtain ⟨rfl, rfl⟩ := Prod.mk.inj (Option.some.inj raised)
    exact ⟨⟨sg, u, none⟩, by simp [Written.text], by simp [Written.numeral]⟩
  | some p =>
    obtain ⟨e', t₃⟩ := p
    rw [Reader.orElse_of found] at raised
    obtain ⟨rfl, rfl⟩ := Prod.mk.inj (Option.some.inj raised)
    obtain ⟨x, rfl, rfl⟩ := exists_exponent found
    exact ⟨⟨sg, u, some x⟩, by simp [Written.text], by simp [Written.numeral]⟩

end ThemeProps.Numeral
