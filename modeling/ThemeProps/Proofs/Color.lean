/-
  Hex colors as they are written.

  * `Color.HexDigit`, `Color.HexByte` and `Color.Spells`: digits, pairs of digits and
    the three lengths of a color, with the values that they stand for;
  * `Color.ofHex?_eq_some_iff`: a text is read as a color if and only if it is written
    so, where one number sign may stand in front of the digits or anywhere among
    them.
-/
import ThemeProps.Color
import ThemeProps.Proofs.Text.Basic
import Mathlib.Data.List.Basic
import Mathlib.Tactic.Common

namespace ThemeProps.Color

/-! ## Digits and bytes -/

/-- The character is the hexadecimal digit of the value `n`, in small or capital letters. -/
def HexDigit (c : Char) (n : Nat) : Prop :=
  "0123456789abcdef".toList[n]? = some c ∨ "0123456789ABCDEF".toList[n]? = some c

instance (c : Char) (n : Nat) : Decidable (HexDigit c n) := inferInstanceAs (Decidable (_ ∨ _))

theorem hexValue?_eq_some_iff {c : Char} {n : Nat} :
    Text.hexValue? c = some n ↔ HexDigit c n := by
  constructor
  · intro h
    have table : ∀ c : Char, c.toNat < 128 → ∀ n ∈ Text.hexValue? c, HexDigit c n :=
      Text.forall_below_of_ofNat (by decide +kernel)
    have ascii : c.toNat < 128 := by
      rw [Text.hexValue?] at h
      split_ifs at h with digit small capital
      · exact Nat.lt_of_le_of_lt digit.2 (by decide)
      · exact Nat.lt_of_le_of_lt small.2 (by decide)
      · exact Nat.lt_of_le_of_lt capital.2 (by decide)
    exact table c ascii n h
  · intro h
    have read {digits : Text} (table : digits.map Text.hexValue? = (List.range 16).map some)
        (place : digits[n]? = some c) : Text.hexValue? c = some n := by
      have entry : some (Text.hexValue? c) = ((List.range 16).map some)[n]? := by
        rw [← table, List.getElem?_map, place]
        rfl
      obtain ⟨_, equal⟩ := List.getElem?_eq_some_iff.1 entry.symm
      rw [← equal, List.getElem_map, List.getElem_range]
    rcases h with small | capital
    · exact read (by decide) small
    · exact read (by decide) capital

theorem HexDigit.lt {c : Char} {n : Nat} (h : HexDigit c n) : n < 16 := by
  rcases h with small | capital
  · exact (List.getElem?_eq_some_iff.1 small).1
  · exact (List.getElem?_eq_some_iff.1 capital).1

/-- Two digits, the high one first, stand for the byte `n`. -/
def HexByte (high low : Char) (n : Nat) : Prop :=
  ∃ h l, HexDigit high h ∧ HexDigit low l ∧ n = 16 * h + l

section
variable {high low : Char} {n : Nat} {ns : List Nat} {s : Text}

theorem HexByte.le (h : HexByte high low n) : n ≤ 255 := by
  obtain ⟨h, l, hh, hl, rfl⟩ := h
  have := hh.lt
  have := hl.lt
  omega

theorem bytes?_eq_nil : bytes? s = some [] ↔ s = [] := by
  constructor
  · intro h
    match s with
    | [] => rfl
    | [_] => cases h
    | _ :: _ :: _ =>
      simp only [bytes?, Option.bind_eq_bind, Option.bind_eq_some_iff] at h
      obtain ⟨_, _, _, _, _, _, he⟩ := h
      cases he
  · rintro rfl
    rfl

theorem bytes?_eq_cons : bytes? s = some (n :: ns) ↔
    ∃ high low rest, s = high :: low :: rest ∧ HexByte high low n ∧ bytes? rest = some ns := by
  constructor
  · intro h
    match s with
    | [] => cases h
    | [_] => cases h
    | high :: low :: rest =>
      simp only [bytes?, Option.bind_eq_bind, Option.bind_eq_some_iff] at h
      obtain ⟨h, hh, l, hl, more, hmore, he⟩ := h
      obtain ⟨rfl, rfl⟩ := List.cons.inj (Option.some.inj he)
      exact ⟨high, low, rest, rfl,
        ⟨h, l, hexValue?_eq_some_iff.1 hh, hexValue?_eq_some_iff.1 hl, rfl⟩, hmore⟩
  · rintro ⟨high, low, rest, rfl, ⟨h, l, hh, hl, rfl⟩, hmore⟩
    rw [bytes?, hexValue?_eq_some_iff.2 hh, hexValue?_eq_some_iff.2 hl, hmore]
    rfl

theorem HexByte.bytes?_cons (h : HexByte high low n) (more : bytes? s = some ns) :
    bytes? (high :: low :: s) = some (n :: ns) :=
  bytes?_eq_cons.2 ⟨high, low, s, rfl, h, more⟩

end

/-- Three digits are doubled, others are left as they are. -/
theorem longDigits_cases (digits : Text) :
    (∃ r g b, digits = [r, g, b] ∧ longDigits digits = [r, r, g, g, b, b]) ∨
      longDigits digits = digits := by
  by_cases three : digits.length = 3
  · obtain ⟨r, g, b, rfl⟩ := List.length_eq_three.1 three
    exact .inl ⟨r, g, b, rfl, rfl⟩
  · exact .inr (if_neg three)

/-! ## Colors -/

/-- The digits write the color: two for each channel, or one that stands for two equal ones, and
perhaps two for the opacity, which is `alpha` otherwise. -/
inductive Spells (alpha : Number) : Text → Color → Prop
  | short {r g b : Char} {red green blue : Nat} :
      HexByte r r red → HexByte g g green → HexByte b b blue →
      Spells alpha [r, g, b] ⟨red, green, blue, alpha⟩
  | long {r r' g g' b b' : Char} {red green blue : Nat} :
      HexByte r r' red → HexByte g g' green → HexByte b b' blue →
      Spells alpha [r, r', g, g', b, b'] ⟨red, green, blue, alpha⟩
  | withOpacity {r r' g g' b b' o o' : Char} {red green blue opacity : Nat} :
      HexByte r r' red → HexByte g g' green → HexByte b b' blue → HexByte o o' opacity →
      Spells alpha [r, r', g, g', b, b', o, o']
        ⟨red, green, blue, .float (Float.ofNat opacity / 255)⟩

section
variable {alpha : Number} {digits hex before after : Text} {c : Color}

/-- A number sign is no digit. -/
theorem HexByte.ne_mark {high low : Char} {n : Nat} (h : HexByte high low n) :
    '#' ≠ high ∧ '#' ≠ low := by
  have noDigit (n : Nat) : ¬ HexDigit '#' n := fun h => by
    rw [← hexValue?_eq_some_iff] at h
    cases h
  obtain ⟨h, l, hh, hl, -⟩ := h
  constructor
  · rintro rfl
    exact noDigit h hh
  · rintro rfl
    exact noDigit l hl

theorem Spells.notMem (h : Spells alpha digits c) : '#' ∉ digits := by
  cases h with
  | short hr hg hb => simp [hr.ne_mark.1, hg.ne_mark.1, hb.ne_mark.1]
  | long hr hg hb => simp [hr.ne_mark, hg.ne_mark, hb.ne_mark]
  | withOpacity hr hg hb ho => simp [hr.ne_mark, hg.ne_mark, hb.ne_mark, ho.ne_mark]

theorem Spells.channels_le (h : Spells alpha digits c) :
    c.red ≤ 255 ∧ c.green ≤ 255 ∧ c.blue ≤ 255 := by
  cases h with
  | short hr hg hb => exact ⟨hr.le, hg.le, hb.le⟩
  | long hr hg hb => exact ⟨hr.le, hg.le, hb.le⟩
  | withOpacity hr hg hb _ => exact ⟨hr.le, hg.le, hb.le⟩

theorem spells_of_ofHex? (h : ofHex? alpha hex = some c) : Spells alpha (dropMark hex) c := by
  rw [ofHex?] at h
  split at h
  · next red green blue bytes =>
    obtain rfl := Option.some.inj h
    obtain ⟨r, r', _, long, hr, bytes⟩ := bytes?_eq_cons.1 bytes
    obtain ⟨g, g', _, rfl, hg, bytes⟩ := bytes?_eq_cons.1 bytes
    obtain ⟨b, b', _, rfl, hb, bytes⟩ := bytes?_eq_cons.1 bytes
    obtain rfl := bytes?_eq_nil.1 bytes
    obtain ⟨x, y, z, three, doubled⟩ | same := longDigits_cases (dropMark hex)
    · rw [doubled] at long
      cases long
      rw [three]
      exact .short hr hg hb
    · rw [← same, long]
      exact .long hr hg hb
  · next red green blue opacity bytes =>
    obtain rfl := Option.some.inj h
    obtain ⟨r, r', _, long, hr, bytes⟩ := bytes?_eq_cons.1 bytes
    obtain ⟨g, g', _, rfl, hg, bytes⟩ := bytes?_eq_cons.1 bytes
    obtain ⟨b, b', _, rfl, hb, bytes⟩ := bytes?_eq_cons.1 bytes
    obtain ⟨o, o', _, rfl, ho, bytes⟩ := bytes?_eq_cons.1 bytes
    obtain rfl := bytes?_eq_nil.1 bytes
    obtain ⟨x, y, z, three, doubled⟩ | same := longDigits_cases (dropMark hex)
    · rw [doubled] at long
      cases long
    · rw [← same, long]
      exact .withOpacity hr hg hb ho
  · cases h

theorem Spells.ofHex? (h : Spells alpha (dropMark hex) c) : ofHex? alpha hex = some c := by
  rw [Color.ofHex?]
  generalize dropMark hex = digits at h
  cases h with
  | @short r g b red green blue hr hg hb =>
    have bytes : bytes? (longDigits [r, g, b]) = some [red, green, blue] :=
      hr.bytes?_cons (hg.bytes?_cons (hb.bytes?_cons rfl))
    rw [bytes]
  | @long r r' g g' b b' red green blue hr hg hb =>
    have bytes : bytes? (longDigits [r, r', g, g', b, b']) = some [red, green, blue] :=
      hr.bytes?_cons (hg.bytes?_cons (hb.bytes?_cons rfl))
    rw [bytes]
  | @withOpacity r r' g g' b b' o o' red green blue opacity hr hg hb ho =>
    have bytes : bytes? (longDigits [r, r', g, g', b, b', o, o']) =
        some [red, green, blue, opacity] :=
      hr.bytes?_cons (hg.bytes?_cons (hb.bytes?_cons (ho.bytes?_cons rfl)))
    rw [bytes]

/-- What is left of a text without its first number sign is read as a color. -/
theorem ofHex?_eq_some_iff_dropMark :
    ofHex? alpha hex = some c ↔ Spells alpha (dropMark hex) c :=
  ⟨spells_of_ofHex?, Spells.ofHex?⟩

theorem dropMark_of_notMem (h : '#' ∉ digits) : dropMark digits = digits := by
  induction digits with
  | nil => rfl
  | cons d digits ih =>
    rw [List.mem_cons, not_or] at h
    rw [dropMark, ih h.2]
    exact fun he => h.1 he.symm

theorem dropMark_append (h : '#' ∉ before) :
    dropMark (before ++ '#' :: after) = before ++ after := by
  induction before with
  | nil => rfl
  | cons d before ih =>
    rw [List.mem_cons, not_or] at h
    rw [List.cons_append, dropMark, ih h.2]
    · rfl
    · exact fun he => h.1 he.symm

end

/-- **Hex colors.** A text is read as a color if and only if it consists of digits that write the
color, with one number sign at the most, in front of them or anywhere among them. The channels go
from 0 to 255. -/
theorem ofHex?_eq_some_iff (alpha : Number) (hex : Text) (c : Color) :
    ofHex? alpha hex = some c ↔
      (∃ before after, (hex = before ++ after ∨ hex = before ++ '#' :: after) ∧
        Spells alpha (before ++ after) c) ∧
      c.red ≤ 255 ∧ c.green ≤ 255 ∧ c.blue ≤ 255 := by
  rw [ofHex?_eq_some_iff_dropMark]
  constructor
  · intro h
    refine ⟨?_, h.channels_le⟩
    by_cases mark : '#' ∈ hex
    · obtain ⟨before, after, rfl, first⟩ := List.eq_append_cons_of_mem mark
      rw [dropMark_append first] at h
      exact ⟨before, after, .inr rfl, h⟩
    · rw [dropMark_of_notMem mark] at h
      exact ⟨hex, [], .inl (List.append_nil hex).symm, by rwa [List.append_nil]⟩
  · rintro ⟨⟨before, after, rfl | rfl, h⟩, -⟩
    · rwa [dropMark_of_notMem h.notMem]
    · rwa [dropMark_append fun mark => h.notMem (List.mem_append_left after mark)]

/-- A number sign behind the first digit does not keep a text from being a color. -/
theorem ofHex?_mark_inside :
    ¬ ∀ (alpha : Number) (hex : Text) (c : Color), ofHex? alpha hex = some c ↔
      ∃ digits, (hex = digits ∨ hex = '#' :: digits) ∧ Spells alpha digits c := by
  intro claimed
  obtain ⟨digits, rfl | he, h⟩ := (claimed (.int 1) "ff#f" ⟨255, 255, 255, .int 1⟩).1 rfl
  · exact h.notMem (by decide)
  · cases he

end ThemeProps.Color
