/-
  The hint for a length that is a single numeral with its unit.

  * `lastRun n` is the last run of digits and points in a text, and `firstAmount?_text`:
    this is the amount that is found in the length;
  * `Converts base n m`: the hint for the lengths of the amount `n` is the conversion
    of the amount `m`;
  * `conversionHint_numeral`: the hint is the conversion of the last run, which is the
    number itself if there is no minus sign and no exponent.
-/
import ThemeProps.Units
import ThemeProps.Proofs.Decimal.NotNaN
import ThemeProps.Proofs.Decimal.Numeral

namespace ThemeProps

/-! ## The last run of a numeral -/

/-- The digits and points at the end of a text. -/
def Units.lastRun (s : Text) : Text := (s.reverse.takeWhile Numeral.isPart).reverse

theorem Units.lastRun_append {a b : Text} (ha : Reader.Stops Numeral.isPart a.reverse)
    (hb : ∀ c ∈ b, Numeral.isPart c = true) : lastRun (a ++ b) = b := by
  have parts : ∀ c ∈ b.reverse, Numeral.isPart c = true := fun c hc => hb c (List.mem_reverse.1 hc)
  rw [lastRun, List.reverse_append, Reader.takeWhile_append_stops parts ha, List.reverse_reverse]

namespace Numeral.Written

/-- The numeral that the last digits of a numeral are by themselves. -/
def last (w : Written) : Written :=
  match w.exponent with
  | none => ⟨.absent, w.unsigned, none⟩
  | some e =>
    ⟨.absent, ⟨e.digits, none, by simpa using e.isDigits, by simpa using e.nonempty⟩, none⟩

/-- What stands in front of the last digits. -/
def front (w : Written) : Text :=
  match w.exponent with
  | none => w.sign.text
  | some e => w.sign.text ++ w.unsigned.text ++ e.mark :: e.sign.text

theorem text_eq (w : Written) : w.text = w.front ++ w.last.text := by
  obtain ⟨s, u, e⟩ := w
  cases e with
  | none => rfl
  | some e => simp [text, front, last, Exponent.text, Unsigned.text, WrittenSign.text]

theorem isPart_of_mem_last (w : Written) {c : Char} (hc : c ∈ w.last.text) : isPart c = true := by
  obtain ⟨s, u, e⟩ := w
  cases e with
  | none => exact u.isPart_of_mem (by simpa [last, text, WrittenSign.text] using hc)
  | some e =>
    have digit : c ∈ e.digits := by
      simpa [last, text, WrittenSign.text, Unsigned.text] using hc
    exact isPart_of_isDigit (e.isDigits c digit)

theorem last_ne_nil (w : Written) : w.last.text ≠ [] := by
  obtain ⟨s, u, e⟩ := w
  cases e with
  | none => simpa [last, text, WrittenSign.text] using u.text_ne_nil
  | some e => simpa [last, text, WrittenSign.text, Unsigned.text] using e.nonempty

/-- The characters of a numeral that are neither digits nor points. -/
def joints : Text := ['+', '-', 'e', 'E']

theorem mem_sign {s : WrittenSign} {c : Char} (hc : c ∈ s.text) : c ∈ joints := by
  cases s with
  | absent => cases hc
  | plus => rw [List.mem_singleton.1 hc]; decide
  | minus => rw [List.mem_singleton.1 hc]; decide

theorem mem_mark (e : Exponent) : e.mark ∈ joints := by
  rcases e.isMark with mark | mark <;> rw [mark] <;> decide

theorem mem_text (w : Written) {c : Char} (hc : c ∈ w.text) : isPart c = true ∨ c ∈ joints := by
  obtain ⟨s, u, e⟩ := w
  rcases List.mem_append.1 hc with hc | hc
  · exact .inr (mem_sign hc)
  rcases List.mem_append.1 hc with hc | hc
  · exact .inl (u.isPart_of_mem hc)
  cases e with
  | none => cases hc
  | some e =>
    rcases List.mem_cons.1 hc with rfl | hc
    · exact .inr (mem_mark e)
    rcases List.mem_append.1 hc with hc | hc
    · exact .inr (mem_sign hc)
    · exact .inl (isPart_of_isDigit (e.isDigits c hc))

theorem isPart_of_mem_joints {c : Char} (hc : c ∈ joints) : isPart c = false := by
  have all : joints.all (fun c => !isPart c) = true := by decide
  simpa using List.all_eq_true.1 all c hc

theorem isBlank_of_mem_text (w : Written) {c : Char} (hc : c ∈ w.text) :
    Text.isBlank c = false := by
  rcases w.mem_text hc with part | joint
  · rcases Bool.or_eq_true_iff.1 part with digit | point
    · exact Text.isBlank_of_isDigit digit
    · rw [beq_iff_eq.1 point]
      decide
  · have all : joints.all (fun c => !Text.isBlank c) = true := by decide
    simpa using List.all_eq_true.1 all c joint

/-- The last digits stand at the beginning, or behind a sign or a mark. -/
theorem front_cases (w : Written) :
    w.front = [] ∨ ∃ a stop, w.front = a ++ [stop] ∧ stop ∈ joints := by
  obtain ⟨s, u, e⟩ := w
  have signed (t : Text) (h : t = [] ∨ ∃ a stop, t = a ++ [stop] ∧ stop ∈ joints)
      (s : WrittenSign) :
      t ++ s.text = [] ∨ ∃ a stop, t ++ s.text = a ++ [stop] ∧ stop ∈ joints := by
    cases s with
    | absent => simpa [WrittenSign.text] using h
    | plus => exact .inr ⟨t, '+', rfl, by decide⟩
    | minus => exact .inr ⟨t, '-', rfl, by decide⟩
  cases e with
  | none => exact signed [] (.inl rfl) s
  | some e =>
    have marked := signed (s.text ++ u.text ++ [e.mark]) (.inr ⟨_, _, rfl, mem_mark e⟩) e.sign
    rwa [List.append_assoc] at marked

theorem lastRun_text (w : Written) : Units.lastRun w.text = w.last.text := by
  rw [text_eq]
  refine Units.lastRun_append ?_ fun c hc => w.isPart_of_mem_last hc
  rcases w.front_cases with none | ⟨a, stop, some, joint⟩
  · rw [none]
    exact Reader.stops_nil
  · rw [some, List.reverse_append]
    exact Reader.stops_cons.2 (isPart_of_mem_joints joint)

end Numeral.Written

namespace Units

open Numeral

/-! ## The amount in a length -/

section
variable {c : Char} {unit : Text}

/-- An amount has digits, points and blanks alone in front of its unit. -/
theorem needs_amount (c : Char) (unit : Text) :
    Reader.Needs (fun d => isPart d = true ∨ Text.isBlank d = true) c (amount (c :: unit)) := by
  refine Reader.needs_behind (Reader.takes_run1 fun d hd => .inl hd) fun _ => ?_
  refine Reader.needs_behind (Reader.takes_blanks fun d hd => .inr hd) fun _ => ?_
  refine Reader.Needs.bind (fun s hs => ?_) _
  obtain ⟨⟨v, r⟩, read⟩ := Option.ne_none_iff_exists'.1 hs
  have found : s = c :: (unit ++ r) := Reader.literal_eq_some.1 read
  exact ⟨[], unit ++ r, found, nofun⟩

theorem reads_amount {digits : Text} (hd : digits ≠ []) (parts : ∀ d ∈ digits, isPart d = true)
    (part : isPart c = false) (blank : Text.isBlank c = false) :
    amount (c :: unit) (digits ++ c :: unit) = some (digits, []) := by
  have run : Reader.run1 (fun d => Text.isDigit d || d == '.') (digits ++ c :: unit) =
      some (digits, c :: unit) := Reader.reads_run1 hd parts (Reader.stops_cons.2 part)
  have blanks : Reader.blanks (c :: unit) = some ((), c :: unit) :=
    Reader.reads_blanks_append (s := []) (by simp) (Reader.stops_cons.2 blank)
  have named := Reader.reads_literal (c :: unit) []
  rw [List.append_nil] at named
  rw [amount, Reader.bind_of run, Reader.bind_of blanks, Reader.bind_of named]
  rfl

/-- The amount that is found in a numeral with its unit is the last run of the numeral. -/
theorem firstAmount?_text (w : Written) (part : isPart c = false) (blank : Text.isBlank c = false)
    (joint : c ∉ Written.joints) :
    firstAmount? (c :: unit) (w.text ++ c :: unit) = some w.last.text := by
  have absent : c ∉ w.front := fun hc => by
    have hc : c ∈ w.text := by
      rw [Written.text_eq]
      exact List.mem_append_left _ hc
    exact (w.mem_text hc).elim (by simp [part]) joint
  have refuses : Reader.Refuses (amount (c :: unit)) w.front (w.last.text ++ c :: unit) := by
    rcases w.front_cases with none | ⟨a, stop, some, hstop⟩
    · rw [none]
      exact Reader.refuses_nil
    · have noBlank : Text.isBlank stop = false := w.isBlank_of_mem_text (by
        rw [Written.text_eq, some]
        simp)
      rw [some] at absent ⊢
      refine (needs_amount c unit).refuses_before ?_ absent _
      simp [Written.isPart_of_mem_joints hstop, noBlank]
  have read : amount (c :: unit) (w.last.text ++ c :: unit) = some (w.last.text, []) :=
    reads_amount w.last_ne_nil (fun d hd => w.isPart_of_mem_last hd) part blank
  rw [firstAmount?, Written.text_eq, List.append_assoc, Reader.findFirst_append refuses read]
  rfl

end

theorem firstAmount?_rem (w : Written) : firstAmount? "rem" (w.text ++ "rem") = some w.last.text :=
  firstAmount?_text w (by decide) (by decide) (by decide)

theorem firstAmount?_px (w : Written) : firstAmount? "px" (w.text ++ "px") = some w.last.text :=
  firstAmount?_text w (by decide) (by decide) (by decide)

/-- A length in `px` has no amount of `rem`. -/
theorem firstAmount?_rem_px (w : Written) : firstAmount? "rem" (w.text ++ "px") = none := by
  have absent : 'r' ∉ w.text ++ "px" := by
    rw [List.mem_append, not_or]
    refine ⟨fun hr => (w.mem_text hr).elim ?_ ?_, ?_⟩ <;> decide
  have none : (amount "rem").findFirst (w.text ++ "px") = none :=
    (needs_amount 'r' ['e', 'm']).findFirst_eq_none absent
  rw [firstAmount?, none]
  rfl

/-! ## Conversions -/

theorem leadingNumber?_text (w : Written) {r : Text} (hr : Reader.Stops Written.goesOn r) :
    leadingNumber? (w.text ++ r) = some w.numeral.toFloat := by
  have trimmed : Text.trimStart (w.text ++ r) = w.text ++ r := by
    refine Text.trimStart_eq_self (Reader.stops_append ?_ (fun c hc => ?_) r)
    · rw [w.text_eq]
      simp [w.last_ne_nil]
    · exact w.isBlank_of_mem_text (List.mem_of_mem_head? hc)
  rw [leadingNumber?, trimmed, w.reads hr]

theorem toNumber_text (w : Written) {r : Text} (hr : Reader.Stops Written.goesOn r) :
    (Value.str (w.text ++ r)).toNumber = .ok w.numeral.toFloat := by
  show Except.ok ((leadingNumber? (w.text ++ r)).getD notANumber) = _
  rw [leadingNumber?_text w hr]
  rfl

theorem numberOf_text (w : Written) : numberOf w.text = w.numeral.toFloat := by
  have read := leadingNumber?_text w (Reader.stops_nil)
  rw [List.append_nil] at read
  rw [numberOf, read]
  rfl

/-- The hints for the lengths of the amount `n` are the conversions of the lengths of the amount
`m`. -/
def Converts (base : Float) (n m : Text) : Prop :=
  (∃ px, remToPx base (.str (m ++ "rem")) = .ok (some px) ∧
    conversionHint base (n ++ "rem") = some (px ++ "px")) ∧
  ∃ rem, pxToRem base (.str (m ++ "px")) = .ok (some rem) ∧
    conversionHint base (n ++ "px") = some (rem ++ "rem")

section
variable {base : Float}

theorem beq_zero_of_pos (hb : 0 < base) : (base == 0) = false := by
  have lt : (0 : Float).toModel.unpack.compare base.toModel.unpack = some .lt := by
    have less : Float.lt 0 base = true := hb
    rw [Float.lt, decide_eq_true_iff] at less
    exact beq_iff_eq.1 less
  rw [BEq.comm]
  show ((0 : Float).toModel.unpack.compare base.toModel.unpack == some .eq) = false
  rw [lt]
  rfl

theorem remAsPx?_toFloat (n : Numeral) :
    remAsPx? base n.toFloat = some (Decimal.shortFixed 2 (n.toFloat * base)) := by
  rw [remAsPx?, n.isNaN_toFloat]
  rfl

theorem pxAsRem?_toFloat (hb : 0 < base) (n : Numeral) :
    pxAsRem? base n.toFloat = some (Decimal.shortFixed 4 (n.toFloat / base)) := by
  rw [pxAsRem?, n.isNaN_toFloat, beq_zero_of_pos hb]
  rfl

/-- The hints for a numeral are the conversions of any numeral with the double of its last
digits. -/
theorem converts_text (hb : 0 < base) {w v : Written}
    (same : v.numeral.toFloat = w.last.numeral.toFloat) : Converts base w.text v.text := by
  constructor
  · refine ⟨Decimal.shortFixed 2 (v.numeral.toFloat * base), ?_, ?_⟩
    · rw [remToPx, toNumber_text v (by decide)]
      exact congrArg Except.ok (remAsPx?_toFloat v.numeral)
    · rw [conversionHint, firstAmount?_rem, same]
      dsimp only
      rw [numberOf_text, remAsPx?_toFloat]
      rfl
  · refine ⟨Decimal.shortFixed 4 (v.numeral.toFloat / base), ?_, ?_⟩
    · rw [pxToRem, toNumber_text v (by decide)]
      exact congrArg Except.ok (pxAsRem?_toFloat hb v.numeral)
    · rw [conversionHint, firstAmount?_rem_px, firstAmount?_px, same]
      dsimp only
      rw [numberOf_text, pxAsRem?_toFloat hb]
      rfl

/-- **The hint for a single length converts the last run of digits and points in it.** For a
numeral without a minus sign and without an exponent this is its number, so that the hint is the
conversion of the length; else a sign is left out, and of a number with an exponent only the
exponent is seen. -/
theorem conversionHint_numeral {n : Text} {x : Numeral} (hb : 0 < base)
    (hn : Numeral.read.readAll? n = some x) :
    Converts base n (lastRun n) ∧
      (x.negative = false → 'e' ∉ n → 'E' ∉ n → Converts base n n) := by
  have read : Numeral.read n = some (x, []) := by
    rw [Reader.readAll?] at hn
    split at hn
    · next found => rw [found, Option.some.inj hn]
    · cases hn
  obtain ⟨w, rfl, rfl⟩ := exists_written read
  rw [List.append_nil] at *
  constructor
  · rw [w.lastRun_text]
    exact converts_text hb rfl
  · intro positive small capital
    obtain ⟨s, u, e⟩ := w
    cases e with
    | none =>
      have positive : decide (s = .minus) = false := positive
      have same : Written.numeral ⟨s, u, none⟩ = Written.numeral ⟨.absent, u, none⟩ := by
        simp only [Written.numeral, positive]
        rfl
      exact converts_text hb (congrArg toFloat same)
    | some e =>
      have marked : e.mark ∈ Written.text ⟨s, u, some e⟩ :=
        List.mem_append_right _ (List.mem_append_right _ (List.mem_cons_self ..))
      rcases e.isMark with mark | mark
      · exact absurd (mark ▸ marked) small
      · exact absurd (mark ▸ marked) capital

/-- A plus sign is left out, and changes nothing. -/
theorem conversionHint_plus : 0 < (16 : Float) ∧
    (∃ x, Numeral.read.readAll? "+1.5" = some x ∧ x.negative = false) ∧
    Converts 16 "+1.5" "1.5" ∧ Converts 16 "+1.5" "+1.5" := by
  have pos : 0 < (16 : Float) := by decide +kernel
  have plus := conversionHint_numeral (n := "+1.5") (x := ⟨false, 15, -1⟩) pos rfl
  exact ⟨pos, ⟨_, rfl, rfl⟩, plus.1, plus.2 rfl (by decide) (by decide)⟩

/-- A minus sign is left out too, so that the hint is not the conversion. -/
theorem conversionHint_minus : ¬ ∀ (base : Float) (n : Text) (x : Numeral), 0 < base →
    Numeral.read.readAll? n = some x → Converts base n n := by
  intro law
  obtain ⟨⟨px, converted, hint⟩, -⟩ := law 16 "-1.5" ⟨true, 15, -1⟩ (by decide +kernel) rfl
  have converted' : remToPx 16 (.str "-1.5rem") = .ok (some "-24") := rfl
  have hint' : conversionHint 16 "-1.5rem" = some "24px" := rfl
  obtain rfl : "-24" = px := Option.some.inj (Except.ok.inj (converted'.symm.trans converted))
  exact absurd (hint'.symm.trans hint) (by decide)

end
end Units
end ThemeProps
