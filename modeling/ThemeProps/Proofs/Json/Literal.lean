/-
  The strings of a JSON document, as they are written.

  * `literals` are the strings of a text, keys included, in their quote marks;
  * `Follows`: a reader takes whole strings and, between them, only characters
    that are `Outside`: no quote marks, slashes or stars;
  * `outside_of_document?`: all characters of a document that belong to no string
    are outside;
  * `Sheds`: one text is another without the characters around its strings;
    `sheds_of_document?` says so of the strings of a document;
  * `Sheds.infix_iff` and `Sheds.before_iff`: a text of slashes and stars occurs
    in a document exactly if it occurs in its strings.
-/
import ThemeProps.Json.Reader
import ThemeProps.Proofs.Decimal.Numeral

namespace ThemeProps

variable {a b s r v w : Text} {c : Char}

/-! ## One text before another -/

/-- The text `v` occurs in `s`, and behind it the text `w`. -/
def Text.Before (v w s : Text) : Prop := ∃ a b, s = a ++ b ∧ v <:+: a ∧ w <:+: b

namespace Text

theorem infix_cons_of_notMem (hw : c ∉ w) : w <:+: c :: s ↔ w <:+: s := by
  rw [← List.nil_append (c :: s), infix_append_cons hw, List.infix_nil, or_iff_right_iff_imp]
  rintro rfl
  exact List.nil_infix

theorem Before.append_left (h : Before v w b) : Before v w (a ++ b) := by
  obtain ⟨x, y, rfl, hv, hw⟩ := h
  exact ⟨a ++ x, y, (List.append_assoc a x y).symm, hv.trans (List.suffix_append a x).isInfix, hw⟩

theorem Before.append_right (h : Before v w a) : Before v w (a ++ b) := by
  obtain ⟨x, y, rfl, hv, hw⟩ := h
  exact ⟨x, y ++ b, List.append_assoc x y b, hv, hw.trans (List.prefix_append y b).isInfix⟩

/-- Two texts without the character `c` stand before it, around it or behind it. -/
theorem before_append_cons (hv : c ∉ v) (hw : c ∉ w) :
    Before v w (a ++ c :: b) ↔ Before v w a ∨ (v <:+: a ∧ w <:+: b) ∨ Before v w b := by
  constructor
  · rintro ⟨x, y, he, hx, hy⟩
    rcases List.append_eq_append_iff.1 he with ⟨z, rfl, rest⟩ | ⟨z, rfl, rfl⟩
    · cases z with
      | nil =>
        obtain rfl : c :: b = y := rest
        rw [List.append_nil] at hx
        exact .inr (.inl ⟨hx, (infix_cons_of_notMem hw).1 hy⟩)
      | cons d z =>
        obtain ⟨rfl, rfl⟩ := List.cons.inj rest
        rcases (infix_append_cons hv).1 hx with hx | hx
        · exact .inr (.inl ⟨hx, hy.trans (List.suffix_append z y).isInfix⟩)
        · exact .inr (.inr ⟨z, y, rfl, hx, hy⟩)
    · rcases (infix_append_cons hw).1 hy with hy | hy
      · exact .inl ⟨x, z, rfl, hx, hy⟩
      · exact .inr (.inl ⟨hx.trans (List.prefix_append x z).isInfix, hy⟩)
  · rintro (h | ⟨hx, hy⟩ | h)
    · exact h.append_right
    · exact ⟨a, c :: b, rfl, hx, hy.trans (List.suffix_cons c b).isInfix⟩
    · rw [← List.singleton_append, ← List.append_assoc]
      exact h.append_left

theorem before_cons_of_notMem (hv : c ∉ v) (hw : c ∉ w) :
    Before v w (c :: s) ↔ Before v w s := by
  have all : Before v w ([] ++ c :: s) ↔ _ := before_append_cons hv hw
  rw [List.nil_append] at all
  rw [all]
  refine ⟨?_, fun h => .inr (.inr h)⟩
  rintro (⟨x, y, he, hx, hy⟩ | ⟨hx, hy⟩ | h)
  · obtain ⟨rfl, rfl⟩ := List.append_eq_nil_iff.1 he.symm
    exact ⟨[], s, rfl, hx, hy.trans List.nil_infix⟩
  · exact ⟨[], s, rfl, hx, hy⟩
  · exact h

end Text

namespace Json

/-! ## Strings in their quote marks -/

/-- The string that a piece of a text is, in its quote marks. -/
def literal? : Piece Text → Option Text
  | .plain _ => none
  | .found source _ => some source

/-- The strings of a text, in their quote marks. -/
def literals (s : Text) : List Text := (Reader.pieces string s).filterMap literal?

/-- The rest of a string ends with a quote mark. -/
theorem stringUnits_eq_some {units : List Nat} (h : stringUnits s = some (units, r)) :
    ∃ a, s = a ++ '"' :: r := by
  induction s using stringUnits.induct generalizing units with
  | case1 => cases h
  | case2 cs =>
    obtain ⟨-, rfl⟩ := Prod.mk.inj (Option.some.inj h)
    exact ⟨[], rfl⟩
  | case3 p q x y cs ih =>
    rw [stringUnits] at h
    obtain ⟨n, -, h⟩ := Option.bind_eq_some_iff.1 h
    obtain ⟨⟨us, rest⟩, found, h⟩ := Option.bind_eq_some_iff.1 h
    obtain ⟨-, rfl⟩ := Prod.mk.inj (Option.some.inj h)
    obtain ⟨a, rfl⟩ := ih found
    exact ⟨'\\' :: 'u' :: p :: q :: x :: y :: a, rfl⟩
  | case4 d cs other ih =>
    rw [stringUnits] at h
    · obtain ⟨n, -, h⟩ := Option.bind_eq_some_iff.1 h
      obtain ⟨⟨us, rest⟩, found, h⟩ := Option.bind_eq_some_iff.1 h
      obtain ⟨-, rfl⟩ := Prod.mk.inj (Option.some.inj h)
      obtain ⟨a, rfl⟩ := ih found
      exact ⟨'\\' :: d :: a, rfl⟩
    · exact other
  | case5 d cs noQuote noLong noEscape control =>
    rw [stringUnits] at h
    · rw [if_pos control] at h
      cases h
    all_goals assumption
  | case6 d cs noQuote noLong noEscape plain ih =>
    rw [stringUnits] at h
    · rw [if_neg plain] at h
      obtain ⟨⟨us, rest⟩, found, h⟩ := Option.map_eq_some_iff.1 h
      obtain ⟨-, rfl⟩ := Prod.mk.inj h
      obtain ⟨a, rfl⟩ := ih found
      exact ⟨d :: a, rfl⟩
    all_goals assumption

/-- A string stands in its quote marks. -/
theorem string_eq_some {u : Text} (h : string s = some (u, r)) :
    ∃ a, s = ('"' :: a ++ ['"']) ++ r := by
  rw [string] at h
  obtain ⟨_, t, opened, h⟩ := Reader.bind_eq_some.1 h
  obtain ⟨units, t', found, h⟩ := Reader.bind_eq_some.1 h
  obtain ⟨-, rfl⟩ := Prod.mk.inj (Option.some.inj h)
  obtain ⟨a, rfl⟩ := stringUnits_eq_some found
  obtain rfl := Reader.char_eq_some.1 opened
  exact ⟨a, by simp⟩

theorem leaves_string : Reader.Leaves string := by
  intro s v r h
  obtain ⟨a, rfl⟩ := string_eq_some h
  exact ⟨_, rfl, fun _ _ => trivial⟩

theorem begins_string : Reader.Begins ['"'] string := Reader.begins_char_bind Reader.begins_nil

/-! ## Readers that go from string to string -/

/-- The character is no quote mark, slash or star. -/
def Outside (c : Char) : Prop := c ≠ '"' ∧ c ≠ '/' ∧ c ≠ '*'

instance (c : Char) : Decidable (Outside c) := inferInstanceAs (Decidable (_ ∧ _ ∧ _))

/-- What the reader takes are whole strings with only characters outside between them. -/
def Follows {α : Type} (reader : Reader α) : Prop :=
  ∀ s v r, reader s = some (v, r) → ∃ ps, Reader.pieces string s = ps ++ Reader.pieces string r ∧
    ∀ c, Piece.plain c ∈ ps → Outside c

section
variable {α β : Type} {reader other : Reader α}

theorem follows_of_takes (h : Reader.Takes Outside reader) : Follows reader := by
  intro s v r read
  obtain ⟨a, rfl, ha⟩ := h s v r read
  have noQuote : '"' ∉ a := fun hm => (ha _ hm).1 rfl
  refine ⟨a.map .plain, Reader.pieces_append (begins_string.refuses_of_notMem noQuote), ?_⟩
  intro c hc
  obtain ⟨d, hd, he⟩ := List.mem_map.1 hc
  obtain rfl := Piece.plain.inj he
  exact ha d hd

theorem follows_pure (v : α) : Follows (pure v) := follows_of_takes (Reader.takes_pure v)

theorem follows_failure : Follows (failure : Reader α) := fun _ _ _ read => by cases read

theorem follows_string : Follows string := by
  intro s v r read
  obtain ⟨a, rfl⟩ := string_eq_some read
  refine ⟨[.found _ v], Reader.pieces_of_reads read (by simp), fun c hc => ?_⟩
  cases List.mem_singleton.1 hc

theorem Follows.bind {f : α → Reader β} (h : Follows reader) (hf : ∀ v, Follows (f v)) :
    Follows (reader >>= f) := by
  intro s v r read
  obtain ⟨u, t, first, then_⟩ := Reader.bind_eq_some.1 read
  obtain ⟨ps, he, hps⟩ := h s u t first
  obtain ⟨qs, he', hqs⟩ := hf u t v r then_
  refine ⟨ps ++ qs, by rw [he, he', List.append_assoc], fun c hc => ?_⟩
  exact (List.mem_append.1 hc).elim (hps c) (hqs c)

theorem Follows.orElse (h : Follows reader) (h' : Follows other) : Follows (reader <|> other) := by
  intro s v r read
  cases hr : reader s with
  | none =>
    rw [Reader.orElse_none hr] at read
    exact h' s v r read
  | some found =>
    rw [Reader.orElse_of hr] at read
    exact h s v r (hr.trans read)

end

/-! ## Following a document -/

theorem takes_space : Reader.Takes Outside space := by
  refine (Reader.takes_run fun c hc => ?_).bind fun _ => Reader.takes_pure _
  simp only [Bool.or_eq_true, beq_iff_eq] at hc
  rcases hc with ((rfl | rfl) | rfl) | rfl <;> decide

theorem takes_digits : Reader.Takes Outside (Reader.run1 isDigit) :=
  Reader.takes_run1 fun c hc => by
    refine ⟨?_, ?_, ?_⟩ <;> rintro rfl <;> exact absurd hc (by decide)

theorem takes_sign : Reader.Takes Outside Numeral.sign := by
  intro s v r h
  obtain ⟨sign, rfl, -⟩ := Numeral.exists_sign h
  refine ⟨sign.text, rfl, ?_⟩
  cases sign with
  | absent => exact nofun
  | plus => exact Text.forall_mem_of_all rfl
  | minus => exact Text.forall_mem_of_all rfl

theorem takes_wholePart : Reader.Takes Outside wholePart := by
  intro s v r h
  rw [wholePart.eq_def] at h
  split at h
  · obtain ⟨-, rfl⟩ := Prod.mk.inj (Option.some.inj h)
    exact ⟨['0'], rfl, by simp; decide⟩
  · exact takes_digits _ _ _ h

theorem takes_fractionPart : Reader.Takes Outside fractionPart :=
  ((Reader.takes_char (by decide)).bind fun _ => takes_digits).orElse (Reader.takes_pure _)

theorem takes_exponentPart : Reader.Takes Outside exponentPart := by
  refine Reader.Takes.orElse ?_ (Reader.takes_pure _)
  refine ((Reader.takes_char (by decide)).orElse (Reader.takes_char (by decide))).bind fun _ => ?_
  exact takes_sign.bind fun _ => takes_digits.bind fun _ => Reader.takes_pure _

theorem takes_number : Reader.Takes Outside number := by
  have minus : Reader.Takes Outside (do Reader.char '-'; return true) :=
    (Reader.takes_char (by decide)).bind fun _ => Reader.takes_pure _
  refine (minus.orElse (Reader.takes_pure _)).bind fun negative => Reader.Takes.orElse ?_ ?_
  · exact (Reader.takes_literal (Text.forall_mem_of_all rfl)).bind fun _ => Reader.takes_pure _
  · refine takes_wholePart.bind fun _ => takes_fractionPart.bind fun _ => ?_
    exact takes_exponentPart.bind fun _ => Reader.takes_pure _

section
variable {α : Type} {element : Reader (Evaluation α)} {opening close : Char}

theorem follows_space : Follows space := follows_of_takes takes_space

theorem follows_char (hc : Outside c) : Follows (Reader.char c) :=
  follows_of_takes (Reader.takes_char hc)

theorem follows_elements (h : Follows element) (hc : Outside close) (n : Nat) :
    Follows (elements element close n) := by
  induction n with
  | zero => exact follows_failure
  | succ n ih =>
    refine h.bind fun outcome => ?_
    cases outcome with
    | error e => exact follows_pure _
    | ok a =>
      refine follows_space.bind fun _ => Follows.orElse ?_ ?_
      · exact (follows_char hc).bind fun _ => follows_pure _
      · refine (follows_char (by decide)).bind fun _ => follows_space.bind fun _ => ?_
        exact ih.bind fun _ => follows_pure _

theorem follows_bracketed (h : Follows element) (ho : Outside opening) (hc : Outside close)
    (n : Nat) : Follows (bracketed element opening close n) := by
  refine (follows_char ho).bind fun _ => follows_space.bind fun _ => Follows.orElse ?_ ?_
  · exact (follows_char hc).bind fun _ => follows_pure _
  · exact follows_elements h hc n

theorem follows_field {value : Reader (Evaluation Value)} (h : Follows value) :
    Follows (field value) := by
  refine follows_string.bind fun key => follows_space.bind fun _ => ?_
  refine (follows_char (by decide)).bind fun _ => follows_space.bind fun _ => ?_
  exact h.bind fun _ => follows_pure _

theorem follows_word {w : Text} (v : α) (hw : w.all (fun c => decide (Outside c)) = true) :
    Follows (do Reader.literal w; return v) :=
  follows_of_takes
    ((Reader.takes_literal (Text.forall_mem_of_all hw)).bind fun _ => Reader.takes_pure v)

end

theorem follows_value (n : Nat) : Follows (value n) := by
  induction n with
  | zero => exact follows_failure
  | succ n ih =>
    refine (follows_string.bind fun _ => follows_pure _).orElse ?_
    refine (follows_word _ rfl).orElse ((follows_word _ rfl).orElse ?_)
    refine (follows_word _ rfl).orElse ((follows_word _ rfl).orElse ?_)
    refine ((follows_of_takes takes_number).bind fun _ => follows_pure _).orElse ?_
    refine Follows.orElse ?_ ?_
    · exact (follows_bracketed ih (by decide) (by decide) n).bind fun _ => follows_pure _
    · refine Follows.bind ?_ fun _ => follows_pure _
      exact follows_bracketed (follows_field ih) (by decide) (by decide) n

/-- The characters of a document that belong to no string are outside. -/
theorem outside_of_document? {d : Value} (h : document? s = .ok (some d)) :
    ∀ c, Piece.plain c ∈ Reader.pieces string s → Outside c := by
  have follows : Follows (do space; value (s.length + 1)) :=
    follows_space.bind fun _ => follows_value _
  rw [document?] at h
  split at h
  · cases h
  · cases h
  · next v rest read =>
    obtain ⟨_, ended, -⟩ := Option.map_eq_some_iff.1 (Except.ok.inj h)
    rw [Reader.readAll?] at ended
    split at ended
    · next read' =>
      obtain ⟨ps, he, hps⟩ := follows _ _ _ read
      obtain ⟨qs, he', hqs⟩ := follows_space _ _ _ read'
      rw [he', Reader.pieces, List.append_nil] at he
      rw [he]
      exact fun c hc => (List.mem_append.1 hc).elim (hps c) (hqs c)
    · cases ended

/-! ## What occurs in the strings -/

theorem source_pieces (s : Text) : (Reader.pieces string s).flatMap Piece.source = s := by
  refine Reader.pieces_induction (R := fun s ps => ps.flatMap Piece.source = s) leaves_string
    rfl ?_ ?_ s
  · intro c s _ ih
    rw [List.flatMap_cons, ih]
    rfl
  · intro w v r _ _ ih
    rw [List.flatMap_cons, ih]
    rfl

/-- Each piece that is a string ends with a quote mark. -/
theorem quote_of_mem_pieces (s : Text) :
    ∀ w v, Piece.found w v ∈ Reader.pieces string s → ∃ a, w = a ++ ['"'] := by
  refine Reader.pieces_induction
    (R := fun _ ps => ∀ w v, Piece.found w v ∈ ps → ∃ a, w = a ++ ['"']) leaves_string ?_ ?_ ?_ s
  · exact fun _ _ h => absurd h List.not_mem_nil
  · exact fun c s _ ih w v h => ih w v ((List.mem_cons.1 h).resolve_left nofun)
  · intro w v r _ read ih w' v' h
    rcases List.mem_cons.1 h with he | h
    · obtain ⟨rfl, -⟩ := Piece.found.inj he
      obtain ⟨a, he⟩ := string_eq_some read
      exact ⟨'"' :: a, List.append_cancel_right he⟩
    · exact ih w' v' h

/-- The text `t` is `s` without the characters around its strings. -/
inductive Sheds : Text → Text → Prop
  | nil : Sheds [] []
  | outside {c s t} : Outside c → Sheds s t → Sheds (c :: s) t
  | string {a s t} : Sheds s t → Sheds (a ++ '"' :: s) (a ++ '"' :: t)

theorem sheds_pieces {ps : List (Piece Text)} (plain : ∀ c, Piece.plain c ∈ ps → Outside c)
    (strings : ∀ w v, Piece.found w v ∈ ps → ∃ a, w = a ++ ['"']) :
    Sheds (ps.flatMap Piece.source) (ps.filterMap literal?).flatten := by
  induction ps with
  | nil => exact .nil
  | cons piece ps ih =>
    have behind := ih (fun c hc => plain c (List.mem_cons_of_mem _ hc))
      fun w v hw => strings w v (List.mem_cons_of_mem _ hw)
    cases piece with
    | plain c => exact .outside (plain c List.mem_cons_self) behind
    | found w v =>
      obtain ⟨a, rfl⟩ := strings w v List.mem_cons_self
      have one := Sheds.string (a := a) behind
      rwa [List.append_cons a '"' (ps.flatMap Piece.source),
        List.append_cons a '"' (ps.filterMap literal?).flatten] at one

theorem sheds_of_document? {d : Value} (h : document? s = .ok (some d)) :
    Sheds s (literals s).flatten := by
  have sheds := sheds_pieces (outside_of_document? h) (quote_of_mem_pieces s)
  rwa [source_pieces] at sheds

/-- The text is made of slashes and stars. -/
def Slashed (w : Text) : Prop := ∀ c ∈ w, c = '/' ∨ c = '*'

instance (w : Text) : Decidable (Slashed w) := List.decidableBAll _ w

section
variable {t : Text}

theorem Slashed.notMem (hw : Slashed w) (hc : Outside c) : c ∉ w :=
  fun hm => (hw c hm).elim hc.2.1 hc.2.2

theorem Slashed.noQuote (hw : Slashed w) : '"' ∉ w := fun hm => absurd (hw _ hm) (by decide)

/-- What is shed does not count for the occurrence of a text of slashes and stars. -/
theorem Sheds.infix_iff (h : Sheds s t) (hw : Slashed w) : w <:+: s ↔ w <:+: t := by
  induction h with
  | nil => exact Iff.rfl
  | outside hc _ ih => exact (Text.infix_cons_of_notMem (hw.notMem hc)).trans ih
  | string _ ih =>
    rw [Text.infix_append_cons hw.noQuote, Text.infix_append_cons hw.noQuote]
    exact or_congr_right ih

/-- Nor does it count for two such texts, one before the other. -/
theorem Sheds.before_iff (h : Sheds s t) (hv : Slashed v) (hw : Slashed w) :
    Text.Before v w s ↔ Text.Before v w t := by
  induction h with
  | nil => exact Iff.rfl
  | outside hc _ ih =>
    exact (Text.before_cons_of_notMem (hv.notMem hc) (hw.notMem hc)).trans ih
  | string behind ih =>
    rw [Text.before_append_cons hv.noQuote hw.noQuote,
      Text.before_append_cons hv.noQuote hw.noQuote, behind.infix_iff hw]
    exact or_congr_right (or_congr_right ih)

end

end Json
end ThemeProps
