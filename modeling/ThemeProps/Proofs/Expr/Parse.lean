/-
  Expressions as they are written.

  * `Uncut`: a text that belongs to the piece that it stands in, such as one without
    quote marks and pipes, or a closed quotation. So `splitPipes_append_pipe` cuts at
    the pipe behind it, and `splitPipes_append_quoted` does not cut a quoted text;
  * `DottedPath`: names of word characters, with points between them;
  * `Expr.parse_quoted`, `Expr.parse_name`, `Expr.parse_dotted` and
    `Expr.parse_dotted_append` read a quoted text, a name, a path behind a name, and
    such a path with a text appended;
  * `evaluate_quoted`, `evaluate_name`, `evaluate_setting` and
    `evaluate_setting_append` are the values of these.
-/
import ThemeProps.Expr.Eval
import ThemeProps.Proofs.Evaluation
import ThemeProps.Proofs.Text.Reader

namespace ThemeProps

/-! ## Pieces between pipes -/

namespace Text

variable {s t : Text} {q : Char}

theorem foldr_consToFirst (s p : Text) (ps : List Text) :
    s.foldr consToFirst (p :: ps) = (s ++ p) :: ps := by
  induction s with
  | nil => rfl
  | cons c s ih => rw [List.foldr_cons, ih, consToFirst, List.cons_append]

/-- A backslash stands right before what follows the text. -/
def escapes (escaped : Bool) (s : Text) : Bool := s.foldl (fun _ c => c == '\\') escaped

/-- The text has no quote mark and no pipe. -/
def IsPart (s : Text) : Prop := ∀ c ∈ s, isQuoteMark c = false ∧ c ≠ '|'

/-- Text without quote marks and pipes belongs to the piece that it stands in. -/
theorem pipePieces_plain (h : IsPart s) (escaped : Bool) (t : Text) :
    pipePieces escaped none (s ++ t) =
      s.foldr consToFirst (pipePieces (escapes escaped s) none t) := by
  induction s generalizing escaped with
  | nil => rfl
  | cons c s ih =>
    obtain ⟨⟨noQuote, noPipe⟩, further⟩ := List.forall_mem_cons.1 h
    have stays : quoteAfter escaped none c = none := by simp [quoteAfter, noQuote]
    rw [List.cons_append, pipePieces, if_neg fun hc => noPipe hc.1, stays, ih further]
    rfl

/-- Text in an open quotation belongs to the piece that it stands in. -/
theorem pipePieces_quoted (h : q ∉ s) (escaped : Bool) (t : Text) :
    pipePieces escaped (some q) (s ++ t) =
      s.foldr consToFirst (pipePieces (escapes escaped s) (some q) t) := by
  induction s generalizing escaped with
  | nil => rfl
  | cons c s ih =>
    rw [List.mem_cons, not_or] at h
    have stays : quoteAfter escaped (some q) c = some q := by simp [quoteAfter, Ne.symm h.1]
    rw [List.cons_append, pipePieces, if_neg (fun hc => nomatch hc.2), stays, ih h.2]
    rfl

theorem pipePieces_ne_nil (escaped : Bool) (openQuote : Option Char) (s : Text) :
    pipePieces escaped openQuote s ≠ [] := by
  cases s with
  | nil => exact List.cons_ne_nil _ _
  | cons c s =>
    rw [pipePieces]
    split_ifs
    · exact List.cons_ne_nil _ _
    · cases pipePieces (c == '\\') (quoteAfter escaped openQuote c) s <;> exact List.cons_ne_nil _ _

/-- The text belongs to the piece that it stands in, and no quotation is open behind it. -/
def Uncut (s : Text) : Prop := ∀ t, pipePieces false none (s ++ t) =
  s.foldr consToFirst (pipePieces (escapes false s) none t)

theorem IsPart.uncut (h : IsPart s) : Uncut s := pipePieces_plain h false

theorem escapes_append (escaped : Bool) (s t : Text) :
    escapes escaped (s ++ t) = escapes (escapes escaped s) t := List.foldl_append

theorem escapes_of_getLast? (hne : s ≠ []) (h : s.getLast? ≠ some '\\') (escaped : Bool) :
    escapes escaped s = false := by
  obtain ⟨s, c, rfl⟩ := (List.eq_nil_or_concat s).resolve_left hne
  rw [List.concat_eq_append, List.getLast?_concat] at h
  rw [List.concat_eq_append, escapes_append]
  exact beq_eq_false_iff_ne.2 fun hc => h (congrArg some hc)

theorem Uncut.append (hs : Uncut s) (unescaped : escapes false s = false) (ht : Uncut t) :
    Uncut (s ++ t) := by
  intro u
  rw [List.append_assoc, hs, unescaped, ht, List.foldr_append, escapes_append, unescaped]

theorem Uncut.append_part (hs : Uncut s) (ht : IsPart t) : Uncut (s ++ t) := by
  intro u
  rw [List.append_assoc, hs, pipePieces_plain ht, List.foldr_append, escapes_append]

theorem ne_backslash_of_isQuoteMark (hq : isQuoteMark q = true) : (q == '\\') = false := by
  refine beq_eq_false_iff_ne.2 ?_
  rintro rfl
  cases hq

/-- A quotation that does not end in a backslash is closed by its second mark. -/
theorem uncut_quoted (hq : isQuoteMark q = true) (hs : q ∉ s) (unescaped : s.getLast? ≠ some '\\') :
    Uncut (q :: (s ++ [q])) := by
  intro t
  have noPipe : q ≠ '|' := by
    rintro rfl
    cases hq
  have plain := ne_backslash_of_isQuoteMark hq
  have inside : escapes false s = false := by
    rcases eq_or_ne s [] with rfl | hne
    · rfl
    · exact escapes_of_getLast? hne unescaped false
  have behind : escapes false (q :: (s ++ [q])) = false :=
    escapes_of_getLast? (List.cons_ne_nil _ _)
      (by rw [← List.cons_append, List.getLast?_concat]; simpa using plain) false
  have opens : quoteAfter false none q = some q := by simp [quoteAfter, hq]
  have closes : quoteAfter false (some q) q = none := by simp [quoteAfter, hq]
  rw [behind, List.cons_append, List.append_assoc, List.singleton_append, pipePieces,
    if_neg fun hc => noPipe hc.1, opens, plain, pipePieces_quoted hs, inside, pipePieces,
    if_neg fun hc => noPipe hc.1, closes, plain, List.foldr_cons, List.foldr_append]
  rfl

/-! ## Parts of an expression -/

theorem splitPipes_of_uncut (h : Uncut s) (hne : s ≠ []) : splitPipes s = [trim s] := by
  have pieces := h []
  rw [List.append_nil, pipePieces, foldr_consToFirst, List.append_nil] at pieces
  rw [splitPipes, pieces, trimPieces, if_neg hne]

/-- A pipe behind an uncut text ends the first part. -/
theorem splitPipes_append_pipe (h : Uncut s) (t : Text) :
    splitPipes (s ++ '|' :: t) = trim s :: splitPipes t := by
  have pieces : pipePieces false none (s ++ '|' :: t) = s :: pipePieces false none t := by
    rw [h, pipePieces, if_pos ⟨rfl, rfl⟩, foldr_consToFirst, List.append_nil]
  obtain ⟨p, ps, he⟩ := List.exists_cons_of_ne_nil (pipePieces_ne_nil false none t)
  rw [splitPipes, splitPipes, pieces, he]
  rfl

/-- A quoted text at the end belongs to the part that it stands in. If it ends in a backslash the
quotation is left open, which makes no difference. -/
theorem splitPipes_append_quoted (h : IsPart s) (unescaped : escapes false s = false)
    (hq : isQuoteMark q = true) (ht : q ∉ t) :
    splitPipes (s ++ q :: (t ++ [q])) = [trim (s ++ q :: (t ++ [q]))] := by
  have noPipe : q ≠ '|' := by
    rintro rfl
    cases hq
  have opens : quoteAfter false none q = some q := by simp [quoteAfter, hq]
  have last (escaped : Bool) : pipePieces escaped (some q) [q] = [[q]] := by
    rw [pipePieces, if_neg fun hc => noPipe hc.1]
    rfl
  have pieces : pipePieces false none (s ++ q :: (t ++ [q])) = [s ++ q :: (t ++ [q])] := by
    rw [pipePieces_plain h, unescaped, pipePieces, if_neg fun hc => noPipe hc.1, opens,
      pipePieces_quoted ht, last, foldr_consToFirst, consToFirst, foldr_consToFirst]
  rw [splitPipes, pieces, trimPieces,
    if_neg (List.append_ne_nil_of_right_ne_nil _ (List.cons_ne_nil _ _))]

end Text

/-! ## Paths -/

/-- A path: names of word characters, with points between them. -/
structure DottedPath where
  names : List Text
  nonempty : names ≠ []
  isName : ∀ name ∈ names, name ≠ [] ∧ ∀ c ∈ name, Text.isWord c = true

namespace DottedPath

/-- The path as it is written. -/
def text (p : DottedPath) : Text := Text.join "." p.names

variable (p : DottedPath)

theorem splitAtChar_text : Text.splitAtChar '.' p.text = p.names :=
  Text.splitAtChar_join p.nonempty fun name hm hp => by
    have point := (p.isName name hm).2 '.' hp
    revert point
    decide

theorem isPath_text : Base.isPath p.text = true := by
  rw [Base.isPath, splitAtChar_text, List.all_eq_true]
  intro name hm
  obtain ⟨hne, hword⟩ := p.isName name hm
  rw [Bool.and_eq_true, decide_eq_true_iff, List.all_eq_true]
  exact ⟨hne, hword⟩

theorem text_ne_nil : p.text ≠ [] := by
  intro he
  have cut := p.splitAtChar_text
  rw [he] at cut
  exact (p.isName [] (by rw [← cut]; exact List.mem_singleton_self _)).1 rfl

theorem isWordOrDot_text : ∀ c ∈ p.text, Text.isWordOrDot c = true := by
  intro c hc
  by_contra other
  rw [Text.isWordOrDot, Bool.or_eq_true, decide_eq_true_iff, not_or] at other
  refine Text.notMem_join ?_ (fun name hm hc => other.1 ((p.isName name hm).2 c hc)) hc
  exact fun hp => other.2 (List.mem_singleton.1 hp)

end DottedPath

/-! ## Bases and filters -/

theorem isBlank_of_isQuoteMark {c : Char} (h : Text.isQuoteMark c = true) :
    Text.isBlank c = false := by
  rw [Text.isQuoteMark, Bool.or_eq_true, beq_iff_eq, beq_iff_eq] at h
  rcases h with rfl | rfl <;> decide

theorem Text.trim_quoted {q : Char} (hq : isQuoteMark q = true) (s : Text) :
    trim (q :: (s ++ [q])) = q :: (s ++ [q]) := by
  have notBlank := isBlank_of_isQuoteMark hq
  exact trim_eq_self (by simpa using notBlank) (by simpa using notBlank)

theorem isQuoteMark_of_isWord {c : Char} (h : Text.isWord c = true) :
    Text.isQuoteMark c = false := by
  by_contra hq
  rw [Bool.not_eq_false, Text.isQuoteMark, Bool.or_eq_true, beq_iff_eq, beq_iff_eq] at hq
  rcases hq with rfl | rfl <;> revert h <;> decide

theorem Base.unquote?_of_isWord {c : Char} (h : Text.isWord c = true) (s : Text) :
    unquote? (c :: s) = none := by
  rw [unquote?.eq_def]
  split
  · next c' next rest he =>
    obtain rfl : c = c' := (List.cons.inj he).1
    exact if_neg fun hq => by rw [isQuoteMark_of_isWord h] at hq; cases hq.1
  · rfl

theorem Text.isPart_of_isWord {s : Text} (h : ∀ c ∈ s, isWord c = true) : IsPart s := by
  intro c hc
  refine ⟨isQuoteMark_of_isWord (h c hc), ?_⟩
  rintro rfl
  exact absurd (h _ hc) (by decide)

/-- A name and a path behind a point. -/
theorem Base.parse_dotted {name path : Text} (hne : name ≠ [])
    (hname : ∀ c ∈ name, Text.isWord c = true) (hpath : isPath path = true) :
    Base.parse (name ++ '.' :: path) = .dotted (name ++ '.' :: path) name path := by
  have stops : Reader.Stops Text.isWord ('.' :: path) := Reader.stops_cons.2 (by decide)
  have noQuote : unquote? (name ++ '.' :: path) = none := by
    obtain ⟨c, name, rfl⟩ := List.exists_cons_of_ne_nil hne
    exact unquote?_of_isWord (hname c List.mem_cons_self) _
  have noItem : itemReader.readAll? (name ++ '.' :: path) = none := by
    have refused : itemReader (name ++ '.' :: path) = none := by
      rw [itemReader, Reader.bind_of (Reader.reads_run1 hne hname stops)]
      exact Reader.bind_none (Reader.char_of_ne (by decide)) _
    rw [Reader.readAll?, refused]
  have dotted : dotted? (name ++ '.' :: path) = some (name, path) := by
    rw [dotted?, List.span_eq_takeWhile_dropWhile, Reader.takeWhile_append_stops hname stops,
      Reader.dropWhile_append_stops hname stops]
    simp [hne, hpath]
  rw [Base.parse, noQuote, noItem, dotted]

/-- The first character of a name is a word character. -/
theorem isWord_of_letter {c : Char} (h : (c.isAlpha || c == '_') = true) :
    Text.isWord c = true := by
  have table : ∀ c : Char, c.toNat < 128 → (c.isAlpha || c == '_') = true →
      Text.isWord c = true := Text.forall_below_of_ofNat (by decide +kernel)
  have ascii : c.toNat < 128 := by
    rw [Bool.or_eq_true, beq_iff_eq] at h
    obtain letter | rfl := h
    · obtain capital | small := (Bool.or_eq_true c.isUpper c.isLower).mp letter
      · have atMost : c.val ≤ 'Z'.val := (of_decide_eq_true capital).2
        exact Nat.lt_of_le_of_lt (UInt32.le_iff_toNat_le.1 atMost) (by decide)
      · have atMost : c.val ≤ 'z'.val := of_decide_eq_true ((Bool.and_eq_true _ _).mp small).2
        exact Nat.lt_of_le_of_lt (UInt32.le_iff_toNat_le.1 atMost) (by decide)
    · decide
  exact table c ascii h

theorem Base.isWord_of_isName {s : Text} (h : isName s = true) :
    s ≠ [] ∧ ∀ c ∈ s, Text.isWord c = true := by
  cases s with
  | nil => cases h
  | cons c s =>
    rw [isName, Bool.and_eq_true, List.all_eq_true] at h
    exact ⟨List.cons_ne_nil c s, List.forall_mem_cons.2 ⟨isWord_of_letter h.1, h.2⟩⟩

theorem Base.parse_name {s : Text} (h : isName s = true) : Base.parse s = .word s := by
  obtain ⟨hne, hword⟩ := isWord_of_isName h
  have noQuote : unquote? s = none := by
    obtain ⟨c, s, rfl⟩ := List.exists_cons_of_ne_nil hne
    exact unquote?_of_isWord (hword c List.mem_cons_self) s
  have read := Reader.reads_run1 hne hword Reader.stops_nil
  rw [List.append_nil] at read
  have noItem : itemReader.readAll? s = none := by
    have refused : itemReader s = none := by
      rw [itemReader, Reader.bind_of read]
      exact Reader.bind_none rfl _
    rw [Reader.readAll?, refused]
  have notDotted : dotted? s = none := by
    have all : s.span Text.isWord = (s, []) := by
      rw [List.span_eq_takeWhile_dropWhile, List.takeWhile_eq_self_iff.2 hword,
        List.dropWhile_eq_nil_iff.2 hword]
    rw [dotted?, all]
  rw [Base.parse, noQuote, noItem, notDotted]
  exact if_pos h

theorem Base.parse_quoted {q : Char} (hq : Text.isQuoteMark q = true) (s : Text) :
    Base.parse (q :: (s ++ [q])) = .quoted s := by
  have unquoted : unquote? (q :: (s ++ [q])) = some s := by
    obtain ⟨c, r, he⟩ := List.exists_cons_of_ne_nil (List.concat_ne_nil q s)
    rw [he, unquote?, ← he]
    simp [hq]
  rw [Base.parse, unquoted]

/-- A filter with an argument. -/
theorem Filter.call?_argument (name : Text) {argument : Text} (hne : name ≠ [])
    (hname : ∀ c ∈ name, Text.isWord c = true) (hs : argument ≠ [])
    (start : Reader.Stops Text.isBlank argument) :
    call? (name ++ ": " ++ argument) = some (name, some argument) := by
  have stops : Reader.Stops Text.isWord (':' :: ' ' :: argument) := Reader.stops_cons.2 (by decide)
  have shape : name ++ ": " ++ argument = name ++ ':' :: ' ' :: argument := List.append_assoc _ _ _
  have trimmed : Text.trimStart (' ' :: argument) = argument :=
    Reader.dropWhile_append_stops (s := [' ']) (Text.forall_mem_of_all rfl) start
  obtain ⟨c, name, rfl⟩ := List.exists_cons_of_ne_nil hne
  obtain ⟨d, argument, rfl⟩ := List.exists_cons_of_ne_nil hs
  rw [call?, shape, List.span_eq_takeWhile_dropWhile, Reader.takeWhile_append_stops hname stops,
    Reader.dropWhile_append_stops hname stops]
  simp only [trimmed]

theorem Filter.parse_append {argument : Text} (hs : argument ≠ [])
    (start : Reader.Stops Text.isBlank argument) :
    Filter.parse ("append: " ++ argument) = .append argument := by
  have called : call? ("append: " ++ argument) = some (("append" : Text), some argument) :=
    call?_argument "append" (by decide) (Text.forall_mem_of_all rfl) hs start
  rw [Filter.parse, called]
  rfl

/-! ## Expressions -/

namespace Expr

/-- The parts of an expression are read one by one. -/
theorem parse_eq {s base : Text} {filters : List Text}
    (h : Text.splitPipes (Text.trim s) = base :: filters) :
    parse s = .chain
      ((Base.parse base).map fun t => if t.length < s.length then parse t else ofText t)
      (filters.map fun f =>
        (Filter.parse f).map fun t => if t.length < s.length then parse t else ofText t) := by
  rw [parse, h]

/-- A text in quote marks, in which the mark does not occur. -/
theorem parse_quoted {q : Char} {s : Text} (hq : Text.isQuoteMark q = true) (hs : q ∉ s) :
    parse (q :: (s ++ [q])) = .chain (.quoted s) [] := by
  have trimmed := Text.trim_quoted hq s
  have parts : Text.splitPipes (q :: (s ++ [q])) = [Text.trim (q :: (s ++ [q]))] :=
    Text.splitPipes_append_quoted (s := []) (fun c hc => nomatch hc) rfl hq hs
  rw [parse_eq (by rw [trimmed, parts, trimmed]), Base.parse_quoted hq]
  rfl

/-- A name. -/
theorem parse_name {s : Text} (h : Base.isName s = true) : parse s = .chain (.word s) [] := by
  obtain ⟨hne, hword⟩ := Base.isWord_of_isName h
  have trimmed := Text.trim_of_notBlank fun c hc => Text.isBlank_of_isWord (hword c hc)
  have parts := Text.splitPipes_of_uncut (Text.isPart_of_isWord hword).uncut hne
  rw [parse_eq (by rw [trimmed, parts, trimmed]), Base.parse_name h]
  rfl

variable {name t : Text} {q : Char} (hne : name ≠ []) (hname : ∀ c ∈ name, Text.isWord c = true)
  (path : DottedPath)

include hname in
theorem isPart_dotted : Text.IsPart (name ++ '.' :: path.text) ∧
    ∀ c ∈ name ++ '.' :: path.text, Text.isBlank c = false := by
  have characters : ∀ c ∈ name ++ '.' :: path.text, Text.isWord c = true ∨ c = '.' := by
    intro c hc
    rcases List.mem_append.1 hc with hc | hc
    · exact .inl (hname c hc)
    · rcases List.mem_cons.1 hc with rfl | hc
      · exact .inr rfl
      · have word := path.isWordOrDot_text c hc
        rwa [Text.isWordOrDot, Bool.or_eq_true, decide_eq_true_iff] at word
  constructor
  · intro c hc
    rcases characters c hc with word | rfl
    · refine ⟨isQuoteMark_of_isWord word, ?_⟩
      rintro rfl
      revert word
      decide
    · decide
  · intro c hc
    rcases characters c hc with word | rfl
    · exact Text.isBlank_of_isWord word
    · decide

include hne hname in
/-- A path behind a name. -/
theorem parse_dotted : parse (name ++ '.' :: path.text) =
    .chain (.dotted (name ++ '.' :: path.text) name path.text) [] := by
  obtain ⟨part, notBlank⟩ := isPart_dotted hname path
  have trimmed := Text.trim_of_notBlank notBlank
  have parts := Text.splitPipes_of_uncut part.uncut (List.append_ne_nil_of_left_ne_nil hne _)
  rw [parse_eq (by rw [trimmed, parts, trimmed]), Base.parse_dotted hne hname path.isPath_text]
  rfl

/-- A text that begins and ends with no blank, and ends in a quoted text. -/
theorem trim_append_quoted {s : Text} (hs : s ≠ []) (start : Reader.Stops Text.isBlank s)
    (hq : Text.isQuoteMark q = true) : Text.trim (s ++ q :: (t ++ [q])) = s ++ q :: (t ++ [q]) :=
  Text.trim_eq_self (Reader.stops_append hs start _)
    (by simpa using isBlank_of_isQuoteMark hq)

include hne hname in
/-- A quoted text that is appended to a path behind a name. -/
theorem parse_dotted_append (hq : Text.isQuoteMark q = true) (ht : q ∉ t) :
    parse (name ++ '.' :: path.text ++ " | append: " ++ q :: (t ++ [q])) =
      .chain (.dotted (name ++ '.' :: path.text) name path.text)
        [.append (.chain (.quoted t) [])] := by
  obtain ⟨part, notBlank⟩ := isPart_dotted hname path
  have hs : name ++ '.' :: path.text ≠ [] := List.append_ne_nil_of_left_ne_nil hne _
  have parsed := Base.parse_dotted hne hname path.isPath_text
  generalize name ++ '.' :: path.text = s at *
  have start : Reader.Stops Text.isBlank s := fun c hc => notBlank c (List.mem_of_mem_head? hc)
  have whole : Text.trim (s ++ " | append: " ++ q :: (t ++ [q])) =
      s ++ " | append: " ++ q :: (t ++ [q]) :=
    trim_append_quoted (List.append_ne_nil_of_left_ne_nil hs _) (Reader.stops_append hs start _) hq
  have first : Text.trim (s ++ [' ']) = s :=
    Text.trim_append (a := []) (by simp) (Text.trim_of_notBlank notBlank) hs
      (Text.forall_mem_of_all rfl)
  have second : Text.trim (" append: " ++ q :: (t ++ [q])) = "append: " ++ q :: (t ++ [q]) :=
    (Text.trim_cons_blank (by decide) _).trans
      (trim_append_quoted (s := "append: ") (by decide) (by decide) hq)
  have parts : Text.splitPipes (Text.trim (s ++ " | append: " ++ q :: (t ++ [q]))) =
      [s, "append: " ++ q :: (t ++ [q])] := by
    have shape : s ++ " | append: " ++ q :: (t ++ [q]) =
        (s ++ [' ']) ++ '|' :: (" append: " ++ q :: (t ++ [q])) := by simp
    have part : Text.IsPart (s ++ [' ']) :=
      List.forall_mem_append.2 ⟨part, Text.forall_mem_of_all rfl⟩
    have filter : Text.IsPart " append: " := Text.forall_mem_of_all rfl
    rw [whole, shape, Text.splitPipes_append_pipe part.uncut, first,
      Text.splitPipes_append_quoted filter (by decide) hq ht, second]
  have shorter : (q :: (t ++ [q])).length < (s ++ " | append: " ++ q :: (t ++ [q])).length := by
    have := List.length_pos_iff.2 hs
    simp only [List.length_append, List.length_cons]
    omega
  rw [parse_eq parts, parsed, List.map_singleton, Filter.parse_append (List.cons_ne_nil _ _)
    (Reader.stops_cons.2 (isBlank_of_isQuoteMark hq)), Filter.map, if_pos shorter,
    parse_quoted hq ht]
  rfl

end Expr

/-! ## Values -/

/-- A setting that is present is shown as it is. -/
theorem Store.getOrEmpty_of_present {store : Store} {path : Text}
    (present : store.get path ≠ .null) : store.getOrEmpty path = store.get path := by
  rw [Store.getOrEmpty]
  split
  · next absent => exact absurd absent present
  · rfl

section
variable (store : Store) (b : Bindings) (path : DottedPath)

theorem evaluate_quoted {q : Char} {s : Text} (hq : Text.isQuoteMark q = true) (hs : q ∉ s) :
    evaluate store b (q :: (s ++ [q])) = .ok (.str s) := by
  rw [evaluate, Expr.parse_quoted hq hs]
  rfl

theorem evaluate_name {s : Text} (h : Base.isName s = true) :
    evaluate store b s = .ok (b.word s) := by
  rw [evaluate, Expr.parse_name h]
  rfl

theorem evaluate_setting :
    evaluate store b ("settings." ++ path.text) = .ok (store.getOrEmpty path.text) := by
  have parsed : Expr.parse (("settings" : Text) ++ '.' :: path.text) = _ :=
    Expr.parse_dotted (by decide) (Text.forall_mem_of_all rfl) path
  exact congrArg (Expr.eval store b) parsed

theorem evaluate_setting_append {q : Char} {t : Text} (hq : Text.isQuoteMark q = true)
    (ht : q ∉ t) :
    evaluate store b ("settings." ++ path.text ++ " | append: " ++ q :: (t ++ [q])) =
      (do return .str ((← (store.getOrEmpty path.text).toText) ++ t)) := by
  have parsed : Expr.parse (("settings" : Text) ++ '.' :: path.text ++ " | append: " ++
      q :: (t ++ [q])) = _ :=
    Expr.parse_dotted_append (by decide) (Text.forall_mem_of_all rfl) path hq ht
  refine (congrArg (Expr.eval store b) parsed).trans ?_
  simp only [Expr.eval, evalBase, evalFilters, evalFilter, evalDotted, if_true, Value.toText,
    Evaluation.ok_bind, Evaluation.pure_eq_ok, bind_assoc]

end

end ThemeProps
