/-
  An expression is cut at the pipes outside its quotations.

  * `quoteAt e n` is the quotation that is open in front of an offset: it looks back
    at the text, where the function that cuts carries it along;
  * `separators` are the offsets of the pipes at which no quotation is open, and
    `stretches` what stands between some offsets;
  * `pipePieces_drop`: from every offset on, the pieces are the stretches between the
    separators that are left;
  * `splitPipes_separators`: the parts of an expression are its stretches trimmed,
    and the stretches with pipes between them are the expression.
-/
import ThemeProps.Proofs.Expr.Parse

namespace ThemeProps.Text

variable {e : Text} {c : Char} {n : Nat}

/-! ## Separators -/

/-- A backslash stands right before the offset. -/
def IsEscaped (e : Text) (n : Nat) : Prop := 0 < n ∧ e[n - 1]? = some '\\'

instance : Decidable (IsEscaped e n) := inferInstanceAs (Decidable (_ ∧ _))

/-- The mark of the quotation that is open in front of an offset. A quote mark that is not escaped
opens a quotation where none is open, and closes one that the same mark has opened. -/
def quoteAt (e : Text) : Nat → Option Char
  | 0 => none
  | n + 1 =>
    match e[n]? with
    | none => quoteAt e n
    | some c =>
      if isQuoteMark c = true ∧ ¬ IsEscaped e n then
        match quoteAt e n with
        | none => some c
        | some q => if c = q then none else some q
      else quoteAt e n

/-- A pipe stands at the offset, and no quotation is open there. -/
def IsSeparator (e : Text) (n : Nat) : Prop := e[n]? = some '|' ∧ quoteAt e n = none

instance : Decidable (IsSeparator e n) := inferInstanceAs (Decidable (_ ∧ _))

/-- The separators of an expression, from left to right. -/
def separators (e : Text) : List Nat := (List.range e.length).filter (IsSeparator e ·)

/-- What stands between the cuts of a text, from an offset on. The characters at the cuts are left
out. -/
def stretches (e : Text) (start : Nat) : List Nat → List Text
  | [] => [e.drop start]
  | cut :: cuts => e.extract start cut :: stretches e (cut + 1) cuts

/-! ## One character -/

theorem isEscaped_succ (h : e[n]? = some c) : decide (IsEscaped e (n + 1)) = (c == '\\') := by
  simp [IsEscaped, h, Bool.beq_eq_decide_eq]

theorem quoteAt_succ (h : e[n]? = some c) :
    quoteAt e (n + 1) = quoteAfter (decide (IsEscaped e n)) (quoteAt e n) c := by
  have marks : isQuoteMark c = true ∧ ¬ IsEscaped e n ↔
      (isQuoteMark c && !decide (IsEscaped e n)) = true := by simp
  rw [quoteAt, h]
  exact if_congr marks rfl rfl

/-- A character in front of the next cut belongs to the first stretch. -/
theorem stretches_eq_consToFirst (h : e[n]? = some c) {cuts : List Nat}
    (later : ∀ k ∈ cuts, n < k) :
    stretches e n cuts = consToFirst c (stretches e (n + 1) cuts) := by
  obtain ⟨inside, rfl⟩ := List.getElem?_eq_some_iff.1 h
  cases cuts with
  | nil => rw [stretches, stretches, consToFirst, List.drop_eq_getElem_cons inside]
  | cons k cuts =>
    have lt : n < k := later k List.mem_cons_self
    have size : k - n = k - (n + 1) + 1 := by omega
    rw [stretches, stretches, consToFirst, List.extract_eq_take_drop, List.extract_eq_take_drop,
      List.drop_eq_getElem_cons inside, size, List.take_succ_cons]

/-! ## All characters -/

/-- From every offset on, the pieces stand between the separators that are left. -/
theorem pipePieces_drop (e : Text) (n : Nat) :
    pipePieces (decide (IsEscaped e n)) (quoteAt e n) (e.drop n) =
      stretches e n ((List.range' n (e.length - n)).filter (IsSeparator e ·)) := by
  -- The induction is on what is left of the expression, so that the offset moves on with it.
  generalize hs : e.drop n = s
  induction s generalizing n with
  | nil =>
    have none_left : e.length - n = 0 := by
      rw [← List.length_drop, hs, List.length_nil]
    rw [none_left, List.range'_zero, List.filter_nil, stretches, hs, pipePieces]
  | cons c s ih =>
    have here : e[n]? = some c := by
      rw [← Nat.add_zero n, ← List.getElem?_drop, hs, List.getElem?_cons_zero]
    have behind : e.drop (n + 1) = s := by
      rw [← List.drop_drop, hs, List.drop_succ_cons, List.drop_zero]
    have left : e.length - n = e.length - (n + 1) + 1 := by
      have inside := (List.getElem?_eq_some_iff.1 here).1
      omega
    have further := ih (n + 1) behind
    rw [isEscaped_succ here, quoteAt_succ here] at further
    rw [left, List.range'_succ]
    by_cases separates : IsSeparator e n
    · obtain ⟨pipe, outside⟩ := separates
      obtain rfl : c = '|' := Option.some.inj (here.symm.trans pipe)
      -- A pipe is no quote mark, so no quotation is open behind it either.
      have stays : quoteAfter (decide (IsEscaped e n)) none '|' = none := rfl
      have nothing : e.extract n n = [] := by
        rw [List.extract_eq_take_drop, Nat.sub_self, List.take_zero]
      rw [outside, stays] at further
      rw [List.filter_cons_of_pos (by simpa using ⟨pipe, outside⟩), stretches, nothing, ← further,
        pipePieces, if_pos ⟨rfl, outside⟩]
      rfl
    · have other : ¬ (c = '|' ∧ quoteAt e n = none) := by
        rintro ⟨rfl, outside⟩
        exact separates ⟨here, outside⟩
      have later : ∀ k ∈ (List.range' (n + 1) (e.length - (n + 1))).filter (IsSeparator e ·),
          n < k := fun k hk => (List.mem_range'_1.1 (List.mem_of_mem_filter hk)).1
      rw [List.filter_cons_of_neg (by simpa using separates), stretches_eq_consToFirst here later,
        ← further, pipePieces, if_neg other]

theorem join_consToFirst (c : Char) {pieces : List Text} (h : pieces ≠ []) (sep : Text) :
    join sep (consToFirst c pieces) = c :: join sep pieces := by
  obtain ⟨piece, pieces, rfl⟩ := List.exists_cons_of_ne_nil h
  cases pieces with
  | nil => rfl
  | cons next pieces => rfl

/-- The pieces with pipes between them are the text. -/
theorem join_pipePieces (escaped : Bool) (openQuote : Option Char) (s : Text) :
    join ['|'] (pipePieces escaped openQuote s) = s := by
  induction s generalizing escaped openQuote with
  | nil => rfl
  | cons c s ih =>
    rw [pipePieces]
    split_ifs with h
    · rw [join_cons _ _ (pipePieces_ne_nil _ _ _), ih, h.1]
      rfl
    · rw [join_consToFirst c (pipePieces_ne_nil _ _ _), ih]

theorem trimPieces_append (pieces : List Text) (last : Text) :
    trimPieces (pieces ++ [last]) = pieces.map trim ++ if last = [] then [] else [trim last] := by
  induction pieces with
  | nil => rfl
  | cons piece pieces ih =>
    rw [List.cons_append, trimPieces, ih]
    · rfl
    · simp

/-- **An expression is cut at the pipes outside its quotations**, and nowhere else. Its parts are
the stretches between them, each one trimmed; the last one is left out exactly if nothing at all
stands behind the last separator. The stretches with pipes between them are the expression, so
nothing of it is lost. -/
theorem splitPipes_separators (e : Text) :
    ∃ pieces last, stretches e 0 (separators e) = pieces ++ [last] ∧
      splitPipes e = pieces.map trim ++ (if last = [] then [] else [trim last]) ∧
      join ['|'] (pieces ++ [last]) = e := by
  have cut : pipePieces false none e = stretches e 0 (separators e) := by
    have whole := pipePieces_drop e 0
    rwa [List.drop_zero, Nat.sub_zero, ← List.range_eq_range'] at whole
  obtain ⟨pieces, last, shape⟩ :=
    (List.eq_nil_or_concat (pipePieces false none e)).resolve_left (pipePieces_ne_nil _ _ _)
  rw [List.concat_eq_append] at shape
  refine ⟨pieces, last, cut.symm.trans shape, ?_, ?_⟩
  · rw [splitPipes, shape, trimPieces_append]
  · rw [← shape, join_pipePieces]

example : splitPipes "'a|b' | append: \"c\\\"|'\" |" = ["'a|b'", "append: \"c\\\"|'\""] := by
  decide

end ThemeProps.Text
