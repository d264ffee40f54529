/-
  Block comments in the settings in use.

  * `stripComments_eq_self`: a text is left as it is exactly if no `/*` stands in
    it before a `*/`;
  * `readData_document`: a file that holds a JSON document loses nothing exactly
    if no string of the document opens a comment that this string or a later one
    closes, and then the file says what the document says.
-/
import ThemeProps.Settings.Document
import ThemeProps.Proofs.Json.Literal
import ThemeProps.Proofs.Lists

namespace ThemeProps.Settings

variable {s : Text}

/-- A comment begins in the text and ends behind its beginning. -/
def Commented (s : Text) : Prop := Text.Before "/*" "*/" s

theorem blockComment_eq_some {u : Unit} {r : Text} (h : blockComment s = some (u, r)) :
    ∃ a, s = ("/*" : Text) ++ (a ++ (("*/" : Text) ++ r)) := by
  obtain ⟨_, t, opened, read⟩ := Reader.bind_eq_some.1 h
  obtain ⟨⟨a, _⟩, r', found, ends⟩ := Reader.bind_eq_some.1 read
  obtain ⟨-, rfl⟩ := Prod.mk.inj (Option.some.inj ends)
  obtain ⟨b, rfl, closed⟩ := Reader.upTo_eq_some found
  refine ⟨a, ?_⟩
  rw [Reader.literal_eq_some.1 opened, Reader.literal_eq_some.1 closed]

theorem leaves_blockComment : Reader.Leaves blockComment := by
  refine (Reader.leaves_literal _).bind fun _ => ?_
  exact (Reader.Takes.upTo (Reader.leaves_literal _)).bind fun _ => Reader.leaves_pure _

/-- A comment is read where it begins. -/
theorem blockComment_ne_none (h : ("*/" : Text) <:+: s) :
    blockComment (("/*" : Text) ++ s) ≠ none := by
  obtain ⟨a, b, rfl⟩ := h
  rw [blockComment, Reader.bind_of (Reader.reads_literal _ _), List.append_assoc]
  have closed : Reader.literal "*/" (("*/" : Text) ++ b) ≠ none := by
    rw [Reader.reads_literal]
    exact Option.some_ne_none _
  obtain ⟨⟨found, r⟩, read⟩ := Option.ne_none_iff_exists'.1 (Reader.upTo_ne_none (a := a) closed)
  rw [Reader.bind_of read]
  exact Option.some_ne_none _

theorem commented_of_reads (h : blockComment s ≠ none) : Commented s := by
  obtain ⟨⟨u, r⟩, read⟩ := Option.ne_none_iff_exists'.1 h
  obtain ⟨a, rfl⟩ := blockComment_eq_some read
  exact ⟨"/*", _, rfl, List.infix_rfl, a, r, List.append_assoc _ _ _⟩

/-- Where no comment is read, the first character does not count. -/
theorem Commented.tail {c : Char} (h : Commented (c :: s)) (unread : blockComment (c :: s) = none) :
    Commented s := by
  obtain ⟨a, b, he, opens, closes⟩ := h
  cases a with
  | nil => exact absurd opens (by decide)
  | cons d a =>
    obtain ⟨rfl, rfl⟩ := List.cons.inj he
    rcases List.infix_cons_iff.1 opens with first | later
    · obtain ⟨t, ht⟩ := first
      have whole : c :: (a ++ b) = ("/*" : Text) ++ (t ++ b) := by
        rw [← List.cons_append, ← ht, List.append_assoc]
      have read := blockComment_ne_none (closes.trans (List.suffix_append t b).isInfix)
      rw [← whole] at read
      exact absurd unread read
    · exact ⟨a, b, rfl, later, closes⟩

/-- A text gets shorter if there is a comment in it. -/
theorem stripComments_length (s : Text) :
    (stripComments s).length ≤ s.length ∧
      (Commented s → (stripComments s).length < s.length) := by
  refine Reader.replaceEvery_induction
    (R := fun s t => t.length ≤ s.length ∧ (Commented s → t.length < s.length))
    leaves_blockComment ?_ ?_ ?_ s
  · refine ⟨le_rfl, ?_⟩
    rintro ⟨a, b, he, opens, -⟩
    obtain ⟨rfl, rfl⟩ := List.append_eq_nil_iff.1 he.symm
    exact absurd opens (by decide)
  · rintro c s nothing ⟨atMost, shorter⟩
    have unread : blockComment (c :: s) = none := by
      by_contra h
      obtain ⟨⟨u, r⟩, read⟩ := Option.ne_none_iff_exists'.1 h
      obtain ⟨a, he⟩ := blockComment_eq_some read
      have lengths := congrArg List.length he
      rw [nothing _ _ read] at lengths
      simp only [List.length_append] at lengths
      simp at lengths
      omega
    refine ⟨Nat.succ_le_succ atMost, fun h => Nat.succ_lt_succ (shorter (h.tail unread))⟩
  · rintro w v r taken read ⟨atMost, -⟩
    have some : 0 < w.length := List.length_pos_iff.2 taken
    rw [List.nil_append, List.length_append]
    exact ⟨by omega, fun _ => by omega⟩

/-- A text without comments is left as it is, and no other text is. -/
theorem stripComments_eq_self : stripComments s = s ↔ ¬ Commented s := by
  constructor
  · intro same commented
    have shorter := (stripComments_length s).2 commented
    rw [same] at shorter
    exact Nat.lt_irrefl _ shorter
  · intro h
    refine Reader.replaceEvery_of_refuses fun t ht _ => ?_
    by_contra read
    rw [List.append_nil] at read
    obtain ⟨a, rfl⟩ := ht
    exact h (commented_of_reads read).append_left

/-- **Comments in a document.** Taking the comments out leaves a JSON document as it is exactly if
its strings, keys included, have no comment in them when they are written one after the other: no
string opens a comment that it or a later string closes. Such a document is what its file says. -/
theorem readData_document {d : Value} (h : Json.document? s = .ok (some d)) :
    (stripComments s = s ↔ ¬ Commented (Json.literals s).flatten) ∧
      ∀ tree path, Node.readText? tree path = some s → ¬ Commented (Json.literals s).flatten →
        readData tree path = .ok (.ok (inUse d)) := by
  have same : stripComments s = s ↔ ¬ Commented (Json.literals s).flatten :=
    stripComments_eq_self.trans
      (not_congr ((Json.sheds_of_document? h).before_iff (by decide) (by decide)))
  refine ⟨same, fun tree path read plain => ?_⟩
  rw [readData, readDocument, read]
  simp only [same.2 plain, h]
  rfl

/-- In this document a comment is opened and not closed. -/
theorem readData_document_glob :
    let s : Text := "\x7b\"current\": \x7b\"glob\": \"assets/*\"\x7d\x7d"
    ∃ d, Json.document? s = .ok (some d) ∧
      Json.literals s = ["\"current\"", "\"glob\"", "\"assets/*\""] ∧
      (stripComments s = s ↔ ¬ Commented (Json.literals s).flatten) ∧
      ∀ tree path, Node.readText? tree path = some s → ¬ Commented (Json.literals s).flatten →
        readData tree path = .ok (.ok (inUse d)) := by
  intro s
  have document : (Json.document? s).toOption.join.isSome = true := by decide +kernel
  obtain ⟨d, hd⟩ := Option.isSome_iff_exists.1 document
  have read := toOption_eq_some.1 (Option.join_eq_some_iff.1 hd)
  exact ⟨d, read, by decide +kernel, readData_document read⟩

/-- Not every document is read as what it says: here a comment is taken out of a string. -/
theorem readData_comment_in_string :
    ¬ ∀ (s : Text) (d : Value) (tree : Node) (path : Path), Json.document? s = .ok (some d) →
      tree.readText? path = some s → readData tree path = .ok (.ok (inUse d)) := by
  intro h
  let s : Text := "\x7b\"current\": \x7b\"css\": \"a /* b */ c\"\x7d\x7d"
  let tree := Node.directory [("f", .file (s.map fun c => UInt8.ofNat c.toNat))]
  let css (fields : Fields) : Option (Evaluation Text) := (fields.get? "css").map Value.format
  have document : (Json.document? s).toOption.join.isSome = true := by decide +kernel
  obtain ⟨d, hd⟩ := Option.isSome_iff_exists.1 document
  have said : (Json.document? s).toOption.join.bind (fun d => css (inUse d)) =
      some (.ok "a /* b */ c") := by decide +kernel
  have read : ((readData tree ⟨[], ["f"]⟩).toOption.bind Except.toOption).bind css =
      some (.ok "a  c") := by decide +kernel
  rw [hd] at said
  have document := toOption_eq_some.1 (Option.join_eq_some_iff.1 hd)
  rw [h s d tree ⟨[], ["f"]⟩ document (by decide +kernel)] at read
  have same : css (inUse d) = some (.ok "a  c") := read
  rw [show css (inUse d) = some (.ok "a /* b */ c") from said] at same
  exact absurd same (by decide)

end ThemeProps.Settings
