/-
  Tags and outputs as they are written.

  Tags begin with `tagMark` and outputs with `outputMark`, so readers of tags and
  of outputs refuse a text without these marks.

  * `reads_opening` and `reads_word` read a tag with its keyword in small letters
    and one blank behind its opening mark;
  * `reads_openOutput` and `reads_closeOutput` read the marks of an output;
  * `opening_eq_some` and `openOutput_eq_some` say what stands before the
    arguments;
  * `reads_upToWord` reads the text up to a tag that is one keyword.
-/
import ThemeProps.Template.Tag
import ThemeProps.Proofs.Text.Takes

namespace ThemeProps

/-! ## Marks -/

namespace Tag

/-- What every tag begins with. -/
def tagMark : Text := ['{', '%']

/-- What every output begins with. -/
def outputMark : Text := ['{', '{']

/-- The text goes from the beginning of `s` up to a tag or to the end of `s`. -/
def EndsAt (t s : Text) : Prop := ∃ r, s = t ++ r ∧ (r = [] ∨ tagMark <+: r)

@[simp] theorem begins_openTag : Reader.Begins tagMark openTag :=
  Reader.begins_char_bind (Reader.begins_char_bind Reader.begins_nil)

@[simp] theorem begins_word (keyword : Text) : Reader.Begins tagMark (word keyword) :=
  begins_openTag.bind _

@[simp] theorem begins_opening (keyword : Text) : Reader.Begins tagMark (opening keyword) :=
  begins_openTag.bind _

@[simp] theorem begins_openOutput : Reader.Begins outputMark openOutput :=
  Reader.begins_char_bind (Reader.begins_char_bind Reader.begins_nil)

/-! ## What is left behind tags and outputs -/

section
variable (keyword : Text)

@[simp] theorem proceeds_openTag : Reader.Proceeds openTag :=
  (Reader.proceeds_char '{').bind fun _ => (Reader.leaves_char _).bind fun _ =>
    (Reader.leaves_maybe _).bind fun _ => Reader.leaves_blanks

@[simp] theorem leaves_endTag : Reader.Leaves endTag :=
  (Reader.leaves_maybe _).bind fun _ => (Reader.leaves_char _).bind fun _ =>
    Reader.leaves_char _

@[simp] theorem leaves_closeTag : Reader.Leaves closeTag :=
  Reader.leaves_blanks.bind fun _ => leaves_endTag

@[simp] theorem proceeds_word : Reader.Proceeds (word keyword) :=
  proceeds_openTag.bind fun _ => (Reader.leaves_keyword keyword).bind fun _ => leaves_closeTag

@[simp] theorem proceeds_opening : Reader.Proceeds (opening keyword) :=
  proceeds_openTag.bind fun _ => (Reader.leaves_keyword keyword).bind fun _ => Reader.leaves_blanks1

@[simp] theorem leaves_upToWord : Reader.Leaves (upToWord keyword) :=
  (Reader.Takes.upTo (proceeds_word keyword).leaves).bind fun _ => Reader.leaves_pure _

@[simp] theorem proceeds_openOutput : Reader.Proceeds openOutput :=
  (Reader.proceeds_char '{').bind fun _ => (Reader.leaves_char _).bind fun _ =>
    (Reader.leaves_maybe _).bind fun _ => Reader.leaves_blanks

@[simp] theorem leaves_closeOutput : Reader.Leaves closeOutput :=
  Reader.leaves_blanks.bind fun _ => (Reader.leaves_maybe _).bind fun _ =>
    (Reader.leaves_char _).bind fun _ => Reader.leaves_char _

end

/-- What stands between the opening mark of a tag and the arguments of its keyword has no percent
sign. -/
theorem opening_eq_some {keyword s r : Text} {u : Unit}
    (hk : ∀ letter ∈ keyword, Text.sameLetter letter '%' = false)
    (h : opening keyword s = some (u, r)) : ∃ a, s = '{' :: '%' :: (a ++ r) ∧ '%' ∉ a := by
  have blank {c : Char} (hc : Text.isBlank c = true) : c ≠ '%' := by
    rintro rfl
    cases hc
  have inside : Reader.Takes (· ≠ '%') (do
      Reader.maybe '-'
      Reader.blanks
      Reader.keyword keyword
      Reader.blanks1) := by
    refine (Reader.takes_maybe (by decide)).bind fun _ => ?_
    refine (Reader.takes_blanks fun _ => blank).bind fun _ => ?_
    refine (Reader.takes_keyword fun letter hl c hc => ?_).bind fun _ => ?_
    · rintro rfl
      rw [hk letter hl] at hc
      cases hc
    · exact (Reader.takes_run1 fun _ => blank).bind fun _ => Reader.takes_pure ()
  simp only [opening, openTag, bind_assoc] at h
  obtain ⟨_, s₁, first, h⟩ := Reader.bind_eq_some.1 h
  obtain ⟨_, s₂, second, h⟩ := Reader.bind_eq_some.1 h
  obtain rfl := Reader.char_eq_some.1 first
  obtain rfl := Reader.char_eq_some.1 second
  obtain ⟨a, rfl, ha⟩ := inside _ _ _ h
  exact ⟨a, rfl, fun hm => ha '%' hm rfl⟩

/-! ## Outputs -/

/-- Between the opening mark of an output and what it shows stand blanks, perhaps behind a
hyphen. -/
theorem openOutput_eq_some {s r : Text} {u : Unit} (h : openOutput s = some (u, r)) :
    ∃ a, s = '{' :: '{' :: (a ++ r) ∧ ∀ c ∈ a, c = '-' ∨ Text.isBlank c = true := by
  have inside : Reader.Takes (fun c => c = '-' ∨ Text.isBlank c = true) (do
      Reader.maybe '-'
      Reader.blanks) :=
    (Reader.takes_maybe (.inl rfl)).bind fun _ => Reader.takes_blanks fun _ hc => .inr hc
  obtain ⟨_, s₁, first, h⟩ := Reader.bind_eq_some.1 h
  obtain ⟨_, s₂, second, h⟩ := Reader.bind_eq_some.1 h
  obtain rfl := Reader.char_eq_some.1 first
  obtain rfl := Reader.char_eq_some.1 second
  obtain ⟨a, rfl, ha⟩ := inside _ _ _ h
  exact ⟨a, rfl, ha⟩

/-- The opening mark of an output and one blank. -/
theorem reads_openOutput {s : Text} (h : Reader.Stops Text.isBlank s) :
    openOutput ('{' :: '{' :: ' ' :: s) = some ((), s) := by
  have blank : Reader.blanks (' ' :: s) = some ((), s) := Reader.reads_blanks_cons (by decide) h
  rw [openOutput, Reader.bind_of (Reader.reads_char _ _), Reader.bind_of (Reader.reads_char _ _),
    Reader.bind_of (Reader.maybe_of_ne (by decide))]
  exact blank

/-- One blank and the closing mark of an output. -/
@[simp]
theorem reads_closeOutput (s : Text) : closeOutput (' ' :: '}' :: '}' :: s) = some ((), s) := by
  have blank : Reader.blanks (' ' :: '}' :: '}' :: s) = some ((), '}' :: '}' :: s) :=
    Reader.reads_blanks_cons (by decide) (Reader.stops_cons.2 (by decide))
  rw [closeOutput, Reader.bind_of blank, Reader.bind_of (Reader.maybe_of_ne (by decide)),
    Reader.bind_of (Reader.reads_char _ _)]
  exact Reader.reads_char _ _

/-- The output that shows the given text. -/
def writeOutput (shown : Text) : Text := "\x7b\x7b " ++ shown ++ " \x7d\x7d"

section
variable {shown s : Text}

theorem writeOutput_append (shown s : Text) :
    writeOutput shown ++ s = '{' :: '{' :: ' ' :: (shown ++ ' ' :: '}' :: '}' :: s) := by
  rw [writeOutput, List.append_assoc, List.append_assoc]
  rfl

@[simp] theorem writeOutput_ne_nil : writeOutput shown ≠ [] := by simp [writeOutput]

/-- A reader of outputs passes over an output that it does not take. -/
theorem refuses_writeOutput {α : Type} {reader : Reader α} (h : Reader.Begins outputMark reader)
    (hs : '{' ∉ shown) (none : reader (writeOutput shown ++ s) = none) :
    Reader.Refuses reader (writeOutput shown) s := by
  rw [writeOutput_append] at none
  have shape : writeOutput shown = '{' :: '{' :: ' ' :: (shown ++ [' ', '}', '}']) := by
    rw [← List.append_nil (writeOutput shown), writeOutput_append]
  have behind : Text.NoPair '{' '{' ('{' :: ' ' :: (shown ++ [' ', '}', '}'])) := by
    refine ⟨fun _ => rfl, fun he => absurd he (by decide), ?_⟩
    exact (Text.noPair_of_notMem hs).append (by decide)
  rw [shape]
  refine Reader.refuses_cons.2 ⟨?_, h.refuses_of_noPair behind s⟩
  simpa using none

/-- An output stands in no tag. -/
theorem noPair_writeOutput (hs : '{' ∉ shown) : Text.NoPair '{' '%' (writeOutput shown) :=
  (Text.NoPair.append (by decide) (Text.noPair_of_notMem hs)).append (by decide)

end

/-! ## Tags -/

section
variable {keyword s : Text}

/-- The opening mark of a tag and one blank. -/
theorem reads_openTag (h : Reader.Stops Text.isBlank s) :
    openTag ('{' :: '%' :: ' ' :: s) = some ((), s) := by
  have blank : Reader.blanks (' ' :: s) = some ((), s) := Reader.reads_blanks_cons (by decide) h
  rw [openTag, Reader.bind_of (Reader.reads_char _ _), Reader.bind_of (Reader.reads_char _ _),
    Reader.bind_of (Reader.maybe_of_ne (by decide))]
  exact blank

/-- The closing mark of a tag. -/
@[simp] theorem reads_endTag (s : Text) : endTag ('%' :: '}' :: s) = some ((), s) := by
  rw [endTag, Reader.bind_of (Reader.maybe_of_ne (by decide)),
    Reader.bind_of (Reader.reads_char _ _)]
  exact Reader.reads_char _ _

/-- One blank and the closing mark of a tag. -/
@[simp] theorem reads_closeTag (s : Text) : closeTag (' ' :: '%' :: '}' :: s) = some ((), s) := by
  have blank : Reader.blanks (' ' :: '%' :: '}' :: s) = some ((), '%' :: '}' :: s) :=
    Reader.reads_blanks_cons (by decide) (Reader.stops_cons.2 (by decide))
  rw [closeTag, Reader.bind_of blank]
  exact reads_endTag s

/-- A text without hyphens and percent signs has no closing mark in it. -/
theorem refuses_endTag (hh : '-' ∉ s) (hp : '%' ∉ s) (b : Text) : Reader.Refuses endTag s b := by
  intro t ht hne
  obtain ⟨c, t, rfl⟩ := List.exists_cons_of_ne_nil hne
  have here : c ∈ s := ht.subset List.mem_cons_self
  have hyphen : c ≠ '-' := fun he => hh (he ▸ here)
  have percent : c ≠ '%' := fun he => hp (he ▸ here)
  rw [List.cons_append, endTag, Reader.bind_of (Reader.maybe_of_ne hyphen)]
  exact Reader.bind_none (Reader.char_of_ne percent) _

/-- The keyword of a tag is written in small letters. -/
structure IsKeyword (keyword : Text) : Prop where
  stops : Reader.Stops Text.isBlank keyword
  nonempty : keyword ≠ []
  small : ∀ c ∈ keyword, Text.sameLetter c c = true

theorem isKeyword_iff : IsKeyword keyword ↔ Reader.Stops Text.isBlank keyword ∧ keyword ≠ [] ∧
    keyword.all (fun c => Text.sameLetter c c) = true :=
  ⟨fun h => ⟨h.1, h.2, List.all_eq_true.2 h.3⟩, fun ⟨h₁, h₂, h₃⟩ => ⟨h₁, h₂, List.all_eq_true.1 h₃⟩⟩

instance : Decidable (IsKeyword keyword) := decidable_of_iff _ isKeyword_iff.symm

/-- The opening mark of a tag, its keyword and one blank. -/
theorem reads_opening (hk : IsKeyword keyword) (h : Reader.Stops Text.isBlank s) :
    opening keyword ("\x7b% " ++ keyword ++ ' ' :: s) = some ((), s) := by
  have shape : ("\x7b% " : Text) ++ keyword ++ ' ' :: s =
      '{' :: '%' :: ' ' :: (keyword ++ ' ' :: s) := rfl
  rw [shape, opening, Reader.bind_of (reads_openTag (Reader.stops_append hk.nonempty hk.stops _)),
    Reader.bind_of (Reader.reads_keyword hk.small _)]
  exact Reader.reads_blanks1 h

/-- The tag that is one keyword. -/
def writeWord (keyword : Text) : Text := "\x7b% " ++ keyword ++ " %\x7d"

theorem reads_word (hk : IsKeyword keyword) (s : Text) :
    word keyword (writeWord keyword ++ s) = some ((), s) := by
  have shape : writeWord keyword ++ s =
      '{' :: '%' :: ' ' :: (keyword ++ ' ' :: '%' :: '}' :: s) := by
    rw [writeWord, List.append_assoc]
    rfl
  rw [shape, word, Reader.bind_of (reads_openTag (Reader.stops_append hk.nonempty hk.stops _)),
    Reader.bind_of (Reader.reads_keyword hk.small _)]
  exact reads_closeTag s

/-- The text up to a tag that is one keyword. -/
theorem reads_upToWord {a b r : Text} (ha : Reader.Refuses (word keyword) a b)
    (hb : word keyword b = some ((), r)) : upToWord keyword (a ++ b) = some (a, r) := by
  rw [upToWord, Reader.bind_of (Reader.upTo_append ha hb)]
  rfl

end

end Tag

end ThemeProps
