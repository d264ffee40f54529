/-
  Tags that are one keyword, however they are written.

  * `TagStart` is the beginning of a tag up to its keyword: the opening mark, maybe
    a hyphen, maybe blanks, and the keyword in any letter case. All readers of tags
    that are one keyword take only texts that begin so (`Tag.beginsWithin_word`);
  * `Tag.IsEnding` is the ending of a tag, with which alone it is closed
    (`Tag.closeTag_eq_some`);
  * `WordTag` is the whole tag. `WordTag.reads_word` reads it by its own keyword,
    and `WordTag.refuses_word` passes over it with any other one.
-/
import ThemeProps.Proofs.Template.Tag
import ThemeProps.Proofs.Text.Spelling

namespace ThemeProps

/-! ## Keywords -/

namespace Tag

/-- The keyword of a tag is a run of word characters. -/
def IsName (keyword : Text) : Prop := keyword ≠ [] ∧ ∀ c ∈ keyword, Text.isWord c = true

theorem isName_iff {keyword : Text} :
    IsName keyword ↔ keyword ≠ [] ∧ keyword.all Text.isWord = true :=
  and_congr_right fun _ => List.all_eq_true.symm

instance (keyword : Text) : Decidable (IsName keyword) := decidable_of_iff _ isName_iff.symm

/-- The character is a case form of a word character. -/
def namesLetter (c : Char) : Bool := Text.isWord (Text.smallLetter c)

/-- A hyphen at a mark of a tag, or nothing. -/
def hyphenIf (written : Bool) : Text := if written then ['-'] else []

variable {keyword word s r : Text} {c : Char}

theorem IsName.namesLetter (hk : IsName keyword) (spelled : Text.small word = keyword) :
    ∀ c ∈ word, namesLetter c = true := by
  intro c hc
  refine hk.2 _ ?_
  rw [← spelled]
  exact List.mem_map_of_mem hc

theorem IsName.ne_nil (hk : IsName keyword) (spelled : Text.small word = keyword) : word ≠ [] := by
  rintro rfl
  exact hk.1 spelled.symm

theorem isBlank_of_namesLetter (h : namesLetter c = true) : Text.isBlank c = false := by
  refine Bool.eq_false_iff.2 fun blank => ?_
  have noBlank := Text.isBlank_of_isWord h
  rw [Text.smallLetter_of_isBlank blank, blank] at noBlank
  cases noBlank

theorem namesLetter_of_isBlank (h : Text.isBlank c = true) : namesLetter c = false := by
  refine Bool.eq_false_iff.2 fun letter => ?_
  rw [isBlank_of_namesLetter letter] at h
  cases h

theorem notMem_hyphenIf (hc : c ≠ '-') (written : Bool) : c ∉ hyphenIf written := by
  cases written with
  | false => exact List.not_mem_nil
  | true => exact fun h => hc (List.mem_singleton.1 h)

theorem reads_hyphenIf (written : Bool) (h : Reader.Stops (· == '-') s) :
    Reader.maybe '-' (hyphenIf written ++ s) = some ((), s) := by
  cases written with
  | true => rfl
  | false =>
    cases s with
    | nil => rfl
    | cons c s => exact Reader.maybe_of_ne (by simpa using h)

/-- No tag is closed where a letter stands. -/
theorem closeTag_of_namesLetter (h : namesLetter c = true) (s : Text) :
    closeTag (c :: s) = none := by
  have blanks : Reader.blanks (c :: s) = some ((), c :: s) :=
    Reader.reads_blanks_append (s := []) (by simp)
      (Reader.stops_cons.2 (isBlank_of_namesLetter h))
  have hyphen : c ≠ '-' := by
    rintro rfl
    exact absurd h (by decide)
  have percent : c ≠ '%' := by
    rintro rfl
    exact absurd h (by decide)
  rw [closeTag, Reader.bind_of blanks, endTag, Reader.bind_of (Reader.maybe_of_ne hyphen)]
  exact Reader.bind_none (Reader.char_of_ne percent) _

/-- What stands in an opening mark: maybe a hyphen, and blanks. -/
theorem openTag_eq_some {u : Unit} (h : openTag s = some (u, r)) :
    ∃ hyphen blanks, s = '{' :: '%' :: (hyphenIf hyphen ++ (blanks ++ r)) ∧
      ∀ c ∈ blanks, Text.isBlank c = true := by
  obtain ⟨_, s₁, brace, rest₁⟩ := Reader.bind_eq_some.1 h
  obtain ⟨_, s₂, percent, rest₂⟩ := Reader.bind_eq_some.1 rest₁
  obtain ⟨_, s₃, hyphen, rest₃⟩ := Reader.bind_eq_some.1 rest₂
  obtain rfl := Reader.char_eq_some.1 brace
  obtain rfl := Reader.char_eq_some.1 percent
  obtain ⟨blanks, rfl, blank⟩ := Reader.takes_blanks (fun _ hc => hc) _ _ _ rest₃
  rcases Reader.maybe_eq_some hyphen with rfl | rfl
  · exact ⟨false, blanks, rfl, blank⟩
  · exact ⟨true, blanks, rfl, blank⟩

/-! ## The ending of a tag -/

/-- The ending of a tag: maybe blanks, maybe a hyphen, and the closing mark. -/
def IsEnding (e : Text) : Prop :=
  ∃ blanks hyphen, (∀ c ∈ blanks, Text.isBlank c = true) ∧
    e = blanks ++ (hyphenIf hyphen ++ ['%', '}'])

/-- Tags are closed by their endings. -/
theorem closeTag_eq_some {u : Unit} :
    closeTag s = some (u, r) ↔ ∃ e, IsEnding e ∧ s = e ++ r := by
  constructor
  · intro h
    obtain ⟨_, s₁, before, mark⟩ := Reader.bind_eq_some.1 h
    obtain ⟨_, s₂, hyphen, percentBrace⟩ := Reader.bind_eq_some.1 mark
    obtain ⟨_, s₃, percent, brace⟩ := Reader.bind_eq_some.1 percentBrace
    obtain rfl := Reader.char_eq_some.1 percent
    obtain rfl := Reader.char_eq_some.1 brace
    obtain ⟨blanks, rfl, blank⟩ := Reader.takes_blanks (fun _ hc => hc) _ _ _ before
    rcases Reader.maybe_eq_some hyphen with rfl | rfl
    · exact ⟨_, ⟨blanks, false, blank, rfl⟩, by rw [List.append_assoc]; rfl⟩
    · exact ⟨_, ⟨blanks, true, blank, rfl⟩, by rw [List.append_assoc]; rfl⟩
  · rintro ⟨e, ⟨blanks, hyphen, blank, rfl⟩, rfl⟩
    have stops : Reader.Stops Text.isBlank (hyphenIf hyphen ++ '%' :: '}' :: r) := by
      cases hyphen <;> exact Reader.stops_cons.2 (by decide)
    have shape : blanks ++ (hyphenIf hyphen ++ ['%', '}']) ++ r =
        blanks ++ (hyphenIf hyphen ++ '%' :: '}' :: r) := by
      simp only [List.append_assoc, List.cons_append, List.nil_append]
    rw [shape, closeTag, Reader.bind_of (Reader.reads_blanks_append blank stops), endTag,
      Reader.bind_of (reads_hyphenIf _ (Reader.stops_cons.2 (by decide))),
      Reader.bind_of (Reader.reads_char _ _)]
    exact Reader.reads_char _ _

/-- Blanks in front of an ending do not count. -/
theorem closeTag_dropWhile (s : Text) : closeTag (s.dropWhile Text.isBlank) = closeTag s := by
  have blanks (t : Text) : Reader.blanks t = some ((), t.dropWhile Text.isBlank) := rfl
  rw [closeTag, Reader.bind_of (blanks s), Reader.bind_of (blanks _)]
  exact congrArg endTag (List.dropWhile_idempotent _ s)

/-- An ending is its only closing brace behind other characters. -/
theorem IsEnding.eq_append {e : Text} (h : IsEnding e) : ∃ w, e = w ++ ['}'] ∧ '}' ∉ w := by
  obtain ⟨blanks, hyphen, blank, rfl⟩ := h
  refine ⟨blanks ++ (hyphenIf hyphen ++ ['%']), by simp only [List.append_assoc]; rfl, ?_⟩
  rw [List.mem_append, List.mem_append, not_or, not_or]
  refine ⟨fun hm => absurd (blank _ hm) (by decide), notMem_hyphenIf (by decide) hyphen, by decide⟩

end Tag

/-! ## The beginning of a tag -/

/-- The beginning of a tag up to its keyword. -/
structure TagStart (keyword : Text) where
  hyphen : Bool
  blanks : Text
  word : Text
  allBlank : ∀ c ∈ blanks, Text.isBlank c = true
  spelled : Text.small word = keyword

namespace TagStart

variable {keyword : Text} {c : Char}

/-- What stands between the opening brace and the keyword. -/
def mark (start : TagStart keyword) : Text := '%' :: (Tag.hyphenIf start.hyphen ++ start.blanks)

/-- The beginning as a template writes it. -/
def text (start : TagStart keyword) : Text := '{' :: (start.mark ++ start.word)

theorem notMem_tail (start : TagStart keyword) (hk : Tag.IsName keyword) (hc : c = '{' ∨ c = '<') :
    c ∉ start.mark ++ start.word := by
  have character : c ≠ '%' ∧ c ≠ '-' ∧ Text.isBlank c = false ∧ Tag.namesLetter c = false := by
    rcases hc with rfl | rfl <;> decide
  obtain ⟨percent, hyphen, blank, letter⟩ := character
  rw [mark, List.cons_append, List.append_assoc]
  simp only [List.mem_cons, List.mem_append, not_or]
  refine ⟨percent, Tag.notMem_hyphenIf hyphen _, fun h => ?_, fun h => ?_⟩
  · rw [start.allBlank c h] at blank
    cases blank
  · rw [hk.namesLetter start.spelled c h] at letter
    cases letter

theorem reads_openTag (start : TagStart keyword) (hk : Tag.IsName keyword) (s : Text) :
    Tag.openTag (start.text ++ s) = some ((), start.word ++ s) := by
  obtain ⟨hyphen, blanks, word, allBlank, spelled⟩ := start
  obtain ⟨c, word, rfl⟩ := List.exists_cons_of_ne_nil (hk.ne_nil spelled)
  have letter : Tag.namesLetter c = true := hk.namesLetter spelled c List.mem_cons_self
  have stops : Reader.Stops (· == '-') (blanks ++ (c :: word ++ s)) := by
    have notHyphen {d : Char} (hd : Text.isBlank d = true ∨ Tag.namesLetter d = true) :
        (d == '-') = false := by
      refine beq_false_of_ne ?_
      rintro rfl
      exact absurd hd (by decide)
    cases blanks with
    | nil => exact Reader.stops_cons.2 (notHyphen (.inr letter))
    | cons d blanks => exact Reader.stops_cons.2 (notHyphen (.inl (allBlank d List.mem_cons_self)))
  have shape : text ⟨hyphen, blanks, c :: word, allBlank, spelled⟩ ++ s =
      '{' :: '%' :: (Tag.hyphenIf hyphen ++ (blanks ++ (c :: word ++ s))) := by
    simp only [text, mark, List.cons_append, List.append_assoc]
  rw [shape, Tag.openTag, Reader.bind_of (Reader.reads_char _ _),
    Reader.bind_of (Reader.reads_char _ _), Reader.bind_of (Tag.reads_hyphenIf hyphen stops)]
  exact Reader.reads_blanks_append allBlank
    (Reader.stops_cons.2 (Tag.isBlank_of_namesLetter letter))

end TagStart

/-- A tag that is one keyword is read off a text that begins as such a tag does. -/
theorem Tag.beginsWithin_word (keyword : Text) :
    Reader.BeginsWithin (fun w => ∃ start : TagStart keyword, w = start.text)
      (Tag.word keyword) := by
  intro s hs
  obtain ⟨⟨_, r⟩, read⟩ := Option.ne_none_iff_exists'.1 hs
  obtain ⟨_, t, opened, behind⟩ := Reader.bind_eq_some.1 read
  obtain ⟨_, t', named, -⟩ := Reader.bind_eq_some.1 behind
  obtain ⟨word, spelled, rfl⟩ := Reader.keyword_eq_some.1 named
  obtain ⟨hyphen, blanks, rfl, allBlank⟩ := Tag.openTag_eq_some opened
  refine ⟨_, ⟨⟨hyphen, blanks, word, allBlank, spelled⟩, rfl⟩, t', ?_⟩
  simp only [TagStart.text, TagStart.mark, List.cons_append, List.append_assoc]

/-! ## Whole tags -/

/-- A tag that is one keyword. -/
structure WordTag (keyword : Text) extends TagStart keyword where
  blanksBehind : Text
  hyphenBehind : Bool
  allBlankBehind : ∀ c ∈ blanksBehind, Text.isBlank c = true

namespace WordTag

/-- The tag with its keyword in small letters and single blanks. -/
def plain (keyword : Text) (small : Text.small keyword = keyword) : WordTag keyword where
  hyphen := false
  blanks := [' ']
  word := keyword
  allBlank := Text.forall_mem_of_all rfl
  spelled := small
  blanksBehind := [' ']
  hyphenBehind := false
  allBlankBehind := Text.forall_mem_of_all rfl

variable {keyword other s : Text} {c : Char}

/-- What stands behind the keyword. -/
def ending (tag : WordTag keyword) : Text :=
  tag.blanksBehind ++ (Tag.hyphenIf tag.hyphenBehind ++ ['%', '}'])

/-- The tag as a template writes it. -/
def text (tag : WordTag keyword) : Text := tag.toTagStart.text ++ tag.ending

theorem notMem_ending (tag : WordTag keyword) (hc : c = '{' ∨ c = '<') : c ∉ tag.ending := by
  have character : c ∉ ['%', '}'] ∧ c ≠ '-' ∧ Text.isBlank c = false := by
    rcases hc with rfl | rfl <;> decide
  obtain ⟨mark, hyphen, blank⟩ := character
  rw [ending, List.mem_append, List.mem_append, not_or, not_or]
  refine ⟨fun h => ?_, Tag.notMem_hyphenIf hyphen _, mark⟩
  rw [tag.allBlankBehind c h] at blank
  cases blank

/-- The tag is its opening brace and a text without opening braces and angle brackets. -/
theorem text_eq (tag : WordTag keyword) (hk : Tag.IsName keyword) :
    ∃ rest, tag.text = '{' :: rest ∧ ∀ c, c = '{' ∨ c = '<' → c ∉ rest := by
  refine ⟨tag.mark ++ tag.word ++ tag.ending, rfl, fun c hc => ?_⟩
  rw [List.mem_append, not_or]
  exact ⟨tag.toTagStart.notMem_tail hk hc, tag.notMem_ending hc⟩

/-- Behind the keyword no letter follows. -/
theorem stops_ending (tag : WordTag keyword) (s : Text) :
    Reader.Stops Tag.namesLetter (tag.ending ++ s) := by
  obtain ⟨_, blanks, hyphen, allBlank⟩ := tag
  cases blanks with
  | cons c blanks =>
    exact Reader.stops_cons.2 (Tag.namesLetter_of_isBlank (allBlank c List.mem_cons_self))
  | nil => cases hyphen <;> exact Reader.stops_cons.2 (by decide)

theorem isEnding (tag : WordTag keyword) : Tag.IsEnding tag.ending :=
  ⟨_, _, tag.allBlankBehind, rfl⟩

theorem reads_closeTag (tag : WordTag keyword) (s : Text) :
    Tag.closeTag (tag.ending ++ s) = some ((), s) :=
  Tag.closeTag_eq_some.2 ⟨_, tag.isEnding, rfl⟩

/-- The tag is read by its keyword. -/
theorem reads_word (tag : WordTag keyword) (hk : Tag.IsName keyword) (s : Text) :
    Tag.word keyword (tag.text ++ s) = some ((), s) := by
  rw [text, List.append_assoc, Tag.word, Reader.bind_of (tag.reads_openTag hk _),
    Reader.bind_of (Reader.reads_spelling tag.spelled _)]
  exact tag.reads_closeTag s

/-- No other keyword reads the tag. -/
theorem eq_of_reads_word (tag : WordTag keyword) (hk : Tag.IsName keyword)
    (ho : Tag.IsName other) (read : Tag.word other (tag.text ++ s) ≠ none) : other = keyword := by
  rw [text, List.append_assoc, Tag.word, Reader.bind_of (tag.reads_openTag hk _)] at read
  obtain ⟨⟨_, r⟩, found⟩ := Option.ne_none_iff_exists'.1 read
  obtain ⟨_, t, named, closed⟩ := Reader.bind_eq_some.1 found
  obtain ⟨word, spelled, he⟩ := Reader.keyword_eq_some.1 named
  rcases List.append_eq_append_iff.1 he with ⟨more, rfl, ending⟩ | ⟨more, shorter, rfl⟩
  · -- the keyword that is read ends where no letter follows
    cases more with
    | nil => rw [← spelled, List.append_nil, tag.spelled]
    | cons c more =>
      have stops := tag.stops_ending s
      rw [ending, List.cons_append, Reader.stops_cons] at stops
      rw [ho.namesLetter spelled c (by simp)] at stops
      cases stops
  · -- the tag is closed behind it, where no letter follows either
    cases more with
    | nil => rw [← spelled, ← tag.spelled, shorter, List.append_nil]
    | cons c more =>
      have letter : Tag.namesLetter c = true :=
        hk.namesLetter tag.spelled c (by rw [shorter]; simp)
      rw [List.cons_append, Tag.closeTag_of_namesLetter letter] at closed
      cases closed

/-- A reader of tags with another keyword passes over the tag. -/
theorem refuses_word (tag : WordTag keyword) (hk : Tag.IsName keyword) (ho : Tag.IsName other)
    (ne : other ≠ keyword) (s : Text) : Reader.Refuses (Tag.word other) tag.text s := by
  obtain ⟨rest, he, notMem⟩ := tag.text_eq hk
  have here : Tag.word other (tag.text ++ s) = none := by
    by_contra read
    exact ne (tag.eq_of_reads_word hk ho read)
  rw [he] at here ⊢
  exact Reader.refuses_cons.2
    ⟨here, (Tag.begins_word other).refuses_of_notMem (notMem '{' (.inl rfl))⟩

end WordTag
end ThemeProps
