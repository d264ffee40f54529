/-
  A loop over the color schemes as a template writes it, and what becomes of it.

  * `LoopPart` are the parts of its body: literal text, outputs of the scheme's
    identifier, of its settings and of the loop index, and parts for some rounds;
  * `Writing` says what is written for the outputs. Each step of the way changes
    the writing and nothing else: `fillIds`, `renameSettings`, `fillIndices`;
  * `keepFirstRounds` and `removeOtherRounds` resolve the parts for some rounds,
    and `firstIteration_body` puts the steps together;
  * `toStylesheet_schemeLoop`: the loop becomes its first round, filled in.
-/
import ThemeProps.Proofs.Scan.SettingOutput
import ThemeProps.Proofs.Template.LoopVariable
import ThemeProps.Proofs.Template.NumericConditional

namespace ThemeProps

namespace SchemeLoop

/-! ## Loops as they are written -/

/-- Literal text of a body. No output and no tag begins in it, nor behind it with its last
character. -/
structure LoopText where
  text : Text
  noOutput : Text.NoPair '{' '{' text
  noTag : Text.NoPair '{' '%' text

/-- A piece of a body: literal text, or an output. -/
inductive LoopPiece where
  | literal (t : LoopText)
  | id
  | setting (path : SettingPath)
  | index

/-- A comparison of the loop index with a number. -/
structure RoundTest where
  operator : Text
  isOperator : operator ∈ comparisonOperators
  /-- The digits of the number. -/
  number : Text
  nonempty : number ≠ []
  isDigit : ∀ c ∈ number, Text.isDigit c = true

/-- A part of a body: a piece, or some pieces for the rounds that pass a test. -/
inductive LoopPart where
  | piece (p : LoopPiece)
  | guarded (test : RoundTest) (inner : List LoopPiece)

/-- The test for the first round. -/
def RoundTest.IsFirst (test : RoundTest) : Prop := test.operator = "==" ∧ test.number = "1"

instance (test : RoundTest) : Decidable test.IsFirst :=
  inferInstanceAs (Decidable (test.operator = _ ∧ test.number = _))

/-- The name of the loop index. -/
def indexName : Text := "forloop.index"

/-- The test compares a name with a number. -/
def RoundTest.numeric (test : RoundTest) : NumericTest where
  name := indexName
  nonempty := by decide
  isWordOrDot := List.all_eq_true.1 rfl
  noSetting := by decide
  operator := test.operator
  isOperator := test.isOperator
  number := test.number
  isDigit := test.isDigit

/-- The test as a template writes it. -/
def RoundTest.text (test : RoundTest) : Text := test.numeric.text

/-- What is written for the outputs of a body. -/
structure Writing where
  id : Text
  setting : Text → Text
  index : Text

/-- The outputs as a template has them. -/
def Writing.source (name : LoopVariable) : Writing where
  id := Tag.writeOutput (name.text ++ ".id")
  setting path := Tag.writeOutput (name.settings ++ path)
  index := Tag.writeOutput indexName

/-- The identifier of the first color scheme, or the one that stands in for it. -/
def firstId (store : Store) : Text := store.firstSchemeId?.getD "scheme-1"

/-- What a piece shows in the end. -/
def LoopPiece.shown (store : Store) : LoopPiece → Evaluation Text
  | literal t => .ok t.text
  | id => .ok (firstId store)
  | setting path => store.renderSchemeSetting path.text
  | index => .ok "1"

section
variable (w : Writing)

def LoopPiece.write : LoopPiece → Text
  | literal t => t.text
  | id => w.id
  | setting path => w.setting path.text
  | index => w.index

def LoopPart.write : LoopPart → Text
  | piece p => p.write w
  | guarded test inner => writeRegion test.text (inner.flatMap (LoopPiece.write w))

def writeBody (body : List LoopPart) : Text := body.flatMap (LoopPart.write w)

end

/-- The pieces that are for the first round. -/
def LoopPart.kept : LoopPart → List LoopPiece
  | piece p => [p]
  | guarded test inner => if test.IsFirst then inner else []

/-- The setting that holds the color schemes. -/
def schemesName : Text := "settings.color_schemes"

/-- The loop as a template writes it. -/
def writeLoop (name : LoopVariable) (body : List LoopPart) : Text :=
  "\x7b% for " ++ name.text ++ " in " ++ schemesName ++ " %\x7d" ++
    writeBody (.source name) body ++ Tag.writeWord "endfor"

/-- The first round of the body, filled in. -/
def firstRoundOf (store : Store) (body : List LoopPart) : Evaluation Text := do
  return (← (body.flatMap LoopPart.kept).mapM (LoopPiece.shown store)).flatten

/-! ## Parts for some rounds -/

/-- A tag does not end in front of a digit. -/
theorem closeTag_of_isDigit {c : Char} (h : Text.isDigit c = true) (s : Text) :
    Tag.closeTag (c :: s) = none := by
  have other {d : Char} (hd : Text.isDigit d = false) : c ≠ d := by
    rintro rfl
    rw [h] at hd
    cases hd
  have blanks : Reader.blanks (c :: s) = some ((), c :: s) := Reader.reads_blanks_append (s := [])
    (by simp) (Reader.stops_cons.2 (Text.isBlank_of_isDigit h))
  rw [Tag.closeTag, Reader.bind_of blanks, Tag.endTag,
    Reader.bind_of (Reader.maybe_of_ne (other (by decide)))]
  exact Reader.bind_none (Reader.char_of_ne (other (by decide))) _

namespace RoundTest

variable {s inner : Text}

theorem noBrace_text (test : RoundTest) : '{' ∉ test.text :=
  NumericTest.notMem_text (by decide) (by decide) (by decide) (by decide)

theorem noPercent_text (test : RoundTest) : '%' ∉ test.text :=
  NumericTest.notMem_text (by decide) (by decide) (by decide) (by decide)

theorem text_eq (test : RoundTest) :
    test.text = indexName ++ ' ' :: (test.operator ++ ' ' :: test.number) := rfl

/-- The beginning of a part for some rounds is read up to the comparison. -/
theorem reads_beginning {α : Type} (test : RoundTest) (inner s : Text) (reader : Reader α) :
    (do Tag.opening "if"; Reader.keyword "forloop.index"; reader)
        (writeRegion test.text inner ++ s) =
      reader (' ' :: (test.operator ++ ' ' :: (test.number ++
        ' ' :: '%' :: '}' :: (inner ++ (Tag.writeWord "endif" ++ s))))) := by
  have shape : test.text ++ [' '] ++ '%' :: '}' :: (inner ++ (Tag.writeWord "endif" ++ s)) =
      indexName ++ (' ' :: (test.operator ++ ' ' :: (test.number ++
        ' ' :: '%' :: '}' :: (inner ++ (Tag.writeWord "endif" ++ s))))) := by
    rw [text_eq, List.append_assoc, List.append_assoc, List.cons_append, List.append_assoc,
      List.cons_append]
    rfl
  have index (s : Text) : Reader.keyword "forloop.index" (indexName ++ s) = some ((), s) :=
    Reader.reads_keyword (w := indexName) (List.all_eq_true.1 rfl) s
  rw [writeRegion_append, shape, Reader.bind_of
    (Tag.reads_opening (by decide) (Reader.stops_append (by decide) (by decide) _)),
    Reader.bind_of (index _)]

/-- A part for some rounds is read as such, whatever the test is. -/
theorem reads_otherRound (test : RoundTest)
    (hi : Reader.Refuses (Tag.word "endif") inner (Tag.writeWord "endif" ++ s)) :
    otherRound (writeRegion test.text inner ++ s) = some ((), s) := by
  have percent := test.noPercent_text
  rw [text_eq, List.mem_append, List.mem_cons, List.mem_append, List.mem_cons] at percent
  have comparison : ∀ c ∈ ' ' :: (test.operator ++ ' ' :: (test.number ++ [' '])),
      decide (c ≠ '%') = true := by
    intro c hc
    refine decide_eq_true ?_
    rintro rfl
    simp only [List.mem_append, List.mem_cons, List.not_mem_nil, or_false] at hc
    grind
  have shape : ' ' :: (test.operator ++ ' ' :: (test.number ++
        ' ' :: '%' :: '}' :: (inner ++ (Tag.writeWord "endif" ++ s)))) =
      ' ' :: (test.operator ++ ' ' :: (test.number ++ [' '])) ++
        '%' :: '}' :: (inner ++ (Tag.writeWord "endif" ++ s)) := by
    simp
  have bodyRead := Tag.reads_upToWord hi (Tag.reads_word (by decide) s)
  rw [otherRound, test.reads_beginning, shape, Reader.bind_of
    (Reader.reads_run1 (by simp) comparison (Reader.stops_cons.2 (by decide))),
    Reader.bind_of (Reader.reads_char _ _), Reader.bind_of (Reader.reads_char _ _),
    Reader.bind_of bodyRead]
  rfl

/-- A part for the first round is read as what is in it. -/
theorem reads_firstRound {test : RoundTest} (h : test.IsFirst)
    (hi : Reader.Refuses (Tag.word "endif") inner (Tag.writeWord "endif" ++ s)) :
    firstRound (writeRegion test.text inner ++ s) = some (inner, s) := by
  have tag (r : Text) : (do
      Reader.blanks
      Reader.literal "=="
      Reader.blanks
      Reader.char '1'
      Tag.closeTag
      Tag.upToWord "endif") (" == 1 %\x7d" ++ r) = Tag.upToWord "endif" r := rfl
  rw [firstRound, test.reads_beginning, h.1, h.2]
  exact (tag _).trans (Tag.reads_upToWord hi (Tag.reads_word (by decide) s))

/-- A part for other rounds is no part for the first one. -/
theorem firstRound_eq_none {test : RoundTest} (h : ¬ test.IsFirst) :
    firstRound (writeRegion test.text inner ++ s) = none := by
  have operators : ∀ operator ∈ comparisonOperators, operator ≠ [] ∧
      Reader.Stops Text.isBlank operator ∧ ("==".toList <+: operator → operator = "==") := by decide
  obtain ⟨hne, hs, equal⟩ := operators _ test.isOperator
  rw [firstRound, test.reads_beginning,
    Reader.bind_of (Reader.reads_blanks_cons (by decide) (Reader.stops_append hne hs _))]
  by_cases hop : "==".toList <+: test.operator
  · have other : test.number ≠ "1" := fun hn => h ⟨equal hop, hn⟩
    obtain ⟨d, digits, hd⟩ := List.exists_cons_of_ne_nil test.nonempty
    have digit : ∀ c ∈ d :: digits, Text.isDigit c = true := hd ▸ test.isDigit
    have first : Text.isBlank d = false := Text.isBlank_of_isDigit (digit d List.mem_cons_self)
    rw [equal hop, Reader.bind_of (Reader.reads_literal _ _), hd, List.cons_append,
      Reader.bind_of (Reader.reads_blanks_cons (by decide) (Reader.stops_cons.2 first))]
    by_cases one : d = '1'
    · subst one
      cases digits with
      | nil => exact absurd hd other
      | cons e digits =>
        rw [Reader.bind_of (Reader.reads_char _ _)]
        exact Reader.bind_none (closeTag_of_isDigit (digit e (by simp)) _) _
    · exact Reader.bind_none (Reader.char_of_ne one) _
  · refine Reader.bind_none (Reader.literal_eq_none.2 ?_) _
    rwa [Text.prefix_append_cons (by decide)]

end RoundTest

/-! ## Filling in the outputs -/

section
variable {α : Type} {reader : Reader α} {write : α → Text} {w w' : Writing} {name : LoopVariable}
  {id s : Text}

/-- What becomes of each part becomes of the parts of a body. -/
theorem replaceEvery_parts {g : LoopPart → Text}
    (h : ∀ (part : LoopPart) (b : Text), Reader.replaceEvery reader write (part.write w ++ b) =
      g part ++ Reader.replaceEvery reader write b) (body : List LoopPart) :
    Reader.replaceEvery reader write (writeBody w body) = body.flatMap g := by
  have whole : Reader.replaceEvery reader write (body.flatMap (LoopPart.write w) ++ []) = _ :=
    Reader.piecewise_flatMap (fun part _ b => h part b) []
  rwa [List.append_nil, Reader.replaceEvery_of_refuses Reader.refuses_nil, List.append_nil] at whole

/-- If a reader of outputs changes what is written for each piece, it does so in a whole body. -/
theorem replaceEvery_writeBody (h : Reader.Begins Tag.outputMark reader)
    (hp : ∀ (p : LoopPiece) (b : Text), Reader.replaceEvery reader write (p.write w ++ b) =
      p.write w' ++ Reader.replaceEvery reader write b) (body : List LoopPart) :
    Reader.replaceEvery reader write (writeBody w body) = writeBody w' body := by
  have pass {t : Text} (ht : Text.NoPair '{' '{' t) (b : Text) :
      Reader.replaceEvery reader write (t ++ b) = t ++ Reader.replaceEvery reader write b :=
    Reader.replaceEvery_append (h.refuses_of_noPair ht b)
  have part (part : LoopPart) (b : Text) : Reader.replaceEvery reader write (part.write w ++ b) =
      part.write w' ++ Reader.replaceEvery reader write b := by
    cases part with
    | piece p => exact hp p b
    | guarded test inner =>
      have text : Text.NoPair '{' '{' test.text := Text.noPair_of_notMem test.noBrace_text
      have opening : Text.NoPair '{' '{' "\x7b% if ".toList := by decide +kernel
      have closing : Text.NoPair '{' '{' " %\x7d".toList := by decide +kernel
      have ending : Text.NoPair '{' '{' (Tag.writeWord "endif") := by decide +kernel
      rw [LoopPart.write, LoopPart.write, writeRegion_assoc, writeRegion_assoc, pass opening,
        pass text, pass closing, Reader.piecewise_flatMap fun p _ b => hp p b, pass ending]
  exact replaceEvery_parts part body

theorem LoopVariable.noBrace_setting (name : LoopVariable) (path : SettingPath) :
    '{' ∉ name.settings ++ path.text := by
  rw [List.mem_append, not_or]
  exact ⟨name.notMem_settings (by decide), path.notMem (by decide)⟩

theorem noBrace_schemeSetting (path : SettingPath) :
    '{' ∉ "scheme.settings.".toList ++ path.text := by
  rw [List.mem_append, not_or]
  exact ⟨by decide, path.notMem (by decide)⟩

theorem reads_idOutput (name : LoopVariable) (s : Text) :
    idOutput name.text (Tag.writeOutput (name.text ++ ".id") ++ s) = some ((), s) := by
  rw [Tag.writeOutput_append, List.append_assoc, idOutput,
    Reader.bind_of (Tag.reads_openOutput (Reader.stops_append name.nonempty name.stops _)),
    Reader.bind_of (Reader.reads_literal _ _), Reader.bind_of (Reader.reads_literal _ _)]
  exact Tag.reads_closeOutput s

/-- An output that does not begin like that of the identifier is no output of the identifier. -/
theorem idOutput_eq_none {shown : Text} (hne : shown ≠ []) (hs : Reader.Stops Text.isBlank shown)
    (h : ¬ name.text ++ ".id".toList <+: shown ++ ' ' :: '}' :: '}' :: s) :
    idOutput name.text (Tag.writeOutput shown ++ s) = none := by
  rw [Tag.writeOutput_append, idOutput,
    Reader.bind_of (Tag.reads_openOutput (Reader.stops_append hne hs _))]
  by_contra hr
  obtain ⟨⟨_, r⟩, read⟩ := Option.ne_none_iff_exists'.1 hr
  obtain ⟨_, t, variableRead, read⟩ := Reader.bind_eq_some.1 read
  obtain ⟨_, u, idRead, -⟩ := Reader.bind_eq_some.1 read
  rw [Reader.literal_eq_some] at variableRead idRead
  rw [variableRead, idRead] at h
  exact h ((List.prefix_append_right_inj _).2 (List.prefix_append _ _))

theorem reads_indexOutput (s : Text) :
    indexOutput (Tag.writeOutput indexName ++ s) = some ((), s) := by
  have index (s : Text) : Reader.literal "forloop.index" (indexName ++ s) = some ((), s) :=
    Reader.reads_literal indexName s
  rw [Tag.writeOutput_append, indexOutput, Reader.bind_of
    (Tag.reads_openOutput (Reader.stops_append (by decide) (by decide) _)),
    Reader.bind_of (index _)]
  exact Tag.reads_closeOutput s

/-- The outputs with the identifier filled in. -/
def Writing.named (name : LoopVariable) (id : Text) : Writing := { Writing.source name with id }

/-- The outputs with the settings of `scheme` in place of those of the loop variable. -/
def Writing.renamed (id : Text) : Writing where
  id := id
  setting path := Tag.writeOutput ("scheme.settings." ++ path)
  index := Tag.writeOutput indexName

/-- The outputs with the paths of settings alone. -/
def Writing.bare (id : Text) : Writing where
  id := id
  setting := Tag.writeOutput
  index := Tag.writeOutput indexName

/-- The outputs with the identifier and the index filled in. -/
def Writing.numbered (id : Text) : Writing := { Writing.renamed id with index := "1" }

/-- The identifier is filled in. -/
theorem fillIds (name : LoopVariable) (id : Text) (body : List LoopPart) :
    Reader.replaceEvery (idOutput name.text) (fun _ => id) (writeBody (.source name) body) =
      writeBody (.named name id) body := by
  have begins : Reader.Begins Tag.outputMark (idOutput name.text) := Tag.begins_openOutput.bind _
  refine replaceEvery_writeBody begins (fun p b => ?_) body
  cases p with
  | literal t => exact Reader.replaceEvery_append (begins.refuses_of_noPair t.noOutput b)
  | id => exact Reader.replaceEvery_of_reads (reads_idOutput name b) Tag.writeOutput_ne_nil
  | setting path =>
    refine Reader.replaceEvery_append
      (Tag.refuses_writeOutput begins (name.noBrace_setting path) ?_)
    refine idOutput_eq_none (List.append_ne_nil_of_left_ne_nil name.settings_ne_nil _)
      (Reader.stops_append name.settings_ne_nil name.stops_settings _) ?_
    rw [LoopVariable.settings, List.append_assoc, List.append_assoc, List.prefix_append_right_inj]
    exact Text.stripFrom_eq_none.1 rfl
  | index =>
    refine Reader.replaceEvery_append (Tag.refuses_writeOutput begins (by decide) ?_)
    refine idOutput_eq_none (by decide) (by decide) ?_
    change ¬ name.text ++ '.' :: "id".toList <+:
      "forloop".toList ++ '.' :: ("index" ++ ' ' :: '}' :: '}' :: b)
    rw [Text.append_cons_prefix (name.notMem (by decide)) (by decide), not_and]
    exact fun _ => Text.stripFrom_eq_none.1 rfl

/-- The settings of the loop variable are renamed. -/
theorem renameSettings {body : List LoopPart}
    (h : ¬ name.settings <:+: writeBody (.bare id) body) :
    rename name.text (writeBody (.named name id) body) = writeBody (.renamed id) body := by
  have piece (p : LoopPiece) :
      Renaming name (p.write (.bare id)) (p.write (.named name id)) (p.write (.renamed id)) := by
    cases p with
    | literal t => exact .same t.text
    | id => exact .same id
    | setting path => exact .output path.text
    | index => exact .same (Tag.writeOutput indexName)
  have part (part : LoopPart) : Renaming name (part.write (.bare id)) (part.write (.named name id))
      (part.write (.renamed id)) := by
    cases part with
    | piece p => exact piece p
    | guarded test inner =>
      exact ((Renaming.same _).append (Renaming.flatMap piece inner)).append (.same _)
  exact (Renaming.flatMap part body).rename_eq (a := []) h

/-- The loop index is filled in. -/
theorem fillIndices (hid : '{' ∉ id) (body : List LoopPart) :
    Reader.replaceEvery indexOutput (fun _ => "1") (writeBody (.renamed id) body) =
      writeBody (.numbered id) body := by
  have begins : Reader.Begins Tag.outputMark indexOutput := Tag.begins_openOutput.bind _
  refine replaceEvery_writeBody begins (fun p b => ?_) body
  cases p with
  | literal t => exact Reader.replaceEvery_append (begins.refuses_of_noPair t.noOutput b)
  | id => exact Reader.replaceEvery_append (begins.refuses_of_notMem hid)
  | setting path =>
    refine Reader.replaceEvery_append
      (Tag.refuses_writeOutput begins (noBrace_schemeSetting path) ?_)
    rw [Tag.writeOutput_append, List.append_assoc, indexOutput, Reader.bind_of
      (Tag.reads_openOutput (Reader.stops_append (by decide) (by decide) _))]
    exact Reader.bind_none rfl _
  | index => exact Reader.replaceEvery_of_reads (reads_indexOutput b) Tag.writeOutput_ne_nil

end

/-! ## Resolving the parts for some rounds -/

section
variable {w : Writing}

/-- No piece has a tag in it, nor begins one with its last character. -/
def Writing.NoTag (w : Writing) : Prop := ∀ p : LoopPiece, Text.NoPair '{' '%' (p.write w)

theorem Writing.noTag_source (name : LoopVariable) : (Writing.source name).NoTag := by
  intro p
  cases p with
  | literal t => exact t.noTag
  | id =>
    refine Tag.noPair_writeOutput ?_
    rw [List.mem_append, not_or]
    exact ⟨name.notMem (by decide), by decide⟩
  | setting path => exact Tag.noPair_writeOutput (name.noBrace_setting path)
  | index => exact Tag.noPair_writeOutput (by decide)

theorem Writing.noTag_numbered {id : Text} (hid : '{' ∉ id) : (Writing.numbered id).NoTag := by
  intro p
  cases p with
  | literal t => exact t.noTag
  | id => exact Text.noPair_of_notMem hid
  | setting path => exact Tag.noPair_writeOutput (noBrace_schemeSetting path)
  | index => exact (by decide : Text.NoPair '{' '%' "1".toList)

theorem Writing.NoTag.refuses (hw : w.NoTag) (pieces : List LoopPiece) {α : Type}
    {reader : Reader α} (h : Reader.Begins Tag.tagMark reader) (b : Text) :
    Reader.Refuses reader (pieces.flatMap (LoopPiece.write w)) b :=
  h.refuses_of_noPair (Text.NoPair.flatMap fun p _ => hw p) b

/-- The part with its test left out if it is the one for the first round. -/
def LoopPart.unguarded : LoopPart → List LoopPart
  | piece p => [piece p]
  | guarded test inner => if test.IsFirst then inner.map piece else [guarded test inner]

/-- The part, or nothing if it is one for some rounds. -/
def LoopPart.unconditional : LoopPart → List LoopPiece
  | piece p => [p]
  | guarded _ _ => []

theorem LoopPart.kept_eq (part : LoopPart) :
    part.kept = part.unguarded.flatMap LoopPart.unconditional := by
  cases part with
  | piece p => rfl
  | guarded test inner =>
    rw [kept, unguarded]
    split_ifs
    · rw [List.flatMap_map]
      exact (List.flatMap_singleton' inner).symm
    · rfl

theorem writeBody_pieces (w : Writing) (pieces : List LoopPiece) :
    writeBody w (pieces.map .piece) = pieces.flatMap (LoopPiece.write w) := by
  rw [writeBody, List.flatMap_map]
  rfl

theorem writeBody_single (w : Writing) (part : LoopPart) : writeBody w [part] = part.write w :=
  List.flatMap_singleton _ _

/-- Parts for the first round are kept. -/
theorem keepFirstRounds (hw : w.NoTag) (body : List LoopPart) :
    Reader.replaceEvery firstRound id (writeBody w body) =
      writeBody w (body.flatMap LoopPart.unguarded) := by
  have begins : Reader.Begins Tag.tagMark firstRound := (Tag.begins_opening _).bind _
  have noEnd (s : Text) : firstRound (Tag.writeWord "endif" ++ s) = none := Reader.bind_none rfl _
  have part (part : LoopPart) (b : Text) : Reader.replaceEvery firstRound id (part.write w ++ b) =
      writeBody w part.unguarded ++ Reader.replaceEvery firstRound id b := by
    cases part with
    | piece p =>
      rw [LoopPart.unguarded, writeBody_single]
      exact Reader.replaceEvery_append (begins.refuses_of_noPair (hw p) b)
    | guarded test inner =>
      rw [LoopPart.unguarded]
      split_ifs with first
      · rw [writeBody_pieces]
        exact Reader.replaceEvery_of_reads
          (RoundTest.reads_firstRound first (hw.refuses inner (Tag.begins_word _) _))
          writeRegion_ne_nil
      · rw [writeBody_single]
        exact Reader.replaceEvery_append (refuses_writeRegion begins test.noBrace_text
          (hw.refuses inner begins) (RoundTest.firstRound_eq_none first) (noEnd b))
  rw [replaceEvery_parts part, writeBody, List.flatMap_assoc]
  rfl

/-- Parts for other rounds are removed. -/
theorem removeOtherRounds (hw : w.NoTag) (body : List LoopPart) :
    Reader.removeEvery otherRound (writeBody w body) =
      (body.flatMap LoopPart.unconditional).flatMap (LoopPiece.write w) := by
  have begins : Reader.Begins Tag.tagMark otherRound := (Tag.begins_opening _).bind _
  have part (part : LoopPart) (b : Text) :
      Reader.replaceEvery otherRound (fun _ => []) (part.write w ++ b) =
        part.unconditional.flatMap (LoopPiece.write w) ++
          Reader.replaceEvery otherRound (fun _ => []) b := by
    cases part with
    | piece p =>
      rw [LoopPart.unconditional, List.flatMap_singleton]
      exact Reader.replaceEvery_append (begins.refuses_of_noPair (hw p) b)
    | guarded test inner =>
      exact Reader.replaceEvery_of_reads
        (test.reads_otherRound (hw.refuses inner (Tag.begins_word _) _)) writeRegion_ne_nil
  rw [Reader.removeEvery, replaceEvery_parts part, List.flatMap_assoc]

end

/-- The first round of a body: its outputs are filled in but for those of settings, which become
settings of `scheme`, and its parts for some rounds are resolved. -/
theorem firstIteration_body {name : LoopVariable} {identifier : Text} {body : List LoopPart}
    (hid : '{' ∉ identifier) (h : ¬ name.settings <:+: writeBody (.bare identifier) body) :
    firstIteration identifier name.text (writeBody (.source name) body) =
      (body.flatMap LoopPart.kept).flatMap (LoopPiece.write (.numbered identifier)) := by
  have kept : body.flatMap LoopPart.kept =
      (body.flatMap LoopPart.unguarded).flatMap LoopPart.unconditional := by
    rw [List.flatMap_assoc]
    exact congrArg body.flatMap (funext LoopPart.kept_eq)
  rw [firstIteration, fillIds]
  change Reader.removeEvery otherRound (Reader.replaceEvery firstRound id
    (Reader.replaceEvery indexOutput (fun _ => "1")
      (rename name.text (writeBody (.named name identifier) body)))) = _
  rw [renameSettings h, fillIndices hid, keepFirstRounds (Writing.noTag_numbered hid),
    removeOtherRounds (Writing.noTag_numbered hid), kept]

/-! ## Whole loops -/

section
variable {w : Writing} {name : LoopVariable} {body : List LoopPart} {store : Store} {s : Text}

/-- A reader of tags passes over a body if it takes none of its tags. -/
theorem refuses_writeBody {α : Type} {reader : Reader α} (h : Reader.Begins Tag.tagMark reader)
    (hw : w.NoTag) (hif : ∀ s, reader ("\x7b% if " ++ s) = none)
    (hend : ∀ s, reader (Tag.writeWord "endif" ++ s) = none) (body : List LoopPart) (b : Text) :
    Reader.Refuses reader (writeBody w body) b := by
  refine Reader.refuses_flatMap (fun part _ b => ?_) b
  cases part with
  | piece p => exact h.refuses_of_noPair (hw p) b
  | guarded test inner =>
    refine refuses_writeRegion h test.noBrace_text (hw.refuses inner h) ?_ (hend b)
    rw [writeRegion_assoc]
    exact hif _

/-- The loop is read as its variable and its body. -/
theorem reads_loop (name : LoopVariable) (body : List LoopPart) (s : Text) :
    loop (writeLoop name body ++ s) = some ((name.text, writeBody (.source name) body), s) := by
  have shape : writeLoop name body ++ s = ("\x7b% " : Text) ++ ("for" : Text) ++ ' ' ::
      (name.text ++ ' ' :: ("in" ++ ' ' :: (schemesName ++ ' ' :: '%' :: '}' ::
        (writeBody (.source name) body ++ (Tag.writeWord "endfor" ++ s))))) := by
    unfold writeLoop
    simp only [List.append_assoc]
    rfl
  have schemes (s : Text) : Reader.keyword "settings.color_schemes" (schemesName ++ s) =
      some ((), s) := Reader.reads_keyword (w := schemesName) (List.all_eq_true.1 rfl) s
  have bodyRead := Tag.reads_upToWord (refuses_writeBody (Tag.begins_word "endfor")
      (Writing.noTag_source name) (fun _ => rfl) (fun _ => rfl) body _)
    (Tag.reads_word (by decide) s)
  rw [shape, loop, Reader.bind_of
      (Tag.reads_opening (by decide) (Reader.stops_append name.nonempty name.stops _)),
    Reader.bind_of (Reader.reads_run1 name.nonempty name.isWord (Reader.stops_cons.2 (by decide))),
    Reader.bind_of (Reader.reads_blanks1 (Reader.stops_append (by decide) (by decide) _)),
    Reader.bind_of (Reader.reads_keyword (List.all_eq_true.1 rfl) _),
    Reader.bind_of (Reader.reads_blanks1 (Reader.stops_append (by decide) (by decide) _)),
    Reader.bind_of (schemes _), Reader.bind_of (Tag.reads_closeTag _), Reader.bind_of bodyRead]
  rfl

theorem writeLoop_ne_nil : writeLoop name body ≠ [] :=
  List.append_ne_nil_of_right_ne_nil _ (by decide)

/-- Blocks of statements are not in the loop. -/
theorem runBlocks_writeLoop (store : Store) (name : LoopVariable) (body : List LoopPart) :
    Template.runBlocks store (writeLoop name body) = .ok (writeLoop name body) := by
  have begins : Reader.Begins Tag.tagMark Template.statementBlock := (Tag.begins_opening _).bind _
  have plain {s : Text} (hs : '{' ∉ s) (b : Text) : Reader.Refuses Template.statementBlock s b :=
    begins.refuses_of_notMem hs
  have opening (b : Text) : Reader.Refuses Template.statementBlock "\x7b% for " b :=
    Reader.refuses_cons.2 ⟨Reader.bind_none rfl _, plain (by decide) b⟩
  have ending (b : Text) : Reader.Refuses Template.statementBlock (Tag.writeWord "endfor") b :=
    Reader.refuses_cons.2 ⟨Reader.bind_none rfl _, plain (by decide) b⟩
  have bodyRefused (b : Text) := refuses_writeBody begins (Writing.noTag_source name)
    (fun _ => Reader.bind_none rfl _) (fun _ => Reader.bind_none rfl _) body b
  refine Reader.replaceEveryM_of_refuses ?_
  unfold writeLoop
  simp only [Reader.refuses_append]
  exact ⟨⟨⟨⟨⟨⟨opening _, plain (name.notMem (by decide)) _⟩, plain (by decide) _⟩,
    plain (by decide) _⟩, plain (by decide) _⟩, bodyRefused _⟩, ending _⟩

theorem schemeId_eq (hne : firstId store ≠ []) : schemeId store = firstId store := by
  rw [firstId] at hne ⊢
  rw [schemeId]
  generalize store.firstSchemeId? = first at hne ⊢
  cases first with
  | none => rfl
  | some identifier =>
    cases identifier with
    | nil => exact absurd rfl hne
    | cons c identifier => rfl

theorem expand_writeLoop (hne : firstId store ≠ []) (hid : '{' ∉ firstId store)
    (h : ¬ name.settings <:+: writeBody (.bare (firstId store)) body) :
    expand store (writeLoop name body) =
      (body.flatMap LoopPart.kept).flatMap (LoopPiece.write (.numbered (firstId store))) := by
  rw [← schemeId_eq hne] at hid h ⊢
  rw [← List.append_nil (writeLoop name body), expand,
    Reader.replaceEvery_of_reads (reads_loop name body []) writeLoop_ne_nil,
    Reader.replaceEvery_of_refuses Reader.refuses_nil, List.append_nil]
  exact firstIteration_body hid h

/-- The outputs of settings of the color scheme are filled in. -/
theorem fillSchemeSettings_pieces (hid : '{' ∉ firstId store) (pieces : List LoopPiece) :
    Template.fillSchemeSettings store
        (pieces.flatMap (LoopPiece.write (.numbered (firstId store)))) =
      do return (← pieces.mapM (LoopPiece.shown store)).flatten := by
  have begins : Reader.Begins Tag.outputMark (Template.settingOutput "scheme.settings.") :=
    Template.begins_settingOutput
  have plain {a b : Text} (h : Reader.Refuses (Template.settingOutput "scheme.settings.") a b) :
      Template.fillSchemeSettings store (a ++ b) =
        do return a ++ (← Template.fillSchemeSettings store b) := by
    rw [bind_pure_comp]
    exact Reader.replaceEveryM_append h
  have piece : ∀ p ∈ pieces, ∀ b, Template.fillSchemeSettings store
      (p.write (.numbered (firstId store)) ++ b) =
        do return (← p.shown store) ++ (← Template.fillSchemeSettings store b) := by
    intro p _ b
    cases p with
    | literal t => exact plain (begins.refuses_of_noPair t.noOutput b)
    | id => exact plain (begins.refuses_of_notMem hid)
    | setting path =>
      have read : Template.settingOutput "scheme.settings."
          (Tag.writeOutput ("scheme.settings." ++ path.text) ++ b) = some ((path.text, []), b) :=
        Template.reads_settingOutput (by decide) (by decide) path.nonempty path.isWordOrDot b
      refine (Reader.replaceEveryM_of_reads read Tag.writeOutput_ne_nil).trans ?_
      simp only [bind_assoc, pure_bind, List.append_nil]
      rfl
    | index =>
      have noBrace : '{' ∉ "1".toList := by decide
      exact plain (begins.refuses_of_notMem noBrace)
  have nothing : Template.fillSchemeSettings store [] = .ok [] :=
    Reader.replaceEveryM_of_refuses Reader.refuses_nil
  have whole := Reader.piecewise_mapM piece []
  simpa only [List.append_nil, nothing, Evaluation.ok_bind] using whole

end

end SchemeLoop

open SchemeLoop Template in
/-- **A loop over the color schemes becomes its first round**: the identifier of the first scheme,
its settings and the index are filled in, what is in the parts for the first round is kept, and the
parts for other rounds are left out. With the identifier filled in, the settings of the loop
variable may stand nowhere but in their outputs, and what comes out may not be read as a construct
again. -/
theorem toStylesheet_schemeLoop {store : Store} {name : LoopVariable} {body : List LoopPart}
    (hne : firstId store ≠ []) (hid : '{' ∉ firstId store)
    (hname : ¬ name.settings <:+: writeBody (.bare (firstId store)) body)
    (ht : Gives (¬ Tag.tagMark <:+: ·) (firstRoundOf store body))
    (ho : Gives (¬ Tag.outputMark <:+: ·) (firstRoundOf store body)) :
    toStylesheet store (writeLoop name body) = firstRoundOf store body := by
  have expanded := expand_writeLoop hne hid hname
  have noTag : ¬ Tag.tagMark <:+:
      (body.flatMap LoopPart.kept).flatMap (LoopPiece.write (.numbered (firstId store))) :=
    (Text.NoPair.flatMap fun p _ => Writing.noTag_numbered hid p).not_isInfix
  have filled : fillSchemeSettings store
      ((body.flatMap LoopPart.kept).flatMap (LoopPiece.write (.numbered (firstId store)))) =
        firstRoundOf store body := fillSchemeSettings_pieces hid _
  rw [toStylesheet_eq, runBlocks_writeLoop, Evaluation.ok_bind, expanded,
    removeEvery_assignTag_of_noTag noTag, reduceConditionals_of_noTag noTag, Evaluation.ok_bind,
    keepFirstBranches_of_noTag noTag, filled]
  cases round : firstRoundOf store body with
  | error e => rfl
  | ok t =>
    have settings : fillSettings store t = .ok t :=
      Reader.replaceEveryM_of_refuses (begins_settingOutput.refuses (ho t round))
    rw [Evaluation.ok_bind, settings, Evaluation.ok_bind, fillBareOutputs_of_noOutput (ho t round),
      removeLeftovers_of_plain (ht t round) (ho t round)]
    rfl

namespace SchemeLoop

/-- A loop variable. -/
def LoopVariable.item : LoopVariable := ⟨"item", by decide, List.all_eq_true.1 rfl⟩

/-- A setting of a color scheme. -/
def gap : SettingPath := ⟨"gap", by decide, List.all_eq_true.1 rfl⟩

/-- A store with a single color scheme, which has a single setting. -/
def gapStore (identifier value : Text) : Store :=
  { current := [("color_schemes", .map .fresh
      [(identifier, .map .fresh [("settings", .map .fresh [("gap", .str value)])])])] }

end SchemeLoop

open SchemeLoop in
theorem toStylesheet_schemeLoop_gap :
    toStylesheet (gapStore "main" "2px") (writeLoop .item [
      .piece (.literal ⟨".", by decide, by decide⟩), .piece .id,
      .piece (.literal ⟨" \x7b --gap: ", by decide, by decide⟩), .piece (.setting gap),
      .piece (.literal ⟨" \x7d", by decide, by decide⟩),
      .guarded ⟨"==", by decide, "1", by decide, List.all_eq_true.1 rfl⟩ [.index],
      .guarded ⟨">", by decide, "1", by decide, List.all_eq_true.1 rfl⟩ [.id]]) =
    .ok ".main \x7b --gap: 2px \x7d1" := by
  refine (toStylesheet_schemeLoop (by decide +kernel) (by decide +kernel) (by decide +kernel)
    (fun t ht => ?_) fun t ht => ?_).trans (by decide +kernel)
  all_goals
    obtain rfl : ".main \x7b --gap: 2px \x7d1".toList = t := Except.ok.inj ht
    decide

open SchemeLoop in
/-- An identifier that completes the settings of the loop variable together with the text around it
is renamed, and an output in the value of a setting is filled in once more. -/
theorem toStylesheet_schemeLoop_rewritten :
    let joined : List LoopPart := [.piece (.literal ⟨".it", by decide, by decide⟩), .piece .id,
      .piece (.literal ⟨".settings.dark", by decide, by decide⟩)]
    toStylesheet (gapStore "em" "2px") (writeLoop .item joined) ≠
        firstRoundOf (gapStore "em" "2px") joined ∧
      toStylesheet (gapStore "em" "\x7b\x7b x \x7d\x7d") (writeLoop .item [.piece (.setting gap)]) ≠
        firstRoundOf (gapStore "em" "\x7b\x7b x \x7d\x7d") [.piece (.setting gap)] := by
  decide +kernel

end ThemeProps
