/-
  The body of a conditional region is cut at its boundary tags.

  * `BoundaryTag` is an `elsif` or an `else` tag, however it is written. Any text may
    stand as the condition of an `elsif` tag, even one with tags and closing marks in
    it; `EndsFirst` says that the tag is closed nowhere before its own ending;
  * `Branch.boundary_eq_some_iff`: the reader of boundaries takes the tags that end
    first, and `Branch.boundary_eq_none_iff` says where it refuses;
  * `Branch.Cut` relates a body to its branches by what stands in it: contents in which
    no boundary tag begins, with boundary tags between them. `splitBranches_eq_iff`
    says that this determines the branches;
  * `splitBranches_boundaries`: nothing of a body is lost between its branches but the
    boundary tags, and no boundary tag is left in one of them.
-/
import ThemeProps.Proofs.Template.Branch
import ThemeProps.Proofs.Template.WordTag

namespace ThemeProps

/-! ## Boundary tags -/

/-- An `elsif` tag. Any text may stand as its condition. -/
structure ElsifTag extends TagStart "elsif" where
  gap : Text
  condition : Text
  ending : Text
  gap_ne_nil : gap ≠ []
  allBlankGap : ∀ c ∈ gap, Text.isBlank c = true
  isEnding : Tag.IsEnding ending

/-- A tag that begins a further branch. -/
inductive BoundaryTag where
  /-- `elsif`, with a condition -/
  | elsif (tag : ElsifTag)
  /-- `else` -/
  | otherwise (tag : WordTag "else")

namespace ElsifTag

/-- The tag as a template writes it. -/
def text (tag : ElsifTag) : Text :=
  tag.toTagStart.text ++ (tag.gap ++ (tag.condition ++ tag.ending))

/-- No ending begins within the condition, so the condition reaches up to the first one. -/
def EndsFirst (tag : ElsifTag) : Prop :=
  ∀ t, t <:+ tag.condition → t ≠ [] → ∀ e, Tag.IsEnding e → ¬ e <+: t ++ tag.ending

/-- What is left to read behind the keyword and the blanks that follow it, if `r` follows the
tag. -/
def argument (tag : ElsifTag) (r : Text) : Text :=
  (tag.condition ++ (tag.ending ++ r)).dropWhile Text.isBlank

end ElsifTag

namespace BoundaryTag

/-- The tag as a template writes it. -/
def text : BoundaryTag → Text
  | elsif tag => tag.text
  | otherwise tag => tag.text

/-- The condition of the branch that the tag begins; `else` has none. -/
def condition : BoundaryTag → Option Text
  | elsif tag => some (Text.trim tag.condition)
  | otherwise _ => none

/-- The tag is closed nowhere before its own ending. -/
def EndsFirst : BoundaryTag → Prop
  | elsif tag => tag.EndsFirst
  | otherwise _ => True

/-- No boundary tag begins in the content, not even one that goes on in the text behind it. -/
def Absent (content behind : Text) : Prop :=
  ∀ t, t <:+ content → t ≠ [] → ∀ tag : BoundaryTag, ¬ tag.text <+: t ++ behind

theorem text_ne_nil (tag : BoundaryTag) : tag.text ≠ [] := by
  cases tag <;> exact List.cons_ne_nil _ _

theorem absent_nil (behind : Text) : Absent [] behind :=
  fun _ ht hne => absurd (List.suffix_nil.1 ht) hne

/-- Where no boundary tag begins, there is none. -/
theorem Absent.not_infix {content behind : Text} (h : Absent content behind) (tag : BoundaryTag) :
    ¬ tag.text <:+: content := by
  rintro ⟨a, b, rfl⟩
  have suffix : tag.text ++ b <:+ a ++ tag.text ++ b := by
    rw [List.append_assoc]
    exact List.suffix_append a _
  refine h _ suffix (List.append_ne_nil_of_left_ne_nil tag.text_ne_nil b) tag ?_
  rw [List.append_assoc]
  exact List.prefix_append _ _

end BoundaryTag

/-! ## Reading boundary tags -/

section
variable {s r : Text}

namespace ElsifTag

variable (tag : ElsifTag)

/-- The tag ends first exactly if the reader of closing marks finds none within the condition. -/
theorem endsFirst_iff (r : Text) :
    tag.EndsFirst ↔ Reader.Refuses Tag.closeTag tag.condition (tag.ending ++ r) := by
  constructor
  · intro first t ht hne
    by_contra closed
    obtain ⟨⟨_, r'⟩, read⟩ := Option.ne_none_iff_exists'.1 closed
    obtain ⟨e, ending, he⟩ := Tag.closeTag_eq_some.1 read
    refine first t ht hne e ending ?_
    -- the closing brace of the tag is in front of what follows, so `e` does not reach beyond it
    obtain ⟨w, rfl, notMem⟩ := ending.eq_append
    obtain ⟨w', hw', -⟩ := tag.isEnding.eq_append
    rw [hw'] at he ⊢
    have within : w ++ ['}'] <+: (t ++ w') ++ '}' :: r := ⟨r', by rw [← he]; simp⟩
    rw [← List.append_assoc]
    exact Text.prefix_append_closed notMem within
  · rintro refused t ht hne e ending ⟨b, hb⟩
    have closed : Tag.closeTag (t ++ (tag.ending ++ r)) = some ((), b ++ r) :=
      Tag.closeTag_eq_some.2 ⟨e, ending, by rw [← List.append_assoc, ← hb, List.append_assoc]⟩
    rw [refused t ht hne] at closed
    cases closed

theorem reads_closeTag (r : Text) : Tag.closeTag (tag.ending ++ r) = some ((), r) :=
  Tag.closeTag_eq_some.2 ⟨_, tag.isEnding, rfl⟩

/-- What is read of the argument up to an ending is the condition of a branch. -/
theorem reads_of_upTo {c r' : Text} {u : Unit}
    (found : Reader.upTo Tag.closeTag (tag.argument r) = some ((c, u), r')) :
    Branch.boundary (tag.text ++ r) = some (some (Text.trim c), r') := by
  have shape : tag.text ++ r =
      tag.toTagStart.text ++ (tag.gap ++ (tag.condition ++ (tag.ending ++ r))) := by
    simp only [text, List.append_assoc]
  have blanks : Reader.blanks1 (tag.gap ++ (tag.condition ++ (tag.ending ++ r))) =
      some ((), tag.argument r) :=
    Reader.reads_blanks1_append tag.gap_ne_nil tag.allBlankGap _
  rw [shape, Branch.boundary, Reader.bind_of (tag.reads_openTag (by decide) _)]
  refine Reader.orElse_of ?_
  rw [Reader.bind_of (Reader.reads_spelling tag.spelled _), Reader.bind_of blanks,
    Reader.bind_of found]
  rfl

/-- An ending is found in the argument, be it that of the tag or one before it. -/
theorem upTo_ne_none (r : Text) : Reader.upTo Tag.closeTag (tag.argument r) ≠ none := by
  have closed : Tag.closeTag (tag.ending ++ r) ≠ none := by
    rw [tag.reads_closeTag r]
    exact Option.some_ne_none _
  rw [argument, List.dropWhile_append]
  split
  · -- a blank condition counts as blanks in front of the ending
    refine Reader.upTo_ne_none (a := []) ?_
    rwa [Tag.closeTag_dropWhile]
  · exact Reader.upTo_ne_none closed

/-- The condition of a tag that ends first is read up to the ending of the tag. -/
theorem reads_condition (first : tag.EndsFirst) (r : Text) :
    Reader.upTo Tag.closeTag (tag.argument r) = some ((Text.trimStart tag.condition, ()), r) := by
  rw [argument, List.dropWhile_append]
  split
  · next all =>
    rw [Text.trimStart, List.isEmpty_iff.1 all]
    refine Reader.upTo_append (a := []) Reader.refuses_nil ?_
    rw [Tag.closeTag_dropWhile, tag.reads_closeTag r]
  · have refused := (tag.endsFirst_iff r).1 first
    refine Reader.upTo_append (fun t ht hne => ?_) (tag.reads_closeTag r)
    exact refused t (ht.trans (List.dropWhile_suffix _)) hne

end ElsifTag

/-- An `else` tag is read as a boundary. -/
theorem WordTag.reads_boundary (tag : WordTag "else") (r : Text) :
    Branch.boundary (tag.text ++ r) = some (none, r) := by
  have noElsif : Reader.keyword "elsif" (tag.word ++ (tag.ending ++ r)) = none := by
    by_contra read
    obtain ⟨⟨_, r'⟩, found⟩ := Option.ne_none_iff_exists'.1 read
    obtain ⟨word, spelled, he⟩ := Reader.keyword_eq_some.1 found
    have shorter : tag.word.length ≤ word.length := by
      rw [← Text.length_small, ← Text.length_small word, tag.spelled, spelled]
      decide
    have front : tag.word <+: word :=
      List.prefix_of_prefix_length_le (List.prefix_append _ _) ⟨r', he.symm⟩ shorter
    have small : Text.small tag.word <+: Text.small word := front.map _
    rw [tag.spelled, spelled] at small
    exact absurd small (by decide)
  rw [WordTag.text, List.append_assoc, Branch.boundary,
    Reader.bind_of (tag.reads_openTag (by decide) _),
    Reader.orElse_none (Reader.bind_none noElsif _),
    Reader.bind_of (Reader.reads_spelling tag.spelled _), Reader.bind_of (tag.reads_closeTag r)]
  rfl

/-- Where a tag stands, the reader of boundaries takes something, though perhaps a shorter tag. -/
theorem BoundaryTag.boundary_ne_none (tag : BoundaryTag) (r : Text) :
    Branch.boundary (tag.text ++ r) ≠ none := by
  cases tag with
  | elsif tag =>
    obtain ⟨⟨⟨c, u⟩, r'⟩, found⟩ := Option.ne_none_iff_exists'.1 (tag.upTo_ne_none r)
    exact ne_of_eq_of_ne (tag.reads_of_upTo found) (Option.some_ne_none _)
  | otherwise tag => exact ne_of_eq_of_ne (tag.reads_boundary r) (Option.some_ne_none _)

/-- A tag that ends first is read with its condition. -/
theorem BoundaryTag.reads_boundary {tag : BoundaryTag} (first : tag.EndsFirst) (r : Text) :
    Branch.boundary (tag.text ++ r) = some (tag.condition, r) := by
  cases tag with
  | elsif tag =>
    have read := tag.reads_of_upTo (tag.reads_condition first r)
    rwa [Text.trim, Text.trimStart_trimStart, ← Text.trim] at read
  | otherwise tag => exact tag.reads_boundary r

namespace Branch

/-- Whatever the reader of boundaries takes is a tag that ends first. -/
theorem boundary_eq_some_iff {c : Option Text} :
    boundary s = some (c, r) ↔
      ∃ tag : BoundaryTag, tag.EndsFirst ∧ tag.condition = c ∧ s = tag.text ++ r := by
  constructor
  · intro h
    obtain ⟨_, t, opened, inside⟩ := Reader.bind_eq_some.1 h
    obtain ⟨hyphen, blanks, rfl, allBlank⟩ := Tag.openTag_eq_some opened
    rcases Reader.orElse_eq_some inside with elsif | otherwise
    · obtain ⟨_, t₁, named, behind⟩ := Reader.bind_eq_some.1 elsif
      obtain ⟨_, t₂, separated, argument⟩ := Reader.bind_eq_some.1 behind
      obtain ⟨⟨condition, _⟩, t₃, found, same⟩ := Reader.bind_eq_some.1 argument
      obtain ⟨gap, t₄, run, last⟩ := Reader.bind_eq_some.1 separated
      obtain ⟨rfl, rfl⟩ := Prod.mk.inj (Option.some.inj same)
      obtain ⟨-, rfl⟩ := Prod.mk.inj (Option.some.inj last)
      obtain ⟨word, spelled, rfl⟩ := Reader.keyword_eq_some.1 named
      obtain ⟨rfl, gap_ne_nil, allBlankGap⟩ := Reader.run1_eq_some run
      obtain ⟨b, rfl, refused, closed⟩ := Reader.upTo_eq_some_iff.1 found
      obtain ⟨ending, isEnding, rfl⟩ := Tag.closeTag_eq_some.1 closed
      refine ⟨.elsif {
        hyphen, blanks, word, allBlank, spelled, gap, condition, ending, gap_ne_nil, allBlankGap,
        isEnding }, (ElsifTag.endsFirst_iff _ t₃).2 refused, rfl, ?_⟩
      simp only [BoundaryTag.text, ElsifTag.text, TagStart.text, TagStart.mark,
        List.cons_append, List.append_assoc]
    · obtain ⟨_, t₁, named, behind⟩ := Reader.bind_eq_some.1 otherwise
      obtain ⟨_, t₂, closed, same⟩ := Reader.bind_eq_some.1 behind
      obtain ⟨rfl, rfl⟩ := Prod.mk.inj (Option.some.inj same)
      obtain ⟨word, spelled, rfl⟩ := Reader.keyword_eq_some.1 named
      obtain ⟨_, ⟨blanksBehind, hyphenBehind, allBlankBehind, rfl⟩, rfl⟩ :=
        Tag.closeTag_eq_some.1 closed
      refine ⟨.otherwise {
        hyphen, blanks, word, allBlank, spelled, blanksBehind, hyphenBehind, allBlankBehind },
        trivial, rfl, ?_⟩
      simp only [BoundaryTag.text, WordTag.text, WordTag.ending, TagStart.text, TagStart.mark,
        List.cons_append, List.append_assoc]
  · rintro ⟨tag, first, rfl, rfl⟩
    exact BoundaryTag.reads_boundary first r

/-- The reader of boundaries refuses where no boundary tag begins. -/
theorem boundary_eq_none_iff : boundary s = none ↔ ∀ tag : BoundaryTag, ¬ tag.text <+: s := by
  constructor
  · rintro refused tag ⟨r, rfl⟩
    exact tag.boundary_ne_none r refused
  · intro none
    by_contra h
    obtain ⟨⟨c, r⟩, read⟩ := Option.ne_none_iff_exists'.1 h
    obtain ⟨tag, -, -, rfl⟩ := boundary_eq_some_iff.1 read
    exact none tag (List.prefix_append _ r)

theorem absent_iff : BoundaryTag.Absent s r ↔ Reader.Refuses boundary s r :=
  forall₃_congr fun _ _ _ => boundary_eq_none_iff.symm

theorem absent_cons {d : Char} :
    BoundaryTag.Absent (d :: s) r ↔
      (∀ tag : BoundaryTag, ¬ tag.text <+: d :: (s ++ r)) ∧ BoundaryTag.Absent s r := by
  rw [absent_iff, absent_iff, Reader.refuses_cons, boundary_eq_none_iff]

end Branch
end

/-! ## Bodies and their branches -/

namespace Branch

variable {c : Option Text} {s body : Text} {branches : List Branch}

/-- The branches that a body is cut into, the first one with the given condition. A content reaches
up to the first place at which a boundary tag begins, and the next branch has the condition of that
tag. -/
inductive Cut : Option Text → Text → List Branch → Prop where
  /-- a content up to the end of the body -/
  | last {c : Option Text} {content : Text} :
      BoundaryTag.Absent content [] → Cut c content [⟨c, content⟩]
  /-- a content up to a boundary tag, and the branches behind it -/
  | upToTag {c : Option Text} {content rest : Text} {tag : BoundaryTag} {branches : List Branch} :
      BoundaryTag.Absent content (tag.text ++ rest) → tag.EndsFirst →
      Cut tag.condition rest branches →
      Cut c (content ++ (tag.text ++ rest)) (⟨c, content⟩ :: branches)

/-- A character at which no boundary tag begins belongs to the first branch. -/
theorem Cut.cons {d : Char} (h : Cut c s branches)
    (none : ∀ tag : BoundaryTag, ¬ tag.text <+: d :: s) :
    ∃ branch others, branches = branch :: others ∧
      Cut c (d :: s) ({ branch with content := d :: branch.content } :: others) := by
  cases h with
  | last absent =>
    exact ⟨_, _, rfl, .last (absent_cons.2 ⟨by rwa [List.append_nil], absent⟩)⟩
  | upToTag absent first rest =>
    exact ⟨_, _, rfl, .upToTag (absent_cons.2 ⟨none, absent⟩) first rest⟩

/-- The pieces of a body make up the branches that it is cut into. -/
theorem cut_pieces (s : Text) : ∀ c, Cut c s (ofPieces c (Reader.pieces boundary s)) := by
  refine Reader.pieces_induction (R := fun s ps => ∀ c, Cut c s (ofPieces c ps)) leaves_boundary
    ?_ ?_ ?_ s
  · exact fun c => .last (BoundaryTag.absent_nil [])
  · intro d s unread ih c
    -- a boundary tag is never empty, so a character that is passed over begins none
    have refused : boundary (d :: s) = none := by
      by_contra h
      obtain ⟨⟨c', r⟩, read⟩ := Option.ne_none_iff_exists'.1 h
      obtain ⟨tag, -, -, he⟩ := boundary_eq_some_iff.1 read
      rw [unread c' r read] at he
      exact tag.text_ne_nil (List.append_left_eq_self.1 he.symm)
    obtain ⟨branch, others, he, cut⟩ := (ih c).cons (boundary_eq_none_iff.1 refused)
    rw [ofPieces, he]
    exact cut
  · intro w next r _ read ih c
    obtain ⟨tag, first, rfl, he⟩ := boundary_eq_some_iff.1 read
    obtain rfl := List.append_cancel_right he
    exact .upToTag (BoundaryTag.absent_nil _) first (ih _)

/-- There is only one way to cut a body. -/
theorem Cut.ofPieces_eq (h : Cut c s branches) :
    ofPieces c (Reader.pieces boundary s) = branches := by
  induction h with
  | last absent => rw [Reader.pieces_of_refuses (absent_iff.1 absent), ofPieces_plain]
  | @upToTag c content rest tag branches absent first _ ih =>
    have read := BoundaryTag.reads_boundary first rest
    rw [Reader.pieces_append (absent_iff.1 absent), Reader.pieces_of_reads read tag.text_ne_nil,
      ofPieces_found, ih]

/-- The contents with the boundary tags between them are the body. -/
theorem Cut.exists_parts (h : Cut c body branches) :
    ∃ (first : Text) (parts : List (BoundaryTag × Text)),
      body = first ++ parts.flatMap (fun (tag, content) => tag.text ++ content) ∧
      branches = ⟨c, first⟩ :: parts.map (fun (tag, content) => ⟨tag.condition, content⟩) ∧
      ∀ part ∈ parts, part.1.EndsFirst := by
  induction h with
  | @last c content _ => exact ⟨content, [], (List.append_nil content).symm, rfl, by simp⟩
  | @upToTag c content rest tag branches _ first _ ih =>
    obtain ⟨next, parts, rfl, rfl, further⟩ := ih
    refine ⟨content, (tag, next) :: parts, ?_, rfl, List.forall_mem_cons.2 ⟨first, further⟩⟩
    rw [List.flatMap_cons, List.append_assoc]

theorem Cut.not_infix (h : Cut c body branches) :
    ∀ branch ∈ branches, ∀ tag : BoundaryTag, ¬ tag.text <:+: branch.content := by
  induction h with
  | last absent => exact List.forall_mem_singleton.2 absent.not_infix
  | upToTag absent _ _ ih => exact List.forall_mem_cons.2 ⟨absent.not_infix, ih⟩

end Branch

/-- **The branches of a region are those that its body is cut into**, and no others. -/
theorem splitBranches_eq_iff {condition body : Text} {branches : List Branch} :
    splitBranches condition body = branches ↔
      Branch.Cut (some (Text.trim condition)) body branches := by
  constructor
  · rintro rfl
    exact Branch.cut_pieces body _
  · exact Branch.Cut.ofPieces_eq

/-- **Nothing of a body is lost between its branches but the boundary tags.** The first branch has
the condition of the region and every further one that of the tag in front of it, both trimmed;
`else` has none. A condition reaches up to the first ending of its tag, and no content has a
boundary tag in it, with whatever condition. -/
theorem splitBranches_boundaries (condition body : Text) :
    ∃ (first : Text) (parts : List (BoundaryTag × Text)),
      body = first ++ parts.flatMap (fun (tag, content) => tag.text ++ content) ∧
      splitBranches condition body = ⟨some (Text.trim condition), first⟩ ::
        parts.map (fun (tag, content) => ⟨tag.condition, content⟩) ∧
      (∀ part ∈ parts, part.1.EndsFirst) ∧
      ∀ branch ∈ splitBranches condition body, ∀ tag : BoundaryTag,
        ¬ tag.text <:+: branch.content := by
  have cut := splitBranches_eq_iff.1 (rfl : splitBranches condition body = _)
  obtain ⟨first, parts, whole, branches, endsFirst⟩ := cut.exists_parts
  exact ⟨first, parts, whole, branches, endsFirst, cut.not_infix⟩

-- A tag that begins within a condition is part of it.
example : splitBranches "a" "A\x7b% ELSIF b \x7b% else -%\x7dB" =
    [⟨some "a", "A"⟩, ⟨some "b \x7b% else", "B"⟩] := by
  cbv

end ThemeProps
