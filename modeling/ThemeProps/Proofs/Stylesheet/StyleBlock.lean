/-
  Style blocks as templates write them.

  * `StyleMark` is what a style block begins or ends with, and `StyleFree` a text
    without such marks;
  * `StyleBlock` is a block of one of the three kinds: its tags have hyphens,
    blanks and letter cases as they like;
  * `RegionKind.reader_eq` cuts the reader of a kind into what opens a region and
    the search for what closes it;
  * `StyleBlock.reads`: the reader of its kind reads a block to its end, and
    `StyleBlock.refuses`: the readers of the other kinds pass over it.
-/
import ThemeProps.Stylesheet.Region
import ThemeProps.Proofs.Template.WordTag

namespace ThemeProps.Stylesheet

/-! ## Marks of style blocks -/

/-- No letter is a case form of the angle bracket. -/
theorem eq_of_sameLetter_angle {c : Char} (h : Text.sameLetter '<' c = true) : c = '<' := by
  rw [Text.sameLetter, beq_iff_eq, Text.smallLetter] at h
  split_ifs at h
  · exact absurd h (by decide)
  · exact absurd h (by decide)
  · exact absurd h (by decide)
  · unfold Char.toLower at h
    split at h
    · next capital =>
      have low : 65 ≤ c.toNat := capital.1
      have high : c.toNat ≤ 90 := capital.2
      have shifted : (c.toNat + 32) % 4294967296 = 60 := congrArg Char.toNat h
      omega
    · exact h

/-- What opens a style element begins with an angle bracket. -/
theorem begins_styleElement : Reader.Begins ['<'] (Reader.keyword "<style") := by
  intro s hs
  cases s with
  | nil => exact absurd rfl hs
  | cons c s =>
    by_cases hc : Text.sameLetter '<' c = true
    · rw [eq_of_sameLetter_angle hc]
      exact List.prefix_append ['<'] s
    · exact absurd (if_neg hc) hs

/-- The keywords of the tags that open and close style blocks. -/
def styleKeywords : List Text := ["style", "stylesheet", "endstyle", "endstylesheet"]

/-- What a style block begins or ends with, as far as its keyword. -/
inductive StyleMark : Text → Prop
  | element {w : Text} (spelled : Text.small w = "<style" ∨ Text.small w = "</style") : StyleMark w
  | tag {keyword : Text} (known : keyword ∈ styleKeywords) (start : TagStart keyword) :
    StyleMark start.text

/-- A text in which no style block begins or ends. -/
structure StyleFree where
  text : Text
  free : ∀ w, StyleMark w → ¬ w <:+: text

/-- The text begins with a character that marks begin with, or it is empty. -/
def AtMark (s : Text) : Prop := ∀ c ∈ s.head?, c = '{' ∨ c = '<'

/-- A text without angle brackets and tags has no style block in it. -/
def StyleFree.ofPlain (text : Text) (noAngle : '<' ∉ text) (noTag : ¬ Tag.tagMark <:+: text) :
    StyleFree where
  text
  free w mark within := by
    cases mark with
    | tag known start =>
      exact noTag (List.IsInfix.trans (List.prefix_append Tag.tagMark _).isInfix within)
    | element spelled =>
      cases w with
      | nil => rcases spelled with h | h <;> cases h
      | cons c w =>
        have angle : Text.smallLetter c = '<' :=
          spelled.elim (fun h => (List.cons.inj h).1) fun h => (List.cons.inj h).1
        rw [eq_of_sameLetter_angle (Text.sameLetter_iff.2 angle)] at within
        exact noAngle (within.subset List.mem_cons_self)

variable {α : Type} {reader : Reader α} {keyword s w : Text}

theorem isName_of_mem_styleKeywords : ∀ keyword ∈ styleKeywords, Tag.IsName keyword :=
  fun keyword known =>
    have names : styleKeywords.all (fun keyword => Tag.IsName keyword) = true := rfl
    of_decide_eq_true (List.all_eq_true.1 names keyword known)

/-- The characters that marks begin with stand in no mark but in front. -/
theorem StyleMark.front (h : StyleMark w) :
    ∃ d v, w = d :: v ∧ ∀ c, c = '{' ∨ c = '<' → c ∉ v := by
  cases h with
  | tag known start =>
    refine ⟨'{', _, rfl, fun c hc => ?_⟩
    exact start.notMem_tail (isName_of_mem_styleKeywords _ known) hc
  | element spelled =>
    cases w with
    | nil => rcases spelled with h | h <;> cases h
    | cons d v =>
      refine ⟨d, v, rfl, fun c hc => Text.notMem_of_small ?_⟩
      have tail : Text.small v = "style" ∨ Text.small v = "/style" :=
        spelled.imp (fun h => (List.cons.inj h).2) fun h => (List.cons.inj h).2
      rcases tail with h | h <;> rw [h] <;> rcases hc with rfl | rfl <;> decide

theorem StyleMark.not_infix_nil (w : Text) (h : StyleMark w) : ¬ w <:+: [] := by
  obtain ⟨d, v, rfl, -⟩ := h.front
  exact fun within => List.cons_ne_nil d v (List.infix_nil.1 within)

/-- The empty text. -/
def StyleFree.nothing : StyleFree := ⟨[], StyleMark.not_infix_nil⟩

/-- A text without marks is passed over up to the next mark. -/
theorem StyleFree.refuses (plain : StyleFree) (h : Reader.BeginsWithin StyleMark reader)
    (hs : AtMark s) : Reader.Refuses reader plain.text s := by
  refine h.refuses plain.free fun w mark => ?_
  obtain ⟨d, v, he, notMem⟩ := mark.front
  exact ⟨d, v, he, fun c hc => notMem c (hs c hc)⟩

theorem beginsWithin_word (known : keyword ∈ styleKeywords) :
    Reader.BeginsWithin StyleMark (Tag.word keyword) := by
  intro s hs
  obtain ⟨_, ⟨start, rfl⟩, begins⟩ := Tag.beginsWithin_word keyword s hs
  exact ⟨start.text, .tag known start, begins⟩

/-! ## What opens and closes a region -/

namespace RegionKind

/-- What opens a region of a kind. -/
def opener : RegionKind → Reader Unit
  | styleBlock => Tag.word "style"
  | stylesheetBlock => Tag.word "stylesheet"
  | styleElement => do
    Reader.keyword "<style"
    let _ ← Reader.run (· ≠ '>')
    Reader.char '>'

/-- What closes a region of a kind. -/
def closer : RegionKind → Reader Unit
  | styleBlock => Tag.word "endstyle"
  | stylesheetBlock => Tag.word "endstylesheet"
  | styleElement => Reader.keyword "</style>"

/-- A region is what stands between its opener and the next closer. -/
theorem reader_eq (kind : RegionKind) : kind.reader = (do
    kind.opener
    let (content, _) ← Reader.upTo kind.closer
    return content) := by
  cases kind with
  | styleElement => simp only [reader, opener, closer, bind_assoc]
  | _ => rfl

theorem beginsWithin_opener (kind : RegionKind) : Reader.BeginsWithin StyleMark kind.opener := by
  cases kind with
  | styleBlock => exact beginsWithin_word (by decide)
  | stylesheetBlock => exact beginsWithin_word (by decide)
  | styleElement => exact (Reader.beginsWithin_keyword fun t h => .element (.inl h)).bind _

theorem beginsWithin_closer (kind : RegionKind) : Reader.BeginsWithin StyleMark kind.closer := by
  cases kind with
  | styleBlock => exact beginsWithin_word (by decide)
  | stylesheetBlock => exact beginsWithin_word (by decide)
  | styleElement =>
    intro s hs
    obtain ⟨⟨_, r⟩, read⟩ := Option.ne_none_iff_exists'.1 hs
    obtain ⟨t, spelled, rfl⟩ := Reader.keyword_eq_some.1 read
    -- without its last character the closing tag is a mark
    refine ⟨t.take 7, .element (.inr ?_), (List.take_prefix 7 t).trans (List.prefix_append t r)⟩
    rw [Text.small, List.map_take, ← Text.small, spelled]
    rfl

/-- A kind does not open where it would need a character that is not there. -/
theorem refuses_opener_of_notMem (kind : RegionKind) (brace : kind ≠ .styleElement → '{' ∉ s)
    (angle : kind = .styleElement → '<' ∉ s) (r : Text) : Reader.Refuses kind.opener s r := by
  cases kind with
  | styleBlock => exact (Tag.begins_word _).refuses_of_notMem (brace (by decide))
  | stylesheetBlock => exact (Tag.begins_word _).refuses_of_notMem (brace (by decide))
  | styleElement => exact (begins_styleElement.bind _).refuses_of_notMem (angle rfl)

/-- A kind is not opened by a tag with another keyword. -/
theorem refuses_opener_tag (kind : RegionKind) (known : keyword ∈ styleKeywords)
    (tag : WordTag keyword) (hs : kind = .styleBlock → keyword ≠ "style")
    (hss : kind = .stylesheetBlock → keyword ≠ "stylesheet") (r : Text) :
    Reader.Refuses kind.opener tag.text r := by
  have name := isName_of_mem_styleKeywords keyword known
  cases kind with
  | styleBlock => exact tag.refuses_word name (by decide) (hs rfl).symm r
  | stylesheetBlock => exact tag.refuses_word name (by decide) (hss rfl).symm r
  | styleElement =>
    obtain ⟨rest, he, notMem⟩ := tag.text_eq name
    refine refuses_opener_of_notMem .styleElement (absurd rfl) (fun _ => ?_) r
    rw [he, List.mem_cons, not_or]
    exact ⟨by decide, notMem '<' (.inr rfl)⟩

end RegionKind

/-! ## Style blocks -/

/-- A style block that is written with tags. -/
structure TagBlock (opening closing : Text) where
  openTag : WordTag opening
  content : StyleFree
  closeTag : WordTag closing

/-- A style block that is written as an element. The attributes need not be apart from its name. -/
structure ElementBlock where
  name : Text
  attributes : Text
  content : StyleFree
  closeTag : Text
  named : Text.small name = "<style"
  noAngle : '>' ∉ attributes
  noBrace : '{' ∉ attributes
  closed : Text.small closeTag = "</style>"

namespace ElementBlock

variable (block : ElementBlock)

/-- The opening tag of the element. -/
def openTag : Text := block.name ++ (block.attributes ++ ['>'])

theorem refuses_openTag {kind : RegionKind} (ne : kind ≠ .styleElement) (s : Text) :
    Reader.Refuses kind.opener block.openTag s := by
  refine kind.refuses_opener_of_notMem (fun _ => ?_) (absurd · ne) s
  have name : '{' ∉ block.name := Text.notMem_of_small (by rw [block.named]; decide)
  simp [openTag, name, block.noBrace]

theorem refuses_closeTag (kind : RegionKind) (s : Text) :
    Reader.Refuses kind.opener block.closeTag s := by
  have closed := block.closed
  by_cases element : kind = .styleElement
  · subst element
    have unread : Reader.keyword "<style" (block.closeTag ++ s) = none := by
      by_contra read
      have length : block.closeTag.length = 8 := by
        rw [← Text.length_small, closed]
        rfl
      have opens := Reader.prefix_of_keyword (by rw [length]; decide) read
      rw [closed] at opens
      exact absurd opens (by decide)
    -- behind the first angle bracket there is no other one
    cases he : block.closeTag with
    | nil => exact Reader.refuses_nil
    | cons c rest =>
      rw [he] at closed unread
      have tail : Text.small rest = "/style>" := (List.cons.inj closed).2
      have angle : '<' ∉ rest := Text.notMem_of_small (by rw [tail]; decide)
      exact Reader.refuses_cons.2 ⟨Reader.bind_none unread _,
        (begins_styleElement.bind _).refuses_of_notMem angle⟩
  · refine kind.refuses_opener_of_notMem (fun _ => ?_) (absurd · element) s
    exact Text.notMem_of_small (by rw [closed]; decide)

end ElementBlock

/-- A style block. -/
inductive StyleBlock where
  | style (block : TagBlock "style" "endstyle")
  | stylesheet (block : TagBlock "stylesheet" "endstylesheet")
  | element (block : ElementBlock)

namespace StyleBlock

/-- The kind of region that the block is. -/
def kind : StyleBlock → RegionKind
  | style _ => .styleBlock
  | stylesheet _ => .stylesheetBlock
  | element _ => .styleElement

/-- What stands in the block. -/
def content : StyleBlock → StyleFree
  | style block => block.content
  | stylesheet block => block.content
  | element block => block.content

/-- The opening tag of the block. -/
def openTag : StyleBlock → Text
  | style block => block.openTag.text
  | stylesheet block => block.openTag.text
  | element block => block.openTag

/-- The closing tag of the block. -/
def closeTag : StyleBlock → Text
  | style block => block.closeTag.text
  | stylesheet block => block.closeTag.text
  | element block => block.closeTag

/-- The block as a template writes it. -/
def text (block : StyleBlock) : Text := block.openTag ++ (block.content.text ++ block.closeTag)

/-- A block with plain `style` tags. -/
def plain (content : StyleFree) : StyleBlock := .style ⟨.plain _ rfl, content, .plain _ rfl⟩

theorem text_plain (content : StyleFree) :
    (plain content).text = "\x7b% style %\x7d" ++ content.text ++ "\x7b% endstyle %\x7d" := by
  rw [List.append_assoc]
  rfl

/-! ## Its tags -/

theorem atMark_of_small {u : Text} (h : Text.small w = '<' :: u) (s : Text) : AtMark (w ++ s) := by
  cases w with
  | nil => cases h
  | cons c w =>
    have angle := eq_of_sameLetter_angle (Text.sameLetter_iff.2 (List.cons.inj h).1)
    rw [angle]
    intro d hd
    exact .inr (Option.some.inj hd).symm

theorem atMark_tag (tag : WordTag keyword) (s : Text) : AtMark (tag.text ++ s) := by
  intro c hc
  exact .inl (Option.some.inj hc).symm

theorem atMark_openTag (block : StyleBlock) (s : Text) : AtMark (block.openTag ++ s) := by
  cases block with
  | style block => exact atMark_tag _ s
  | stylesheet block => exact atMark_tag _ s
  | element block =>
    rw [openTag, ElementBlock.openTag, List.append_assoc]
    exact atMark_of_small block.named _

theorem atMark_closeTag (block : StyleBlock) (s : Text) : AtMark (block.closeTag ++ s) := by
  cases block with
  | style block => exact atMark_tag _ s
  | stylesheet block => exact atMark_tag _ s
  | element block => exact atMark_of_small block.closed s

theorem reads_openTag (block : StyleBlock) (s : Text) :
    block.kind.opener (block.openTag ++ s) = some ((), s) := by
  cases block with
  | style block => exact block.openTag.reads_word (by decide) s
  | stylesheet block => exact block.openTag.reads_word (by decide) s
  | element block =>
    have attributes : Reader.run (· ≠ '>') (block.attributes ++ '>' :: s) =
        some (block.attributes, '>' :: s) := by
      refine Reader.reads_run (fun c hc => ?_) (Reader.stops_cons.2 (by decide))
      exact decide_eq_true fun he => block.noAngle (he ▸ hc)
    have shape : block.openTag ++ s = block.name ++ (block.attributes ++ '>' :: s) := by
      simp only [ElementBlock.openTag, List.append_assoc, List.cons_append, List.nil_append]
    change (Reader.keyword "<style" >>= _) (block.openTag ++ s) = _
    rw [shape]
    rw [Reader.bind_of (Reader.reads_spelling block.named _), Reader.bind_of attributes]
    exact Reader.reads_char '>' s

theorem reads_closeTag (block : StyleBlock) (s : Text) :
    block.kind.closer (block.closeTag ++ s) = some ((), s) := by
  cases block with
  | style block => exact block.closeTag.reads_word (by decide) s
  | stylesheet block => exact block.closeTag.reads_word (by decide) s
  | element block => exact Reader.reads_spelling block.closed s

/-- No other kind is opened in the opening tag of the block. -/
theorem refuses_openTag (block : StyleBlock) {kind : RegionKind} (ne : kind ≠ block.kind)
    (s : Text) : Reader.Refuses kind.opener block.openTag s := by
  cases block with
  | style block =>
    exact kind.refuses_opener_tag (by decide) block.openTag (absurd · ne) (fun _ => by decide) s
  | stylesheet block =>
    exact kind.refuses_opener_tag (by decide) block.openTag (fun _ => by decide) (absurd · ne) s
  | element block => exact block.refuses_openTag ne s

/-- No kind is opened in the closing tag of the block. -/
theorem refuses_closeTag (block : StyleBlock) (kind : RegionKind) (s : Text) :
    Reader.Refuses kind.opener block.closeTag s := by
  cases block with
  | style block =>
    exact kind.refuses_opener_tag (by decide) block.closeTag (fun _ => by decide)
      (fun _ => by decide) s
  | stylesheet block =>
    exact kind.refuses_opener_tag (by decide) block.closeTag (fun _ => by decide)
      (fun _ => by decide) s
  | element block => exact block.refuses_closeTag kind s

/-! ## Whole blocks -/

theorem text_append (block : StyleBlock) (s : Text) :
    block.text ++ s = block.openTag ++ (block.content.text ++ (block.closeTag ++ s)) := by
  rw [text, List.append_assoc, List.append_assoc]

/-- **A style block is read** as its content by the reader of its kind. -/
theorem reads (block : StyleBlock) (s : Text) :
    block.kind.reader (block.text ++ s) = some (block.content.text, s) := by
  have content := Reader.upTo_append
    (block.content.refuses block.kind.beginsWithin_closer (block.atMark_closeTag s))
    (block.reads_closeTag s)
  rw [text_append, RegionKind.reader_eq, Reader.bind_of (block.reads_openTag _),
    Reader.bind_of content]
  rfl

/-- The readers of the other kinds pass over a style block. -/
theorem refuses (block : StyleBlock) {kind : RegionKind} (ne : kind ≠ block.kind) (s : Text) :
    Reader.Refuses kind.reader block.text s := by
  rw [RegionKind.reader_eq]
  refine Reader.Refuses.bind ?_ _
  rw [text, Reader.refuses_append, Reader.refuses_append]
  exact ⟨block.refuses_openTag ne _,
    block.content.refuses kind.beginsWithin_opener (block.atMark_closeTag s),
    block.refuses_closeTag kind s⟩

theorem text_ne_nil (block : StyleBlock) : block.text ≠ [] := by
  intro h
  have read := block.reads_openTag []
  rw [text, List.append_eq_nil_iff] at h
  rw [h.1] at read
  cases kind : block.kind <;> rw [kind] at read <;> cases read

end StyleBlock

end ThemeProps.Stylesheet
