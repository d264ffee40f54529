/-
  Documents that are plain text and style blocks.

  * `StyleDocument` is such a document: chunks in which no style block begins or
    ends, and style blocks between them. `StyleDocument.regions` lists the blocks
    that mention `:root`, with their offsets;
  * `StyleSection.startsFrom_sections`: the reader of one kind finds the blocks of
    that kind where they stand;
  * `mergeSort_eq_of_perm`: blocks found in another order are sorted into theirs;
  * `regions_styleDocument`: the regions found are those of the document. So
    `regions_styleBlock`: a plain style block is the only region of its text.
-/
import ThemeProps.Proofs.Stylesheet.StyleBlock
import Mathlib.Data.List.Sort

namespace ThemeProps.Stylesheet

/-! ## Documents -/

/-- A style block and the chunk behind it. -/
structure StyleSection where
  block : StyleBlock
  chunk : StyleFree

/-- Plain chunks with style blocks between them. Chunks side by side count as one. -/
structure StyleDocument where
  before : StyleFree
  sections : List StyleSection

/-- A block and the chunk behind it, as a template writes them. -/
def StyleSection.text (part : StyleSection) : Text := part.block.text ++ part.chunk.text

/-- The blocks of some sections, of which the first one starts at `offset`. -/
def StyleSection.placed (offset : Nat) : List StyleSection → List Region
  | [] => []
  | part :: parts =>
    ⟨part.block.kind, part.block.content.text, offset⟩ :: placed (offset + part.text.length) parts

/-- The region mentions `:root`. -/
def Region.mentionsRoot (region : Region) : Bool := rootMarker <:+: region.content

namespace StyleDocument

variable (document : StyleDocument)

/-- The document as a template writes it. -/
def text : Text := document.before.text ++ document.sections.flatMap StyleSection.text

/-- All blocks of the document. -/
def blocks : List Region := StyleSection.placed document.before.text.length document.sections

/-- The blocks of the document that mention `:root`. -/
def regions : List Region := document.blocks.filter Region.mentionsRoot

end StyleDocument

/-! ## The blocks of one kind -/

theorem atMark_sections (parts : List StyleSection) :
    AtMark (parts.flatMap StyleSection.text) := by
  cases parts with
  | nil => exact fun c hc => by cases hc
  | cons part parts =>
    rw [List.flatMap_cons, StyleSection.text, List.append_assoc, StyleBlock.text_append]
    exact part.block.atMark_openTag _

theorem StyleFree.refuses_reader (plain : StyleFree) (kind : RegionKind)
    (parts : List StyleSection) :
    Reader.Refuses kind.reader plain.text (parts.flatMap StyleSection.text) := by
  rw [RegionKind.reader_eq]
  exact (plain.refuses kind.beginsWithin_opener (atMark_sections parts)).bind _

namespace StyleSection

/-- The reader of a kind finds the blocks of that kind where they stand. -/
theorem startsFrom_sections (kind : RegionKind) (offset : Nat) (parts : List StyleSection) :
    Reader.startsFrom offset (Reader.pieces kind.reader (parts.flatMap text)) =
      ((placed offset parts).filter (·.kind = kind)).map fun region =>
        (region.start, region.content) := by
  induction parts generalizing offset with
  | nil =>
    rw [List.flatMap_nil, Reader.pieces, Reader.startsFrom]
    rfl
  | cons part parts ih =>
    have chunk := Reader.startsFrom_append (part.chunk.refuses_reader kind parts)
      (offset + part.block.text.length)
    rw [Nat.add_assoc, ← List.length_append, ← text, ih] at chunk
    rw [List.flatMap_cons, text, List.append_assoc, placed]
    by_cases same : part.block.kind = kind
    · subst same
      rw [Reader.startsFrom_of_reads (part.block.reads _) part.block.text_ne_nil, chunk,
        List.filter_cons_of_pos (by simp), List.map_cons]
    · rw [Reader.startsFrom_append (part.block.refuses (Ne.symm same) _), chunk,
        List.filter_cons_of_neg (by simpa using same)]

theorem le_start (offset : Nat) (parts : List StyleSection) :
    ∀ region ∈ placed offset parts, offset ≤ region.start := by
  induction parts generalizing offset with
  | nil => exact fun _ h => absurd h List.not_mem_nil
  | cons part parts ih =>
    rw [placed, List.forall_mem_cons]
    exact ⟨le_rfl, fun region h => (Nat.le_add_right _ _).trans (ih _ region h)⟩

/-- Each block starts behind the one before it. -/
theorem pairwise_placed (offset : Nat) (parts : List StyleSection) :
    (placed offset parts).Pairwise (·.start < ·.start) := by
  induction parts generalizing offset with
  | nil => exact List.Pairwise.nil
  | cons part parts ih =>
    have long : 0 < part.text.length := by
      rw [text, List.length_append]
      exact Nat.add_pos_left (List.length_pos_iff.2 part.block.text_ne_nil) _
    rw [placed, List.pairwise_cons]
    exact ⟨fun region h => (Nat.lt_add_of_pos_right long).trans_le (le_start _ _ region h), ih _⟩

end StyleSection

theorem StyleDocument.findEveryAt_text (document : StyleDocument) (kind : RegionKind) :
    Reader.findEveryAt kind.reader document.text =
      (document.blocks.filter (·.kind = kind)).map fun region =>
        (region.start, region.content) := by
  rw [Reader.findEveryAt, text,
    Reader.startsFrom_append (document.before.refuses_reader kind document.sections), Nat.zero_add,
    StyleSection.startsFrom_sections, blocks]

/-- The regions of one kind are the blocks of that kind that mention `:root`. -/
theorem StyleDocument.regionsOf_text (document : StyleDocument) (kind : RegionKind) :
    regionsOf document.text kind = document.regions.filter (·.kind = kind) := by
  rw [regionsOf, document.findEveryAt_text kind, regions, List.filterMap_map, List.filterMap_filter,
    List.filter_filter, ← List.filterMap_eq_filter]
  refine List.filterMap_congr fun region _ => ?_
  obtain ⟨kind', content, start⟩ := region
  by_cases same : kind' = kind
  · subst same
    simp [Option.guard, Region.mentionsRoot]
  · simp [Option.guard, same]

/-! ## Putting the kinds together -/

variable {found expected : List Region}

/-- The regions of the kinds, one kind behind the other, are all regions. -/
theorem perm_kinds (found : List Region) :
    (RegionKind.all.flatMap fun kind => found.filter (·.kind = kind)).Perm found := by
  rw [RegionKind.all, List.flatMap_cons, List.flatMap_cons, List.flatMap_singleton]
  induction found with
  | nil => exact List.Perm.nil
  | cons region found ih =>
    obtain ⟨kind, content, start⟩ := region
    cases kind with
    | styleBlock => exact ih.cons _
    | stylesheetBlock => exact List.perm_middle.trans (ih.cons _)
    | styleElement =>
      rw [← List.append_assoc] at ih ⊢
      exact List.perm_middle.trans (ih.cons _)

/-- Regions in any order are sorted by their starts. -/
theorem mergeSort_eq_of_perm (perm : found.Perm expected)
    (sorted : expected.Pairwise (·.start < ·.start)) :
    (found.mergeSort fun a b => a.start ≤ b.start) = expected := by
  have starts : (expected.map Region.start).Nodup :=
    List.pairwise_map.2 (sorted.imp Nat.ne_of_lt)
  have same : (found.mergeSort fun a b => a.start ≤ b.start).Perm expected :=
    (List.mergeSort_perm _ _).trans perm
  have ordered : (found.mergeSort fun a b => a.start ≤ b.start).Pairwise (·.start ≤ ·.start) := by
    refine (List.pairwise_mergeSort ?_ ?_ found).imp of_decide_eq_true
    · simpa using fun a b c => Nat.le_trans
    · simpa using fun a b => Nat.le_total _ _
  refine List.Perm.eq_of_pairwise (fun a b ha hb le ge => ?_) ordered (sorted.imp Nat.le_of_lt) same
  exact List.inj_on_of_nodup_map starts (same.subset ha) hb (Nat.le_antisymm le ge)

namespace StyleDocument

theorem pairwise_regions (document : StyleDocument) :
    document.regions.Pairwise (·.start < ·.start) :=
  (StyleSection.pairwise_placed _ _).filter _

theorem regions_text (document : StyleDocument) :
    Stylesheet.regions document.text = document.regions := by
  refine mergeSort_eq_of_perm ?_ document.pairwise_regions
  have kinds : regionsOf document.text = fun kind => document.regions.filter (·.kind = kind) :=
    funext document.regionsOf_text
  rw [kinds]
  exact perm_kinds document.regions

end StyleDocument

/-- **The style regions of a document are found exactly**: they are its blocks that mention `:root`,
each with its kind, its content and the offset of its opening tag, in the order in which they stand
in the document. -/
theorem regions_styleDocument (document : StyleDocument) :
    regions document.text = document.regions ∧
      document.regions.Pairwise (·.start < ·.start) :=
  ⟨document.regions_text, document.pairwise_regions⟩

/-- One block of each kind, all with a `:root` rule. -/
def StyleDocument.threeKinds : StyleDocument :=
  let rule : StyleFree := .ofPlain ":root \x7b --a: 1; \x7d" (by decide) (by decide)
  { before := .nothing
    sections := [
      ⟨.element ⟨"<style", " media='all'", rule, "</style>", rfl, by decide, by decide, rfl⟩,
        .nothing⟩,
      ⟨.stylesheet ⟨.plain _ rfl, rule, .plain _ rfl⟩, .nothing⟩,
      ⟨.plain rule, .nothing⟩] }

example : StyleDocument.threeKinds.regions.map (fun region => (region.kind, region.start)) =
    [(.styleElement, 0), (.stylesheetBlock, 44), (.styleBlock, 96)] := by
  decide

/-! ## One block -/

/-- A style block without text around it. -/
def StyleDocument.ofBlock (block : StyleBlock) : StyleDocument := ⟨.nothing, [⟨block, .nothing⟩]⟩

theorem StyleDocument.text_ofBlock (block : StyleBlock) : (ofBlock block).text = block.text := by
  have chunk : StyleFree.nothing.text = [] := rfl
  rw [text, ofBlock, List.flatMap_singleton, StyleSection.text, chunk, List.nil_append,
    List.append_nil]

/-- A style block whose content mentions `:root` and has no tag and no element in it is the only
region. -/
theorem regions_styleBlock {content : Text} (ht : Text.NoPair '{' '%' content)
    (he : '<' ∉ content) (hroot : rootMarker <:+: content) :
    regions ("\x7b% style %\x7d" ++ content ++ "\x7b% endstyle %\x7d") =
      [⟨.styleBlock, content, 0⟩] := by
  have found := (StyleDocument.ofBlock (.plain (.ofPlain content he ht.not_isInfix))).regions_text
  rw [StyleDocument.text_ofBlock, StyleBlock.text_plain] at found
  exact found.trans (List.filter_cons_of_pos (decide_eq_true hroot))

end ThemeProps.Stylesheet
