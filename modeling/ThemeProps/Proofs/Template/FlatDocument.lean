/-
  Documents whose conditional regions lie one behind the other.

  * `FlatDocument` is such a document: plain chunks with regions between them, each
    with any number of branches that have no tags in them;
  * `splitBranches_body`: a region is cut into the branches it is made of;
  * `Branch.selected` and `Branch.failure?` look at the conditions of some branches
    in order, and `selectBranch_eq` says what is selected;
  * `reduceConditionals_flatDocument`: the document with the selected content in
    place of each region, unless a condition that is reached goes wrong, and when
    it may do so.
-/
import ThemeProps.Proofs.Failure.Scan
import ThemeProps.Proofs.Template.Branch

namespace ThemeProps

/-! ## Tags with hyphens -/

/-- The hyphens of a tag: behind its opening mark and in front of its closing mark. -/
structure Hyphens where
  opening : Bool := false
  closing : Bool := false

namespace Hyphens

variable {keyword inside s : Text}

/-- The opening mark of a tag and the blank behind it. -/
def openMark (hyphens : Hyphens) : Text := if hyphens.opening then "\x7b%- " else "\x7b% "

/-- The closing mark of a tag. -/
def endMark (hyphens : Hyphens) : Text := if hyphens.closing then "-%\x7d" else "%\x7d"

/-- The tag with the given inside. -/
def tag (hyphens : Hyphens) (inside : Text) : Text :=
  hyphens.openMark ++ (inside ++ ' ' :: hyphens.endMark)

theorem tag_append (hyphens : Hyphens) (inside s : Text) :
    hyphens.tag inside ++ s = hyphens.openMark ++ (inside ++ ' ' :: (hyphens.endMark ++ s)) := by
  rw [tag, List.append_assoc, List.append_assoc, List.cons_append]

theorem openMark_eq (hyphens : Hyphens) : ∃ rest, hyphens.openMark = '{' :: rest ∧ '{' ∉ rest := by
  obtain ⟨opening, closing⟩ := hyphens
  cases opening
  · exact ⟨"% ", rfl, by decide⟩
  · exact ⟨"%- ", rfl, by decide⟩

theorem notMem_endMark (hyphens : Hyphens) : '{' ∉ hyphens.endMark := by
  obtain ⟨opening, closing⟩ := hyphens
  cases closing
  · exact (by decide : '{' ∉ "%\x7d".toList)
  · exact (by decide : '{' ∉ "-%\x7d".toList)

theorem reads_openTag (hyphens : Hyphens) (h : Reader.Stops Text.isBlank s) :
    Tag.openTag (hyphens.openMark ++ s) = some ((), s) := by
  obtain ⟨opening, closing⟩ := hyphens
  cases opening with
  | false => exact Tag.reads_openTag h
  | true =>
    have blank : Reader.blanks (' ' :: s) = some ((), s) := Reader.reads_blanks_cons (by decide) h
    exact blank

theorem reads_endTag (hyphens : Hyphens) (s : Text) :
    Tag.endTag (hyphens.endMark ++ s) = some ((), s) := by
  obtain ⟨opening, closing⟩ := hyphens
  cases closing <;> rfl

theorem reads_closeTag (hyphens : Hyphens) (s : Text) :
    Tag.closeTag (' ' :: (hyphens.endMark ++ s)) = some ((), s) := by
  have stops : Reader.Stops Text.isBlank (hyphens.endMark ++ s) := by
    obtain ⟨opening, closing⟩ := hyphens
    cases closing <;> exact Reader.stops_cons.2 (by decide)
  rw [Tag.closeTag, Reader.bind_of (Reader.reads_blanks_cons (by decide) stops)]
  exact hyphens.reads_endTag s

/-- A tag that is one keyword. -/
theorem reads_word (hyphens : Hyphens) (hk : Tag.IsKeyword keyword) (s : Text) :
    Tag.word keyword (hyphens.tag keyword ++ s) = some ((), s) := by
  rw [tag_append, Tag.word,
    Reader.bind_of (hyphens.reads_openTag (Reader.stops_append hk.nonempty hk.stops _)),
    Reader.bind_of (Reader.reads_keyword hk.small _)]
  exact hyphens.reads_closeTag s

end Hyphens

/-! ## Conditions in tags -/

namespace Tag

/-- What every tag ends with. -/
def closingMark : Text := ['%', '}']

variable {a s : Text}

theorem closingMark_of_endTag (h : endTag s ≠ none) :
    closingMark <+: s ∨ '-' :: closingMark <+: s := by
  obtain ⟨⟨_, r⟩, read⟩ := Option.ne_none_iff_exists'.1 h
  obtain ⟨_, t, hyphen, marks⟩ := Reader.bind_eq_some.1 read
  obtain ⟨_, t', percent, brace⟩ := Reader.bind_eq_some.1 marks
  obtain rfl := Reader.char_eq_some.1 percent
  obtain rfl := Reader.char_eq_some.1 brace
  rcases Reader.maybe_eq_some hyphen with rfl | rfl
  · exact .inl (List.prefix_append closingMark r)
  · exact .inr (List.prefix_append ('-' :: closingMark) r)

/-- No tag ends where a text without a closing mark goes on to a blank. -/
theorem endTag_eq_none (ha : ¬ closingMark <:+: a) (b : Text) : endTag (a ++ ' ' :: b) = none := by
  by_contra h
  rcases closingMark_of_endTag h with mark | mark
  · exact ha ((Text.prefix_append_cons (by decide)).1 mark).isInfix
  · have inside := (Text.prefix_append_cons (by decide)).1 mark
    exact ha ((List.suffix_cons '-' closingMark).isInfix.trans inside.isInfix)

/-- A text without a closing mark is passed over with the blank behind it. -/
theorem refuses_endTag_blank (ha : ¬ closingMark <:+: a) (b : Text) :
    Reader.Refuses endTag (a ++ [' ']) b := by
  refine Reader.refuses_append.2 ⟨fun t ht _ => ?_, Reader.refuses_cons.2 ⟨?_, Reader.refuses_nil⟩⟩
  · exact endTag_eq_none (fun h => ha (h.trans ht.isInfix)) b
  · exact endTag_eq_none (a := []) (by decide) b

/-- A trimmed text without a closing mark is passed over, blanks in it included. -/
theorem refuses_closeTag (ha : ¬ closingMark <:+: a) (trimmed : Text.trim a = a) (b : Text) :
    Reader.Refuses closeTag a (' ' :: b) := by
  intro t ht hne
  -- the last character is not blank, so the blanks in front end before it
  have left : t.dropWhile Text.isBlank ≠ [] := by
    intro all
    obtain ⟨d, r, hr⟩ := List.exists_cons_of_ne_nil (List.reverse_ne_nil_iff.2 hne)
    have last : d ∈ a.reverse.head? := by
      obtain ⟨u, hu⟩ := List.reverse_prefix.2 ht
      rw [← hu, hr]
      rfl
    have blank := List.dropWhile_eq_nil_iff.1 all d (List.mem_reverse.1 (by rw [hr]; simp))
    rw [Text.last_not_blank trimmed d last] at blank
    cases blank
  have blanks : Reader.blanks (t ++ ' ' :: b) =
      some ((), t.dropWhile Text.isBlank ++ ' ' :: b) := by
    rw [Reader.blanks, List.dropWhile_append, if_neg (by simpa using left)]
  rw [closeTag, Reader.bind_of blanks]
  exact endTag_eq_none
    (fun h => ha (h.trans ((List.dropWhile_suffix _).isInfix.trans ht.isInfix))) b

end Tag

/-! ## Flat documents -/

/-- A text in which no tag begins. -/
structure PlainText where
  text : Text
  noTag : ¬ Tag.tagMark <:+: text

/-- The condition of a tag: a trimmed text without the marks of tags. -/
structure TagCondition where
  text : Text
  trimmed : Text.trim text = text
  nonempty : text ≠ []
  noOpening : ¬ Tag.tagMark <:+: text
  noClosing : ¬ Tag.closingMark <:+: text

/-- A branch behind the first one; `else` has no condition. -/
structure FurtherBranch where
  hyphens : Hyphens
  condition : Option TagCondition
  content : PlainText

/-- A conditional region without tags in its branches. -/
structure FlatRegion where
  hyphens : Hyphens
  condition : TagCondition
  content : PlainText
  others : List FurtherBranch
  ending : Hyphens

/-- A conditional region and the chunk behind it. -/
structure FlatSection where
  region : FlatRegion
  chunk : PlainText

/-- Plain chunks with conditional regions between them. Chunks side by side count as one. -/
structure FlatDocument where
  before : PlainText
  sections : List FlatSection

/-- What stands in the tag of a branch. -/
def FurtherBranch.inside (branch : FurtherBranch) : Text :=
  match branch.condition with
  | none => "else"
  | some condition => "elsif " ++ condition.text

/-- A branch with its tag. -/
def FurtherBranch.text (branch : FurtherBranch) : Text :=
  branch.hyphens.tag branch.inside ++ branch.content.text

namespace FlatRegion

/-- What stands between the `if` and the `endif`. -/
def body (region : FlatRegion) : Text :=
  region.content.text ++ region.others.flatMap FurtherBranch.text

/-- The region as a template writes it. -/
def text (region : FlatRegion) : Text :=
  region.hyphens.tag ("if " ++ region.condition.text) ++ region.body ++ region.ending.tag "endif"

/-- The branches of the region, in order. -/
def branches (region : FlatRegion) : List Branch :=
  ⟨some region.condition.text, region.content.text⟩ ::
    region.others.map fun branch => ⟨branch.condition.map TagCondition.text, branch.content.text⟩

end FlatRegion

/-- A region and the chunk behind it, as a template writes them. -/
def FlatSection.text (part : FlatSection) : Text := part.region.text ++ part.chunk.text

/-- The document as a template writes it. -/
def FlatDocument.text (document : FlatDocument) : Text :=
  document.before.text ++ document.sections.flatMap FlatSection.text

/-! ## Selecting a branch -/

namespace Branch

/-- What comes of the condition of a branch; `else` always holds. -/
def verdict (store : Store) (branch : Branch) : Evaluation Bool :=
  match branch.condition with
  | none => .ok true
  | some condition => evaluateSettingCondition store condition

/-- The branch is an `else` branch, or its condition holds. -/
def accepted (store : Store) (branch : Branch) : Bool := branch.verdict store = .ok true

/-- The content of the first branch that is accepted, or nothing. -/
def selected (store : Store) (branches : List Branch) : Text :=
  ((branches.find? (accepted store)).map content).getD []

/-- What goes wrong with the first condition that goes wrong in front of the branch that is
accepted. -/
def failure? (store : Store) (branches : List Branch) : Option EvalError :=
  (branches.takeWhile fun branch => !branch.accepted store).findSome? fun branch =>
    errorOf (branch.verdict store)

variable {store : Store} {branch : Branch} {branches : List Branch}

theorem accepted_iff : branch.accepted store = true ↔ branch.verdict store = .ok true :=
  decide_eq_true_iff

theorem failure?_of_accepted (h : branch.accepted store = true) :
    failure? store (branch :: branches) = none := by
  rw [failure?, List.takeWhile_cons_of_neg (by simpa using h)]
  rfl

theorem failure?_of_not_accepted (h : ¬ branch.accepted store = true) :
    failure? store (branch :: branches) =
      (errorOf (branch.verdict store)).or (failure? store branches) := by
  rw [failure?, List.takeWhile_cons_of_pos (by simpa using h), List.findSome?_cons, failure?]
  cases errorOf (branch.verdict store) <;> rfl

theorem verdict_of_failure? {e : EvalError} (h : failure? store branches = some e) :
    ∃ branch ∈ branches, branch.verdict store = .error e := by
  obtain ⟨branch, reached, failed⟩ := List.exists_of_findSome?_eq_some h
  refine ⟨branch, (List.takeWhile_prefix _).subset reached, ?_⟩
  cases verdict : branch.verdict store with
  | error e' => rw [verdict] at failed; rw [Option.some.inj failed]
  | ok holds => rw [verdict] at failed; cases failed

/-- Only a setting that does not fit keeps the branches from a choice. -/
theorem unfit_of_failure? {e : EvalError} (h : failure? store branches = some e) :
    store.Unfit e := by
  obtain ⟨⟨_ | condition, content⟩, -, failed⟩ := verdict_of_failure? h
  · cases failed
  · exact evaluateSettingCondition_error failed

theorem selected_of_accepted (h : branch.accepted store = true) :
    selected store (branch :: branches) = branch.content := by
  rw [selected, List.find?_cons_of_pos h]
  rfl

theorem selected_of_not_accepted (h : ¬ branch.accepted store = true) :
    selected store (branch :: branches) = selected store branches := by
  rw [selected, List.find?_cons_of_neg h, selected]

end Branch

theorem selectBranch_cons (store : Store) (branch : Branch) (branches : List Branch) :
    selectBranch store (branch :: branches) = (do
      if ← branch.verdict store then return branch.content
      else selectBranch store branches) := by
  obtain ⟨_ | condition, content⟩ := branch <;> rfl

/-- A selection gives the content of the first branch that is accepted, unless a condition in front
of it goes wrong. -/
theorem selectBranch_eq (store : Store) (branches : List Branch) :
    selectBranch store branches = match Branch.failure? store branches with
      | some e => .error e
      | none => .ok (Branch.selected store branches) := by
  induction branches with
  | nil => rfl
  | cons branch branches ih =>
    rw [selectBranch_cons]
    by_cases h : branch.accepted store = true
    · rw [Branch.failure?_of_accepted h, Branch.selected_of_accepted h, Branch.accepted_iff.1 h]
      rfl
    · rw [Branch.failure?_of_not_accepted h, Branch.selected_of_not_accepted h]
      rw [Branch.accepted_iff] at h
      cases verdict : branch.verdict store with
      | error e => rfl
      | ok holds =>
        obtain rfl : holds = false := by
          cases holds with
          | true => exact absurd verdict h
          | false => rfl
        exact ih

/-! ## Cutting a region into its branches -/

section
variable {α : Type} {reader : Reader α} {b s : Text}

theorem PlainText.refuses (plain : PlainText) (h : Reader.Begins Tag.tagMark reader)
    (hb : Reader.Stops (· == '%') b) : Reader.Refuses reader plain.text b :=
  h.refuses_of_notInfix plain.noTag hb

theorem Hyphens.stops_tag (hyphens : Hyphens) (inside s : Text) :
    Reader.Stops (· == '%') (hyphens.tag inside ++ s) := by
  obtain ⟨rest, opening, -⟩ := hyphens.openMark_eq
  rw [tag_append, opening]
  exact Reader.stops_cons.2 (by decide)

/-- The branches behind a text begin with the opening mark of a tag, or there are none. -/
theorem stops_others (others : List FurtherBranch) (hs : Reader.Stops (· == '%') s) :
    Reader.Stops (· == '%') (others.flatMap FurtherBranch.text ++ s) := by
  cases others with
  | nil => exact hs
  | cons branch others =>
    rw [List.flatMap_cons, FurtherBranch.text, List.append_assoc, List.append_assoc]
    exact branch.hyphens.stops_tag _ _

/-- The tag of a branch is read as its condition. -/
theorem FurtherBranch.reads_boundary (branch : FurtherBranch) (s : Text) :
    Branch.boundary (branch.hyphens.tag branch.inside ++ s) =
      some (branch.condition.map TagCondition.text, s) := by
  obtain ⟨hyphens, condition, content⟩ := branch
  rw [Hyphens.tag_append, Branch.boundary]
  have closed := hyphens.reads_closeTag s
  cases condition with
  | none =>
    have opened : Tag.openTag (hyphens.openMark ++ ("else" ++ ' ' :: (hyphens.endMark ++ s))) =
        some ((), "else" ++ ' ' :: (hyphens.endMark ++ s)) :=
      hyphens.reads_openTag (Reader.stops_cons.2 (by decide))
    change (Tag.openTag >>= _) (hyphens.openMark ++ ("else" ++ ' ' :: (hyphens.endMark ++ s))) = _
    rw [Reader.bind_of opened, Reader.orElse_none (Reader.bind_none rfl _),
      Reader.bind_of (Reader.reads_keyword (List.all_eq_true.1 rfl) _), Reader.bind_of closed]
    rfl
  | some condition =>
    have stops : Reader.Stops Text.isBlank (condition.text ++ ' ' :: (hyphens.endMark ++ s)) :=
      Reader.stops_append condition.nonempty (Text.head_not_blank condition.trimmed) _
    have conditionRead := Reader.upTo_append
      (Tag.refuses_closeTag condition.noClosing condition.trimmed (hyphens.endMark ++ s)) closed
    have opened : Tag.openTag (hyphens.openMark ++
          ("elsif" ++ ' ' :: (condition.text ++ ' ' :: (hyphens.endMark ++ s)))) =
        some ((), "elsif" ++ ' ' :: (condition.text ++ ' ' :: (hyphens.endMark ++ s))) :=
      hyphens.reads_openTag (Reader.stops_cons.2 (by decide))
    change (Tag.openTag >>= _) (hyphens.openMark ++
      ("elsif" ++ ' ' :: (condition.text ++ ' ' :: (hyphens.endMark ++ s)))) = _
    rw [Reader.bind_of opened]
    refine Reader.orElse_of ?_
    rw [Reader.bind_of (Reader.reads_keyword (List.all_eq_true.1 rfl) _),
      Reader.bind_of (Reader.reads_blanks1 stops), Reader.bind_of conditionRead]
    exact congrArg (fun c => some (some c, s)) condition.trimmed

/-- A reader of tags passes over a tag that it does not take. -/
theorem Hyphens.refuses_tag {inside : Text} (hyphens : Hyphens)
    (h : Reader.Begins Tag.tagMark reader) (hi : ¬ Tag.tagMark <:+: inside)
    (none : reader (hyphens.tag inside ++ s) = none) :
    Reader.Refuses reader (hyphens.tag inside) s := by
  obtain ⟨blanks, opening, hb⟩ := hyphens.openMark_eq
  rw [tag_append, opening] at none
  rw [tag, opening, Reader.refuses_append, Reader.refuses_append]
  refine ⟨Reader.refuses_cons.2 ⟨?_, h.refuses_of_notMem hb⟩,
    h.refuses_of_notInfix hi (Reader.stops_cons.2 (by decide)), h.refuses_of_notMem ?_⟩
  · rw [List.append_assoc, List.cons_append]
    exact none
  · exact List.not_mem_cons_of_ne_of_not_mem (by decide) hyphens.notMem_endMark

theorem FurtherBranch.inside_eq (branch : FurtherBranch) :
    ∃ rest, branch.inside = "els" ++ rest := by
  obtain ⟨hyphens, condition, content⟩ := branch
  cases condition with
  | none => exact ⟨"e", rfl⟩
  | some condition => exact ⟨"if " ++ condition.text, rfl⟩

theorem FurtherBranch.noTag_inside (branch : FurtherBranch) : ¬ Tag.tagMark <:+: branch.inside := by
  obtain ⟨hyphens, condition, content⟩ := branch
  cases condition with
  | none => exact (by decide : ¬ Tag.tagMark <:+: "else".toList)
  | some condition =>
    change ¬ Tag.tagMark <:+: "elsif".toList ++ ' ' :: condition.text
    rw [Text.infix_append_cons (by decide), not_or]
    exact ⟨by decide, condition.noOpening⟩

/-- The tag of a branch is no `endif`. -/
theorem FurtherBranch.endif_eq_none (branch : FurtherBranch) (s : Text) :
    Tag.word "endif" (branch.hyphens.tag branch.inside ++ s) = none := by
  obtain ⟨rest, he⟩ := branch.inside_eq
  rw [Hyphens.tag_append, he, List.append_assoc, Tag.word, Reader.bind_of
    (branch.hyphens.reads_openTag (Reader.stops_append (by decide) (by decide) _))]
  exact Reader.bind_none rfl _

theorem refuses_others (others : List FurtherBranch) (hs : Reader.Stops (· == '%') s) :
    Reader.Refuses (Tag.word "endif") (others.flatMap FurtherBranch.text) s := by
  induction others with
  | nil => exact Reader.refuses_nil
  | cons branch others ih =>
    rw [List.flatMap_cons, FurtherBranch.text, Reader.refuses_append, Reader.refuses_append]
    refine ⟨⟨?_, ?_⟩, ih⟩
    · exact branch.hyphens.refuses_tag (Tag.begins_word _) branch.noTag_inside
        (branch.endif_eq_none _)
    · exact branch.content.refuses (Tag.begins_word _) (stops_others others hs)

end

namespace FlatRegion

variable {s : Text}

/-- A region ends at its `endif`. -/
theorem refuses_body (region : FlatRegion) (hs : Reader.Stops (· == '%') s) :
    Reader.Refuses (Tag.word "endif") region.body s :=
  Reader.refuses_append.2 ⟨region.content.refuses (Tag.begins_word _) (stops_others _ hs),
    refuses_others region.others hs⟩

/-- A region is read as its condition and its body. -/
theorem reads_text (region : FlatRegion) (s : Text) :
    conditionalRegion (region.text ++ s) =
      some ((region.condition.text ++ [' '], region.body), s) := by
  have shape : region.text ++ s = region.hyphens.openMark ++ ("if" ++ ' ' ::
      (region.condition.text ++ [' '] ++ (region.hyphens.endMark ++
        (region.body ++ (region.ending.tag "endif" ++ s))))) := by
    rw [text, List.append_assoc, List.append_assoc, Hyphens.tag_append,
      List.append_assoc region.condition.text]
    rfl
  have stops : Reader.Stops Text.isBlank (region.condition.text ++ [' '] ++
      (region.hyphens.endMark ++ (region.body ++ (region.ending.tag "endif" ++ s)))) := by
    rw [List.append_assoc]
    exact Reader.stops_append region.condition.nonempty
      (Text.head_not_blank region.condition.trimmed) _
  have conditionRead := Reader.upTo_append (Tag.refuses_endTag_blank region.condition.noClosing _)
    (region.hyphens.reads_endTag (region.body ++ (region.ending.tag "endif" ++ s)))
  have bodyRead := Tag.reads_upToWord (region.refuses_body (region.ending.stops_tag "endif" s))
    (region.ending.reads_word (by decide) s)
  rw [shape, conditionalRegion, Tag.opening, bind_assoc,
    Reader.bind_of (region.hyphens.reads_openTag (Reader.stops_append (by decide) (by decide) _)),
    bind_assoc, Reader.bind_of (Reader.reads_keyword (List.all_eq_true.1 rfl) _),
    Reader.bind_of (Reader.reads_blanks1 stops), Reader.bind_of conditionRead]
  change (Tag.upToWord "endif" >>= fun body => pure (region.condition.text ++ [' '], body)) _ = _
  rw [Reader.bind_of bodyRead]
  rfl

theorem ofPieces_body (condition : Option Text) (content : PlainText)
    (others : List FurtherBranch) :
    Branch.ofPieces condition
        (Reader.pieces Branch.boundary (content.text ++ others.flatMap FurtherBranch.text)) =
      ⟨condition, content.text⟩ :: others.map fun branch =>
        ⟨branch.condition.map TagCondition.text, branch.content.text⟩ := by
  induction others generalizing condition content with
  | nil =>
    rw [List.flatMap_nil, List.append_nil, List.map_nil, Reader.pieces_of_refuses
      (content.refuses Branch.begins_boundary Reader.stops_nil), Branch.ofPieces_plain]
  | cons branch others ih =>
    have tag : branch.hyphens.tag branch.inside ≠ [] := by
      simp [Hyphens.tag]
    rw [List.flatMap_cons, FurtherBranch.text, List.append_assoc, Reader.pieces_append
      (content.refuses Branch.begins_boundary (branch.hyphens.stops_tag _ _)),
      Reader.pieces_of_reads (branch.reads_boundary _) tag, Branch.ofPieces_found, ih]
    rfl

/-- A region is cut into the branches it is made of. -/
theorem splitBranches_body (region : FlatRegion) :
    splitBranches (region.condition.text ++ [' ']) region.body = region.branches := by
  have trimmed : Text.trim (region.condition.text ++ [' ']) = region.condition.text :=
    Text.trim_append (a := []) (by simp) region.condition.trimmed region.condition.nonempty
      (List.all_eq_true.1 rfl)
  rw [splitBranches, trimmed]
  exact ofPieces_body _ region.content region.others

/-- A region becomes the content of the branch that is selected, unless a condition goes wrong. -/
theorem reduceConditionals_text (store : Store) (region : FlatRegion) (s : Text) :
    reduceConditionals store (region.text ++ s) =
      match Branch.failure? store region.branches with
      | some e => .error e
      | none => (Branch.selected store region.branches ++ ·) <$> reduceConditionals store s := by
  have nonempty : region.text ≠ [] := by simp [text, Hyphens.tag]
  rw [reduceConditionals, Reader.replaceEveryM_of_reads (region.reads_text s) nonempty]
  change (do
      let here ← selectBranch store (splitBranches (region.condition.text ++ [' ']) region.body)
      let there ← reduceConditionals store s
      return here ++ there) = _
  rw [splitBranches_body, selectBranch_eq]
  cases Branch.failure? store region.branches <;> rfl

end FlatRegion

/-! ## Whole documents -/

/-- The selected content in place of the region, and the chunk behind it. -/
def FlatSection.reduced (store : Store) (part : FlatSection) : Text :=
  Branch.selected store part.region.branches ++ part.chunk.text

/-- What goes wrong with the region. -/
def FlatSection.failure? (store : Store) (part : FlatSection) : Option EvalError :=
  Branch.failure? store part.region.branches

/-- The document with the selected content in place of each region. -/
def FlatDocument.reduced (store : Store) (document : FlatDocument) : Text :=
  document.before.text ++ document.sections.flatMap (FlatSection.reduced store)

/-- What goes wrong with the first region that goes wrong. -/
def FlatDocument.failure? (store : Store) (document : FlatDocument) : Option EvalError :=
  document.sections.findSome? (FlatSection.failure? store)

theorem reduceConditionals_plain (store : Store) (plain : PlainText) {s : Text}
    (hs : Reader.Stops (· == '%') s) :
    reduceConditionals store (plain.text ++ s) = (plain.text ++ ·) <$> reduceConditionals store s :=
  Reader.replaceEveryM_append (plain.refuses ((Tag.begins_opening _).bind _) hs)

theorem stops_sections (parts : List FlatSection) :
    Reader.Stops (· == '%') (parts.flatMap FlatSection.text) := by
  cases parts with
  | nil => exact Reader.stops_nil
  | cons part parts =>
    rw [List.flatMap_cons, FlatSection.text, FlatRegion.text, List.append_assoc, List.append_assoc,
      List.append_assoc]
    exact part.region.hyphens.stops_tag _ _

theorem reduceConditionals_sections (store : Store) (parts : List FlatSection) :
    reduceConditionals store (parts.flatMap FlatSection.text) =
      match parts.findSome? (FlatSection.failure? store) with
      | some e => .error e
      | none => .ok (parts.flatMap (FlatSection.reduced store)) := by
  induction parts with
  | nil => exact Reader.replaceEveryM_of_refuses Reader.refuses_nil
  | cons part parts ih =>
    rw [List.flatMap_cons, FlatSection.text, List.append_assoc, FlatRegion.reduceConditionals_text,
      reduceConditionals_plain store part.chunk (stops_sections parts), ih, List.findSome?_cons,
      List.flatMap_cons, FlatSection.failure?, FlatSection.reduced, List.append_assoc]
    cases Branch.failure? store part.region.branches with
    | some e => rfl
    | none => cases parts.findSome? (FlatSection.failure? store) <;> rfl

/-- A document goes wrong only if a setting does not fit. -/
theorem FlatDocument.failure?_eq (store : Store) (document : FlatDocument) :
    document.failure? store = none ∨
      ∃ e, document.failure? store = some e ∧ store.Unfit e := by
  cases failed : document.failure? store with
  | none => exact .inl rfl
  | some e =>
    obtain ⟨part, -, region⟩ := List.exists_of_findSome?_eq_some failed
    exact .inr ⟨e, rfl, Branch.unfit_of_failure? region⟩

/-- **The reduction of a flat document is exact**: each region becomes, unchanged, the content of
its first branch that is an `else` or whose condition holds, or nothing if there is none, and the
chunks stay as they are. Only a condition in front of that branch can keep this from happening: the
first one that goes wrong is what the reduction goes wrong with, and none does where every setting
that is a whole number fits a double and every whole number in a list has few enough digits. -/
theorem reduceConditionals_flatDocument (store : Store) (document : FlatDocument) :
    (reduceConditionals store document.text =
      match document.failure? store with
      | some e => .error e
      | none => .ok (document.reduced store)) ∧
    (document.failure? store = none ∨
      ∃ e, document.failure? store = some e ∧ store.Unfit e) := by
  refine ⟨?_, document.failure?_eq store⟩
  rw [FlatDocument.text, reduceConditionals_plain store document.before (stops_sections _),
    reduceConditionals_sections, FlatDocument.failure?, FlatDocument.reduced]
  cases document.sections.findSome? (FlatSection.failure? store) <;> rfl

/-- A region that compares a setting with a number, and its `else` branch. -/
def FlatDocument.comparison : FlatDocument where
  before := ⟨[], by decide⟩
  sections := [{
    region := {
      hyphens := {}
      condition := ⟨"settings.x == 5", by decide, by decide, by decide, by decide⟩
      content := ⟨"A", by decide⟩
      others := [⟨{}, none, ⟨"B", by decide⟩⟩]
      ending := {} }
    chunk := ⟨[], by decide⟩ }]

/-- A document is not reduced if a setting in it is a whole number that fits no double. -/
theorem reduceConditionals_too_large :
    ¬ ∀ (store : Store) (document : FlatDocument),
      reduceConditionals store document.text = .ok (document.reduced store) := by
  intro h
  have reduced := h { current := [("x", .number (.int (10 ^ 400)))] } .comparison
  exact absurd reduced (by decide +kernel)

end ThemeProps
