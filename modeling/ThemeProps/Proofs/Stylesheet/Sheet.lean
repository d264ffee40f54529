/-
  Plain stylesheets of `:root` rules, read back as they were written.

  A rule holds declarations and media blocks with declarations in them, in any
  order and number; the blanks between the pieces are arbitrary.

  * `SheetProperty`, `MediaBlock`, `RuleItem`, `RootRule` and `RootSheet` are the
    pieces, `write` their text, and `RootRule.declarations` what a rule declares;
  * for each kind of piece it is said what the three searches make of it:
    `rootOpening` is found at the rules only, `mediaOpening` at the media blocks
    only, and `declaration` at the declarations only;
  * `rootDeclarations_write`: reading a stylesheet gives the declarations of its
    rules, and `declareAll_rootDeclarations` what becomes of a registry.
-/
import ThemeProps.Stylesheet.Region
import ThemeProps.Proofs.Stylesheet.Rule

namespace ThemeProps.Stylesheet

/-! ## Blanks -/

/-- Blanks between two pieces; there may be none. -/
structure Gap where
  text : Text
  blank : ∀ c ∈ text, Text.isBlank c = true

namespace Gap

variable {g : Gap} {s : Text}

theorem notMem {c : Char} (hc : Text.isBlank c = false) : c ∉ g.text := by
  intro h
  rw [g.blank c h] at hc
  cases hc

/-- Blanks do not continue a word. -/
theorem stops {w : Text} (hw : ∀ c ∈ w, Text.isBlank c = false) (hs : Reader.Stops (· ∈ w) s) :
    Reader.Stops (· ∈ w) (g.text ++ s) := by
  cases ht : g.text with
  | nil => exact hs
  | cons c t =>
    refine Reader.stops_cons.2 (decide_eq_false fun hc => ?_)
    have blank := g.blank c (by rw [ht]; exact List.mem_cons_self)
    rw [hw c hc] at blank
    cases blank

end Gap

/-! ## Declarations -/

/-- A declaration as it stands in a rule. -/
structure SheetProperty where
  /-- The name without its leading hyphens. -/
  name : Text
  value : Text
  nonempty : name ≠ []
  isWordOrHyphen : ∀ c ∈ name, Text.isWordOrHyphen c = true
  trimmed : Text.trim value = value
  hasValue : value ≠ []
  noSemicolon : ';' ∉ value
  noBraces : '{' ∉ value ∧ '}' ∉ value
  noMedia : ¬ ("@media" : Text) <:+: value
  beforeColon : Gap
  beforeValue : Gap
  afterValue : Gap
  behind : Gap

namespace SheetProperty

variable (p : SheetProperty) {c : Char}

/-- The declaration up to its semicolon. -/
def head : Text :=
  "--" ++ p.name ++ p.beforeColon.text ++
    ':' :: (p.beforeValue.text ++ p.value ++ p.afterValue.text)

def write : Text := p.head ++ [';'] ++ p.behind.text

/-- The declaration made in a file, in a media query or in none. -/
def declaredIn (file : Text) (query : Option Text) : Declaration :=
  ⟨"--" ++ p.name, p.value, file, query⟩

theorem notMem_head (hw : Text.isWordOrHyphen c = false) (hb : Text.isBlank c = false)
    (hc : c ≠ ':') (hv : c ∉ p.value) : c ∉ p.head := by
  have hyphen : c ∉ ("--" : Text) := by
    intro h
    obtain rfl : c = '-' := by simpa using h
    exact absurd hw (by decide)
  have name : c ∉ p.name := fun h => by rw [p.isWordOrHyphen c h] at hw; cases hw
  simp only [head, List.mem_append, List.mem_cons, not_or]
  exact ⟨⟨⟨hyphen, name⟩, Gap.notMem hb⟩, hc, ⟨Gap.notMem hb, hv⟩, Gap.notMem hb⟩

theorem declarations_write (file : Text) (query : Option Text) (s : Text) :
    declarations file query (p.write ++ s) =
      p.declaredIn file query :: declarations file query s := by
  have noSemicolon : ';' ∉ p.beforeValue.text ++ p.value ++ p.afterValue.text := by
    simp only [List.mem_append, not_or]
    exact ⟨⟨Gap.notMem (by decide), p.noSemicolon⟩, Gap.notMem (by decide)⟩
  have hasValue : p.beforeValue.text ++ p.value ++ p.afterValue.text ≠ [] := by
    simp [p.hasValue]
  have value : Text.trim (p.beforeValue.text ++ p.value ++ p.afterValue.text) = p.value :=
    Text.trim_append p.beforeValue.blank p.trimmed p.hasValue p.afterValue.blank
  have read := reads_declaration p.nonempty p.isWordOrHyphen p.beforeColon.blank hasValue
    noSemicolon (p.behind.text ++ s)
  have shape : p.write ++ s = ("--" ++ p.name ++ p.beforeColon.text ++
      ':' :: (p.beforeValue.text ++ p.value ++ p.afterValue.text ++ [';'])) ++
        (p.behind.text ++ s) := by
    unfold write head
    simp only [List.append_assoc, List.cons_append, List.nil_append]
  have passed : Reader.Refuses declaration p.behind.text s :=
    begins_declaration.refuses_of_notMem (Gap.notMem (by decide))
  rw [declarations, shape, Reader.findEvery_of_reads read (by simp),
    Reader.findEvery_append passed, List.map_cons, value, declarations]
  rfl

/-- No rule opens in a declaration, not even one that ends behind it. -/
theorem refuses_rootOpening (s : Text) : Reader.Refuses rootOpening p.write s := by
  have noBrace : '{' ∉ p.head ++ [';'] := by
    rw [List.mem_append, not_or]
    exact ⟨p.notMem_head (by decide) (by decide) (by decide) p.noBraces.1, by decide⟩
  rw [write, Reader.refuses_append]
  exact ⟨needs_rootOpening.refuses_before (by decide) noBrace _,
    begins_rootOpening.refuses_of_notMem (Gap.notMem (by decide))⟩

theorem refuses_mediaOpening (s : Text) : Reader.Refuses mediaOpening p.write s := by
  have plain {a : Text} (ha : '@' ∉ a) (b : Text) : Reader.Refuses mediaOpening a b :=
    begins_mediaOpening.refuses_of_notMem ha
  have name : '@' ∉ p.name := fun h => absurd (p.isWordOrHyphen _ h) (by decide)
  have front :
      '@' ∉ ("--" ++ p.name ++ p.beforeColon.text ++ ':' :: p.beforeValue.text : Text) := by
    simp only [List.mem_append, List.mem_cons, not_or]
    exact ⟨⟨⟨by decide, name⟩, Gap.notMem (by decide)⟩, by decide, Gap.notMem (by decide)⟩
  have back : '@' ∉ p.afterValue.text ++ [';'] ++ p.behind.text := by
    simp only [List.mem_append, not_or]
    exact ⟨⟨Gap.notMem (by decide), by decide⟩, Gap.notMem (by decide)⟩
  have shape : p.write = ("--" ++ p.name ++ p.beforeColon.text ++ ':' :: p.beforeValue.text) ++
      (p.value ++ (p.afterValue.text ++ [';'] ++ p.behind.text)) := by
    unfold write head
    simp only [List.append_assoc, List.cons_append, List.nil_append]
  have stops : Reader.Stops (· ∈ ("@media" : Text))
      (p.afterValue.text ++ [';'] ++ p.behind.text ++ s) := by
    rw [List.append_assoc, List.append_assoc]
    exact Gap.stops (Text.forall_mem_of_all rfl) (Reader.stops_cons.2 (by decide))
  rw [shape]
  refine Reader.refuses_append.2 ⟨plain front _, Reader.refuses_append.2 ⟨?_, plain back _⟩⟩
  exact begins_mediaOpening.refuses_before p.noMedia stops

theorem balanced_write : Balanced p.write := by
  have notMem {c : Char} (hw : Text.isWordOrHyphen c = false) (hb : Text.isBlank c = false)
      (hc : c ≠ ':' ∧ c ≠ ';') (hv : c ∉ p.value) : c ∉ p.write := by
    simp only [write, List.mem_append, List.mem_singleton, not_or]
    exact ⟨⟨p.notMem_head hw hb hc.1 hv, hc.2⟩, Gap.notMem hb⟩
  exact balanced_of_notMem (notMem (by decide) (by decide) (by decide) p.noBraces.1)
    (notMem (by decide) (by decide) (by decide) p.noBraces.2)

end SheetProperty

/-! ## Media blocks -/

/-- A media block as it stands in a rule. -/
structure MediaBlock where
  query : Text
  trimmed : Text.trim query = query
  nonempty : query ≠ []
  noBraces : '{' ∉ query ∧ '}' ∉ query
  noHyphens : ¬ ("--" : Text) <:+: query
  noRoot : ¬ rootMarker <:+: query
  properties : List SheetProperty
  beforeQuery : Gap
  afterQuery : Gap
  beforeFirst : Gap
  behind : Gap

namespace MediaBlock

variable (b : MediaBlock)

/-- The text from the at sign to the opening brace. -/
def head : Text := "@media" ++ b.beforeQuery.text ++ b.query ++ b.afterQuery.text ++ ['{']

def body : Text := b.beforeFirst.text ++ b.properties.flatMap (·.write)

def write : Text := b.head ++ b.body ++ '}' :: b.behind.text

/-- The declarations of the block, made in its query. -/
def variants (file : Text) : List Declaration :=
  b.properties.map (·.declaredIn file (some b.query))

/-- No construct that begins with `w` starts in the head of a media block without `w` in its
query. -/
theorem refuses_head {α : Type} {reader : Reader α} {c : Char} {w : Text}
    (h : Reader.Begins (c :: w) reader) (hq : ¬ (c :: w) <:+: b.query)
    (hw : ∀ d ∈ c :: w, Text.isBlank d = false) (hc : c ∉ ("@media" : Text) ∧ '{' ∉ c :: w)
    (s : Text) : Reader.Refuses reader b.head s := by
  have plain {a : Text} (ha : c ∉ a) (b : Text) : Reader.Refuses reader a b :=
    h.refuses_of_notMem ha
  have blank : Text.isBlank c = false := hw c List.mem_cons_self
  have brace : c ∉ ['{'] := fun hm => hc.2 (by simp [List.mem_singleton.1 hm])
  have stops : Reader.Stops (· ∈ c :: w) (b.afterQuery.text ++ ['{'] ++ s) := by
    rw [List.append_assoc]
    exact Gap.stops hw (Reader.stops_cons.2 (decide_eq_false hc.2))
  have front : c ∉ ("@media" ++ b.beforeQuery.text : Text) := by
    rw [List.mem_append, not_or]
    exact ⟨hc.1, Gap.notMem blank⟩
  have back : c ∉ b.afterQuery.text ++ ['{'] := by
    rw [List.mem_append, not_or]
    exact ⟨Gap.notMem blank, brace⟩
  have shape : b.head = ("@media" ++ b.beforeQuery.text) ++
      (b.query ++ (b.afterQuery.text ++ ['{'])) := by
    unfold head
    simp only [List.append_assoc]
  rw [shape]
  refine Reader.refuses_append.2 ⟨plain front _, Reader.refuses_append.2 ⟨?_, plain back _⟩⟩
  exact h.refuses_before hq stops

theorem refuses_rootOpening (s : Text) : Reader.Refuses rootOpening b.write s := by
  have plain {a : Text} (ha : ':' ∉ a) (t : Text) : Reader.Refuses rootOpening a t :=
    begins_rootOpening.refuses_of_notMem ha
  have ending : ':' ∉ '}' :: b.behind.text := by
    rw [List.mem_cons, not_or]
    exact ⟨by decide, Gap.notMem (by decide)⟩
  have body (t : Text) : Reader.Refuses rootOpening b.body t :=
    Reader.refuses_append.2 ⟨plain (Gap.notMem (by decide)) _,
      Reader.refuses_flatMap (fun p _ => p.refuses_rootOpening) t⟩
  have head := b.refuses_head begins_rootOpening b.noRoot (Text.forall_mem_of_all rfl) (by decide)
  rw [write]
  exact Reader.refuses_append.2 ⟨Reader.refuses_append.2 ⟨head _, body _⟩, plain ending _⟩

theorem balanced_body : Balanced b.body :=
  (balanced_of_notMem (Gap.notMem (by decide)) (Gap.notMem (by decide))).append
    (balanced_flatMap fun p _ => p.balanced_write)

theorem balanced_write : Balanced b.write := by
  have plain {c : Char} (hw : c ∉ ("@media" : Text)) (hb : Text.isBlank c = false)
      (hq : c ∉ b.query) :
      c ∉ ("@media" ++ b.beforeQuery.text ++ b.query ++ b.afterQuery.text : Text) := by
    simp only [List.mem_append, not_or]
    exact ⟨⟨⟨hw, Gap.notMem hb⟩, hq⟩, Gap.notMem hb⟩
  have front := balanced_of_notMem (plain (by decide) (by decide) b.noBraces.1)
    (plain (by decide) (by decide) b.noBraces.2)
  have back : Balanced b.behind.text :=
    balanced_of_notMem (Gap.notMem (by decide)) (Gap.notMem (by decide))
  have shape : b.write = ("@media" ++ b.beforeQuery.text ++ b.query ++ b.afterQuery.text) ++
      '{' :: (b.body ++ ['}']) ++ b.behind.text := by
    unfold write head
    simp only [List.append_assoc, List.cons_append, List.nil_append]
  rw [shape]
  exact (front.append b.balanced_body.block).append back

theorem declarations_body (file : Text) (query : Option Text) (s : Text) :
    declarations file query (b.body ++ s) =
      b.properties.map (·.declaredIn file query) ++ declarations file query s := by
  have passed (t : Text) : Reader.Refuses declaration b.beforeFirst.text t :=
    begins_declaration.refuses_of_notMem (Gap.notMem (by decide))
  have pieces : declarations file query (b.properties.flatMap (·.write) ++ s) =
      b.properties.flatMap (fun p => [p.declaredIn file query]) ++ declarations file query s :=
    Reader.piecewise_flatMap (fun p _ s => p.declarations_write file query s) s
  rw [body, List.append_assoc, declarations_append (passed _), pieces, List.map_eq_flatMap]

theorem declarations_write (file : Text) (query : Option Text) (s : Text) :
    declarations file query (b.write ++ s) =
      b.properties.map (·.declaredIn file query) ++ declarations file query s := by
  have head :=
    b.refuses_head begins_declaration b.noHyphens (Text.forall_mem_of_all rfl) (by decide)
  have ending : '-' ∉ '}' :: b.behind.text := by
    rw [List.mem_cons, not_or]
    exact ⟨by decide, Gap.notMem (by decide)⟩
  have passed : Reader.Refuses declaration ('}' :: b.behind.text) s :=
    begins_declaration.refuses_of_notMem ending
  rw [write, List.append_assoc, List.append_assoc, declarations_append (head _),
    declarations_body, declarations_append passed]

theorem reads_mediaOpening (s : Text) : mediaOpening (b.head ++ s) = some (b.query, s) := by
  have noBrace : ∀ c ∈ b.beforeQuery.text ++ b.query ++ b.afterQuery.text,
      decide (c ≠ '{') = true := by
    intro c hc
    refine decide_eq_true fun he => ?_
    rw [he, List.mem_append, List.mem_append] at hc
    rcases hc with (hc | hc) | hc
    · exact Gap.notMem (by decide) hc
    · exact b.noBraces.1 hc
    · exact Gap.notMem (by decide) hc
  have read := Reader.reads_run1 (by simp [b.nonempty]) noBrace
    (Reader.stops_cons.2 (by decide) : Reader.Stops _ ('{' :: s))
  have query : Text.trim (b.beforeQuery.text ++ b.query ++ b.afterQuery.text) = b.query :=
    Text.trim_append b.beforeQuery.blank b.trimmed b.nonempty b.afterQuery.blank
  have shape : b.head ++ s =
      "@media" ++ ((b.beforeQuery.text ++ b.query ++ b.afterQuery.text) ++ '{' :: s) := by
    unfold head
    simp only [List.append_assoc, List.cons_append, List.nil_append]
  rw [shape, mediaOpening, Reader.bind_of (Reader.reads_literal _ _), Reader.bind_of read,
    Reader.bind_of (Reader.reads_char '{' s), query]
  rfl

/-- A media block is found with its query and its body. -/
theorem bodiesOf_mediaOpening (s : Text) :
    bodiesOf mediaOpening (b.write ++ s) = (b.query, b.body) :: bodiesOf mediaOpening s := by
  have plain {a : Text} (ha : '@' ∉ a) (t : Text) : Reader.Refuses mediaOpening a t :=
    begins_mediaOpening.refuses_of_notMem ha
  have ending : '@' ∉ '}' :: b.behind.text := by
    rw [List.mem_cons, not_or]
    exact ⟨by decide, Gap.notMem (by decide)⟩
  have body (t : Text) : Reader.Refuses mediaOpening b.body t :=
    Reader.refuses_append.2 ⟨plain (Gap.notMem (by decide)) _,
      Reader.refuses_flatMap (fun p _ => p.refuses_mediaOpening) t⟩
  have closed : body? (b.body ++ ('}' :: b.behind.text ++ s)) = some b.body :=
    b.balanced_body.body? _
  have nonempty : b.head ≠ [] := by unfold head; simp
  rw [write, List.append_assoc, List.append_assoc,
    bodiesOf_of_reads (b.reads_mediaOpening _) nonempty closed, bodiesOf_append (body _),
    bodiesOf_append (plain ending s)]

end MediaBlock

/-! ## Rules -/

/-- What stands in a rule. -/
inductive RuleItem where
  | property (p : SheetProperty)
  | media (b : MediaBlock)

namespace RuleItem

variable (i : RuleItem)

def write : RuleItem → Text
  | property p => p.write
  | media b => b.write

/-- The declarations in an item, those in a media block included. -/
def properties : RuleItem → List SheetProperty
  | property p => [p]
  | media b => b.properties

/-- The declarations of an item that are made in a media query. -/
def variants (file : Text) : RuleItem → List Declaration
  | property _ => []
  | media b => b.variants file

/-- The media rules in an item: query and body. -/
def mediaBodies : RuleItem → List (Text × Text)
  | property _ => []
  | media b => [(b.query, b.body)]

theorem declarations_write (file : Text) (query : Option Text) (s : Text) :
    declarations file query (i.write ++ s) =
      i.properties.map (·.declaredIn file query) ++ declarations file query s := by
  cases i with
  | property p => exact p.declarations_write file query s
  | media b => exact b.declarations_write file query s

theorem bodiesOf_mediaOpening (s : Text) :
    bodiesOf mediaOpening (i.write ++ s) = i.mediaBodies ++ bodiesOf mediaOpening s := by
  cases i with
  | property p => exact bodiesOf_append (p.refuses_mediaOpening s)
  | media b => exact b.bodiesOf_mediaOpening s

theorem declarations_mediaBodies (file : Text) :
    (i.mediaBodies.flatMap fun (query, body) => declarations file (some query) body) =
      i.variants file := by
  cases i with
  | property p => rfl
  | media b =>
    have read := b.declarations_body file (some b.query) []
    rw [List.append_nil, declarations_nil, List.append_nil] at read
    rw [mediaBodies, List.flatMap_singleton]
    exact read

theorem refuses_rootOpening (s : Text) : Reader.Refuses rootOpening i.write s := by
  cases i with
  | property p => exact p.refuses_rootOpening s
  | media b => exact b.refuses_rootOpening s

theorem balanced_write : Balanced i.write := by
  cases i with
  | property p => exact p.balanced_write
  | media b => exact b.balanced_write

end RuleItem

/-- A `:root` rule with its items. -/
structure RootRule where
  items : List RuleItem
  beforeBrace : Gap
  beforeFirst : Gap
  behind : Gap

namespace RootRule

variable (r : RootRule)

def head : Text := ":root" ++ r.beforeBrace.text ++ ['{']

def body : Text := r.beforeFirst.text ++ r.items.flatMap (·.write)

def write : Text := r.head ++ r.body ++ '}' :: r.behind.text

/-- What a rule declares: each of its declarations without a query, in the order in which they
stand, and then those of its media blocks in their queries. -/
def declarations (file : Text) : List Declaration :=
  (r.items.flatMap (·.properties)).map (·.declaredIn file none) ++
    r.items.flatMap (·.variants file)

theorem declarations_body (file : Text) :
    Stylesheet.declarations file none r.body =
      (r.items.flatMap (·.properties)).map (·.declaredIn file none) := by
  have passed (t : Text) : Reader.Refuses declaration r.beforeFirst.text t :=
    begins_declaration.refuses_of_notMem (Gap.notMem (by decide))
  have pieces : Stylesheet.declarations file none (r.items.flatMap (·.write) ++ []) =
      r.items.flatMap (fun i => i.properties.map (·.declaredIn file none)) ++
        Stylesheet.declarations file none [] :=
    Reader.piecewise_flatMap (fun i _ s => i.declarations_write file none s) []
  rw [List.append_nil, declarations_nil, List.append_nil] at pieces
  rw [body, declarations_append (passed _), pieces, List.map_flatMap]

theorem mediaDeclarations_body (file : Text) :
    mediaDeclarations file r.body = r.items.flatMap (·.variants file) := by
  have passed (t : Text) : Reader.Refuses mediaOpening r.beforeFirst.text t :=
    begins_mediaOpening.refuses_of_notMem (Gap.notMem (by decide))
  have pieces : bodiesOf mediaOpening (r.items.flatMap (·.write) ++ []) =
      r.items.flatMap (·.mediaBodies) ++ bodiesOf mediaOpening [] :=
    Reader.piecewise_flatMap (fun i _ s => i.bodiesOf_mediaOpening s) []
  rw [List.append_nil, bodiesOf_of_refuses Reader.refuses_nil, List.append_nil] at pieces
  rw [mediaDeclarations, body, bodiesOf_append (passed _), pieces, List.flatMap_assoc]
  exact List.flatMap_congr fun i _ => i.declarations_mediaBodies file

theorem balanced_body : Balanced r.body :=
  (balanced_of_notMem (Gap.notMem (by decide)) (Gap.notMem (by decide))).append
    (balanced_flatMap fun i _ => i.balanced_write)

/-- A rule is found with its body, and no other rule in it. -/
theorem bodiesOf_rootOpening (s : Text) :
    bodiesOf rootOpening (r.write ++ s) = ((), r.body) :: bodiesOf rootOpening s := by
  have plain {a : Text} (ha : ':' ∉ a) (t : Text) : Reader.Refuses rootOpening a t :=
    begins_rootOpening.refuses_of_notMem ha
  have ending : ':' ∉ '}' :: r.behind.text := by
    rw [List.mem_cons, not_or]
    exact ⟨by decide, Gap.notMem (by decide)⟩
  have body (t : Text) : Reader.Refuses rootOpening r.body t :=
    Reader.refuses_append.2 ⟨plain (Gap.notMem (by decide)) _,
      Reader.refuses_flatMap (fun i _ => i.refuses_rootOpening) t⟩
  have closed : body? (r.body ++ ('}' :: r.behind.text ++ s)) = some r.body :=
    r.balanced_body.body? _
  have opened (t : Text) : rootOpening (r.head ++ t) = some ((), t) := by
    have shape : r.head ++ t = ":root" ++ r.beforeBrace.text ++ '{' :: t := by
      unfold head
      simp only [List.append_assoc, List.cons_append, List.nil_append]
    rw [shape]
    exact reads_rootOpening r.beforeBrace.blank t
  have nonempty : r.head ≠ [] := by unfold head; simp
  rw [write, List.append_assoc, List.append_assoc, bodiesOf_of_reads (opened _) nonempty closed,
    bodiesOf_append (body _), bodiesOf_append (plain ending s)]

end RootRule

/-! ## Stylesheets -/

/-- A stylesheet of `:root` rules. -/
structure RootSheet where
  before : Gap
  rules : List RootRule

namespace RootSheet

variable (sheet : RootSheet) (file : Text)

def write : Text := sheet.before.text ++ sheet.rules.flatMap (·.write)

/-- Reading a stylesheet gives the declarations of its rules. -/
theorem rootDeclarations_write :
    rootDeclarations file sheet.write = sheet.rules.flatMap (·.declarations file) := by
  have passed (t : Text) : Reader.Refuses rootOpening sheet.before.text t :=
    begins_rootOpening.refuses_of_notMem (Gap.notMem (by decide))
  have pieces : bodiesOf rootOpening (sheet.rules.flatMap (·.write) ++ []) =
      sheet.rules.flatMap (fun r => [((), r.body)]) ++ bodiesOf rootOpening [] :=
    Reader.piecewise_flatMap (fun r _ s => r.bodiesOf_rootOpening s) []
  rw [List.append_nil, bodiesOf_of_refuses Reader.refuses_nil, List.append_nil,
    ← List.map_eq_flatMap] at pieces
  rw [rootDeclarations, write, bodiesOf_append (passed _), pieces, List.flatMap_map]
  refine List.flatMap_congr fun r _ => ?_
  show Stylesheet.declarations file none r.body ++ mediaDeclarations file r.body = _
  rw [r.declarations_body, r.mediaDeclarations_body, RootRule.declarations]

/-- **A written stylesheet is read back.** A registry is left as by the declarations of the rules,
one rule after the other. -/
theorem declareAll_rootDeclarations (r : Registry) :
    r.declareAll (rootDeclarations file sheet.write) =
      sheet.rules.foldl (fun r rule => r.declareAll (rule.declarations file)) r := by
  rw [rootDeclarations_write, Registry.declareAll, List.foldl_flatMap]
  rfl

example :
    rootDeclarations "f" ":root \x7b --a: 1; @media print \x7b --a: 2; \x7d --b: x y; \x7d" =
      [⟨"--a", "1", "f", none⟩, ⟨"--a", "2", "f", none⟩, ⟨"--b", "x y", "f", none⟩,
        ⟨"--a", "2", "f", some "print"⟩] := by
  decide +kernel

end RootSheet

end ThemeProps.Stylesheet
