/-
  The rules and declarations of a plain stylesheet.

  * `bodiesOf_append` and `bodiesOf_of_reads`: the rules of a text that is put
    together from pieces;
  * `needs_rootOpening` and the others: an opening needs a brace;
  * `rootDeclarations_rule`: the rule gives the declarations of its body, and
    `classDeclarations_rule`: there are no others;
  * `reads_declaration`: a declaration is read as its name and its trimmed value;
  * `refuses_echoLiteral`: no literal is echoed where no blank stands behind an
    `echo`.
-/
import ThemeProps.Stylesheet.Rule
import ThemeProps.Proofs.Text.Takes
import ThemeProps.Proofs.Stylesheet.Brace

namespace ThemeProps.Stylesheet

variable {body s : Text}

/-! ## Rules one after the other -/

section
variable {α : Type} {opening : Reader α} {w r : Text} {v : α}

/-- Where no opening is found there is no rule. -/
theorem bodiesOf_append {a b : Text} (h : Reader.Refuses opening a b) :
    bodiesOf opening (a ++ b) = bodiesOf opening b := by
  rw [bodiesOf, openings, Reader.findEvery_append (h.bind _), bodiesOf, openings]

/-- An opening in front is found with the text behind it. -/
theorem openings_of_reads (h : opening (w ++ r) = some (v, r)) (hw : w ≠ []) :
    openings opening (w ++ r) = (v, r) :: openings opening r := by
  have opened : (do let a ← opening; return (a, ← get) : Reader (α × Text)) (w ++ r) =
      some ((v, r), r) := by
    rw [Reader.bind_of h]
    rfl
  rw [openings, Reader.findEvery_of_reads opened hw, openings]

/-- A rule in front is found, and those behind its opening. -/
theorem bodiesOf_of_reads (h : opening (w ++ r) = some (v, r)) (hw : w ≠ [])
    (hbody : body? r = some body) :
    bodiesOf opening (w ++ r) = (v, body) :: bodiesOf opening r := by
  rw [bodiesOf, openings_of_reads h hw]
  simp only [List.filterMap_cons, hbody, Option.map_some, bodiesOf]

theorem bodiesOf_of_refuses (h : Reader.Refuses opening s []) : bodiesOf opening s = [] := by
  rw [bodiesOf, openings, Reader.findEvery_of_refuses (h.bind _)]
  rfl

end

/-! ## Openings -/

section
variable {p : Char → Prop}

theorem takes_furtherSelector (hblank : ∀ c, Text.isBlank c = true → p c)
    (hword : ∀ c, Text.isWordOrHyphen c = true → p c) (hmarks : p ',' ∧ p '.' ∧ p '#') :
    Reader.Takes p furtherSelector := by
  refine (Reader.takes_char hmarks.1).bind fun _ => (Reader.takes_blanks hblank).bind fun _ => ?_
  refine (Reader.takes_satisfy fun c hc => ?_).bind fun _ =>
    (Reader.takes_run1 hword).bind fun _ => Reader.takes_blanks hblank
  simp only [Bool.or_eq_true, beq_iff_eq] at hc
  rcases hc with rfl | rfl
  · exact hmarks.2.1
  · exact hmarks.2.2

theorem Takes.furtherSelectors (h : Reader.Takes p furtherSelector) (n : Nat) :
    Reader.Takes p (furtherSelectors n) := by
  induction n with
  | zero => exact Reader.takes_pure ()
  | succ n ih => exact Reader.Takes.orElse (h.bind fun _ => ih) (Reader.takes_pure ())

end

@[simp] theorem begins_rootOpening : Reader.Begins ":root" rootOpening :=
  (Reader.begins_literal ":root").bind _

@[simp] theorem begins_mediaOpening : Reader.Begins "@media" mediaOpening :=
  (Reader.begins_literal "@media").bind _

/-- The opening of a `:root` rule stands before any semicolon. -/
theorem needs_rootOpening : Reader.Needs (· ≠ ';') '{' rootOpening := by
  have blank : ∀ c, Text.isBlank c = true → c ≠ ';' := by rintro _ h rfl; exact absurd h (by decide)
  have word : ∀ c, Text.isWordOrHyphen c = true → c ≠ ';' := by
    rintro _ h rfl; exact absurd h (by decide)
  refine Reader.needs_behind (Reader.takes_literal (Text.forall_mem_of_all rfl)) fun _ => ?_
  refine Reader.needs_behind (Reader.takes_blanks blank) fun _ => ?_
  refine Reader.needs_behind Reader.takes_get fun s => ?_
  have further := takes_furtherSelector blank word (by decide)
  exact Reader.needs_behind (Takes.furtherSelectors further _) fun _ => Reader.needs_char '{'

theorem needs_mediaOpening : Reader.Needs (fun _ => True) '{' mediaOpening := by
  refine Reader.needs_behind (Reader.leaves_literal _) fun _ => ?_
  exact Reader.needs_behind (Reader.leaves_run1 _) fun _ =>
    (Reader.needs_char '{').bind _

theorem needs_classOpening : Reader.Needs (fun _ => True) '{' classOpening := by
  refine Reader.needs_behind (Reader.leaves_char _) fun _ => ?_
  refine Reader.needs_behind (Reader.leaves_run1 _) fun _ => ?_
  exact Reader.needs_behind Reader.leaves_blanks fun _ => Reader.needs_char '{'

theorem reads_rootOpening {gap : Text} (hgap : ∀ c ∈ gap, Text.isBlank c = true) (s : Text) :
    rootOpening (":root" ++ gap ++ '{' :: s) = some ((), s) := by
  have further : furtherSelectors ('{' :: s).length ('{' :: s) = some ((), '{' :: s) :=
    Reader.orElse_none (Reader.bind_none (Reader.bind_none (Reader.char_of_ne (by decide)) _) _)
  have blank : Reader.blanks (gap ++ '{' :: s) = some ((), '{' :: s) :=
    Reader.reads_blanks_append hgap (Reader.stops_cons.2 (by decide))
  rw [List.append_assoc, rootOpening, Reader.bind_of (Reader.reads_literal _ _),
    Reader.bind_of blank]
  change (furtherSelectors ('{' :: s).length >>= fun _ => Reader.char '{') ('{' :: s) = _
  rw [Reader.bind_of further]
  exact Reader.reads_char '{' s

/-! ## One rule -/

theorem bodiesOf_rootOpening (ho : '{' ∉ body) (hc : '}' ∉ body) :
    bodiesOf rootOpening (":root \x7b" ++ body ++ "\x7d") = [((), body)] := by
  have noBrace : '{' ∉ (body ++ "\x7d" : Text) := by simp [ho]
  have blank : ∀ c ∈ (" " : Text), Text.isBlank c = true := Text.forall_mem_of_all rfl
  have opened : rootOpening (":root \x7b" ++ (body ++ "\x7d")) = some ((), body ++ "\x7d") :=
    reads_rootOpening blank _
  have closed : body? (body ++ "\x7d") = some body := (balanced_of_notMem ho hc).body? []
  rw [List.append_assoc, bodiesOf_of_reads opened (by simp) closed,
    bodiesOf_of_refuses (needs_rootOpening.refuses noBrace)]

/-- A `:root` rule without rules in it gives the declarations of its body. -/
theorem rootDeclarations_rule (ho : '{' ∉ body) (hc : '}' ∉ body) (file : Text) :
    rootDeclarations file (":root \x7b" ++ body ++ "\x7d") = declarations file none body := by
  rw [rootDeclarations, bodiesOf_rootOpening ho hc]
  change (declarations file none body ++ mediaDeclarations file body) ++ [] = _
  rw [mediaDeclarations, bodiesOf_of_refuses (needs_mediaOpening.refuses ho), List.flatMap_nil,
    List.append_nil, List.append_nil]

/-- A `:root` rule without rules in it has no class rules. -/
theorem classDeclarations_rule (ho : '{' ∉ body) (file : Text) :
    classDeclarations file (":root \x7b" ++ body ++ "\x7d") = [] := by
  have dot : Reader.Begins ['.'] classOpening := Reader.begins_char_bind Reader.begins_nil
  have noBrace : '{' ∉ (body ++ "\x7d" : Text) := by simp [ho]
  have refuses : Reader.Refuses classOpening (":root \x7b" ++ (body ++ "\x7d")) [] := by
    rw [Reader.refuses_append]
    exact ⟨dot.refuses_of_notMem (by decide), needs_classOpening.refuses noBrace⟩
  rw [classDeclarations, List.append_assoc, bodiesOf_of_refuses refuses]
  rfl

/-! ## Declarations -/

@[simp] theorem begins_declaration : Reader.Begins ['-', '-'] declaration :=
  ((Reader.begins_literal "--").bind _).bind _

@[simp]
theorem declarations_nil (file : Text) (query : Option Text) : declarations file query [] = [] := by
  rw [declarations, Reader.findEvery_of_refuses Reader.refuses_nil]
  rfl

theorem declarations_append {a b : Text} (h : Reader.Refuses declaration a b) (file : Text)
    (query : Option Text) : declarations file query (a ++ b) = declarations file query b := by
  rw [declarations, Reader.findEvery_append h, declarations]

section
variable {name gap value : Text} (hne : name ≠ [])
  (hname : ∀ c ∈ name, Text.isWordOrHyphen c = true) (hgap : ∀ c ∈ gap, Text.isBlank c = true)
include hne hname hgap

theorem reads_propertyName (s : Text) :
    propertyName ("--" ++ name ++ gap ++ ':' :: s) = some ("--" ++ name, s) := by
  have nameEnds : Reader.Stops Text.isWordOrHyphen (gap ++ ':' :: s) := by
    cases gap with
    | nil => exact Reader.stops_cons.2 (by decide)
    | cons c gap =>
      refine Reader.stops_cons.2 (Bool.eq_false_iff.2 fun hc => ?_)
      have blank := hgap c List.mem_cons_self
      rw [Text.isBlank_of_isWordOrHyphen hc] at blank
      cases blank
  rw [List.append_assoc, List.append_assoc, propertyName,
    Reader.bind_of (Reader.reads_literal _ _),
    Reader.bind_of (Reader.reads_run1 hne hname nameEnds),
    Reader.bind_of (Reader.reads_blanks_append hgap (Reader.stops_cons.2 (by decide))),
    Reader.bind_of (Reader.reads_char ':' s)]
  rfl

/-- A declaration is read as its name and its trimmed value. -/
theorem reads_declaration (hv : value ≠ []) (hs : ';' ∉ value) (rest : Text) :
    declaration (("--" ++ name ++ gap ++ ':' :: (value ++ [';'])) ++ rest) =
      some (("--" ++ name, Text.trim value), rest) := by
  have shape : ("--" ++ name ++ gap ++ ':' :: (value ++ [';'])) ++ rest =
      "--" ++ name ++ gap ++ ':' :: (value ++ ';' :: rest) := by
    simp only [List.append_assoc, List.cons_append, List.nil_append]
  have valueRead : Reader.run1 (· ≠ ';') (value ++ ';' :: rest) = some (value, ';' :: rest) := by
    refine Reader.reads_run1 hv (fun c hc => ?_) (Reader.stops_cons.2 (by decide))
    exact decide_eq_true fun he => hs (he ▸ hc)
  rw [shape, declaration, Reader.bind_of (reads_propertyName hne hname hgap _),
    Reader.bind_of valueRead, Reader.bind_of (Reader.reads_char ';' rest)]
  rfl

end

/-! ## Echoed literals -/

@[simp] theorem begins_echoLiteral : Reader.Begins ['e', 'c', 'h', 'o'] echoLiteral :=
  (Reader.begins_literal "echo").bind _

/-- A blank stands behind the `echo` of a literal. -/
theorem blank_of_echoLiteral (h : echoLiteral s ≠ none) :
    ∃ c, Text.isBlank c = true ∧ ("echo" : Text) ++ [c] <+: s := by
  obtain ⟨r, rfl⟩ : ("echo" : Text) <+: s := begins_echoLiteral s h
  rw [echoLiteral, Reader.bind_of (Reader.reads_literal _ _)] at h
  have blank : ¬ Reader.Stops Text.isBlank r := fun hr =>
    h (Reader.bind_none (Reader.bind_none (Reader.run1_none hr) _) _)
  rcases r with _ | ⟨c, r⟩
  · exact absurd Reader.stops_nil blank
  · refine ⟨c, by simpa using blank, r, ?_⟩
    rw [List.append_assoc, List.singleton_append]

/-- A stretch without an `echo` and a blank behind it echoes nothing before a mark. -/
theorem refuses_echoLiteral {a : Text} {mark : Char} (hb : Text.isBlank mark = false)
    (hm : mark ∉ ("echo" : Text)) (h : ∀ c, Text.isBlank c = true → ¬ ("echo" : Text) ++ [c] <:+: a)
    (b : Text) : Reader.Refuses echoLiteral a (mark :: b) := by
  intro t ht hne
  by_contra hr
  obtain ⟨c, hc, found⟩ := blank_of_echoLiteral hr
  have notIn : mark ∉ ("echo" : Text) ++ [c] := by
    rw [List.mem_append, not_or, List.mem_singleton]
    exact ⟨hm, fun he => by rw [← he, hb] at hc; cases hc⟩
  exact h c hc (((Text.prefix_append_cons notIn).1 found).isInfix.trans ht.isInfix)

end ThemeProps.Stylesheet
