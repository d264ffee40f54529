/-
  Files that a pattern both finds and excludes.

  As a glob a pattern is matched component by component, and to exclude it is
  matched as a whole.

  * `Glob.IsPlain`: a pattern is written as its path is, and no set in it reaches
    over a slash;
  * `Glob.Matches.accepts`: if each `**` of a plain glob passes a directory, what
    it stands for also matches it as a whole;
  * `discover_own_pattern`: what a pattern finds and does not exclude.
-/
import ThemeProps.Proofs.File.FoundSet
import ThemeProps.Proofs.File.Wildcard

namespace ThemeProps

/-! ## Paths as text -/

namespace Path

/-- A relative path with components is its components with slashes between them. -/
theorem toText_relative {names : List Text} (h : names ≠ []) :
    toText ⟨[], names⟩ = Text.join "/" names := by
  obtain ⟨name, names, rfl⟩ := List.exists_cons_of_ne_nil h
  rfl

theorem slash_notMem_of_mem_parts {s part : Text} (h : part ∈ (parse s).parts) : '/' ∉ part :=
  Text.notMem_of_mem_splitAtChar (List.mem_of_mem_filter h)

end Path

namespace Glob

open Wildcard

variable {least : Nat} {s c : Text} {cs names : List Text} {part : GlobPart}
  {glob rest : List GlobPart}

/-! ## Components as patterns -/

theorem parsePart_directories : parsePart s = .ok .directories ↔ s = "**" := by
  rw [parsePart]
  split_ifs <;> simp_all

theorem Matches.not_slash (h : Matches least (glob ++ [.slash]) names) : False := by
  induction glob generalizing names with
  | nil => exact h
  | cons part rest ih =>
    cases part with
    | slash => exact h
    | name s =>
      obtain ⟨more, -, hm⟩ := h
      exact ih hm
    | wildcard ws =>
      obtain ⟨name, more, -, -, -, hm⟩ := h
      exact ih hm
    | directories =>
      obtain ⟨passed, more, -, -, -, -, hm⟩ := h
      exact ih hm

theorem accepts_doubleStar (s : Text) : Wildcard.accepts (Wildcard.parse "**") s = true := by
  have parsed : Wildcard.parse "**" = [anyText, anyText] := by decide +kernel
  have nothing : Wildcard.accepts [anyText] [] = true := by decide
  rw [parsed]
  exact accepts_anyText.2 ⟨[], List.nil_suffix, nothing⟩

/-- The names that the first component stands for, with slashes between them, match it as a
pattern. -/
theorem Matches.first (h : Matches 1 (part :: rest) names) (hc : parsePart c = .ok part) :
    ∃ front more, names = front ++ more ∧ front ≠ [] ∧
      Wildcard.accepts (Wildcard.parse c) (Text.join "/" front) = true ∧ Matches 1 rest more := by
  rw [parsePart] at hc
  split_ifs at hc with double _ wild
  · obtain rfl := Except.ok.inj hc
    obtain ⟨passed, more, rfl, -, some, -, hm⟩ := h
    refine ⟨passed, more, rfl, List.length_pos_iff.1 some, ?_, hm⟩
    rw [double]
    exact accepts_doubleStar _
  · obtain rfl := Except.ok.inj hc
    obtain ⟨name, more, rfl, -, accepted, hm⟩ := h
    exact ⟨[name], more, rfl, List.cons_ne_nil _ _, accepted, hm⟩
  · obtain rfl := Except.ok.inj hc
    obtain ⟨more, rfl, hm⟩ := h
    refine ⟨[c], more, rfl, List.cons_ne_nil _ _, accepts_parse_self fun d hd => ?_, hm⟩
    simp only [List.any_eq_true, not_exists, not_and, Bool.or_eq_true, beq_iff_eq, not_or] at wild
    obtain ⟨⟨noStar, noMark⟩, noBracket⟩ := wild d hd
    exact ⟨noStar, noMark, noBracket⟩

/-- If only the last component of a glob may be `**`, all of them pass a directory. -/
theorem Matches.passing (h : Matches 0 glob names)
    (written : List.Forall₂ (fun c part => parsePart c = .ok part) cs glob)
    (inner : ("**" : Text) ∉ cs.dropLast) : Matches 1 glob names := by
  induction written generalizing names with
  | nil => exact h
  | @cons c part cs rest hc hrest ih =>
    have further : ("**" : Text) ∉ cs.dropLast := fun hm => inner (by
      rw [List.dropLast_cons_of_ne_nil (by rintro rfl; cases hm)]
      exact List.mem_cons_of_mem _ hm)
    cases part with
    | slash => exact h
    | name s =>
      obtain ⟨more, he, hm⟩ := h
      exact ⟨more, he, ih hm further⟩
    | wildcard ws =>
      obtain ⟨name, more, he, plain, accepted, hm⟩ := h
      exact ⟨name, more, he, plain, accepted, ih hm further⟩
    | directories =>
      obtain ⟨passed, more, he, dots, -, behind, hm⟩ := h
      obtain rfl := parsePart_directories.1 hc
      cases hrest with
      | nil => exact absurd hm behind
      | cons => exact absurd List.mem_cons_self inner

/-! ## Plain patterns -/

/-- The pattern is written as its path is, and no set in it reaches over a slash. -/
def IsPlain (pattern : Text) : Prop :=
  (Path.parse pattern).toText = pattern ∧ ∀ t ∈ setTexts pattern, '/' ∉ t

instance (pattern : Text) : Decidable (IsPlain pattern) := inferInstanceAs (Decidable (_ ∧ _))

theorem join_cons_slash (c : Text) (hne : cs ≠ []) :
    Text.join "/" (c :: cs) = c ++ '/' :: Text.join "/" cs := by
  rw [Text.join_cons _ _ hne, List.append_assoc]
  rfl

/-- If each `**` passes a directory, the names that a glob stands for match it as a whole. -/
theorem Matches.accepts (h : Matches 1 glob names)
    (written : List.Forall₂ (fun c part => parsePart c = .ok part) cs glob) (hne : cs ≠ [])
    (noSlash : ∀ c ∈ cs, '/' ∉ c) (closed : ∀ t ∈ setTexts (Text.join "/" cs), '/' ∉ t) :
    Wildcard.accepts (Wildcard.parse (Text.join "/" cs)) (Text.join "/" names) = true := by
  induction written generalizing names with
  | nil => exact absurd rfl hne
  | @cons c part cs rest hc hrest ih =>
    obtain ⟨front, more, rfl, hf, accepted, hm⟩ := h.first hc
    rw [List.forall_mem_cons] at noSlash
    rcases eq_or_ne cs [] with rfl | hcs
    · cases hrest
      obtain rfl : more = [] := hm
      rw [List.append_nil]
      exact accepted
    · have hrest : rest ≠ [] := by
        rintro rfl
        cases hrest
        exact hcs rfl
      rw [join_cons_slash c hcs] at closed ⊢
      rw [Text.join_append _ hf (hm.ne_nil hrest), List.append_assoc]
      have further := (parse_append_slash noSlash.1 closed).2
      refine accepts_append_slash noSlash.1 closed accepted (ih hm hcs noSlash.2 fun t ht => ?_)
      exact closed t (further ▸ List.mem_append_right _ ht)

/-- A `**` that a pattern begins with may also pass no directory. -/
theorem Matches.matchesWhole (written : List.Forall₂ (fun c part => parsePart c = .ok part) cs glob)
    (matched : Matches 1 glob names ∨ ∃ rest, glob = .directories :: rest ∧ Matches 1 rest names)
    (hne : names ≠ []) (hcs : cs ≠ []) (noSlash : ∀ c ∈ cs, '/' ∉ c)
    (closed : ∀ t ∈ setTexts (Text.join "/" cs), '/' ∉ t) :
    ThemeProps.matchesWhole (Text.join "/" names) (Text.join "/" cs) = true := by
  rw [ThemeProps.matchesWhole, Bool.or_eq_true]
  rcases matched with hm | ⟨rest, rfl, hm⟩
  · exact .inl (hm.accepts written hcs noSlash closed)
  · right
    obtain ⟨c, cs, hc, hrest, rfl⟩ := List.forall₂_cons_right_iff.1 written
    obtain rfl := parsePart_directories.1 hc
    have hcs : cs ≠ [] := by
      rintro rfl
      cases hrest
      exact hne hm
    rw [List.forall_mem_cons] at noSlash
    rw [join_cons_slash _ hcs] at closed ⊢
    have further := (parse_append_slash noSlash.1 closed).2
    exact hm.accepts hrest hcs noSlash.2 fun t ht => closed t (further ▸ List.mem_append_right _ ht)

/-- The names match a plain pattern as a whole if they match its glob with a directory for each
`**` behind the first component. -/
theorem IsPlain.matchesWhole {candidate : Text} (plain : IsPlain candidate)
    (h : Glob.parse candidate = .ok glob) (hne : names ≠ [])
    (matched : Matches 1 glob names ∨ ∃ rest, glob = .directories :: rest ∧ Matches 1 rest names) :
    ThemeProps.matchesWhole (Path.toText ⟨[], names⟩) candidate = true := by
  obtain ⟨relative, parts, written, hparts, rfl⟩ := parse_eq_ok h
  split_ifs at matched with slash
  · rcases matched with hm | ⟨rest, he, hm⟩
    · exact hm.not_slash.elim
    · obtain ⟨part, parts, rfl⟩ := List.exists_cons_of_ne_nil hparts
      obtain ⟨-, rfl⟩ := List.cons.inj he
      exact hm.not_slash.elim
  · have hcs : (Path.parse candidate).parts ≠ [] := by
      intro he
      rw [he] at written
      cases written
      exact hparts rfl
    have noSlash : ∀ c ∈ (Path.parse candidate).parts, '/' ∉ c :=
      fun c hc => Path.slash_notMem_of_mem_parts hc
    obtain ⟨normal, closed⟩ := plain
    have joined : candidate = Text.join "/" (Path.parse candidate).parts := by
      rw [← Path.toText_relative hcs, ← relative]
      exact normal.symm
    rw [Path.toText_relative hne]
    generalize (Path.parse candidate).parts = cs at *
    subst joined
    exact Matches.matchesWhole written matched hne hcs noSlash closed

/-- If only the first and the last component may be `**`, each `**` behind the first component
passes a directory. -/
theorem Matches.behind_first (h : Matches 0 glob names)
    (written : List.Forall₂ (fun c part => parsePart c = .ok part) cs glob)
    (inner : ("**" : Text) ∉ cs.tail.dropLast) :
    Matches 1 glob names ∨ ∃ rest, glob = .directories :: rest ∧ Matches 1 rest names := by
  cases written with
  | nil => exact .inl h
  | @cons c part cs rest hc hrest =>
    cases part with
    | slash => exact .inl h
    | name s =>
      obtain ⟨more, he, hm⟩ := h
      exact .inl ⟨more, he, hm.passing hrest inner⟩
    | wildcard ws =>
      obtain ⟨name, more, he, plain, accepted, hm⟩ := h
      exact .inl ⟨name, more, he, plain, accepted, hm.passing hrest inner⟩
    | directories =>
      obtain ⟨passed, more, rfl, dots, -, behind, hm⟩ := h
      have further := hm.passing hrest inner
      rcases eq_or_ne passed [] with rfl | hne
      · exact .inr ⟨rest, rfl, further⟩
      · exact .inl ⟨passed, more, rfl, dots, List.length_pos_iff.2 hne, behind, further⟩

end Glob

/-! ## Files that are found and not excluded -/

variable {tree : Node} {root : Path} {pattern : Text} {paths : List Path}

/-- **What a pattern finds and does not exclude.** No such file is found by a plain glob that the
pattern is written out to with a directory for each `**`, nor with a directory for each but the one
that the glob begins with. In particular there is no such file if all these globs are plain and
have `**` only as the first or as the last component; the empty one and those that end in a slash
find no file in any case. -/
theorem discover_own_pattern (sound : tree.Sound)
    (h : discover tree root [pattern] [pattern] = .ok paths) :
    (∀ names, root ++ ⟨[], names⟩ ∈ paths →
      ∀ candidate ∈ expandBraces pattern, Glob.IsPlain candidate →
        ∀ glob, Glob.parse candidate = .ok glob →
          ¬ Glob.Matches 1 glob names ∧
          ∀ rest, glob = .directories :: rest → ¬ Glob.Matches 1 rest names) ∧
    ((∀ candidate ∈ expandBraces pattern, candidate ≠ [] → candidate.getLast? ≠ some '/' →
        Glob.IsPlain candidate ∧ ("**" : Text) ∉ (Path.parse candidate).parts.tail.dropLast) →
      paths = []) := by
  have left {names : List Text} (hm : root ++ ⟨[], names⟩ ∈ paths) : names ≠ [] ∧
      (∃ candidate ∈ expandBraces pattern, ∃ glob,
        Glob.parse candidate = .ok glob ∧ Glob.Matches 0 glob names) ∧
      ∀ candidate ∈ expandBraces pattern,
        matchesWhole (Path.toText ⟨[], names⟩) candidate = false := by
    obtain ⟨names', he, -, ⟨candidate, hc, glob, parsed, matched⟩, kept⟩ :=
      isFound_iff.1 ((mem_discover_iff h sound).1 hm)
    obtain rfl : names = names' := List.append_cancel_left (congrArg Path.parts he)
    rw [List.flatMap_singleton] at hc kept
    exact ⟨matched.ne_nil (Glob.parse_ne_nil parsed), ⟨candidate, hc, glob, parsed, matched⟩, kept⟩
  refine ⟨fun names hm candidate hc plain glob parsed => ?_, fun shape => ?_⟩
  · obtain ⟨hne, -, kept⟩ := left hm
    have unmatched := Bool.eq_false_iff.1 (kept candidate hc)
    exact ⟨fun matched => unmatched (plain.matchesWhole parsed hne (.inl matched)),
      fun rest he matched => unmatched (plain.matchesWhole parsed hne (.inr ⟨rest, he, matched⟩))⟩
  · refine List.eq_nil_iff_forall_not_mem.2 fun path hp => ?_
    obtain ⟨names, rfl, -⟩ := (mem_discover_iff h sound).1 hp
    obtain ⟨hne, ⟨candidate, hc, glob, parsed, matched⟩, kept⟩ := left hp
    obtain ⟨-, parts, written, -, rfl⟩ := Glob.parse_eq_ok parsed
    split_ifs at matched parsed with slash
    · exact matched.not_slash
    · have some : candidate ≠ [] := by
        rintro rfl
        cases parsed
      obtain ⟨plain, inner⟩ := shape candidate hc some slash
      have excluded := plain.matchesWhole parsed hne (matched.behind_first written inner)
      rw [kept candidate hc] at excluded
      cases excluded

/-- Assets, some of them under names with brackets. -/
def bracketedAssets : Node :=
  .directory [("t", .directory [
    ("a", .directory [("b.css", .file []), ("c", .directory [("b.css", .file [])])]),
    ("a[b", .directory [("c]d", .file [])]),
    ("r.css", .file [])])]

/-- To exclude a path with an inner `**`, the pattern needs a directory for it; a pattern that only
begins with `**` excludes each of the files that it finds. -/
theorem discover_own_pattern_inner : bracketedAssets.Sound ∧
    discover bracketedAssets ⟨[], ["t"]⟩ ["a/**/b.css"] ["a/**/b.css"] =
      .ok [⟨[], ["t", "a", "b.css"]⟩] ∧
    ¬ Glob.Matches 1 [.name "a", .directories, .name "b.css"] ["a", "b.css"] ∧
    discover bracketedAssets ⟨[], ["t"]⟩ ["**/\x7bb,r\x7d.css"] [] =
      .ok [⟨[], ["t", "a", "b.css"]⟩, ⟨[], ["t", "a", "c", "b.css"]⟩, ⟨[], ["t", "r.css"]⟩] ∧
    ∀ paths, discover bracketedAssets ⟨[], ["t"]⟩ ["**/\x7bb,r\x7d.css"] ["**/\x7bb,r\x7d.css"] =
      .ok paths → paths = [] := by
  have sound : bracketedAssets.Sound := by decide +kernel
  have found : discover bracketedAssets ⟨[], ["t"]⟩ ["a/**/b.css"] ["a/**/b.css"] =
      .ok [⟨[], ["t", "a", "b.css"]⟩] := by cbv
  have kept : discover bracketedAssets ⟨[], ["t"]⟩ ["**/\x7bb,r\x7d.css"] [] =
      .ok [⟨[], ["t", "a", "b.css"]⟩, ⟨[], ["t", "a", "c", "b.css"]⟩, ⟨[], ["t", "r.css"]⟩] := by
    cbv
  refine ⟨sound, found, ?_, kept, fun paths h => ?_⟩
  · exact ((discover_own_pattern sound found).1 ["a", "b.css"] List.mem_cons_self "a/**/b.css"
      (by decide +kernel) (by decide +kernel) _ rfl).1
  · exact (discover_own_pattern sound h).2 (by decide +kernel)

/-- A pattern can find files that it does not exclude: where an inner `**` stands for no directory,
where the pattern is not written as its path is, and where a set reaches over a slash. -/
theorem discover_own_pattern_left :
    discover bracketedAssets ⟨[], ["t"]⟩ ["a/**/b.css"] ["a/**/b.css"] =
      .ok [⟨[], ["t", "a", "b.css"]⟩] ∧
    discover bracketedAssets ⟨[], ["t"]⟩ ["./r.css"] ["./r.css"] = .ok [⟨[], ["t", "r.css"]⟩] ∧
    discover bracketedAssets ⟨[], ["t"]⟩ ["a[b/c]d"] ["a[b/c]d"] =
      .ok [⟨[], ["t", "a[b", "c]d"]⟩] := by
  refine ⟨?_, ?_, ?_⟩ <;> cbv

end ThemeProps
