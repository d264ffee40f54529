/-
  Well-formed registries.

  * `Text.Trimmed`, `IsPropertyName`, `IsPropertyValue` and `IsMediaQuery` say how
    the texts of an entry look;
  * `Declaration.Sound file d`: the texts of a declaration look so, and it is made
    in the given file. `sound_of_mem_ofStylesheet`: whatever the text, its echoed
    literals, its `:root` rules with their media rules and its class rules make
    such declarations only;
  * `wellFormed_declareAll`: a registry of such declarations has well-formed
    entries;
  * `scanSources_wellFormed`: so does every scan, and each entry names the first
    file that declares it.
-/
import ThemeProps.Proofs.Registry.History
import ThemeProps.Proofs.Scan.Selectors
import ThemeProps.Proofs.Stylesheet.Rule

namespace ThemeProps

/-! ## Trimmed texts -/

namespace Text

/-- No blank stands at either end of the text. -/
structure Trimmed (s : Text) : Prop where
  first : ∀ c ∈ s.head?, isBlank c = false
  last : ∀ c ∈ s.getLast?, isBlank c = false

theorem trimmed_trim (s : Text) : Trimmed (trim s) := by
  have start : trim s <+: trimStart s := by
    rw [trim, trimEnd, ← List.reverse_suffix, List.reverse_reverse]
    exact List.dropWhile_suffix _
  refine ⟨fun c hc => ?_, fun c hc => ?_⟩
  · obtain ⟨t, ht⟩ := List.head?_eq_some_iff.1 hc
    rw [ht] at start
    obtain ⟨r, hr⟩ := start
    have stops : Reader.Stops isBlank (trimStart s) := Reader.stops_dropWhile
    exact stops c (by rw [← hr]; rfl)
  · rw [trim, trimEnd, List.getLast?_reverse] at hc
    exact Reader.stops_dropWhile c hc

end Text

/-! ## Texts of an entry -/

/-- Two hyphens with word characters and hyphens behind them, at least one. -/
def IsPropertyName (name : Text) : Prop :=
  ∃ word, name = "--" ++ word ∧ word ≠ [] ∧ ∀ c ∈ word, Text.isWordOrHyphen c = true

/-- A trimmed text without semicolons. -/
def IsPropertyValue (value : Text) : Prop := value.Trimmed ∧ ';' ∉ value

/-- A trimmed text without opening braces, which is not empty. -/
def IsMediaQuery (query : Text) : Prop := query ≠ [] ∧ query.Trimmed ∧ '{' ∉ query

/-- The texts of the entry look as they should. -/
structure Entry.WellFormed (e : Entry) : Prop where
  name : IsPropertyName e.name
  value : IsPropertyValue e.value
  media : ∀ variant ∈ e.media, IsMediaQuery variant.query ∧ IsPropertyValue variant.value

/-- The declaration is made in the file, and its texts look as they should; its query may be
empty. -/
structure Declaration.Sound (file : Text) (d : Declaration) : Prop where
  name : IsPropertyName d.name
  value : IsPropertyValue d.value
  query : ∀ query ∈ d.query, query.Trimmed ∧ '{' ∉ query
  sourceFile : d.sourceFile = file

/-! ## Declarations that are read -/

namespace Stylesheet

open Reader (Yields)

theorem yields_propertyName : Yields IsPropertyName propertyName := by
  intro s name r read
  obtain ⟨_, s₁, -, read⟩ := Reader.bind_eq_some.1 read
  obtain ⟨word, s₂, readWord, read⟩ := Reader.bind_eq_some.1 read
  obtain ⟨_, s₃, -, read⟩ := Reader.bind_eq_some.1 read
  obtain ⟨_, s₄, -, read⟩ := Reader.bind_eq_some.1 read
  obtain ⟨rfl, -⟩ := Prod.mk.inj (Option.some.inj read)
  obtain ⟨-, nonempty, letters⟩ := Reader.run1_eq_some readWord
  exact ⟨word, rfl, nonempty, letters⟩

/-- A run up to a mark does not have the mark. -/
theorem yields_run1_ne (mark : Char) : Yields (mark ∉ ·) (Reader.run1 (· ≠ mark)) := by
  intro s w r read hm
  obtain ⟨-, -, others⟩ := Reader.run1_eq_some read
  simpa using others mark hm

theorem isPropertyValue_trim {s : Text} (h : ';' ∉ s) : IsPropertyValue (Text.trim s) :=
  ⟨Text.trimmed_trim s, fun hm => h ((Text.isInfix_trim s).subset hm)⟩

theorem yields_declaration :
    Yields (fun d => IsPropertyName d.1 ∧ IsPropertyValue d.2) declaration := by
  refine yields_propertyName.bind fun name hn => (yields_run1_ne ';').bind fun value hv => ?_
  refine (Reader.yields_any _).bind fun _ _ => Reader.yields_pure ?_
  exact ⟨hn, isPropertyValue_trim hv⟩

theorem leaves_interpolation : Reader.Leaves interpolation :=
  (Reader.leaves_char _).bind fun _ => (Reader.leaves_run1 _).bind fun _ => Reader.leaves_char _

/-- A value with dots for the names in brackets. -/
abbrev dotted (value : Text) : Text := Reader.replaceEvery interpolation (fun _ => "...") value

theorem head?_dotted (value : Text) :
    ∀ c ∈ (dotted value).head?, c = '.' ∨ c ∈ value.head? := by
  refine Reader.replaceEvery_induction
    (R := fun s t => ∀ c ∈ t.head?, c = '.' ∨ c ∈ s.head?) leaves_interpolation ?_ ?_ ?_ value
  · exact fun c hc => .inr hc
  · exact fun _ _ _ _ c hc => .inr hc
  · exact fun _ _ _ _ _ _ c hc => .inl (Option.some.inj hc).symm

theorem getLast?_dotted (value : Text) :
    ∀ c ∈ (dotted value).getLast?, c = '.' ∨ c ∈ value.getLast? := by
  have behindDot {c : Char} {s : Text} (hc : c ∈ ('.' :: s).getLast?) :
      c = '.' ∨ c ∈ s.getLast? := by
    cases s with
    | nil => exact .inl (Option.some.inj hc).symm
    | cons x s => exact .inr (by rwa [List.getLast?_cons_cons] at hc)
  -- with a character in front, so that no text is empty
  have behind : ∀ d, ∀ c ∈ (d :: dotted value).getLast?, c = '.' ∨ c ∈ (d :: value).getLast? := by
    refine Reader.replaceEvery_induction (R := fun s t => ∀ d, ∀ c ∈ (d :: t).getLast?,
      c = '.' ∨ c ∈ (d :: s).getLast?) leaves_interpolation ?_ ?_ ?_ value
    · exact fun d c hc => .inr hc
    · intro x s _ ih d c hc
      rw [List.getLast?_cons_cons] at hc ⊢
      exact ih x c hc
    · intro w v s _ _ ih d c hc
      change c ∈ (d :: '.' :: '.' :: '.' :: dotted s).getLast? at hc
      simp only [List.getLast?_cons_cons] at hc
      refine (ih '.' c hc).elim .inl fun hs => (behindDot hs).imp_right fun hs => ?_
      rw [← List.cons_append, List.getLast?_append, Option.mem_def.1 hs]
      rfl
  intro c hc
  refine (behind '.' c ?_).elim .inl behindDot
  rw [List.getLast?_cons]
  exact Option.mem_some.2 (by rw [hc]; rfl)

/-- Dots at its ends leave a value as it should look. -/
theorem isPropertyValue_dotted {value : Text} (h : IsPropertyValue value) :
    IsPropertyValue (dotted value) := by
  obtain ⟨⟨first, last⟩, noSemicolon⟩ := h
  have dot : Text.isBlank '.' = false := by decide
  refine ⟨⟨fun c hc => ?_, fun c hc => ?_⟩, fun hm => ?_⟩
  · rcases head?_dotted value c hc with rfl | hc
    · exact dot
    · exact first c hc
  · rcases getLast?_dotted value c hc with rfl | hc
    · exact dot
    · exact last c hc
  · rcases Reader.mem_replaceEvery leaves_interpolation value hm with hm | ⟨-, hm⟩
    · exact noSemicolon hm
    · exact absurd hm (by decide)

theorem yields_echoedProperty :
    Yields (fun d => IsPropertyName d.1 ∧ IsPropertyValue d.2) echoedProperty := by
  refine yields_propertyName.bind fun name hn => (yields_run1_ne ';').bind fun value hv => ?_
  exact Reader.yields_pure ⟨hn, isPropertyValue_dotted (isPropertyValue_trim hv)⟩

theorem yields_mediaOpening : Yields (fun query => query.Trimmed ∧ '{' ∉ query) mediaOpening := by
  refine (Reader.yields_any _).bind fun _ _ => (yields_run1_ne '{').bind fun query hq => ?_
  refine (Reader.yields_any _).bind fun _ _ => Reader.yields_pure ?_
  exact ⟨Text.trimmed_trim query, fun hm => hq ((Text.isInfix_trim query).subset hm)⟩

/-- The rules that are found have openings as the reader gives them. -/
theorem yields_bodiesOf {α : Type} {p : α → Prop} {opening : Reader α} (h : Yields p opening)
    {s body : Text} {v : α} (hv : (v, body) ∈ bodiesOf opening s) : p v := by
  obtain ⟨⟨u, behind⟩, found, he⟩ := List.mem_filterMap.1 hv
  obtain ⟨_, -, same⟩ := Option.map_eq_some_iff.1 he
  obtain ⟨rfl, -⟩ := Prod.mk.inj same
  have both : Yields (fun found : α × Text => p found.1)
      (do let a ← opening; return (a, ← get)) :=
    h.bind fun a ha => (Reader.yields_any _).bind fun _ _ => Reader.yields_pure ha
  exact both.of_mem_findEvery found

/-! ## Declarations of a stylesheet -/

variable {file s : Text} {d : Declaration}

theorem sound_of_mem_declarations {query : Option Text} (h : d ∈ declarations file query s)
    (hq : ∀ q ∈ query, q.Trimmed ∧ '{' ∉ q) : d.Sound file := by
  obtain ⟨⟨name, value⟩, found, rfl⟩ := List.mem_map.1 h
  obtain ⟨hn, hv⟩ := yields_declaration.of_mem_findEvery found
  exact ⟨hn, hv, hq, rfl⟩

theorem sound_of_mem_mediaDeclarations (h : d ∈ mediaDeclarations file s) : d.Sound file := by
  obtain ⟨⟨query, body⟩, rule, h⟩ := List.mem_flatMap.1 h
  refine sound_of_mem_declarations h fun q hq => ?_
  obtain rfl : query = q := Option.some.inj hq
  exact yields_bodiesOf yields_mediaOpening rule

theorem sound_of_mem_rootDeclarations (h : d ∈ rootDeclarations file s) : d.Sound file := by
  obtain ⟨⟨_, body⟩, -, h⟩ := List.mem_flatMap.1 h
  rcases List.mem_append.1 h with h | h
  · exact sound_of_mem_declarations h nofun
  · exact sound_of_mem_mediaDeclarations h

theorem sound_of_mem_classDeclarations (h : d ∈ classDeclarations file s) : d.Sound file := by
  obtain ⟨⟨_, body⟩, -, h⟩ := List.mem_flatMap.1 h
  obtain ⟨line, -, h⟩ := List.mem_flatMap.1 h
  exact sound_of_mem_declarations h nofun

theorem sound_of_mem_echoDeclarations (h : d ∈ echoDeclarations file s) : d.Sound file := by
  obtain ⟨literal, -, h⟩ := List.mem_flatMap.1 h
  obtain ⟨⟨name, value⟩, found, rfl⟩ := List.mem_map.1 h
  obtain ⟨hn, hv⟩ := yields_echoedProperty.of_mem_findEvery found
  exact ⟨hn, hv, nofun, rfl⟩

end Stylesheet

namespace Extraction

open Stylesheet in
/-- Whatever a plain stylesheet says, it makes sound declarations only. -/
theorem sound_of_mem_ofStylesheet {onlyRoot : Bool} {file css : Text} {d : Declaration}
    (h : d ∈ ofStylesheet onlyRoot file css) : d.Sound file := by
  rw [ofStylesheet] at h
  split_ifs at h
  · rw [List.append_nil] at h
    rcases List.mem_append.1 h with h | h
    · exact sound_of_mem_echoDeclarations h
    · exact sound_of_mem_rootDeclarations h
  · rcases List.mem_append.1 h with h | h
    · rcases List.mem_append.1 h with h | h
      · exact sound_of_mem_echoDeclarations h
      · exact sound_of_mem_rootDeclarations h
    · exact sound_of_mem_classDeclarations h
  · cases h

/-- A file makes sound declarations, and makes them in its own name. -/
theorem sound_of_mem_ofSource {store : Store} {onlyRoot : Bool} {source : Source} {d : Declaration}
    (ok : (ofSource store onlyRoot source).failure = none)
    (h : d ∈ (ofSource store onlyRoot source).declarations) : d.Sound source.path := by
  rw [declarations_ofSource ok] at h
  obtain ⟨css, -, h⟩ := List.mem_flatMap.1 h
  exact sound_of_mem_ofStylesheet h

end Extraction

/-! ## Registries -/

/-- The variants of a sound declaration look as they should: an empty query makes none. -/
theorem Declaration.Sound.variants {file : Text} {d : Declaration} (h : d.Sound file) :
    ∀ variant ∈ d.variants, IsMediaQuery variant.query ∧ IsPropertyValue variant.value := by
  intro variant hm
  rw [Declaration.variants] at hm
  split at hm
  · cases hm
  · cases hm
  · next query notEmpty hq =>
    obtain rfl := List.mem_singleton.1 hm
    exact ⟨⟨notEmpty, h.query query hq⟩, h.value⟩

/-- Sound declarations are recorded as well-formed entries. -/
theorem wellFormed_recorded {ds : List Declaration} (h : ∀ d ∈ ds, ∃ file, d.Sound file)
    {d : Declaration} (hd : d ∈ ds) : (d.recorded ds).WellFormed := by
  obtain ⟨file, sound⟩ := h d hd
  refine ⟨sound.name, sound.value, fun variant hm => ?_⟩
  obtain ⟨d', hd', hm⟩ := List.mem_flatMap.1 hm
  obtain ⟨file', sound'⟩ := h d' (List.mem_of_mem_filter hd')
  exact sound'.variants variant hm

/-- Sound declarations make a registry of well-formed entries. -/
theorem wellFormed_declareAll {ds : List Declaration} (h : ∀ d ∈ ds, ∃ file, d.Sound file) :
    ∀ e ∈ (Registry.declareAll {} ds).entries, e.WellFormed := by
  intro e he
  rw [Registry.entries_declareAll] at he
  obtain ⟨d, hd, rfl⟩ := List.mem_map.1 he
  obtain ⟨name, -, found⟩ := List.mem_filterMap.1 hd
  exact wellFormed_recorded h (List.mem_of_find?_eq_some found)

/-! ## Scans -/

section
variable {store : Store} {onlyRoot : Bool} {sources : List Source} {r : Registry}

/-- A file that can be scanned gives, alone, the registry of its declarations. -/
theorem scanSources_single {source : Source}
    (ok : (Extraction.ofSource store onlyRoot source).failure = none) :
    scanSources store onlyRoot [source] =
      .ok (Registry.declareAll {} (Extraction.ofSource store onlyRoot source).declarations) := by
  have alone : Extraction.ofSources store onlyRoot [source] =
      { declarations := (Extraction.ofSource store onlyRoot source).declarations } := by
    rw [Extraction.ofSources, List.map_singleton, Extraction.all, Extraction.andThen, ok]
    simp only [Extraction.all, List.append_nil]
  rw [scanSources, alone]

/-- **Every registry of a scan is well formed**: no two entries have one name, the texts of each
entry look as they should, and its file is the first one whose own scan gives its name. -/
theorem scanSources_wellFormed (h : scanSources store onlyRoot sources = .ok r) :
    r.names.Nodup ∧ ∀ e ∈ r.entries, e.WellFormed ∧
      ∃ before source after, sources = before ++ source :: after ∧ e.sourceFile = source.path ∧
        (∃ alone, scanSources store onlyRoot [source] = .ok alone ∧ e.name ∈ alone.names) ∧
        ∀ earlier ∈ before,
          ∃ alone, scanSources store onlyRoot [earlier] = .ok alone ∧ e.name ∉ alone.names := by
  obtain ⟨ok, rfl⟩ := scanSources_eq_ok.1 h
  obtain ⟨each, found⟩ := Extraction.all_map_ok ok
  have all : (Extraction.ofSources store onlyRoot sources).declarations =
      sources.flatMap (fun source => (Extraction.ofSource store onlyRoot source).declarations) :=
    found
  have sound : ∀ d ∈ (Extraction.ofSources store onlyRoot sources).declarations,
      ∃ file, d.Sound file := by
    intro d hd
    rw [all] at hd
    obtain ⟨source, hs, hd⟩ := List.mem_flatMap.1 hd
    exact ⟨source.path, Extraction.sound_of_mem_ofSource (each source hs) hd⟩
  refine ⟨Registry.nodup_names_declareAll _, fun e he => ⟨wellFormed_declareAll sound e he, ?_⟩⟩
  rw [Registry.entries_declareAll] at he
  obtain ⟨d, hd, rfl⟩ := List.mem_map.1 he
  obtain ⟨name, -, first⟩ := List.mem_filterMap.1 hd
  obtain rfl : d.name = name := by simpa using List.find?_some first
  rw [all, List.find?_flatMap, List.findSome?_eq_some_iff] at first
  obtain ⟨before, source, after, rfl, here, notBefore⟩ := first
  have hsource : source ∈ before ++ source :: after := by simp
  have made := List.mem_of_find?_eq_some here
  refine ⟨before, source, after, rfl, ?_, ⟨_, scanSources_single (each source hsource), ?_⟩, ?_⟩
  · exact (Extraction.sound_of_mem_ofSource (each source hsource) made).sourceFile
  · exact Registry.mem_names_declareAll.2 ⟨d, made, rfl⟩
  · intro earlier he
    refine ⟨_, scanSources_single (each earlier (by simp [he])), fun hm => ?_⟩
    obtain ⟨d', hd', same⟩ := Registry.mem_names_declareAll.1 hm
    exact List.find?_eq_none.1 (notBefore earlier he) d' hd' (beq_iff_eq.2 same)

/-- The name `--a` is declared by the second file, in a media query, and by the third one. -/
theorem scanSources_wellFormed_three_files :
    let a : Source := ⟨"a.liquid", "<style>:root \x7b --b: 1px; \x7d</style>"⟩
    let b : Source :=
      ⟨"b.liquid", "<style>:root \x7b @media ( x ) \x7b --a : 2px ; \x7d \x7d</style>"⟩
    let c : Source := ⟨"c.liquid", "<style>:root \x7b --a: 3px; \x7d</style>"⟩
    let e : Entry := ⟨"--a", "2px", "b.liquid", [⟨"( x )", "2px"⟩]⟩
    ∃ r, scanSources {} true [a, b, c] = .ok r ∧ r.names.Nodup ∧ e ∈ r.entries ∧ e.WellFormed ∧
      ∃ alone, scanSources {} true [a] = .ok alone ∧ e.name ∉ alone.names := by
  intro a b c e
  have scanned : scanSources {} true [a, b, c] =
      .ok ⟨[⟨"--b", "1px", "a.liquid", []⟩, e]⟩ := by decide +kernel
  obtain ⟨distinct, all⟩ := scanSources_wellFormed scanned
  have he : e ∈ [⟨"--b", "1px", "a.liquid", []⟩, e] := by decide
  obtain ⟨wellFormed, before, source, after, parts, file, -, notBefore⟩ := all e he
  refine ⟨_, scanned, distinct, he, wellFormed, notBefore a ?_⟩
  -- the file is not the first one, whose path is another
  cases before with
  | nil =>
    obtain ⟨rfl, -⟩ := List.cons.inj parts
    exact absurd file (by decide)
  | cons earlier before => rw [(List.cons.inj parts).1]; exact List.mem_cons_self

end

end ThemeProps
