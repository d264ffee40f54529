/-
  Scanning some files and then others.

  * `Extraction.ofSources_append`: what is found in some files and then others is
    found in the ones and then in the others, up to the first failure;
  * `scanSources_append_ok`: so the registry of all the files is that of the first
    ones, extended by that of the others, and what an earlier file declares
    counts.
-/
import ThemeProps.Extraction
import ThemeProps.Proofs.Registry.Merge

namespace ThemeProps

/-! ## Extractions one after the other -/

namespace Extraction

theorem andThen_assoc (a b c : Extraction) :
    (a.andThen b).andThen c = a.andThen (b.andThen c) := by
  rcases a with ⟨ds, _ | e⟩
  · rcases b with ⟨ds', _ | e'⟩
    · simp only [andThen, List.append_assoc]
    · rfl
  · rfl

theorem all_append (xs ys : List Extraction) : all (xs ++ ys) = (all xs).andThen (all ys) := by
  induction xs with
  | nil => rfl
  | cons x xs ih => rw [List.cons_append, all, ih, all, andThen_assoc]

/-- Some files and then others. -/
theorem ofSources_append (store : Store) (onlyRoot : Bool) (sources more : List Source) :
    ofSources store onlyRoot (sources ++ more) =
      (ofSources store onlyRoot sources).andThen (ofSources store onlyRoot more) := by
  rw [ofSources, List.map_append, all_append]
  rfl

end Extraction

/-! ## Registries of files -/

variable {store : Store} {onlyRoot : Bool} {sources more : List Source} {r r₁ r₂ : Registry}

/-- A scan succeeds if nothing goes wrong in the files, and then registers what it finds. -/
theorem scanSources_eq_ok : scanSources store onlyRoot sources = .ok r ↔
    (Extraction.ofSources store onlyRoot sources).failure = none ∧
      Registry.declareAll {} (Extraction.ofSources store onlyRoot sources).declarations = r := by
  rw [scanSources]
  cases (Extraction.ofSources store onlyRoot sources).failure <;> simp

/-- **Scanning some files and then others** merges the two registries: the names of the first one
come first, in their order, and behind them the names that are new in the second one; each name has
its entry in the first registry if there is one and else that in the second, and the variants of
both. So the first registry is kept but for variants that are added at the end. -/
theorem scanSources_append_ok (h₁ : scanSources store onlyRoot sources = .ok r₁)
    (h₂ : scanSources store onlyRoot more = .ok r₂) :
    ∃ r, scanSources store onlyRoot (sources ++ more) = .ok r ∧
      r.names = r₁.names ++ r₂.names.filter (· ∉ r₁.names) ∧
      (∀ name, r.get? name = Entry.firstWins (r₁.get? name) (r₂.get? name)) ∧
      r₁.Extends r := by
  obtain ⟨ok₁, rfl⟩ := scanSources_eq_ok.1 h₁
  obtain ⟨ok₂, rfl⟩ := scanSources_eq_ok.1 h₂
  refine ⟨_, scanSources_eq_ok.2 ⟨?_, rfl⟩, ?_, fun name => ?_, ?_⟩
  · rw [Extraction.ofSources_append, Extraction.andThen, ok₁]
    exact ok₂
  all_goals rw [Extraction.ofSources_append, Extraction.andThen, ok₁]
  all_goals simp only [Registry.declareAll_append]
  · exact Registry.names_declareAll _ _
  · exact Registry.get?_declareAll _ _ name
  · exact Registry.extends_declareAll _ _

/-- Two files that declare `--a`, the second one in a media query. -/
theorem scanSources_append_two_files :
    let a : Source := ⟨"a.liquid", "<style>:root \x7b --a: 1px; \x7d</style>"⟩
    let b : Source :=
      ⟨"b.liquid", "<style>:root \x7b --b: 2px; @media print \x7b --a: 3px; \x7d \x7d</style>"⟩
    ∃ r, scanSources {} true ([a] ++ [b]) = .ok r ∧ r.names = ["--a".toList, "--b".toList] ∧
      r.get? "--a" = some ⟨"--a", "1px", "a.liquid", [⟨"print", "3px"⟩]⟩ := by
  intro a b
  have one : scanSources {} true [a] = .ok ⟨[⟨"--a", "1px", "a.liquid", []⟩]⟩ := by decide +kernel
  have two : scanSources {} true [b] =
      .ok ⟨[⟨"--b", "2px", "b.liquid", []⟩, ⟨"--a", "3px", "b.liquid", [⟨"print", "3px"⟩]⟩]⟩ := by
    decide +kernel
  obtain ⟨r, h, names, get, -⟩ := scanSources_append_ok one two
  exact ⟨r, h, names.trans (by decide), (get _).trans (by decide)⟩

end ThemeProps
