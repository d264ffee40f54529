/-
  Registries of declarations, seen by their names and by their entries.

  A registry is seen as the list of its `names` and the entry of each name. Both
  views turn declaring into an operation with a law of its own:

  * `names_declare` and `get?_declare` say what one declaration does to the two
    views, and `names_declareAll` and `get?_declareAll` what a list of them does:
    to any registry it adds just what it makes of the empty one;
  * `firstWins` joins two entries of a name, and so do registries that are
    declared one after the other;
  * `Extends` is what a registry can become: `extends_declareAll` says that no
    declaration changes, moves or removes an entry, but for variants at its end.
-/
import ThemeProps.Registry
import Mathlib.Data.List.Basic
import Mathlib.Data.List.Induction
import Mathlib.Tactic.Common

namespace ThemeProps

/-- What two finds of one name come to: the first one counts, and the variants of the second one
come behind its own. -/
def Entry.firstWins : Option Entry → Option Entry → Option Entry
  | some a, some b => some { a with media := a.media ++ b.media }
  | some a, none => some a
  | none, b => b

namespace Entry

@[simp] theorem firstWins_none_left (b : Option Entry) : firstWins none b = b := rfl

@[simp] theorem firstWins_none_right (a : Option Entry) : firstWins a none = a := by
  cases a <;> rfl

theorem firstWins_assoc (a b c : Option Entry) :
    firstWins (firstWins a b) c = firstWins a (firstWins b c) := by
  cases a <;> cases b <;> cases c <;> simp [firstWins]

/-- The entry `e` with further variants. -/
def Extends (e e' : Entry) : Prop :=
  e'.name = e.name ∧ e'.value = e.value ∧ e'.sourceFile = e.sourceFile ∧ e.media <+: e'.media

@[simp] theorem Extends.refl (e : Entry) : e.Extends e := ⟨rfl, rfl, rfl, List.prefix_rfl⟩

theorem Extends.trans {a b c : Entry} (hab : a.Extends b) (hbc : b.Extends c) : a.Extends c :=
  ⟨hbc.1.trans hab.1, hbc.2.1.trans hab.2.1, hbc.2.2.1.trans hab.2.2.1,
    hab.2.2.2.trans hbc.2.2.2⟩

theorem extends_media (e : Entry) (more : List MediaVariant) :
    e.Extends { e with media := e.media ++ more } :=
  ⟨rfl, rfl, rfl, List.prefix_append _ _⟩

end Entry

namespace Registry

/-- The names of the properties, in the order of their discovery. -/
def names (r : Registry) : List Text := r.entries.map (·.name)

/-! ## One declaration -/

@[simp, grind =] theorem map_name_addTo (d : Declaration) (es : List Entry) :
    (addTo d es).map (·.name) =
      if d.name ∈ es.map (·.name) then es.map (·.name) else es.map (·.name) ++ [d.name] := by
  induction es with
  | nil => rfl
  | cons e es ih =>
    by_cases h : e.name = d.name
    · simp [addTo, h]
    · have h' : ¬ d.name = e.name := fun he => h he.symm
      simp only [addTo, if_neg h, List.map_cons, ih, List.mem_cons, h', false_or]
      split_ifs <;> rfl

/-- A declaration adds its name at the end, unless it is known. -/
@[simp, grind =] theorem names_declare (r : Registry) (d : Declaration) :
    (r.declare d).names = if d.name ∈ r.names then r.names else r.names ++ [d.name] :=
  map_name_addTo d r.entries

theorem find?_addTo (d : Declaration) (name : Text) (es : List Entry) :
    (addTo d es).find? (·.name == name) =
      Entry.firstWins (es.find? (·.name == name))
        (if d.name = name then some d.toEntry else none) := by
  induction es with
  | nil =>
    by_cases h : d.name = name <;> simp [addTo, Declaration.toEntry, h]
  | cons e es ih =>
    by_cases hd : e.name = d.name
    · by_cases hn : d.name = name
      · simp [addTo, hd, hn, Entry.firstWins, Declaration.toEntry]
      · simp [addTo, hd, hn]
    · by_cases hn : e.name = name
      · have hdn : ¬ d.name = name := fun h => hd (hn.trans h.symm)
        rw [addTo, if_neg hd, if_neg hdn]
        simp [hn]
      · simp [addTo, hd, hn, ih]

/-- A declaration changes the entry of its own name alone, and by its variants alone if there is
one. -/
@[grind =] theorem get?_declare (r : Registry) (d : Declaration) (name : Text) :
    (r.declare d).get? name =
      Entry.firstWins (r.get? name) (if d.name = name then some d.toEntry else none) :=
  find?_addTo d name r.entries

/-! ## Lists of declarations -/

@[simp, grind =] theorem declareAll_append (r : Registry) (ds es : List Declaration) :
    r.declareAll (ds ++ es) = (r.declareAll ds).declareAll es := List.foldl_append

/-- The names that are new behind some others. -/
def newNames (known names : List Text) : List Text := names.filter (· ∉ known)

theorem newNames_append (known more names : List Text) :
    newNames (known ++ more) names = newNames known (newNames more names) := by
  simp only [newNames, List.filter_filter, List.mem_append, not_or, Bool.decide_and]

/-- **Declarations add new names** at the end: those that they declare on their own and that are not
known. -/
theorem names_declareAll (r : Registry) (ds : List Declaration) :
    (r.declareAll ds).names = r.names ++ newNames r.names (declareAll {} ds).names := by
  induction ds generalizing r with
  | nil => simp [declareAll, names, newNames]
  | cons d ds ih =>
    have empty : ((⟨[]⟩ : Registry).declare d).names = [d.name] := rfl
    have alone := ih ((⟨[]⟩ : Registry).declare d)
    have here := ih (r.declare d)
    simp only [declareAll, List.foldl_cons] at alone here ⊢
    rw [here, alone, empty, names_declare]
    by_cases h : d.name ∈ r.names
    · have kept : newNames r.names ([d.name] ++ newNames [d.name] (declareAll {} ds).names) =
          newNames r.names (declareAll {} ds).names := by
        simp only [newNames, List.filter_append, List.filter_filter]
        rw [List.filter_cons_of_neg (by simpa using h), List.filter_nil, List.nil_append]
        refine List.filter_congr fun n _ => ?_
        by_cases hn : n ∈ r.names
        · simp [hn]
        · have : n ≠ d.name := fun he => hn (he ▸ h)
          simp [hn, this]
      rw [if_pos h]
      exact congrArg (r.names ++ ·) kept.symm
    · have kept : newNames r.names ([d.name] ++ newNames [d.name] (declareAll {} ds).names) =
          [d.name] ++ newNames (r.names ++ [d.name]) (declareAll {} ds).names := by
        rw [newNames_append]
        simp only [newNames, List.filter_append]
        rw [List.filter_cons_of_pos (by simpa using h), List.filter_nil]
      rw [if_neg h, List.append_assoc]
      exact congrArg (r.names ++ ·) kept.symm

/-- **Declarations add what they make on their own** to the entry of each name, behind what is
known. -/
theorem get?_declareAll (r : Registry) (ds : List Declaration) (name : Text) :
    (r.declareAll ds).get? name = Entry.firstWins (r.get? name) ((declareAll {} ds).get? name) := by
  induction ds generalizing r with
  | nil =>
    rw [show (declareAll {} []).get? name = none from rfl, Entry.firstWins_none_right]
    rfl
  | cons d ds ih =>
    have here := ih (r.declare d)
    have alone := ih ((⟨[]⟩ : Registry).declare d)
    simp only [declareAll, List.foldl_cons] at alone here ⊢
    rw [here, alone, get?_declare, get?_declare, Entry.firstWins_assoc]
    rfl

/-! ## First declarations -/

/-- The names are those declared, in the order of their first declarations. -/
theorem names_declareAll_empty (ds : List Declaration) :
    (declareAll {} ds).names = (ds.map (·.name)).eraseDups := by
  induction ds using List.reverseRecOn with
  | nil => rfl
  | append_singleton ds d ih =>
    have known : d.name ∈ (declareAll {} ds).names ↔ d.name ∈ ds.map (·.name) := by
      rw [ih, List.mem_eraseDups]
    rw [declareAll_append, List.map_append, List.eraseDups_append, ← ih]
    change (Registry.declare _ d).names = _ ++ ([d.name].removeAll _).eraseDups
    rw [names_declare, List.removeAll, List.filter_singleton]
    by_cases h : d.name ∈ ds.map (·.name)
    · rw [if_pos (known.2 h)]
      simp [h]
    · rw [if_neg (mt known.1 h)]
      simp [h, List.eraseDups_cons]

/-- The entry of a name has the value and the file of its first declaration, and the variants of all
its declarations. -/
theorem get?_declareAll_first (ds : List Declaration) (name : Text) :
    (declareAll {} ds).get? name = (ds.find? (·.name == name)).map fun d =>
      { d.toEntry with media := (ds.filter (·.name == name)).flatMap Declaration.variants } := by
  induction ds using List.reverseRecOn with
  | nil => rfl
  | append_singleton ds d ih =>
    have last : (declareAll {} (ds ++ [d])).get? name =
        Entry.firstWins ((declareAll {} ds).get? name)
          (if d.name = name then some d.toEntry else none) := by
      rw [declareAll_append]
      exact get?_declare _ d name
    rw [last, ih, List.find?_append, List.filter_append, List.flatMap_append]
    by_cases hd : d.name = name
    · cases hf : ds.find? (·.name == name) with
      | none =>
        have fresh : ds.filter (·.name == name) = [] := by
          rw [List.filter_eq_nil_iff]
          exact List.find?_eq_none.1 hf
        simp [hd, fresh, Declaration.toEntry]
      | some e => simp [hd, Entry.firstWins, Declaration.toEntry]
    · simp [hd]

/-- Outside of media queries, the first declaration of a name makes its entry. -/
theorem get?_declareAll_empty {ds : List Declaration} (h : ∀ d ∈ ds, d.variants = [])
    (name : Text) : (declareAll {} ds).get? name =
      (ds.find? (·.name == name)).map Declaration.toEntry := by
  have none : (ds.filter (·.name == name)).flatMap Declaration.variants = [] := by
    rw [List.flatMap_eq_nil_iff]
    exact fun d hd => h d (List.mem_of_mem_filter hd)
  rw [get?_declareAll_first, none]
  refine Option.map_congr fun d hd => ?_
  rw [Declaration.toEntry, h d (List.mem_of_find?_eq_some hd)]

/-! ## What stays -/

/-- The registry `r` with further variants and further entries: each entry stays in its place. -/
def Extends (r r' : Registry) : Prop :=
  ∀ (i : Nat) (e : Entry), r.entries[i]? = some e → ∃ e', r'.entries[i]? = some e' ∧ e.Extends e'

theorem Extends.refl (r : Registry) : r.Extends r := fun _ e h => ⟨e, h, Entry.Extends.refl e⟩

theorem Extends.trans {a b c : Registry} (hab : a.Extends b) (hbc : b.Extends c) : a.Extends c := by
  intro i e he
  obtain ⟨e', he', h⟩ := hab i e he
  obtain ⟨e'', he'', h'⟩ := hbc i e' he'
  exact ⟨e'', he'', h.trans h'⟩

theorem extends_addTo (d : Declaration) (es : List Entry) : Extends ⟨es⟩ ⟨addTo d es⟩ := by
  induction es with
  | nil => intro i e he; cases he
  | cons e es ih =>
    intro i e' he
    by_cases h : e.name = d.name
    · rw [addTo, if_pos h]
      cases i with
      | zero =>
        obtain rfl : e = e' := Option.some.inj he
        exact ⟨_, rfl, Entry.extends_media e _⟩
      | succ i => exact ⟨e', he, Entry.Extends.refl e'⟩
    · rw [addTo, if_neg h]
      cases i with
      | zero => exact ⟨e', he, Entry.Extends.refl e'⟩
      | succ i => exact ih i e' he

/-- Declarations do not change, move or remove what is known. -/
theorem extends_declareAll (r : Registry) (ds : List Declaration) :
    r.Extends (r.declareAll ds) := by
  induction ds generalizing r with
  | nil => exact Extends.refl r
  | cons d ds ih => exact (extends_addTo d r.entries).trans (ih (r.declare d))

end Registry
end ThemeProps
