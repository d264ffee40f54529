/-
  Registries and the history that they are made by.

  While a registry is built up, declarations are made and copies of it are
  frozen, in any order.

  * `Call` is one step of such a history, and `Registry.answers` are the answers
    to some calls: whether the declared name is new, or the frozen copy;
  * `firstDeclarations` are the first declarations of the distinct names of a
    history, and `Declaration.recorded` is the entry that one of them has in the
    end;
  * `entries_declareAll`: the entries of a registry are those of the first
    declarations, in their order;
  * `answers_history`: so every answer depends on the declarations made before it
    alone.
-/
import ThemeProps.Proofs.Lists
import ThemeProps.Proofs.Registry.Merge

namespace ThemeProps

namespace Registry

theorem distinctFrom_eq (seen ss : List Text) :
    distinctFrom seen ss = (ss.filter (· ∉ seen)).eraseDups := by
  induction ss generalizing seen with
  | nil => rfl
  | cons s ss ih =>
    by_cases h : s ∈ seen
    · rw [distinctFrom, if_pos (by simpa using h), ih, List.filter_cons_of_neg (by simpa using h)]
    · rw [distinctFrom, if_neg (by simpa using h), ih, List.filter_cons_of_pos (by simpa using h),
        List.eraseDups_cons, List.filter_filter]
      congr 2
      refine List.filter_congr fun t _ => ?_
      by_cases ht : t = s <;> simp [ht]

theorem sourceFiles_eq (r : Registry) :
    r.sourceFiles = (r.entries.map (·.sourceFile)).eraseDups := by
  rw [sourceFiles, distinctFrom_eq, List.filter_eq_self.2 (by simp)]

end Registry

/-! ## First declarations -/

/-- The first declaration of each name, in the order in which the names are first declared. -/
def firstDeclarations (ds : List Declaration) : List Declaration :=
  (ds.map (·.name)).eraseDups.filterMap fun name => ds.find? (·.name == name)

/-- What a history records for a name by its first declaration: the value and the file of that one,
and the variants of all declarations of the name. -/
def Declaration.recorded (ds : List Declaration) (d : Declaration) : Entry where
  name := d.name
  value := d.value
  sourceFile := d.sourceFile
  media := (ds.filter (·.name == d.name)).flatMap Declaration.variants

namespace Registry

@[simp, grind =] theorem get?_recorded (ds : List Declaration) (name : Text) :
    (declareAll {} ds).get? name =
      (ds.find? (·.name == name)).map (Declaration.recorded ds) := by
  rw [get?_declareAll_first]
  refine Option.map_congr fun d hd => ?_
  obtain rfl : d.name = name := by simpa using List.find?_some hd
  rfl

@[simp]
theorem nodup_names_declareAll (ds : List Declaration) : (declareAll {} ds).names.Nodup := by
  rw [names_declareAll_empty]
  exact nodup_eraseDups _

@[simp, grind =] theorem mem_names_declareAll {ds : List Declaration} {name : Text} :
    name ∈ (declareAll {} ds).names ↔ ∃ d ∈ ds, d.name = name := by
  rw [names_declareAll_empty, List.mem_eraseDups, List.mem_map]

/-- A registry without repeated names is the list of the entries of its names. -/
theorem entries_eq_filterMap {r : Registry} (h : r.names.Nodup) :
    r.entries = r.names.filterMap r.get? := by
  obtain ⟨es⟩ := r
  change (es.map (·.name)).Nodup at h
  change es = (es.map (·.name)).filterMap fun name => es.find? (·.name == name)
  induction es with
  | nil => rfl
  | cons e es ih =>
    rw [List.map_cons, List.nodup_cons] at h
    have here : (e :: es).find? (·.name == e.name) = some e := List.find?_cons_of_pos (by simp)
    have there : ∀ name ∈ es.map (·.name),
        (e :: es).find? (·.name == name) = es.find? (·.name == name) := by
      intro name hname
      refine List.find?_cons_of_neg ?_
      have other : e.name ≠ name := fun he => h.1 (he ▸ hname)
      simpa using other
    rw [List.map_cons, List.filterMap_cons, here, List.filterMap_congr there]
    exact congrArg (e :: ·) (ih h.2)

/-- **The entries of a registry** are what its history records for the first declarations. -/
@[simp, grind =] theorem entries_declareAll (ds : List Declaration) :
    (declareAll {} ds).entries = (firstDeclarations ds).map (Declaration.recorded ds) := by
  rw [entries_eq_filterMap (nodup_names_declareAll ds), names_declareAll_empty, firstDeclarations,
    List.map_filterMap]
  exact List.filterMap_congr fun name _ => get?_recorded ds name

@[simp, grind =] theorem sourceFiles_declareAll (ds : List Declaration) :
    (declareAll {} ds).sourceFiles = ((firstDeclarations ds).map (·.sourceFile)).eraseDups := by
  rw [sourceFiles_eq, entries_declareAll, List.map_map]
  rfl

@[simp, grind =] theorem size_declareAll (ds : List Declaration) :
    (declareAll {} ds).size = (ds.map (·.name)).eraseDups.length := by
  rw [← names_declareAll_empty, names, List.length_map]
  rfl

end Registry

/-! ## Calls and answers -/

/-- A step in the history of a registry. -/
inductive Call where
  | declare (d : Declaration)
  | freeze

/-- What a call gives back. -/
inductive Answer where
  /-- whether the declared name is new -/
  | declared (new : Bool)
  /-- the registry as it is now -/
  | frozen (r : Registry)

namespace Call

/-- The declarations among some calls. -/
def declarations (calls : List Call) : List Declaration :=
  calls.filterMap fun
    | declare d => some d
    | freeze => none

/-- The answer to a call. -/
def answer (r : Registry) : Call → Answer
  | declare d => .declared (!r.contains d.name)
  | freeze => .frozen r

/-- The registry after a call. -/
def apply (r : Registry) : Call → Registry
  | declare d => r.declare d
  | freeze => r

end Call

namespace Registry

/-- The answers to some calls, one after the other. -/
def answers (r : Registry) : List Call → List Answer
  | [] => []
  | call :: calls => call.answer r :: answers (call.apply r) calls

@[simp] theorem length_answers (r : Registry) (calls : List Call) :
    (r.answers calls).length = calls.length := by
  induction calls generalizing r with
  | nil => rfl
  | cons call calls ih => rw [answers, List.length_cons, ih, List.length_cons]

/-- Calls go on with the registry that the declarations before them have made. -/
theorem answers_append (r : Registry) (calls more : List Call) :
    r.answers (calls ++ more) =
      r.answers calls ++ (r.declareAll (Call.declarations calls)).answers more := by
  induction calls generalizing r with
  | nil => rfl
  | cons call calls ih =>
    rw [List.cons_append, answers, answers, ih, List.cons_append]
    cases call <;> rfl

/-- The answer to a call is the one of the registry that has been made by then. -/
theorem answers_getElem? (calls more : List Call) (call : Call) :
    (answers {} (calls ++ call :: more))[calls.length]? =
      some (call.answer (declareAll {} (Call.declarations calls))) := by
  have behind := Nat.le_of_eq (length_answers {} calls)
  rw [answers_append, answers, List.getElem?_append_right behind, length_answers, Nat.sub_self]
  rfl

theorem contains_declareAll (ds : List Declaration) (name : Text) :
    (declareAll {} ds).contains name = decide (name ∈ ds.map (·.name)) := by
  rw [contains, get?_recorded, Option.isSome_map, Bool.eq_iff_iff, List.find?_isSome,
    decide_eq_true_eq, List.mem_map]
  simp only [beq_iff_eq]

/-- **A registry is determined by the history of its declarations.** In any run of declarations and
freezing, a declaration is answered by whether its name has not been declared before, and freezing
by a registry that the declarations before it determine, whatever comes behind. It has the distinct
names in the order of their first declarations, each with the value and the file of the first one
and with a variant for each declaration in a media query. -/
theorem answers_history (calls : List Call) :
    let ds := Call.declarations calls
    (∀ d more, (answers {} (calls ++ .declare d :: more))[calls.length]? =
      some (.declared (decide (d.name ∉ ds.map (·.name))))) ∧
    ∃ r : Registry,
      (∀ more, (answers {} (calls ++ .freeze :: more))[calls.length]? = some (.frozen r)) ∧
      r.names = (ds.map (·.name)).eraseDups ∧
      (∀ name, r.get? name = (ds.find? (·.name == name)).map (Declaration.recorded ds)) ∧
      r.entries = (firstDeclarations ds).map (Declaration.recorded ds) ∧
      r.size = (ds.map (·.name)).eraseDups.length ∧
      r.sourceFiles = ((firstDeclarations ds).map (·.sourceFile)).eraseDups ∧
      r.sourceFiles.Nodup := by
  intro ds
  refine ⟨fun d more => ?_, declareAll {} ds, fun more => answers_getElem? calls more .freeze,
    names_declareAll_empty ds, get?_recorded ds, entries_declareAll ds, size_declareAll ds,
    sourceFiles_declareAll ds, ?_⟩
  · rw [answers_getElem?, Call.answer, contains_declareAll, decide_not]
  · rw [sourceFiles_declareAll]
    exact nodup_eraseDups _

end Registry
end ThemeProps
