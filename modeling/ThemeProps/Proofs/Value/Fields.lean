/-
  The fields of a mapping.

  * `Fields.get?_set_self` and `Fields.get?_set_of_ne`: what is found after one
    field has been set, and `Bindings.names_set`: where it stands;
  * `Fields.update` sets several fields, one after the other. `Fields.get?_update`:
    of several values for one key the last counts, and `Fields.names_update`: new
    keys stand in the order in which they first come;
  * `Fields.update_update`: fields that are made by updates may as well be set by
    the updates themselves.
-/
import ThemeProps.Value.Basic
import ThemeProps.Proofs.Lists

namespace ThemeProps

/-! ## Setting one field -/

@[simp, grind =] theorem Fields.get?_set_self (key : Text) (v : Value) (fields : Fields) :
    (fields.set key v).get? key = some v := by
  induction fields with
  | nil => simp [Fields.set, Fields.get?]
  | cons field fields ih =>
    obtain ⟨k, w⟩ := field
    rw [Fields.set]
    split_ifs with same
    · subst same
      simp [Fields.get?]
    · simpa [Fields.get?, List.lookup_cons, beq_false_of_ne (Ne.symm same)] using ih

@[simp, grind =]
theorem Fields.get?_set_of_ne {key other : Text} (h : other ≠ key) (v : Value) (fields : Fields) :
    (fields.set key v).get? other = fields.get? other := by
  induction fields with
  | nil => simp [Fields.set, Fields.get?, List.lookup_cons, beq_false_of_ne h]
  | cons field fields ih =>
    obtain ⟨k, w⟩ := field
    rw [Fields.set]
    split_ifs with same
    · subst same
      simp [Fields.get?, List.lookup_cons, beq_false_of_ne h]
    · simp only [Fields.get?, List.lookup_cons] at ih ⊢
      rw [ih]

/-- The names that are bound, in the order in which they were first bound. -/
def Bindings.names (b : Bindings) : List Text := b.map (·.1)

/-- A known name keeps its place, and a new one comes behind all others. -/
@[grind =] theorem Bindings.names_set (b : Bindings) (name : Text) (v : Value) :
    Bindings.names (b.set name v) =
      if name ∈ Bindings.names b then Bindings.names b else Bindings.names b ++ [name] := by
  induction b with
  | nil => rfl
  | cons binding b ih =>
    obtain ⟨other, w⟩ := binding
    rw [Fields.set]
    by_cases same : other = name
    · rw [if_pos same, if_pos (by simp [Bindings.names, same])]
      rfl
    · have known : name ∈ Bindings.names ((other, w) :: b) ↔ name ∈ Bindings.names b := by
        simp [Bindings.names, Ne.symm same]
      have behind : Bindings.names ((other, w) :: Fields.set name v b) =
          other :: Bindings.names (Fields.set name v b) := rfl
      rw [if_neg same, behind, ih]
      simp only [known]
      split_ifs <;> rfl

namespace Fields

@[simp, grind =] theorem set_set (key : Text) (v w : Value) (fields : Fields) :
    (fields.set key v).set key w = fields.set key w := by
  induction fields with
  | nil => exact if_pos rfl
  | cons field fields ih =>
    obtain ⟨k, u⟩ := field
    rw [set, set]
    split_ifs with same
    · exact if_pos same
    · rw [set, if_neg same, ih]

/-- A known key keeps its place, so it may be set before another one. -/
theorem set_comm {key other : Text} {fields : Fields} (h : other ≠ key)
    (known : key ∈ Bindings.names fields) (v w : Value) :
    (fields.set other w).set key v = (fields.set key v).set other w := by
  induction fields with
  | nil => cases known
  | cons field fields ih =>
    obtain ⟨k, u⟩ := field
    by_cases hk : k = key
    · subst hk
      simp [set, h.symm]
    · have known : key ∈ Bindings.names fields := by
        simpa [Bindings.names, Ne.symm hk] using known
      by_cases ho : k = other
      · subst ho
        simp [set, h]
      · simp [set, hk, ho, ih known]

/-! ## Setting several fields -/

/-- The fields with all of some others set, one after the other. -/
def update (fields others : Fields) : Fields :=
  others.foldl (fun fields field => fields.set field.1 field.2) fields

@[simp] theorem update_cons (fields : Fields) (key : Text) (v : Value) (others : Fields) :
    update fields ((key, v) :: others) = update (fields.set key v) others := rfl

theorem update_append (fields others more : Fields) :
    fields.update (others ++ more) = (fields.update others).update more := List.foldl_append

/-- Of several values for one key, the last counts. -/
@[simp, grind =] theorem get?_update (fields others : Fields) (key : Text) :
    (fields.update others).get? key =
      ((others.filter (·.1 = key)).getLast?.map (·.2)).or (fields.get? key) := by
  induction others generalizing fields with
  | nil => rfl
  | cons field others ih =>
    obtain ⟨k, v⟩ := field
    rw [update_cons, ih]
    by_cases same : k = key
    · subst same
      rw [get?_set_self, List.filter_cons_of_pos (by simp), List.getLast?_cons]
      cases (others.filter (·.1 = k)).getLast? <;> rfl
    · rw [get?_set_of_ne (Ne.symm same), List.filter_cons_of_neg (by simpa using same)]

/-- New keys stand behind the known ones, in the order in which they first come. -/
@[simp, grind =] theorem names_update (fields others : Fields) :
    Bindings.names (fields.update others) = Bindings.names fields ++
      ((Bindings.names others).filter (· ∉ Bindings.names fields)).eraseDups := by
  induction others generalizing fields with
  | nil => exact (List.append_nil _).symm
  | cons field others ih =>
    obtain ⟨k, v⟩ := field
    have first : Bindings.names ((k, v) :: others) = k :: Bindings.names others := rfl
    rw [update_cons, ih, Bindings.names_set, first]
    by_cases known : k ∈ Bindings.names fields
    · rw [if_pos known, List.filter_cons_of_neg (by simpa using known)]
    · rw [if_neg known, List.filter_cons_of_pos (by simpa using known), List.eraseDups_cons,
        List.filter_filter, List.append_assoc, List.singleton_append]
      congr 3
      refine List.filter_congr fun other _ => ?_
      by_cases same : other = k <;> simp [same]

theorem nodup_names_update {fields : Fields} (h : (Bindings.names fields).Nodup) (others : Fields) :
    (Bindings.names (fields.update others)).Nodup := by
  rw [names_update]
  refine List.nodup_append.2 ⟨h, nodup_eraseDups _, ?_⟩
  rintro key known _ new rfl
  have unknown := (List.mem_filter.1 (List.mem_eraseDups.1 new)).2
  exact of_decide_eq_true unknown known

/-- A known key may be set before others are. -/
theorem set_update {key : Text} {fields others : Fields} (known : key ∈ Bindings.names fields)
    (absent : key ∉ Bindings.names others) (v : Value) :
    (fields.update others).set key v = (fields.set key v).update others := by
  induction others generalizing fields with
  | nil => rfl
  | cons field others ih =>
    obtain ⟨k, w⟩ := field
    obtain ⟨differ, absent⟩ : key ≠ k ∧ key ∉ Bindings.names others := by
      simpa [Bindings.names] using absent
    have stays : key ∈ Bindings.names (fields.set k w) := by
      rw [Bindings.names_set]
      split_ifs
      · exact known
      · exact List.mem_append_left _ known
    rw [update_cons, update_cons, ih stays absent, set_comm (Ne.symm differ) known]

theorem update_set {others : Fields} (distinct : (Bindings.names others).Nodup) (fields : Fields)
    (key : Text) (v : Value) :
    fields.update (others.set key v) = (fields.update others).set key v := by
  induction others generalizing fields with
  | nil => rfl
  | cons field others ih =>
    obtain ⟨k, w⟩ := field
    obtain ⟨absent, distinct⟩ := List.nodup_cons.1 distinct
    rw [set]
    split_ifs with same
    · subst same
      have known : k ∈ Bindings.names (fields.set k w) := by
        rw [Bindings.names_set]
        split_ifs with known
        · exact known
        · exact List.mem_append_right _ (List.mem_singleton_self k)
      rw [update_cons, update_cons, set_update known absent, set_set]
    · rw [update_cons, update_cons, ih distinct]

/-- Fields that are made by an update may be set by the update itself. -/
theorem update_update {others : Fields} (distinct : (Bindings.names others).Nodup)
    (fields more : Fields) :
    fields.update (others.update more) = (fields.update others).update more := by
  induction more generalizing others with
  | nil => rfl
  | cons field more ih =>
    obtain ⟨k, v⟩ := field
    have distinct' : (Bindings.names (others.set k v)).Nodup :=
      nodup_names_update distinct [(k, v)]
    rw [update_cons, ih distinct', update_set distinct, update_cons]

end Fields
end ThemeProps
