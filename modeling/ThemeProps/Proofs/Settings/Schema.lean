/-
  The defaults that a settings schema declares.

  * `Schema.settings?` are the settings of a section, `Schema.declaration?` is what
    one setting declares, and `Schema.declarations` is what the sections declare, in
    the order in which it is written;
  * `defaults_eq`: the defaults are these declarations, set one after the other;
  * `Schema.Drops`: a section without settings, or a setting that declares nothing,
    is left out. `Schema.Drops.declarations_eq`: what is declared stays the same;
  * `defaults_schema`: all that the defaults of a schema are.
-/
import ThemeProps.Settings.Document
import ThemeProps.Proofs.Value.Fields
import Mathlib.Logic.Relation

namespace ThemeProps

/-! ## Declarations -/

/-- The value is not null, false, zero or empty. -/
def Value.Truthy : Value → Prop
  | .null => False
  | .bool b => b = true
  | .number n => n.same (.int 0) = false
  | .str s => s ≠ []
  | .list _ items => items ≠ []
  | .map _ fields => fields ≠ []

instance : DecidablePred Value.Truthy
  | .null => inferInstanceAs (Decidable False)
  | .bool b => inferInstanceAs (Decidable (b = true))
  | .number n => inferInstanceAs (Decidable (n.same (.int 0) = false))
  | .str s => inferInstanceAs (Decidable (¬ s = []))
  | .list _ [] => isFalse fun h => h rfl
  | .list _ (_ :: _) => isTrue (List.cons_ne_nil _ _)
  | .map _ [] => isFalse fun h => h rfl
  | .map _ (_ :: _) => isTrue (List.cons_ne_nil _ _)

namespace Schema

/-- The settings of a section: a section is a mapping with a list of settings. -/
def settings? : Value → Option (List Value)
  | .map _ fields =>
    match Fields.get? fields "settings" with
    | some (.list _ settings) => some settings
    | _ => none
  | _ => none

/-- The key and the default that a setting declares: it is a mapping with a default, which may be
null, and an identifier that is not null, false, zero or empty. -/
def declaration? : Value → Option (Text × Value)
  | .map _ fields =>
    match Fields.get? fields "id", Fields.get? fields "default" with
    | some id, some v => if id.Truthy then some (id.keyText, v) else none
    | _, _ => none
  | _ => none

/-- What the settings of all sections declare. -/
def declarations (sections : List Value) : List (Text × Value) :=
  (sections.filterMap settings?).flatten.filterMap declaration?

theorem declarations_append (sections more : List Value) :
    declarations (sections ++ more) = declarations sections ++ declarations more := by
  rw [declarations, List.filterMap_append, List.flatten_append, List.filterMap_append,
    declarations, declarations]

theorem declarations_cons (s : Value) (sections : List Value) : declarations (s :: sections) =
    ((settings? s).getD []).filterMap declaration? ++ declarations sections := by
  cases h : settings? s with
  | none => rw [declarations, List.filterMap_cons_none h, declarations]; rfl
  | some settings =>
    rw [declarations, List.filterMap_cons_some h, List.flatten_cons, List.filterMap_append,
      declarations]
    rfl

theorem identifier?_eq (v : Value) :
    Settings.identifier? v = if v.Truthy then some v.keyText else none := by
  cases v with
  | null => rfl
  | bool b => cases b <;> rfl
  | number n =>
    rw [Settings.identifier?]
    cases h : n.same (.int 0) with
    | true => exact (if_neg (by simp [Value.Truthy, h])).symm
    | false => exact (if_pos h).symm
  | str s => cases s <;> rfl
  | list i items => cases items <;> rfl
  | map i fields => cases fields <;> rfl

theorem default?_eq : Settings.default? = declaration? := by
  funext setting
  cases setting with
  | map i fields =>
    show ((Fields.get? fields "id").bind Settings.identifier?).bind
      (fun id => (Fields.get? fields "default").bind fun v => some (id, v)) = _
    rw [declaration?]
    cases Fields.get? fields "id" with
    | none => rfl
    | some id =>
      rw [Option.bind_some, identifier?_eq]
      cases Fields.get? fields "default" with
      | none => split_ifs <;> rfl
      | some v => split_ifs with truthy <;> simp [truthy]
  | _ => rfl

theorem itemsOf_eq (s : Value) :
    Settings.itemsOf (s.field? "settings") = (settings? s).getD [] := by
  cases s with
  | map i fields =>
    show Settings.itemsOf (Fields.get? fields "settings") = _
    rw [settings?]
    cases Fields.get? fields "settings" with
    | none => rfl
    | some v => cases v <;> rfl
  | _ => rfl

/-- The defaults are the declarations, set one after the other. -/
theorem defaults_eq (i : Identity) (sections : List Value) :
    Settings.defaults (.list i sections) = Fields.update [] (declarations sections) := by
  have settings : (sections.flatMap fun s => Settings.itemsOf (s.field? "settings")).filterMap
      Settings.default? = declarations sections := by
    rw [default?_eq]
    induction sections with
    | nil => rfl
    | cons s sections ih =>
      rw [List.flatMap_cons, List.filterMap_append, ih, itemsOf_eq, declarations_cons]
  rw [← settings]
  rfl

/-! ## Leaving out what declares nothing -/

/-- A section without settings is left out, or a setting of a section that declares nothing. -/
inductive Drops : List Value → List Value → Prop
  | group {s : Value} (malformed : settings? s = none) (before after : List Value) :
      Drops (before ++ s :: after) (before ++ after)
  | setting {s s' v : Value} {first last : List Value} (malformed : declaration? v = none)
      (present : settings? s = some (first ++ v :: last))
      (absent : settings? s' = some (first ++ last)) (before after : List Value) :
      Drops (before ++ s :: after) (before ++ s' :: after)

theorem Drops.declarations_eq {sections sections' : List Value} (h : Drops sections sections') :
    declarations sections = declarations sections' := by
  cases h with
  | group malformed before after =>
    rw [declarations_append, declarations_append, declarations_cons, malformed]
    rfl
  | @setting s s' v first last malformed present absent before after =>
    have same : (first ++ v :: last).filterMap declaration? =
        (first ++ last).filterMap declaration? := by
      rw [List.filterMap_append, List.filterMap_append, List.filterMap_cons_none malformed]
    rw [declarations_append, declarations_append, declarations_cons, declarations_cons,
      present, absent, Option.getD_some, Option.getD_some, same]

end Schema

open Schema in
/-- **The last default counts.** A key has a default if a setting of the schema declares one, and
it is that of the last such setting. The keys stand in the order of the first settings that declare
them. So the defaults of a longer schema are those of its first part, updated by those of the rest,
and what declares nothing may be left out or put in anywhere. -/
theorem defaults_schema (i : Identity) (sections : List Value) :
    let defaults (sections : List Value) : Fields := Settings.defaults (.list i sections)
    (∀ key, (defaults sections).get? key =
      ((declarations sections).filter (·.1 = key)).getLast?.map (·.2)) ∧
    (defaults sections).map (·.1) = ((declarations sections).map (·.1)).eraseDups ∧
    (∀ more, defaults (sections ++ more) = (defaults sections).update (defaults more)) ∧
    ∀ sections', Relation.EqvGen Drops sections sections' →
      defaults sections' = defaults sections := by
  intro defaults
  have eq (sections : List Value) : defaults sections = Fields.update [] (declarations sections) :=
    defaults_eq i sections
  refine ⟨fun key => ?_, ?_, fun more => ?_, fun sections' h => ?_⟩
  · rw [eq, Fields.get?_update]
    exact Option.or_none
  · have names := Fields.names_update [] (declarations sections)
    rw [eq]
    simpa [Bindings.names] using names
  · have distinct : (Bindings.names []).Nodup := List.nodup_nil
    rw [eq, eq, eq, declarations_append, Fields.update_append]
    exact (Fields.update_update distinct _ _).symm
  · have same : declarations sections = declarations sections' := by
      induction h with
      | rel _ _ h => exact h.declarations_eq
      | refl => rfl
      | symm _ _ _ ih => exact ih.symm
      | trans _ _ _ _ _ ih ih' => exact ih.trans ih'
    rw [eq, eq, same]

open Schema in
/-- A text among the sections and a null among the settings are left out. -/
theorem defaults_schema_gap :
    let gap (v : Value) : Value := .map .fresh [("id", .str "gap"), ("default", v)]
    let group (settings : List Value) : Value := .map .fresh [("settings", .list .fresh settings)]
    let written : List Value := [group [gap (.int 2)], .str "more", group [gap .null, .null]]
    Settings.defaults (.list .fresh [group [gap (.int 2)], group [gap .null]]) =
      Settings.defaults (.list .fresh written) := by
  intro gap group written
  have withoutText : Drops written [group [gap (.int 2)], group [gap .null, .null]] :=
    .group rfl [group [gap (.int 2)]] [group [gap .null, .null]]
  have present : settings? (group [gap .null, .null]) = some ([gap .null] ++ .null :: []) := rfl
  have withoutNull : Drops [group [gap (.int 2)], group [gap .null, .null]]
      [group [gap (.int 2)], group [gap .null]] :=
    .setting rfl present rfl [group [gap (.int 2)]] []
  obtain ⟨-, -, -, same⟩ := defaults_schema .fresh written
  exact same _ (.trans _ _ _ (.rel _ _ withoutText) (.rel _ _ withoutNull))

end ThemeProps
