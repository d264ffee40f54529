/-
  Two ways to follow a path.

  A setting of the first color scheme is found by a walk that passes over the
  keys behind a value without fields, so that `accent.rgb` gets to the color
  `accent`; `Value.atPath` finds nothing there.

  * `Value.RunsOn` says at which value a path runs on;
  * `Store.renderSchemeSetting_of_atPath`: where `Value.atPath` finds a value, the
    other walk finds the same;
  * `Store.renderSchemeSetting_absent`: where it finds none, the placeholder is
    written if the path runs on at no value, and else the value it runs on at.
-/
import ThemeProps.Settings.Store
import Mathlib.Data.List.Basic

namespace ThemeProps

/-! ## The two walks -/

namespace Value

variable {v w : Value} {keys : List Text}

/-- There is a value, and it has no fields. -/
def IsLeaf : Value → Prop
  | null => False
  | map _ _ => False
  | _ => True

/-- The keys lead to a leaf before they are all used up. -/
def StopsAt (keys : List Text) (v w : Value) : Prop :=
  ∃ before key more, keys = before ++ key :: more ∧ v.atKeys before = w ∧ w.IsLeaf

/-- The path leads from `v` to the leaf `w` and runs on there. -/
def RunsOn (path : Text) (v w : Value) : Prop := v.StopsAt (Text.splitAtChar '.' path) w

theorem IsLeaf.ne_null (h : w.IsLeaf) : w ≠ .null := by
  rintro rfl
  exact h

/-- No key leads on from a leaf. -/
theorem IsLeaf.atKeysLeniently (h : w.IsLeaf) : ∀ keys, w.atKeysLeniently keys = w
  | [] => rfl
  | key :: keys => by
    cases w with
    | map id fields => exact h.elim
    | _ => rfl

theorem atKeysLeniently_null : ∀ keys, null.atKeysLeniently keys = null
  | [] => rfl
  | _ :: _ => rfl

theorem atKeysLeniently_append (keys more : List Text) :
    v.atKeysLeniently (keys ++ more) = (v.atKeysLeniently keys).atKeysLeniently more := by
  induction keys generalizing v with
  | nil => rfl
  | cons key keys ih =>
    cases v with
    | map id fields => exact ih
    | null => exact (atKeysLeniently_null more).symm
    | _ => exact (IsLeaf.atKeysLeniently (by trivial) more).symm

/-- Both walks find the same value, if there is one. -/
theorem atKeysLeniently_of_atKeys (h : v.atKeys keys = w) (found : w ≠ null) :
    v.atKeysLeniently keys = w := by
  induction keys generalizing v with
  | nil => exact h
  | cons key keys ih =>
    rw [Value.atKeys] at h
    split at h
    · exact absurd h.symm found
    · next u _ known =>
      cases v with
      | map id fields =>
        have step : Fields.get? fields key = some u := known
        rw [Value.atKeysLeniently, step]
        exact ih h
      | _ => cases known
    · exact absurd h.symm found

theorem StopsAt.ne_null (h : v.StopsAt keys w) : w ≠ null := by
  obtain ⟨_, _, _, _, _, leaf⟩ := h
  exact leaf.ne_null

/-- Keys behind a leaf are passed over. -/
theorem StopsAt.atKeysLeniently (h : v.StopsAt keys w) : v.atKeysLeniently keys = w := by
  obtain ⟨before, key, more, rfl, reached, leaf⟩ := h
  rw [atKeysLeniently_append, atKeysLeniently_of_atKeys reached leaf.ne_null]
  exact leaf.atKeysLeniently _

/-- A first key that leads to `u` leads on to all that is behind `u`. -/
theorem StopsAt.cons {u : Value} {key : Text} (known : v.field? key = some u)
    (h : u.StopsAt keys w) : v.StopsAt (key :: keys) w := by
  obtain ⟨before, key', more, rfl, reached, leaf⟩ := h
  refine ⟨key :: before, key', more, rfl, ?_, leaf⟩
  rw [Value.atKeys, known]
  cases u with
  | null =>
    -- null has no fields, so no leaf lies behind it
    have stays : null.atKeys before = null := by cases before <;> rfl
    exact absurd (reached.symm.trans stays) leaf.ne_null
  | _ => exact reached

/-- Where one walk finds nothing, the other one finds nothing or stops at a leaf. -/
theorem atKeysLeniently_of_absent (h : v.atKeys keys = null) :
    v.atKeysLeniently keys = null ∨ v.StopsAt keys (v.atKeysLeniently keys) := by
  induction keys generalizing v with
  | nil => exact .inl h
  | cons key keys ih =>
    cases v with
    | null => exact .inl rfl
    | map id fields =>
      cases known : Fields.get? fields key with
      | none =>
        rw [Value.atKeysLeniently, known]
        exact .inl (atKeysLeniently_null keys)
      | some u =>
        have absent : u.atKeys keys = null := by
          rw [Value.atKeys, show (map id fields).field? key = some u from known] at h
          cases u with
          | null => cases keys <;> rfl
          | _ => exact h
        rw [Value.atKeysLeniently, known, Option.getD_some]
        exact (ih absent).imp_right (StopsAt.cons known)
    | _ => exact .inr ⟨[], key, keys, rfl, rfl, trivial⟩

end Value

/-! ## Settings of the first color scheme -/

/-- A value of a color scheme as a stylesheet shows it: a color text as channels, in the form that
the last key of its path asks for. -/
def Value.formatInScheme (accessor : Text) : Value → Evaluation Text
  | .str s =>
    if isColorText s then
      Id.run (formatColorBy (fun hex => pure (Color.ofHex? (.int 1) hex)) s accessor)
    else .ok s
  | v => v.format

/-- The last key of a path. -/
def lastKey (path : Text) : Text := (Text.splitAtChar '.' path).getLast?.getD []

/-- What is shown for a path that leads to a value, and the placeholder if it leads to none. -/
def Value.showAt (path : Text) : Value → Evaluation Text
  | .null => .ok ("[scheme." ++ path ++ "]")
  | v => v.formatInScheme (lastKey path)

theorem Value.showAt_of_ne_null {v : Value} (h : v ≠ .null) (path : Text) :
    v.showAt path = v.formatInScheme (lastKey path) := by
  cases v with
  | null => exact absurd rfl h
  | _ => rfl

namespace Store

variable {store : Store} {path : Text} {fields : Fields} {id : Identity} {w : Value}

/-- The settings of the first color scheme are a mapping with these fields. -/
def SchemeSettings (store : Store) (id : Identity) (fields : Fields) : Prop :=
  ∃ schemeId scheme, store.firstScheme? = some (schemeId, scheme) ∧
    scheme.get? "settings" = some (.map id fields)

/-- What the walk through the settings of the first color scheme finds is shown. -/
theorem SchemeSettings.renderSchemeSetting (h : store.SchemeSettings id fields) (path : Text) :
    store.renderSchemeSetting path =
      ((Value.map id fields).atKeysLeniently (Text.splitAtChar '.' path)).showAt path := by
  obtain ⟨schemeId, scheme, first, known⟩ := h
  rw [Store.renderSchemeSetting, renderSchemeBy, first, Option.bind_some]
  dsimp only
  rw [known]
  dsimp only
  cases (Value.map id fields).atKeysLeniently (Text.splitAtChar '.' path) with
  | str s =>
    dsimp only [Value.showAt, Value.formatInScheme]
    split_ifs <;> rfl
  | _ => rfl

/-- A setting that its path leads to is shown. -/
theorem renderSchemeSetting_of_atPath (h : store.SchemeSettings id fields)
    (found : (Value.map id fields).atPath path = w) (present : w ≠ .null) :
    store.renderSchemeSetting path = w.formatInScheme (lastKey path) := by
  have walk : (Value.map id fields).atKeysLeniently (Text.splitAtChar '.' path) = w :=
    Value.atKeysLeniently_of_atKeys found present
  rw [h.renderSchemeSetting, walk, Value.showAt_of_ne_null present]

/-- **Absent scheme settings.** Where a path leads to no value, the placeholder is written if the
path runs on at no leaf, and else the leaf that it runs on at. -/
theorem renderSchemeSetting_absent (h : store.SchemeSettings id fields)
    (absent : (Value.map id fields).atPath path = .null) :
    ((∀ w, ¬ (Value.map id fields).RunsOn path w) →
      store.renderSchemeSetting path = .ok ("[scheme." ++ path ++ "]")) ∧
    (∀ w, (Value.map id fields).RunsOn path w →
      store.renderSchemeSetting path = w.formatInScheme (lastKey path)) := by
  constructor
  · intro never
    rcases Value.atKeysLeniently_of_absent absent with nothing | stops
    · rw [h.renderSchemeSetting, nothing]
      rfl
    · exact absurd stops (never _)
  · intro w stops
    rw [h.renderSchemeSetting, stops.atKeysLeniently, Value.showAt_of_ne_null stops.ne_null]

/-- Settings with one color scheme that says a size. -/
def oneSize : Store where
  current := [("color_schemes", .map .fresh [("light",
    .map .fresh [("settings", .map .fresh [("size", .str "12px")])])])]

theorem schemeSettings_oneSize : oneSize.SchemeSettings .fresh [("size", .str "12px")] :=
  ⟨"light", _, rfl, rfl⟩

/-- A key that is missing gives the placeholder, and keys behind the size give the size. -/
theorem renderSchemeSetting_absent_gap :
    oneSize.SchemeSettings .fresh [("size", .str "12px")] ∧
    (Value.map .fresh [("size", .str "12px")]).atPath "gap" = .null ∧
    oneSize.renderSchemeSetting "gap" = .ok "[scheme.gap]" ∧
    oneSize.renderSchemeSetting "size.x" = .ok "12px" := by
  have absent : (Value.map .fresh [("size", .str "12px")]).atPath "gap" = .null := rfl
  have behind : (Value.map .fresh [("size", .str "12px")]).RunsOn "size.x" (.str "12px") :=
    ⟨["size"], "x", [], rfl, rfl, trivial⟩
  have shown := (renderSchemeSetting_absent schemeSettings_oneSize rfl).2 _ behind
  refine ⟨schemeSettings_oneSize, absent, ?_, shown⟩
  refine (renderSchemeSetting_absent schemeSettings_oneSize absent).1 ?_
  rintro w ⟨before, key, more, he, reached, leaf⟩
  cases before with
  | nil =>
    obtain rfl : .map .fresh [("size", .str "12px")] = w := reached
    exact leaf
  | cons first before =>
    -- the path has one key only
    have length : 1 = (first :: before ++ key :: more).length := congrArg List.length he
    simp only [List.length_append, List.length_cons] at length
    omega

/-- A path that runs on at a size shows the size. -/
theorem renderSchemeSetting_behind_size :
    ¬ ∀ (store : Store) (id : Identity) (fields : Fields) (path : Text),
      store.SchemeSettings id fields → lastKey path ∉ [("rgb" : Text), "rgba"] →
      (Value.map id fields).atPath path = .null →
      store.renderSchemeSetting path = .ok ("[scheme." ++ path ++ "]") := by
  intro claimed
  have shown := claimed oneSize .fresh [("size", .str "12px")] "size.x"
    schemeSettings_oneSize (by decide) rfl
  exact absurd shown (by decide)

end Store
end ThemeProps
