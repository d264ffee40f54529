/-
  The demands of settings that are written into a stylesheet.

  Of the values of settings only whole numbers can go wrong. A list is not
  written out, and the channels of a color always are.

  * `Value.formatDemands` are the demands of a value, `Store.settingDemands` and
    `Store.schemeSettingDemands` those of a setting and of a setting of the first
    color scheme;
  * `formatColor_ok`: a color text is always written.
-/
import ThemeProps.Settings.Store
import ThemeProps.Proofs.Failure.Demand

namespace ThemeProps

/-! ## Values and colors -/

/-- The demands of a setting's value. -/
def Value.formatDemands : Value → List Demand
  | .number (.int n) => [.digits n]
  | _ => []

theorem Value.makes_format (v : Value) : Makes v.format v.formatDemands := by
  cases v with
  | number n =>
    cases n with
    | int n => exact Value.makes_digits n
    | float x => exact .ok _
  | _ => exact .ok _

/-- The channels of a color are written if its opacity is. -/
theorem Color.channels_ok {c : Color} (h : ∃ s, c.alpha.toText = .ok s) (accessor : Text) :
    ∃ s, c.channels accessor = .ok s := by
  obtain ⟨opacity, h⟩ := h
  rw [Color.channels, Color.toRgba, h]
  split_ifs
  · exact ⟨_, rfl⟩
  · exact ⟨_, rfl⟩

/-- The opacity of a color text is that of eight digits, or the given one. -/
theorem Color.alpha_ofHex? {alpha : Number} {hex : Text} {c : Color}
    (h : Color.ofHex? alpha hex = some c) : c.alpha = alpha ∨ ∃ x, c.alpha = .float x := by
  unfold Color.ofHex? at h
  split at h
  · obtain rfl := Option.some.inj h
    exact .inl rfl
  · obtain rfl := Option.some.inj h
    exact .inr ⟨_, rfl⟩
  · cases h

namespace Store

/-- A color text as a store writes it. -/
abbrev formatColor (hex accessor : Text) : Evaluation Text :=
  Id.run (formatColorBy (fun hex => pure (Color.ofHex? (.int 1) hex)) hex accessor)

/-- A color text is written, whatever it is. -/
theorem formatColor_ok (hex accessor : Text) : ∃ s, formatColor hex accessor = .ok s := by
  rw [formatColor, formatColorBy]
  cases h : Color.ofHex? (.int 1) hex with
  | none => exact ⟨hex, rfl⟩
  | some c =>
    refine Color.channels_ok ?_ accessor
    rcases Color.alpha_ofHex? h with opacity | ⟨x, opacity⟩
    · exact ⟨['1'], by rw [opacity]; rfl⟩
    · exact ⟨_, by rw [opacity]; rfl⟩

theorem makes_formatColor (hex accessor : Text) : Makes (formatColor hex accessor) [] := by
  obtain ⟨s, h⟩ := formatColor_ok hex accessor
  rw [h]
  exact .ok s

/-! ## Settings -/

variable (store : Store) (path : Text)

theorem makes_renderPlain :
    Makes (Id.run (renderPlainBy (fun key => pure (store.get key)) path))
      (store.get path).formatDemands := by
  have value := (store.get path).makes_format
  rw [renderPlainBy]
  cases h : store.get path with
  | null => exact .ok _
  | _ => rw [h] at value; exact value

/-- The demands of a setting: the channels of a color have none. -/
def settingDemands : List Demand :=
  match accessor? path with
  | none => (store.get path).formatDemands
  | some (base, _) =>
    match store.get base with
    | .str hex => if isColorText hex then [] else (store.get path).formatDemands
    | _ => (store.get path).formatDemands

theorem makes_renderSetting : Makes (store.renderSetting path) (store.settingDemands path) := by
  have plain := store.makes_renderPlain path
  rw [renderSetting, renderSettingBy, settingDemands]
  cases accessor? path with
  | none => exact plain
  | some found =>
    obtain ⟨base, accessor⟩ := found
    dsimp only
    cases hv : store.get base with
    | str hex =>
      by_cases h : isColorText hex
      · simpa [hv, h] using makes_formatColor hex accessor
      · simpa [hv, h] using plain
    | _ => simpa [hv] using plain

/-- The demands of a setting of the first color scheme. -/
def schemeSettingDemands : List Demand :=
  match store.firstScheme?.bind fun (_, scheme) => scheme.get? "settings" with
  | some (.map id fields) =>
    ((Value.map id fields).atKeysLeniently (Text.splitAtChar '.' path)).formatDemands
  | _ => []

theorem makes_renderSchemeSetting :
    Makes (store.renderSchemeSetting path) (store.schemeSettingDemands path) := by
  rw [renderSchemeSetting, renderSchemeBy, schemeSettingDemands]
  dsimp only
  generalize store.firstScheme?.bind (fun x => x.2.get? "settings") = settings
  match settings with
  | some (.map id fields) =>
    dsimp only
    have value := ((Value.map id fields).atKeysLeniently (Text.splitAtChar '.' path)).makes_format
    cases hv : (Value.map id fields).atKeysLeniently (Text.splitAtChar '.' path) with
    | null => exact .ok _
    | str s =>
      dsimp only
      split_ifs
      · exact makes_formatColor s _
      · exact .ok _
    | _ => rw [hv] at value; exact value
  | none | some .null | some (.bool _) | some (.number _) | some (.str _) | some (.list _ _) =>
    exact .ok _

end Store
end ThemeProps
