/-
  Settings without opening braces.

  What a stylesheet shows of settings that hold no opening brace has none:
  `Store.NoBrace.gives_renderSetting` for a setting,
  `Store.NoBrace.gives_renderSchemeSetting` for one of the first color scheme,
  and `Store.NoBrace.notMem_schemeId` for the identifier of that scheme.
-/
import ThemeProps.Template.SchemeLoop
import ThemeProps.Proofs.NoBrace.Value

namespace ThemeProps

/-- No text in the settings and none of their keys has an opening brace. -/
structure Store.NoBrace (store : Store) : Prop where
  current : store.current.NoBrace
  defaults : store.defaults.NoBrace

/-! ## Looking settings up -/

namespace Value

variable {v : Value}

theorem NoBrace.atKeys (h : v.NoBrace) (keys : List Text) : (v.atKeys keys).NoBrace := by
  induction keys generalizing v with
  | nil => exact h
  | cons key keys ih =>
    rw [Value.atKeys]
    split
    · exact .null
    · next w _ hw => exact ih (h.field? hw)
    · exact .null

theorem NoBrace.atKeysLeniently (h : v.NoBrace) (keys : List Text) :
    (v.atKeysLeniently keys).NoBrace := by
  induction keys generalizing v with
  | nil => exact h
  | cons key keys ih =>
    cases v with
    | map id fields =>
      refine ih ?_
      cases hw : Fields.get? fields key with
      | none => exact .null
      | some w => exact (noBrace_map.1 h).get? hw
    | _ => exact h

theorem NoBrace.gives_format (h : v.NoBrace) : Gives ('{' ∉ ·) v.format := by
  cases h with
  | null => exact .ok List.not_mem_nil
  | bool b =>
    refine .ok ?_
    split_ifs <;> decide
  | number n => exact n.gives_toText
  | str h => exact .ok h
  | list _ => exact .ok (by decide)
  | map _ _ => exact .ok (by decide)

end Value

theorem Color.gives_channels (accessor : Text) (c : Color) :
    Gives ('{' ∉ ·) (c.channels accessor) := by
  have comma : '{' ∉ (", " : Text) := by decide
  rw [Color.channels]
  split_ifs
  · refine .ok ?_
    simp only [Color.toRgb, List.mem_append, List.mem_cons, not_or]
    exact ⟨⟨Text.notMem_ofNat _, by decide, Text.notMem_ofNat _⟩, by decide, Text.notMem_ofNat _⟩
  · refine c.alpha.gives_toText.bind fun opacity hopacity => .ok ?_
    simp only [List.mem_append, not_or]
    exact ⟨⟨⟨⟨⟨⟨Text.notMem_ofNat _, comma⟩, Text.notMem_ofNat _⟩, comma⟩, Text.notMem_ofNat _⟩,
      comma⟩, hopacity⟩

namespace Store

variable {store : Store}

theorem NoBrace.get (h : store.NoBrace) (path : Text) : (store.get path).NoBrace := by
  rw [Store.get]
  split
  · cases hv : Fields.get? store.defaults path with
    | none => exact .null
    | some v => exact h.defaults.get? hv
  · exact (Value.noBrace_map.2 h.current).atKeys _

theorem NoBrace.colorSchemes (h : store.NoBrace) : store.colorSchemes.NoBrace := by
  rw [Store.colorSchemes]
  split
  · next id schemes found => exact Value.noBrace_map.1 (h.current.get? found)
  · exact fun _ hf => absurd hf List.not_mem_nil

theorem NoBrace.firstScheme? (h : store.NoBrace) {id : Text} {fields : Fields}
    (hf : store.firstScheme? = some (id, fields)) : '{' ∉ id ∧ fields.NoBrace := by
  have schemes := h.colorSchemes
  rw [Store.firstScheme?] at hf
  split at hf
  · next id' _ fields' _ he =>
    obtain ⟨rfl, rfl⟩ : id' = id ∧ fields' = fields := by simpa using hf
    rw [he] at schemes
    have first := schemes _ List.mem_cons_self
    exact ⟨first.1, Value.noBrace_map.1 first.2⟩
  · next id' v _ _ he =>
    obtain ⟨rfl, rfl⟩ : id' = id ∧ [] = fields := by simpa using hf
    rw [he] at schemes
    exact ⟨(schemes _ List.mem_cons_self).1, fun _ hm => absurd hm List.not_mem_nil⟩
  · cases hf

/-! ## Writing settings -/

theorem gives_formatColor {hex : Text} (h : '{' ∉ hex) (color : Text → Id (Option Color))
    (accessor : Text) : Gives ('{' ∉ ·) (Id.run (formatColorBy color hex accessor)) := by
  cases found : (color hex : Option Color) with
  | none =>
    rw [formatColorBy, found]
    exact .ok h
  | some c =>
    rw [formatColorBy, found]
    exact c.gives_channels accessor

theorem NoBrace.gives_renderPlain (h : store.NoBrace) {path : Text} (hp : '{' ∉ path) :
    Gives ('{' ∉ ·) (Id.run (renderPlainBy (fun key => pure (store.get key)) path)) := by
  have value := h.get path
  unfold renderPlainBy
  beta_reduce
  cases hv : store.get path with
  | null => exact .ok (by simp [hp])
  | _ => rw [hv] at value; exact value.gives_format

/-- A setting is shown without opening braces. -/
theorem NoBrace.gives_renderSetting (h : store.NoBrace) {path : Text} (hp : '{' ∉ path) :
    Gives ('{' ∉ ·) (store.renderSetting path) := by
  have plain := h.gives_renderPlain hp
  rw [Store.renderSetting, renderSettingBy]
  cases accessor? path with
  | none => exact plain
  | some found =>
    obtain ⟨base, accessor⟩ := found
    dsimp only
    cases hv : store.get base with
    | str hex =>
      have value := h.get base
      rw [hv, Value.noBrace_str] at value
      change Gives _ (Id.run (if isColorText hex then
          formatColorBy (fun hex => pure (Color.ofHex? (.int 1) hex)) hex accessor
        else renderPlainBy (fun key => pure (store.get key)) path))
      split_ifs
      · exact gives_formatColor value _ _
      · exact plain
    | _ => exact plain

/-- A setting of the first color scheme is shown without opening braces. -/
theorem NoBrace.gives_renderSchemeSetting (h : store.NoBrace) {path : Text} (hp : '{' ∉ path) :
    Gives ('{' ∉ ·) (store.renderSchemeSetting path) := by
  have missing : '{' ∉ ("[scheme." ++ path ++ "]" : Text) := by simp [hp]
  rw [Store.renderSchemeSetting, renderSchemeBy]
  split
  · next id fields found =>
    obtain ⟨⟨schemeId, scheme⟩, first, settings⟩ := Option.bind_eq_some_iff.1 found
    have known : (Value.map id fields).NoBrace := (h.firstScheme? first).2.get? settings
    have value := known.atKeysLeniently (Text.splitAtChar '.' path)
    simp only
    split
    · exact .ok missing
    · next s he =>
      rw [he, Value.noBrace_str] at value
      split_ifs
      · exact gives_formatColor value _ _
      · exact .ok value
    · exact value.gives_format
  · exact .ok missing

theorem NoBrace.notMem_schemeId (h : store.NoBrace) : '{' ∉ SchemeLoop.schemeId store := by
  rw [SchemeLoop.schemeId]
  split
  · decide
  · decide
  · next id _ he =>
    rw [Store.firstSchemeId?, Option.map_eq_some_iff] at he
    obtain ⟨⟨id', fields⟩, found, rfl⟩ := he
    exact (h.firstScheme? found).1

end Store

end ThemeProps
