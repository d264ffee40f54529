/-
  Looking settings up with a memory.

  A `Session` over a store remembers every setting looked up and every color
  read. A color is remembered under its text and its opacity, where opacities
  of equal value are one, and it comes back as it was first read.
-/
import ThemeProps.Settings.Store

namespace ThemeProps

/-- A store with what has been looked up in it. -/
structure Session where
  store : Store
  settings : List (Text × Value) := []
  colors : List ((Text × Number) × Option Color) := []

namespace Session

/-- An action that looks things up in a session. -/
abbrev Lookup := StateM Session

/-- A setting. -/
def get (path : Text) : Lookup Value := fun s =>
  match s.settings.lookup path with
  | some v => (v, s)
  | none =>
    let v := s.store.get path
    (v, { s with settings := (path, v) :: s.settings })

/-- A hex color. -/
def color (alpha : Number) (hex : Text) : Lookup (Option Color) := fun s =>
  match s.colors.find? fun ((h, a), _) => h == hex && a.same alpha with
  | some (_, c) => (c, s)
  | none =>
    let c := Color.ofHex? alpha hex
    (c, { s with colors := ((hex, alpha), c) :: s.colors })

/-- A setting as a stylesheet shows it. -/
def renderSetting (path : Text) : Lookup (Evaluation Text) :=
  renderSettingBy get (color (.int 1)) path

/-- A setting of the first color scheme as a stylesheet shows it. -/
def renderSchemeSetting (path : Text) : Lookup (Evaluation Text) := fun s =>
  renderSchemeBy s.store (color (.int 1)) path s

/-- The identifier of the first color scheme. -/
def firstSchemeId? : Lookup (Option Text) := fun s => (s.store.firstSchemeId?, s)

end Session
end ThemeProps
