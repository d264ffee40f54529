/-
  Outlines: the form in which a registry is handed to other programs.

  An `Outline` is a text, a list of outlines or a list of named outlines.
  `Registry.outline` lists the properties with their values, files and
  variants.
-/
import ThemeProps.Registry

namespace ThemeProps

/-- A text, or outlines in order, with or without names. -/
inductive Outline where
  | text (s : Text)
  | items (items : List Outline)
  | fields (fields : List (Text × Outline))

namespace Outline

/-- Named texts. -/
def ofTexts (texts : List (Text × Text)) : Outline := fields (texts.map fun (k, s) => (k, text s))

end Outline

/-- The outline of a variant. -/
def MediaVariant.outline (m : MediaVariant) : Outline :=
  .ofTexts [("query", m.query), ("value", m.value)]

/-- The outline of a property. -/
def Entry.outline (e : Entry) : Outline :=
  .fields [("value", .text e.value), ("file", .text e.fileName),
    ("source_file", .text e.sourceFile), ("media", .items (e.media.map (·.outline)))]

/-- The outline of a registry. -/
def Registry.outline (r : Registry) : Outline :=
  .fields (r.entries.map fun e => (e.name, e.outline))

end ThemeProps
