/-
  Describing a custom property in a few lines: its name, its value, where it is
  declared, its variants in media queries and a converted length.
-/
import ThemeProps.Registry
import ThemeProps.Units

namespace ThemeProps.Entry

/-- The line with the converted length of a value, if it has one. -/
def conversionLine? (base : Float) (value : Text) : Option Text :=
  (Units.conversionHint base (Text.trim value)).map fun hint =>
    let unit : Text := if Text.endsWith hint "px" then "px" else "rem"
    "Convert to " ++ unit ++ ": " ++ hint

/-- The lines that describe a custom property; the last one converts its length if that is
wanted. -/
def describe (e : Entry) (converts : Bool) (base : Float) : List Text :=
  let variants : List Text := e.media.map fun m => "  @media " ++ m.query ++ ": " ++ m.value
  let head : List Text :=
    ["CSS Variable: " ++ e.name, "Value: " ++ e.value,
      "Source: " ++ e.fileName ++ " (" ++ e.sourceFile ++ ")"]
  head ++ (if variants = [] then [] else "Media Query Variants:".toList :: variants)
    ++ (if converts then (conversionLine? base e.value).toList else [])

end ThemeProps.Entry
