/-
  The registry of custom properties.

  * `Entry` is a property with its value, the file that declares it and its
    variants in media queries;
  * `Registry` holds the entries in the order of their discovery, and
    `Registry.declare` adds a declaration: the first one of a name gives the
    value, and any one in a media query adds a variant;
  * `Registry.sourceFiles` are the declaring files.
-/
import ThemeProps.File.Path

namespace ThemeProps

/-- The value of a custom property in a media query. -/
structure MediaVariant where
  query : Text
  value : Text
deriving DecidableEq

/-- A custom property. -/
structure Entry where
  /-- The name with its leading hyphens. -/
  name : Text
  /-- The value of the first declaration. -/
  value : Text
  /-- The file of the first declaration. -/
  sourceFile : Text
  /-- The variants in media queries, in the order of their discovery. -/
  media : List MediaVariant
deriving DecidableEq

/-- The name of the declaring file without its directory. -/
def Entry.fileName (e : Entry) : Text := (Path.parse e.sourceFile).name

/-- A declaration of a custom property, perhaps in a media query. -/
structure Declaration where
  name : Text
  value : Text
  sourceFile : Text
  query : Option Text := none
deriving DecidableEq

namespace Declaration

/-- The variant that a declaration gives; an empty query counts as none. -/
def variants (d : Declaration) : List MediaVariant :=
  match d.query with
  | none => []
  | some [] => []
  | some query => [⟨query, d.value⟩]

/-- The entry that a first declaration makes. -/
def toEntry (d : Declaration) : Entry := ⟨d.name, d.value, d.sourceFile, d.variants⟩

end Declaration

/-- Custom properties in the order of their discovery. -/
structure Registry where
  entries : List Entry := []
deriving DecidableEq

namespace Registry

/-- The entry of a property. -/
def get? (r : Registry) (name : Text) : Option Entry := r.entries.find? (·.name == name)

/-- The property is known. -/
def contains (r : Registry) (name : Text) : Bool := (r.get? name).isSome

/-- The number of properties. -/
def size (r : Registry) : Nat := r.entries.length

/-- Some entries after a declaration. -/
def addTo (d : Declaration) : List Entry → List Entry
  | [] => [d.toEntry]
  | e :: es =>
    if e.name = d.name then { e with media := e.media ++ d.variants } :: es else e :: addTo d es

/-- The registry after a declaration. -/
def declare (r : Registry) (d : Declaration) : Registry := ⟨addTo d r.entries⟩

/-- The registry after some declarations, in order. -/
def declareAll (r : Registry) (ds : List Declaration) : Registry := ds.foldl declare r

/-- The distinct texts of a list that are not among `seen`, in the order of their first
occurrence. -/
def distinctFrom (seen : List Text) : List Text → List Text
  | [] => []
  | s :: ss => if seen.contains s then distinctFrom seen ss else s :: distinctFrom (s :: seen) ss

/-- The declaring files, in the order of their first occurrence. -/
def sourceFiles (r : Registry) : List Text := distinctFrom [] (r.entries.map (·.sourceFile))

/-- A one-line summary. -/
def summary (r : Registry) : Text :=
  "VariableRegistry(" ++ Text.ofNat r.size ++ " variables)"

end Registry
end ThemeProps
