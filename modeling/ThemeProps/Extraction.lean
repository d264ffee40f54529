/-
  Extracting the custom properties of templates.

  Every style region of a template that mentions `:root` is made a plain
  stylesheet and the declarations in it are collected.

  * `Extraction` are the declarations found, up to the point at which a region
    could not be evaluated;
  * `Extraction.ofSource` extracts one file, `Extraction.ofSources` several;
  * `scanSources` is the registry of several files.
-/
import ThemeProps.Template.Stage
import ThemeProps.Stylesheet.Region
import ThemeProps.Stylesheet.Rule

namespace ThemeProps

/-- The declarations found, and what went wrong after them. -/
structure Extraction where
  declarations : List Declaration := []
  failure : Option EvalError := none

/-- A template file: its path and its text. -/
structure Source where
  path : Text
  content : Text

namespace Extraction

/-- One extraction and then another, unless the first has gone wrong. -/
def andThen (a b : Extraction) : Extraction :=
  match a.failure with
  | none => ⟨a.declarations ++ b.declarations, b.failure⟩
  | some e => ⟨a.declarations, some e⟩

/-- Some extractions, one after the other. -/
def all : List Extraction → Extraction
  | [] => {}
  | x :: xs => x.andThen (all xs)

open Stylesheet in
/-- The declarations of a plain stylesheet. -/
def ofStylesheet (onlyRoot : Bool) (file css : Text) : List Declaration :=
  if Text.occursIn rootMarker css then
    echoDeclarations file css ++ rootDeclarations file css
      ++ (if onlyRoot then [] else classDeclarations file css)
  else []

/-- The declarations of the content of a style region. -/
def ofRegion (store : Store) (onlyRoot : Bool) (file content : Text) : Extraction :=
  match toStylesheet store content with
  | .ok css => { declarations := ofStylesheet onlyRoot file css }
  | .error e => { failure := some e }

/-- The declarations of a template file. -/
def ofSource (store : Store) (onlyRoot : Bool) (source : Source) : Extraction :=
  if Text.occursIn Stylesheet.rootMarker source.content then
    all ((Stylesheet.regions source.content).map fun region =>
      ofRegion store onlyRoot source.path region.content)
  else {}

/-- The declarations of some template files, in order. -/
def ofSources (store : Store) (onlyRoot : Bool) (sources : List Source) : Extraction :=
  all (sources.map (ofSource store onlyRoot))

end Extraction

/-- The registry of the custom properties of some template files. -/
def scanSources (store : Store) (onlyRoot : Bool) (sources : List Source) :
    Evaluation Registry :=
  let found := Extraction.ofSources store onlyRoot sources
  match found.failure with
  | none => .ok (Registry.declareAll {} found.declarations)
  | some e => .error e

end ThemeProps
