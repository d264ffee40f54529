/-
  Style regions of a template: `{% style %}` and `{% stylesheet %}` blocks and
  `<style>` elements.

  `regions` lists those that mention `:root`, in the order in which they start.
-/
import ThemeProps.Template.Tag

namespace ThemeProps.Stylesheet

/-- The kinds of style regions. -/
inductive RegionKind where
  | styleBlock
  | stylesheetBlock
  | styleElement
deriving DecidableEq

namespace RegionKind

/-- The kinds, in the order in which they are looked for. -/
def all : List RegionKind := [styleBlock, stylesheetBlock, styleElement]

/-- The construct that opens a region. -/
def label : RegionKind → Text
  | styleBlock => "\x7b% style %\x7d"
  | stylesheetBlock => "\x7b% stylesheet %\x7d"
  | styleElement => "<style>"

/-- A region of a kind: its content. -/
def reader : RegionKind → Reader Text
  | styleBlock => do
    Tag.word "style"
    Tag.upToWord "endstyle"
  | stylesheetBlock => do
    Tag.word "stylesheet"
    Tag.upToWord "endstylesheet"
  | styleElement => do
    Reader.keyword "<style"
    let _ ← Reader.run (· ≠ '>')
    Reader.char '>'
    let (content, _) ← Reader.upTo (Reader.keyword "</style>")
    return content

end RegionKind

/-- The content of a style region, and the offset at which the region starts. -/
structure Region where
  kind : RegionKind
  content : Text
  start : Nat

/-- The selector whose rules are of interest. -/
def rootMarker : Text := ":root"

/-- The regions of one kind that mention `:root`. -/
def regionsOf (s : Text) (kind : RegionKind) : List Region :=
  (Reader.findEveryAt kind.reader s).filterMap fun (start, content) =>
    if Text.occursIn rootMarker content then some ⟨kind, content, start⟩ else none

/-- The style regions of a template that mention `:root`. -/
def regions (s : Text) : List Region :=
  (RegionKind.all.flatMap (regionsOf s)).mergeSort fun a b => a.start ≤ b.start

end ThemeProps.Stylesheet
