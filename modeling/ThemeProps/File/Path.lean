/-
  Paths.

  * `Path` is a path as the list of its components; empty components and single
    dots do not count, double dots do;
  * `Path.parse` reads a path and `Path.toText` writes it;
  * `Path.name` is the last component.
-/
import ThemeProps.Text.Basic

namespace ThemeProps

/-- A path: what it starts from, which is empty for a relative path, and its components. -/
structure Path where
  root : Text := []
  parts : List Text
deriving DecidableEq

namespace Path

/-- The slashes that an absolute path starts with: two of them are kept, but more count as one. -/
def rootOf (s : Text) : Text :=
  match s with
  | '/' :: '/' :: '/' :: _ => ['/']
  | '/' :: '/' :: _ => ['/', '/']
  | '/' :: _ => ['/']
  | _ => []

/-- The path that a text writes. -/
def parse (s : Text) : Path :=
  { root := rootOf s
    parts := (Text.splitAtChar '/' s).filter fun part => part ≠ [] && part ≠ ['.'] }

/-- A path as text; the empty relative path is a dot. -/
def toText (p : Path) : Text :=
  match p.root, p.parts with
  | [], [] => ['.']
  | root, parts => root ++ Text.join "/" parts

/-- The last component; the empty text if there is none. -/
def name (p : Path) : Text := p.parts.getLast?.getD []

/-- The path to `q` from `p`; an absolute path does not depend on where it is seen from. -/
def append (p q : Path) : Path :=
  if q.root = [] then { p with parts := p.parts ++ q.parts } else q

instance : Append Path := ⟨append⟩

/-- Component lists are compared by their first difference. -/
def compareParts : List Text → List Text → Ordering
  | [], [] => .eq
  | [], _ :: _ => .lt
  | _ :: _, [] => .gt
  | a :: as, b :: bs =>
    match Text.compare a b with
    | .eq => compareParts as bs
    | other => other

/-- Paths are compared by their roots and then by their components. -/
def compare (p q : Path) : Ordering :=
  match Text.compare p.root q.root with
  | .eq => compareParts p.parts q.parts
  | other => other

end Path
end ThemeProps
