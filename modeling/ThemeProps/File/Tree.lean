/-
  File trees.

  * `Node` is a file with its bytes or a directory with its children;
  * `Node.find?` follows a path from a directory, `Node.writeFile` and
    `Node.makeDirectory` put a file or a directory at a path and make the
    directories on the way, and `Node.removeAt` takes a file away;
  * `Node.readText?` is the text of a file, with line breaks as line feeds.
-/
import ThemeProps.File.Path
import ThemeProps.Text.Utf8

namespace ThemeProps

/-- A file or a directory. -/
inductive Node where
  | file (bytes : Bytes)
  | directory (children : List (Text × Node))

namespace Node

/-- The directory without children. -/
def empty : Node := directory []

/-- The node is a directory. -/
def isDirectory : Node → Bool
  | directory _ => true
  | file _ => false

/-- The node is a file. -/
def isFile (node : Node) : Bool := !node.isDirectory

/-- The children of a directory; a file has none. -/
def children : Node → List (Text × Node)
  | directory children => children
  | file _ => []

/-- The node that some components lead to from `node`, whose ancestors are given from the innermost
on. The tree holds nothing beyond its outermost directory. -/
def walk (ancestors : List Node) (node : Node) : List Text → Option Node
  | [] => some node
  | part :: parts =>
    if part = ['.', '.'] then
      match node, ancestors with
      | directory _, parent :: ancestors => walk ancestors parent parts
      | directory _, [] => walk [] empty parts
      | file _, _ => none
    else
      match node.children.lookup part with
      | some child => walk (node :: ancestors) child parts
      | none => none

/-- The node at a path from a directory. The tree holds no absolute paths. -/
def find? (node : Node) (path : Path) : Option Node :=
  if path.root = [] then walk [] node path.parts else none

/-- Something is at the path. -/
def exists? (node : Node) (path : Path) : Bool := (node.find? path).isSome

/-- Some children with one of them set. A known child keeps its place. -/
def setChild (name : Text) (child : Node) : List (Text × Node) → List (Text × Node)
  | [] => [(name, child)]
  | (other, node) :: rest =>
    if other = name then (name, child) :: rest else (other, node) :: setChild name child rest

/-- The tree after a change at a path; missing directories are made. -/
def update (change : Option Node → Node) : List Text → Option Node → Node
  | [], node => change node
  | part :: parts, node =>
    let children := (node.map children).getD []
    directory (setChild part (update change parts (children.lookup part)) children)

/-- The tree with a file at a path. -/
def writeFile (node : Node) (path : Path) (bytes : Bytes) : Node :=
  update (fun _ => file bytes) path.parts (some node)

/-- The tree with a directory at a path. -/
def makeDirectory (node : Node) (path : Path) : Node :=
  update (fun old => directory ((old.map children).getD [])) path.parts (some node)

/-- The tree without what is at a path. -/
def removeAt : List Text → Node → Node
  | [], node => node
  | [name], node => directory (node.children.filter (·.1 ≠ name))
  | part :: parts, node =>
    match node.children.lookup part with
    | some child => directory (setChild part (removeAt parts child) node.children)
    | none => node

/-- The text of a file, if it is one and holds text. -/
def text? : Node → Option Text
  | file bytes => (Text.decode? bytes).map Text.normalizeBreaks
  | directory _ => none

/-- The text of the file at a path. -/
def readText? (node : Node) (path : Path) : Option Text := (node.find? path).bind text?

end Node
end ThemeProps
