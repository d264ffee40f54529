/-
  Finding files by patterns.

  A glob is a path whose components may be wildcards; the component `**` stands
  for any number of directories. Several globs can be written as one with
  alternatives in braces.

  * `expandBraces` writes the alternatives out;
  * `isExcluded` tests a path against patterns as a whole: there wildcards do
    not stop at slashes;
  * `Glob.parse` reads a glob and `Glob.select` finds what it stands for;
  * `discover` are the files that some globs stand for and no pattern excludes.
-/
import ThemeProps.File.Tree
import ThemeProps.File.Wildcard
import ThemeProps.Text.Pieces

namespace ThemeProps

/-! ## Alternatives -/

/-- Alternatives in braces, none of them with braces of its own. -/
def alternatives : Reader (List Text) := do
  Reader.char '{'
  let inner ← Reader.run fun c => c ≠ '{' && c ≠ '}'
  Reader.char '}'
  return Text.splitAtChar ',' inner

/-- The patterns that a pattern with alternatives stands for. The first innermost group is written
out first. -/
def expandBraces (s : Text) : List Text :=
  match Reader.findFirst alternatives s with
  | none => [s]
  | some (before, options, after) =>
    options.flatMap fun option =>
      let candidate := before ++ option ++ after
      if candidate.count '{' < s.count '{' then expandBraces candidate else [candidate]
termination_by s.count '{'
decreasing_by assumption

/-! ## Exclusion -/

/-- The path matches the pattern; directories in front of it may be none. -/
def matchesWhole (path pattern : Text) : Bool :=
  matchesPattern pattern path
    || match Text.stripFrom "**/" pattern with
       | some pattern => matchesPattern pattern path
       | none => false

/-- The path, written from the root of the theme, matches one of the patterns. -/
def isExcluded (patterns : List Text) (path : Text) : Bool :=
  patterns.any fun pattern => (expandBraces pattern).any (matchesWhole path)

/-! ## Globs -/

/-- Why a glob stands for nothing at all. -/
inductive GlobError where
  /-- `**` is only a part of a component -/
  | partialDoubleStar
  /-- the glob is an absolute path -/
  | absolute
  /-- the glob has no component -/
  | noComponent
  /-- the glob is nothing but a slash behind a dot -/
  | onlySlash
deriving DecidableEq

/-- A component of a glob. -/
inductive GlobPart where
  /-- any number of directories -/
  | directories
  /-- a name given by wildcards -/
  | wildcard (ws : List Wildcard)
  /-- a given name -/
  | name (s : Text)
  /-- a slash at the end of the glob -/
  | slash

namespace Glob

/-- `**` occurs in the text. -/
def hasDoubleStar : Text → Bool
  | '*' :: '*' :: _ => true
  | _ :: cs => hasDoubleStar cs
  | [] => false

/-- A component of a glob. -/
def parsePart (s : Text) : Except GlobError GlobPart :=
  if s = "**" then .ok .directories
  else if hasDoubleStar s then .error .partialDoubleStar
  else if s.any fun c => c == '*' || c == '?' || c == '[' then .ok (.wildcard (Wildcard.parse s))
  else .ok (.name s)

/-- The components of a glob. -/
def parse (s : Text) : Except GlobError (List GlobPart) := do
  let path := Path.parse s
  if path.root ≠ [] then throw .absolute
  let parts ← path.parts.mapM parsePart
  match parts, s.getLast? with
  | [], some '/' => throw .onlySlash
  | [], _ => throw .noComponent
  | parts, some '/' => return parts ++ [.slash]
  | parts, _ => return parts

/-- A place in a file tree: the components that lead there, what is there, and the directories
around it from the innermost on. -/
structure Place where
  parts : List Text
  ancestors : List Node
  node : Node

namespace Place

/-- The place that a name leads to from a directory. -/
def enter? (place : Place) (name : Text) : Option Place :=
  if name = ['.', '.'] then
    match place.ancestors with
    | parent :: ancestors => some ⟨place.parts ++ [name], ancestors, parent⟩
    | [] => some ⟨place.parts ++ [name], [], Node.empty⟩
  else
    (place.node.children.lookup name).map fun child =>
      ⟨place.parts ++ [name], place.node :: place.ancestors, child⟩

mutual
/-- The directory at a place and all directories below it. -/
def directoriesAt (parts : List Text) (ancestors : List Node) : Node → List Place
  | .file _ => []
  | .directory children =>
    ⟨parts, ancestors, .directory children⟩
      :: directoriesAmong parts (.directory children :: ancestors) children
/-- The directories among some children and below them. -/
def directoriesAmong (parts : List Text) (ancestors : List Node) :
    List (Text × Node) → List Place
  | [] => []
  | (name, node) :: rest =>
    directoriesAt (parts ++ [name]) ancestors node ++ directoriesAmong parts ancestors rest
end

/-- The places of the children of a directory. -/
def enterAll (place : Place) : List Place :=
  place.node.children.map fun (name, child) =>
    ⟨place.parts ++ [name], place.node :: place.ancestors, child⟩

/-- The name that led to the place. -/
def name (place : Place) : Text := place.parts.getLast?.getD []

end Place

/-- The places that the components of a glob lead to. -/
def select : List GlobPart → Place → List Place
  | [], place => [place]
  | .slash :: _, place => [place]
  | .name s :: rest, place =>
    match place.enter? s with
    | none => []
    | some next => if rest.isEmpty || next.node.isDirectory then select rest next else []
  | .wildcard ws :: rest, place =>
    (place.enterAll.filter fun next =>
      (rest.isEmpty || next.node.isDirectory) && Wildcard.accepts ws next.name).flatMap
        (select rest)
  | .directories :: rest, place =>
    (Place.directoriesAt place.parts place.ancestors place.node).flatMap (select rest)

end Glob

/-! ## Discovery -/

/-- The place that some names lead to; all but the last one lead to directories. -/
def Glob.Place.enterEach? (place : Glob.Place) : List Text → Option Glob.Place
  | [] => some place
  | name :: names =>
    if place.node.isDirectory then (place.enter? name).bind (enterEach? · names) else none

/-- The place of a directory, if it is one. Names are counted from there. -/
def Node.directoryAt? (tree : Node) (root : Path) : Option Glob.Place :=
  if root.root = [] then
    (Glob.Place.enterEach? ⟨[], [], tree⟩ root.parts).bind fun place =>
      if place.node.isDirectory then some { place with parts := [] } else none
  else none

/-- The files that a glob stands for, as components from a directory. -/
def filesOf (place : Glob.Place) (glob : Text) : Except GlobError (List (List Text)) := do
  let parts ← Glob.parse glob
  return ((Glob.select parts place).filter fun found => found.node.isFile).map (·.parts)

/-- The files that some globs stand for, as components from a directory. -/
def includedFiles (place : Glob.Place) (globs : List Text) :
    Except GlobError (List (List Text)) := do
  let candidates := (globs.flatMap expandBraces).filter (· ≠ [])
  return (← candidates.mapM (filesOf place)).flatten

/-- The paths without repetitions, in their order. -/
def sortPaths (paths : List Path) : List Path :=
  (paths.mergeSort fun p q => (p.compare q).isLE).eraseDups

/-- The files below a directory that some globs stand for and no pattern excludes, in order. -/
def discover (tree : Node) (root : Path) (globs excluded : List Text) :
    Except GlobError (List Path) :=
  match tree.directoryAt? root with
  | none => .ok []
  | some place => do
    let files ← includedFiles place globs
    let kept := files.filter fun parts => !isExcluded excluded (Path.toText ⟨[], parts⟩)
    return sortPaths (kept.map fun parts => root ++ ⟨[], parts⟩)

end ThemeProps
