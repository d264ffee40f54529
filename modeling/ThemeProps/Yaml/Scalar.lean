/-
  The written forms of YAML scalars.

  * `plain` reads an unquoted scalar, which may go on over several lines;
  * `singleQuoted` and `doubleQuoted` read quoted ones, after their opening
    mark;
  * `blockScalar` reads a literal or folded one, after its opening mark.

  Line breaks within plain and quoted scalars are folded: a single one becomes a
  space, and of several ones the first is dropped.
-/
import ThemeProps.Text.Digit
import ThemeProps.Text.Basic

namespace ThemeProps.Yaml

/-- What a reader of scalars gives: the scalar, the rest of the text, and whether line breaks were
read behind the scalar. -/
structure Scanned where
  value : Text
  rest : Text
  crossedLine : Bool := false

/-- The first character, or NUL at the end of the text; NUL does not occur in documents. -/
def peek (s : Text) : Char := s.head?.getD '\x00'

/-- A space or a tab. -/
def isSpaceOrTab (c : Char) : Bool := c == ' ' || c == '\t'

/-- A blank, a line break or the end of the text. -/
def isGap (c : Char) : Bool := isSpaceOrTab c || c == '\n' || c == '\x00'

/-- A line that separates documents begins here. -/
def atDocumentMark (s : Text) : Bool :=
  match s with
  | a :: b :: c :: rest =>
    ((a == '-' && b == '-' && c == '-') || (a == '.' && b == '.' && c == '.')) && isGap (peek rest)
  | _ => false

/-! ## Plain scalars -/

/-- The character, before the next one, belongs to a plain scalar, inside a flow collection or
outside. -/
def isPlainChar (flow : Bool) (c next : Char) : Bool :=
  if c = ':' then !isGap next
  else if c = '?' then true
  else !isGap c && !(flow && (c == ',' || c == '[' || c == ']' || c == '\x7b' || c == '\x7d'))

/-- The part of a plain scalar up to the next blank or the end of the scalar. -/
def plainRun (flow : Bool) : Text → Text × Text
  | [] => ([], [])
  | c :: cs =>
    if isPlainChar flow c (peek cs) then
      let (run, rest) := plainRun flow cs
      (c :: run, rest)
    else ([], c :: cs)

/-- The blanks and line breaks that follow, as far as no document mark: the number of line breaks,
the column behind them, and the rest. -/
def skipLines (breaks column : Nat) : Text → Nat × Nat × Text
  | [] => (breaks, column, [])
  | c :: cs =>
    if c = ' ' then skipLines breaks (column + 1) cs
    else if c = '\n' then
      if atDocumentMark cs then (breaks + 1, 0, cs) else skipLines (breaks + 1) 0 cs
    else (breaks, column, c :: cs)

/-- Line breaks as they are folded. -/
def foldBreaks (breaks : Nat) : Text :=
  if breaks = 1 then [' '] else List.replicate (breaks - 1) '\n'

/-- A plain scalar; `indent` is the least column of its further lines outside flow collections, and
`more` bounds the number of its parts. -/
def plain (flow : Bool) (indent : Int) : Nat → Text → Scanned
  | 0, s => { value := [], rest := s }
  | more + 1, s =>
    if peek s = '#' then { value := [], rest := s }
    else
      let (run, afterRun) := plainRun flow s
      if run = [] then { value := [], rest := s }
      else
        let spaces := afterRun.takeWhile (· == ' ')
        let behind := afterRun.dropWhile (· == ' ')
        if peek behind = '\n' then
          let (breaks, column, rest) := skipLines 0 0 behind
          if peek rest = '#' || (!flow && (column : Int) < indent)
              || (column == 0 && atDocumentMark rest) then
            { value := run, rest, crossedLine := true }
          else
            let next := plain flow indent more rest
            { value := if next.value = [] then run else run ++ foldBreaks breaks ++ next.value
              rest := next.rest, crossedLine := next.value = [] || next.crossedLine }
        else if spaces = [] || peek behind = '#' then { value := run, rest := behind }
        else
          let next := plain flow indent more behind
          { next with value := if next.value = [] then run else run ++ spaces ++ next.value }

/-! ## Quoted scalars -/

/-- The line breaks and blanks inside a quoted scalar: the number of line breaks and the rest. A
document mark must not begin a line. -/
def quotedLines (breaks : Nat) (lineStart : Bool) : Text → Option (Nat × Text)
  | [] => some (breaks, [])
  | c :: cs =>
    if lineStart && atDocumentMark (c :: cs) then none
    else if isSpaceOrTab c then quotedLines breaks false cs
    else if c = '\n' then quotedLines (breaks + 1) true cs
    else some (breaks, c :: cs)

/-- What blanks inside a quoted scalar stand for, and the rest. -/
def quotedBlanks (s : Text) : Option (Text × Text) :=
  let spaces := s.takeWhile isSpaceOrTab
  match s.dropWhile isSpaceOrTab with
  | [] => none
  | '\n' :: cs => do
    let (more, rest) ← quotedLines 0 true cs
    return (foldBreaks (more + 1), rest)
  | rest => some (spaces, rest)

/-- A single-quoted scalar, with at most `more` parts. -/
def singleQuoted : Nat → Text → Option Scanned
  | 0, _ => none
  | more + 1, s =>
    match s with
    | [] => none
    | '\x27' :: '\x27' :: cs => do
      let next ← singleQuoted more cs
      return { next with value := '\x27' :: next.value }
    | '\x27' :: cs => some { value := [], rest := cs }
    | c :: cs =>
      if isSpaceOrTab c ∨ c = '\n' then do
        let (blanks, rest) ← quotedBlanks (c :: cs)
        let next ← singleQuoted more rest
        return { next with value := blanks ++ next.value }
      else do
        let next ← singleQuoted more cs
        return { next with value := c :: next.value }

/-- What an escape of one character stands for. -/
def escape? (c : Char) : Option Char :=
  ([('0', 0), ('a', 7), ('b', 8), ('t', 9), ('\t', 9), ('n', 10), ('v', 11), ('f', 12), ('r', 13),
    ('e', 27), (' ', 32), ('"', 34), ('/', 47), ('\\', 92), ('N', 0x85), ('_', 0xA0),
    ('L', 0x2028), ('P', 0x2029)].lookup c).map Char.ofNat

/-- The number of hexadecimal digits of an escape. -/
def escapeLength? (c : Char) : Option Nat :=
  if c = 'x' then some 2 else if c = 'u' then some 4 else if c = 'U' then some 8 else none

/-- The character that some hexadecimal digits stand for. -/
def hexChar? (digits : Text) : Option Char := do
  let n ← digits.foldlM (fun n c => (Text.hexValue? c).map (16 * n + ·)) 0
  if n.isValidChar then return Char.ofNat n else none

/-- A double-quoted scalar, with at most `more` parts. -/
def doubleQuoted : Nat → Text → Option Scanned
  | 0, _ => none
  | more + 1, s =>
    match s with
    | [] => none
    | '"' :: cs => some { value := [], rest := cs }
    | '\\' :: '\n' :: cs => do
      let (breaks, rest) ← quotedLines 0 true cs
      let next ← doubleQuoted more rest
      return { next with value := List.replicate breaks '\n' ++ next.value }
    | '\\' :: c :: cs =>
      match escape? c, escapeLength? c with
      | some d, _ => do
        let next ← doubleQuoted more cs
        return { next with value := d :: next.value }
      | none, some n =>
        if (cs.take n).length = n then do
          let d ← hexChar? (cs.take n)
          let next ← doubleQuoted more (cs.drop n)
          return { next with value := d :: next.value }
        else none
      | none, none => none
    | c :: cs =>
      if isSpaceOrTab c ∨ c = '\n' then do
        let (blanks, rest) ← quotedBlanks (c :: cs)
        let next ← doubleQuoted more rest
        return { next with value := blanks ++ next.value }
      else do
        let next ← doubleQuoted more cs
        return { next with value := c :: next.value }

/-! ## Block scalars -/

/-- What becomes of the line breaks at the end of a block scalar. -/
inductive Chomping where
  | clip
  | strip
  | keep
deriving DecidableEq

/-- The header of a block scalar: chomping and an explicit indentation, in any order. -/
structure BlockHeader where
  chomping : Chomping := .clip
  indentation : Option Nat := none

/-- A chomping indicator. -/
def chomping? (c : Char) : Option Chomping :=
  if c = '+' then some .keep else if c = '-' then some .strip else none

/-- An indentation indicator, from 1 to 9. -/
def indentation? (c : Char) : Option Nat :=
  if '1' ≤ c ∧ c ≤ '9' then some (c.toNat - '0'.toNat) else none

/-- The header of a block scalar and the rest of its line. -/
def blockHeader (s : Text) : BlockHeader × Text :=
  match s with
  | [] => ({}, [])
  | a :: rest =>
    match chomping? a, indentation? a with
    | some chomping, _ =>
      match rest.head?.bind indentation? with
      | some n => ({ chomping, indentation := some n }, rest.drop 1)
      | none => ({ chomping }, rest)
    | none, some n =>
      match rest.head?.bind chomping? with
      | some chomping => ({ chomping, indentation := some n }, rest.drop 1)
      | none => ({ indentation := some n }, rest)
    | none, none => ({}, s)

/-- The text behind the line that a block scalar begins on; only a comment may stand on it. -/
def afterHeaderLine (s : Text) : Option Text :=
  let s := s.dropWhile (· == ' ')
  let s := if peek s = '#' then s.dropWhile (· ≠ '\n') else s
  match s with
  | [] => some []
  | '\n' :: rest => some rest
  | _ => none

/-- The first lines of a block scalar: the number of line breaks before its first character, the
column of that character, the widest column of a blank before it, and the rest. The first empty
line must not be wider than the ones after it. -/
def firstLines (breaks column widest : Nat) (firstEmpty : Option Nat) :
    Text → Option (Nat × Nat × Nat × Text)
  | [] => some (breaks, column, widest, [])
  | c :: cs =>
    if c = '\n' then
      firstLines (breaks + 1) 0 widest (some (firstEmpty.getD column)) cs
    else if c = ' ' then firstLines breaks (column + 1) (max widest (column + 1)) firstEmpty cs
    else
      match firstEmpty with
      | some n =>
        if 0 < n ∧ n < widest then none else some (breaks, column, widest, c :: cs)
      | none => some (breaks, column, widest, c :: cs)

/-- The empty lines before the next line of a block scalar with the given indentation: the number
of line breaks, the column reached, and the rest. -/
def emptyLines (indent breaks column : Nat) : Text → Nat × Nat × Text
  | [] => (breaks, column, [])
  | c :: cs =>
    if c = ' ' ∧ column < indent then emptyLines indent breaks (column + 1) cs
    else if c = '\n' then emptyLines indent (breaks + 1) 0 cs
    else (breaks, column, c :: cs)

/-- The rest of a block scalar from the beginning of a line's text on, with at most `more` lines:
its text without the line breaks at its end, whether its last line ends in one, the number of
empty lines behind it, and the rest. -/
def blockLines (folded atTop : Bool) (indent : Nat) :
    Nat → Text → Text × Bool × Nat × Text
  | 0, s => ([], false, 0, s)
  | more + 1, s =>
    let line := s.takeWhile (· ≠ '\n')
    match s.dropWhile (· ≠ '\n') with
    | [] => (line, false, 0, [])
    | _ :: behind =>
      let (breaks, column, rest) := emptyLines indent 0 0 behind
      if column = indent ∧ rest ≠ [] ∧ !(atTop && column == 0 && atDocumentMark rest) then
        let between : Text :=
          if folded && !isSpaceOrTab (peek s) && !isSpaceOrTab (peek rest) then
            if breaks = 0 then [' '] else List.replicate breaks '\n'
          else List.replicate (breaks + 1) '\n'
        let (text, final, empty, rest) := blockLines folded atTop indent more rest
        (line ++ between ++ text, final, empty, rest)
      else (line, true, breaks, rest)

/-- A block scalar whose surroundings are indented to the column `outer`. -/
def blockScalar (folded : Bool) (outer : Int) (s : Text) : Option Scanned := do
  let (header, rest) := blockHeader s
  let start ← afterHeaderLine rest
  let least := (outer + 1).toNat
  let (breaks, column, indent, rest) ←
    match header.indentation with
    | some n =>
      let indent := max least 1 + n - 1
      let (breaks, column, rest) := emptyLines indent 0 0 start
      some (breaks, column, indent, rest)
    | none => do
      let (breaks, column, widest, rest) ← firstLines 0 0 0 none start
      some (breaks, column, max least widest, rest)
  let leading : Text := List.replicate breaks '\n'
  if column = indent ∧ rest ≠ [] then
    let (text, final, empty, rest) := blockLines folded (least == 0) indent (rest.length + 1) rest
    let ending : Text := match header.chomping with
      | .strip => []
      | .clip => if final then ['\n'] else []
      | .keep => (if final then ['\n'] else []) ++ List.replicate empty '\n'
    return { value := leading ++ text ++ ending, rest, crossedLine := true }
  else
    let ending : Text := if header.chomping = .keep then leading else []
    return { value := ending, rest, crossedLine := true }

end ThemeProps.Yaml
