/-
  Wildcard patterns for names.

  In a pattern `*` stands for any text, `?` for any character and `[…]` for a
  character of a set, or `[!…]` for one outside it; a bracket that is never
  closed stands for itself.

  * `Wildcard` is a part of a pattern and `Wildcard.parse` reads a pattern;
  * `Wildcard.accepts` tests a name, and `matchesPattern` does both.
-/
import ThemeProps.Text.Basic

namespace ThemeProps

/-- A part of a wildcard pattern. -/
inductive Wildcard where
  /-- any text -/
  | anyText
  /-- any character -/
  | anyChar
  /-- a given character -/
  | exactly (c : Char)
  /-- a character of some ranges, or of none of them if `negated` -/
  | oneOf (negated : Bool) (ranges : List (Char × Char))
deriving DecidableEq

namespace Wildcard

/-! ## Sets of characters -/

/-- The position of the first hyphen at or after a position. -/
def hyphenFrom (s : Text) (start : Nat) : Option Nat :=
  ((s.drop start).findIdx? (· == '-')).map (start + ·)

/-- The text cut at the hyphens that stand for ranges. The next such hyphen is not at or before
position `from_`, and at least two characters lie between two of them. -/
def chunks (s : Text) (from_ : Nat) : List Text :=
  match hyphenFrom s from_ with
  | none => [s]
  | some k =>
    if k + 1 ≤ s.length then s.take k :: chunks (s.drop (k + 1)) 2 else [s]
termination_by s.length
decreasing_by simp only [List.length_drop]; omega

/-- The chunks, with a hyphen at the very end joined to the chunk before it. -/
def joinLast : List Text → List Text
  | [] => []
  | [chunk] => [chunk]
  | [chunk, []] => [chunk ++ "-"]
  | chunk :: rest => chunk :: joinLast rest

/-- The chunks without ranges that run backwards: the ends of such a range are dropped. -/
def dropEmptyRanges : List Text → List Text
  | [] => []
  | chunk :: rest =>
    match dropEmptyRanges rest with
    | [] => [chunk]
    | next :: more =>
      match chunk.getLast?, next with
      | some a, b :: next' =>
        if b < a then (chunk.dropLast ++ next') :: more else chunk :: next :: more
      | _, _ => chunk :: next :: more

/-- The ranges of some chunks: the characters between two neighbours and each other character. -/
def rangesOf : List Text → List (Char × Char)
  | [] => []
  | [chunk] => chunk.map fun c => (c, c)
  | chunk :: next :: more =>
    chunk.map (fun c => (c, c))
      ++ (match chunk.getLast?, next.head? with
          | some a, some b => [(a, b)]
          | _, _ => [])
      ++ rangesOf (next :: more)

/-- The set that the text between two brackets stands for. -/
def set (s : Text) : Wildcard :=
  let negated := s.head? == some '!'
  let pieces :=
    if s.contains '-' then dropEmptyRanges (joinLast (chunks s (if negated then 2 else 1)))
    else [s]
  match pieces with
  | ('!' :: chunk) :: more =>
    if chunk = [] ∧ more = [] then anyChar else oneOf true (rangesOf (chunk :: more))
  | pieces => oneOf false (rangesOf pieces)

/-! ## Patterns -/

/-- The text of a set up to its closing bracket, and the text behind it. A closing bracket at its
beginning, also after an exclamation mark, belongs to the set. -/
def setText? (s : Text) : Option (Text × Text) :=
  let (mark, rest) : Text × Text := match s with
    | '!' :: rest => (['!'], rest)
    | rest => ([], rest)
  let (first, rest) : Text × Text := match rest with
    | ']' :: rest => ([']'], rest)
    | rest => ([], rest)
  match rest.dropWhile (· ≠ ']') with
  | [] => none
  | _ :: behind => some (mark ++ first ++ rest.takeWhile (· ≠ ']'), behind)

/-- The parts of a pattern. -/
def parse : Text → List Wildcard
  | [] => []
  | c :: cs =>
    if c = '*' then anyText :: parse cs
    else if c = '?' then anyChar :: parse cs
    else if c = '[' then
      match setText? cs with
      | some (s, behind) =>
        if behind.length < cs.length then set s :: parse behind else exactly '[' :: parse cs
      | none => exactly '[' :: parse cs
    else exactly c :: parse cs
termination_by s => s.length

/-- The part stands for the character. -/
def acceptsChar (c : Char) : Wildcard → Bool
  | anyText => false
  | anyChar => true
  | exactly d => c == d
  | oneOf negated ranges => negated != ranges.any fun (first, last) => first ≤ c && c ≤ last

/-- The texts that a text ends with, from the whole one to the empty one. -/
def endings : Text → List Text
  | [] => [[]]
  | c :: cs => (c :: cs) :: endings cs

/-- The parts stand for the text. -/
def accepts : List Wildcard → Text → Bool
  | [], s => s.isEmpty
  | anyText :: ws, s => (endings s).any (accepts ws)
  | _ :: _, [] => false
  | w :: ws, c :: cs => acceptsChar c w && accepts ws cs

end Wildcard

/-- The name matches the pattern. -/
def matchesPattern (pattern name : Text) : Bool := Wildcard.accepts (Wildcard.parse pattern) name

end ThemeProps
