/-
  Texts: what templates, stylesheets and settings documents are made of.

  * `Text` is the list of the code points of a text, so every length, offset
    and cut in this library counts code points;
  * `cutAt` finds the first occurrence of a separator, `splitOn` cuts at every
    one of them, `join` puts the pieces together again, and `occursIn` is the
    test for an occurrence;
  * `inRanges` is membership in a table of code point ranges, the form in which
    the character classes of `ThemeProps.Text` are written.
-/
namespace ThemeProps

/-- A text is the list of its code points. -/
abbrev Text := List Char

instance : Coe String Text := ⟨String.toList⟩

namespace Text

/-! ## Occurrences and pieces -/

/-- `w.stripFrom s` is what follows `w` in `s`, if `s` begins with `w`. -/
def stripFrom : Text → Text → Option Text
  | [], s => some s
  | _ :: _, [] => none
  | w :: ws, c :: cs => if w = c then stripFrom ws cs else none

/-- The text before the first occurrence of `w`, and the text after it. -/
def cutAt (w : Text) : Text → Option (Text × Text)
  | [] => if w = [] then some ([], []) else none
  | c :: cs =>
    match stripFrom w (c :: cs) with
    | some rest => some ([], rest)
    | none => (cutAt w cs).map fun (before, after) => (c :: before, after)

/-- `w` occurs somewhere in `s`. -/
def occursIn (w s : Text) : Bool := (cutAt w s).isSome

/-- The pieces of a text between the occurrences of a separator, found from left to right. -/
def splitOn (w : Text) (s : Text) : List Text :=
  match cutAt w s with
  | none => [s]
  | some (before, after) =>
    if after.length < s.length then before :: splitOn w after else [s]
termination_by s.length

/-- The pieces of a text between the occurrences of one character. -/
def splitAtChar (sep : Char) : Text → List Text
  | [] => [[]]
  | c :: cs =>
    if c = sep then [] :: splitAtChar sep cs
    else match splitAtChar sep cs with
      | [] => [[c]]
      | piece :: pieces => (c :: piece) :: pieces

/-- The lines of a text, without their line breaks. -/
def lines (s : Text) : List Text := splitAtChar '\n' s

/-- The pieces of a list with a separator between neighbours. -/
def join (sep : Text) : List Text → Text
  | [] => []
  | [piece] => piece
  | piece :: next :: pieces => piece ++ sep ++ join sep (next :: pieces)

/-- `s` begins with `w`. -/
def startsWith (s w : Text) : Bool := (stripFrom w s).isSome

/-- `s` ends with `w`. -/
def endsWith (s w : Text) : Bool := startsWith s.reverse w.reverse

/-! ## Tables of ranges -/

/-- The character lies in one of the ranges, both ends included. -/
def inRanges (ranges : List (Nat × Nat)) (c : Char) : Bool :=
  ranges.any fun (first, last) => first ≤ c.toNat && c.toNat ≤ last

/-! ## Order -/

/-- Texts are compared by their code points, a beginning before its extensions. -/
def compare : Text → Text → Ordering
  | [], [] => .eq
  | [], _ :: _ => .lt
  | _ :: _, [] => .gt
  | a :: as, b :: bs =>
    if a.toNat < b.toNat then .lt else if b.toNat < a.toNat then .gt else compare as bs

/-- The decimal digits of a number. -/
def ofNat (n : Nat) : Text := Nat.toDigits 10 n

/-- The decimal digits of an integer, after a minus sign if it is negative. -/
def ofInt : Int → Text
  | .ofNat n => ofNat n
  | .negSucc n => '-' :: ofNat (n + 1)

end Text
end ThemeProps
