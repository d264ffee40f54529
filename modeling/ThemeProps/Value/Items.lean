/-
  Lists of values and texts cut into lists.

  * `Value.splitText` cuts the output form of a value at a delimiter;
  * `Value.replaceText` replaces a text in it wherever it occurs;
  * `Value.uniq` keeps the first of all items that are the same item;
  * `Value.indexOf` is the position of a text in a list.
-/
import ThemeProps.Value.Number
import ThemeProps.Text.Pieces

namespace ThemeProps

/-- The text with another one in place of each occurrence of `search`; the empty text occurs
between all characters and at both ends. -/
def Text.replaceAll (search replacement s : Text) : Text :=
  if search = [] then replacement ++ s.flatMap (· :: replacement)
  else (Reader.literal search).replaceEvery (fun _ => replacement) s

namespace Value

/-- The pieces of a value's output form between the delimiters; an empty delimiter stands between
all characters. -/
def splitText (delimiter : Text) (v : Value) : Evaluation Value := do
  let s ← v.toText
  let pieces := if delimiter = [] then s.map fun c => [c] else Text.splitOn delimiter s
  return list .fresh (pieces.map str)

/-- The output form of a value with one text in place of another. -/
def replaceText (v : Value) (search : Text) (replacement : Value) : Evaluation Value := do
  let r ← replacement.toText
  return str (Text.replaceAll search r (← v.toText))

/-- The values are of one kind: truth values are not numbers, nor are whole numbers doubles. -/
def sameKind : Value → Value → Bool
  | null, null => true
  | bool _, bool _ => true
  | number (.int _), number (.int _) => true
  | number (.float _), number (.float _) => true
  | str _, str _ => true
  | list _ _, list _ _ => true
  | map _ _, map _ _ => true
  | _, _ => false

/-- The items count as one: numbers of equal value, and other items of equal kind and contents. -/
def sameItem : Value → Value → Bool
  | number m, number n => m.same n
  | v, w => sameKind v w && v.equal w

/-- The items that are not the same as one of `seen` or as an item before them. -/
def uniqueFrom (seen : List Value) : List Value → List Value
  | [] => []
  | v :: vs => if seen.any v.sameItem then uniqueFrom seen vs else v :: uniqueFrom (seen ++ [v]) vs

/-- A list without the items that are the same as an earlier one; other values stay as they
are. -/
def uniq : Value → Value
  | list _ items => list .fresh (uniqueFrom [] items)
  | v => v

/-- The position of a text among some items, the first of which is at position `n`. -/
def positionOfText (sought : Text) (n : Nat) : List Value → Option Nat
  | [] => none
  | str s :: vs => if s = sought then some n else positionOfText sought (n + 1) vs
  | _ :: vs => positionOfText sought (n + 1) vs

/-- The position of the first item, counted from `n`, that stands for a number. -/
def positionOfNumber (sought : Float) (n : Nat) : List Value → Evaluation (Option Nat)
  | [] => .ok none
  | v :: vs => do
    if (← v.toNumber) == sought then return some n else positionOfNumber sought (n + 1) vs

/-- The position of a text among some items, or else of the number at its beginning; -1 if neither
is there. -/
def indexOf (items : List Value) (sought : Text) : Evaluation Int := do
  match positionOfText sought 0 items with
  | some n => return n
  | none =>
    let x ← (str sought).toNumber
    if x.isNaN then return -1
    match ← positionOfNumber x 0 items with
    | some n => return n
    | none => return -1

end Value
end ThemeProps
