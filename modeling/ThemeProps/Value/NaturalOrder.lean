/-
  The natural order of texts: `size-2` comes before `size-10`.

  A text is cut into runs of digits and the texts between them. Digits are
  compared as numbers and come before other texts, which are compared
  regardless of letter case.

  * `naturalKey` is what a text is sorted by, `compareKeys` the order of keys;
  * `Value.sortNatural` sorts a list by the keys of its items' output forms and
    keeps the order of items with equal keys.
-/
import ThemeProps.Value.Number
import ThemeProps.Text.CaseFold

namespace ThemeProps

/-- A part of a text in natural order. -/
inductive Chunk where
  | number (n : Nat)
  | word (folded : Text)
deriving DecidableEq

/-- A run of digits, as a chunk. -/
def Chunk.ofDigits (s : Text) : Evaluation Chunk :=
  if s.length ≤ maxDigits then .ok (.number (Text.numberOfDigits s))
  else .error .unreadableDigits

/-- A text without decimal digits, as a chunk. It must not consist of other digits alone. -/
def Chunk.ofWord (s : Text) : Evaluation Chunk :=
  if s.all Text.isDigitLike then .error .unreadableDigits else .ok (.word (Text.foldCase s))

/-- The runs of digits of a text and the texts between them, none of them empty. -/
def digitRuns : Text → List Text
  | [] => []
  | c :: cs =>
    match digitRuns cs with
    | [] => [[c]]
    | [] :: runs => [c] :: runs
    | (d :: run) :: runs =>
      if Text.isDigit c = Text.isDigit d then (c :: d :: run) :: runs
      else [c] :: (d :: run) :: runs

/-- What a text is sorted by. -/
def naturalKey (s : Text) : Evaluation (List Chunk) :=
  (digitRuns s).mapM fun run =>
    if run.any Text.isDigit then Chunk.ofDigits run else Chunk.ofWord run

/-- Numbers come before words. -/
def Chunk.compare : Chunk → Chunk → Ordering
  | number m, number n => if m < n then .lt else if n < m then .gt else .eq
  | number _, word _ => .lt
  | word _, number _ => .gt
  | word s, word t => Text.compare s t

/-- The first difference decides, and a beginning comes before its extensions. -/
def compareKeys : List Chunk → List Chunk → Ordering
  | [], [] => .eq
  | [], _ :: _ => .lt
  | _ :: _, [] => .gt
  | a :: as, b :: bs =>
    match a.compare b with
    | .eq => compareKeys as bs
    | other => other

namespace Value

/-- A value with the key of its output form. -/
def withNaturalKey (v : Value) : Evaluation (List Chunk × Value) := do
  return (← naturalKey (← v.toText), v)

/-- The items of a list in natural order. -/
def sortItems (items : List Value) : Evaluation (List Value) := do
  let keyed ← items.mapM withNaturalKey
  return (keyed.mergeSort fun a b => (compareKeys a.1 b.1).isLE).map (·.2)

/-- A list in natural order; other values stay as they are. -/
def sortNatural : Value → Evaluation Value
  | list _ items => do return list .fresh (← sortItems items)
  | v => .ok v

end Value
end ThemeProps
