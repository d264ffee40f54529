/-
  Carving a text: the constructs that a reader finds in it and the plain
  characters between them.

  A text is read from left to right; where the reader succeeds, its construct
  is one `found` piece and the reading goes on behind it, elsewhere one `plain`
  character is passed over.

  * `pieces` is the list of pieces of a text;
  * `replaceEvery` writes another text for each construct found, and
    `replaceEveryM` does so by an action;
  * `findEvery` lists the constructs, `findEveryAt` with the offsets at which
    they start, and `findFirst` gives the first one with the text around it.
-/
import ThemeProps.Text.Reader

namespace ThemeProps

/-- A piece of a carved text. -/
inductive Piece (α : Type) where
  /-- A character that belongs to no construct. -/
  | plain (c : Char)
  /-- A construct: its text and what was read from it. -/
  | found (source : Text) (value : α)

/-- The text that a piece takes up. -/
def Piece.source : Piece α → Text
  | plain c => [c]
  | found source _ => source

namespace Reader

/-- The pieces of a text. A construct takes up at least one character. -/
def pieces (reader : Reader α) : Text → List (Piece α)
  | [] => []
  | c :: cs =>
    match reader (c :: cs) with
    | some (a, r) =>
      if r.length ≤ cs.length then
        .found ((c :: cs).take (cs.length + 1 - r.length)) a :: pieces reader r
      else .plain c :: pieces reader cs
    | none => .plain c :: pieces reader cs
termination_by s => s.length
decreasing_by all_goals simp only [List.length_cons]; omega

/-- The text with each construct replaced. -/
def replaceEvery (reader : Reader α) (write : α → Text) (s : Text) : Text :=
  (pieces reader s).flatMap fun
    | .plain c => [c]
    | .found _ a => write a

/-- The pieces written one after the other, where writing a construct is an action. -/
def writePieces {m : Type → Type} [Monad m] (write : α → m Text) : List (Piece α) → m Text
  | [] => pure []
  | .plain c :: ps => do
    let rest ← writePieces write ps
    return c :: rest
  | .found _ a :: ps => do
    let here ← write a
    let rest ← writePieces write ps
    return here ++ rest

/-- The text with each construct replaced, from left to right, by what an action gives. -/
def replaceEveryM {m : Type → Type} [Monad m] (reader : Reader α) (write : α → m Text)
    (s : Text) : m Text :=
  writePieces write (pieces reader s)

/-- The text with each construct left out. -/
def removeEvery (reader : Reader α) (s : Text) : Text := replaceEvery reader (fun _ => []) s

/-- The constructs of a text, in order. -/
def findEvery (reader : Reader α) (s : Text) : List α :=
  (pieces reader s).filterMap fun
    | .plain _ => none
    | .found _ a => some a

/-- The constructs among some pieces with the offsets at which they start, where the first piece
starts at `offset`. -/
def startsFrom (offset : Nat) : List (Piece α) → List (Nat × α)
  | [] => []
  | .plain _ :: ps => startsFrom (offset + 1) ps
  | .found source a :: ps => (offset, a) :: startsFrom (offset + source.length) ps

/-- The constructs of a text with the offsets at which they start. -/
def findEveryAt (reader : Reader α) (s : Text) : List (Nat × α) :=
  startsFrom 0 (pieces reader s)

/-- The first construct of a text, with the text before and after it. -/
def findFirst (reader : Reader α) : Text → Option (Text × α × Text)
  | [] => (reader []).map fun (a, r) => ([], a, r)
  | c :: cs =>
    match reader (c :: cs) with
    | some (a, r) => some ([], a, r)
    | none => (findFirst reader cs).map fun (before, a, r) => (c :: before, a, r)

end Reader
end ThemeProps
