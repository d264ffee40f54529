/-
  Readers: recognising a construct at the beginning of a text.

  A `Reader α` either refuses or gives a value and the rest of the text, so
  readers compose in `do` blocks and by `<|>`.

  * `char`, `literal`, `keyword`, `run`, `blanks` read single constructs;
  * `upTo` reads the shortest stretch after which another reader succeeds.
-/
import ThemeProps.Text.Blank
import ThemeProps.Text.CaseFold

namespace ThemeProps

/-- A reader takes a construct off the beginning of a text, or refuses. -/
abbrev Reader := StateT Text Option

namespace Reader

/-- One character that satisfies a test. -/
def satisfy (p : Char → Bool) : Reader Char
  | c :: cs => if p c then some (c, cs) else none
  | [] => none

/-- One given character. -/
def char (c : Char) : Reader Unit
  | d :: cs => if d = c then some ((), cs) else none
  | [] => none

/-- A given text. -/
def literal (w : Text) : Reader Unit := fun s => (Text.stripFrom w s).map ((), ·)

/-- A given word in small letters, in any letter case. -/
def keyword (w : Text) : Reader Unit := fun s =>
  match w, s with
  | [], s => some ((), s)
  | _ :: _, [] => none
  | letter :: letters, c :: cs =>
    if Text.sameLetter letter c then keyword letters cs else none

/-- The longest run, possibly empty, of characters that satisfy a test. -/
def run (p : Char → Bool) : Reader Text := fun s => some (s.takeWhile p, s.dropWhile p)

/-- The longest run of characters that satisfy a test; there has to be one. -/
def run1 (p : Char → Bool) : Reader Text
  | c :: cs => if p c then some (c :: cs.takeWhile p, cs.dropWhile p) else none
  | [] => none

/-- Blanks, or none. -/
def blanks : Reader Unit := fun s => some ((), s.dropWhile Text.isBlank)

/-- At least one blank. -/
def blanks1 : Reader Unit := do
  let _ ← run1 Text.isBlank

/-- A character, or nothing. -/
def maybe (c : Char) : Reader Unit
  | d :: cs => if d = c then some ((), cs) else some ((), d :: cs)
  | [] => some ((), [])

/-- The rest of the text. -/
def rest : Reader Text := fun s => some (s, [])

/-- The shortest stretch of text after which `stop` succeeds, and what `stop` reads there. -/
def upTo (stop : Reader α) : Reader (Text × α)
  | [] => (stop []).map fun (a, r) => (([], a), r)
  | c :: cs =>
    match stop (c :: cs) with
    | some (a, r) => some (([], a), r)
    | none => (upTo stop cs).map fun ((t, a), r) => ((c :: t, a), r)

/-- The value read from a text that is read to its end. -/
def readAll? (reader : Reader α) (s : Text) : Option α :=
  match reader s with
  | some (a, []) => some a
  | _ => none

end Reader
end ThemeProps
