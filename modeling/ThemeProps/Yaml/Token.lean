/-
  The tokens of a YAML document.

  Indentation is turned into tokens that open and close block collections. A
  scalar may turn out to be a mapping key when a colon follows it on the same
  line; until then its place among the tokens is remembered.

  * `Token` are the tokens;
  * `Scanner` is the state of reading them, and `tokens?` reads a whole text.
    It refuses a text in which no token can begin somewhere.
-/
import ThemeProps.Yaml.Scalar

namespace ThemeProps.Yaml

/-- A token of a document. -/
inductive Token where
  | directive
  | documentStart
  | documentEnd
  | streamEnd
  | blockSequenceStart
  | blockMappingStart
  | blockEnd
  | blockEntry
  | flowSequenceStart
  | flowSequenceEnd
  | flowMappingStart
  | flowMappingEnd
  | flowEntry
  | key
  | value
  | reference (name : Text)
  | anchor (name : Text)
  | tag (name : Text)
  | scalar (isPlain : Bool) (s : Text)
deriving DecidableEq

/-- A token that may be the key of a mapping: its place among the tokens and in the text. -/
structure PossibleKey where
  place : Nat
  required : Bool
  index : Nat
  line : Nat
  column : Nat

/-- The state of reading tokens. -/
structure Scanner where
  rest : Text
  index : Nat := 0
  line : Nat := 0
  column : Nat := 0
  /-- The tokens read, in order. -/
  tokens : List Token := []
  /-- The column of the innermost block collection; -1 outside all of them. -/
  indent : Int := -1
  /-- The columns of the block collections around it. -/
  indents : List Int := []
  /-- The opening marks of the flow collections around, the innermost first. -/
  flows : List Char := []
  /-- A key may begin here. -/
  keyAllowed : Bool := true
  /-- The possible keys, under the number of flow collections around each. -/
  keys : List (Nat × PossibleKey) := []

namespace Scanner

/-- A step of reading tokens, which may fail. -/
abbrev Step := Scanner → Option Scanner

/-! ## Moving on -/

/-- The state behind the next `n` characters. -/
def advance : Nat → Scanner → Scanner
  | 0, s => s
  | n + 1, s =>
    match s.rest with
    | [] => s
    | c :: cs =>
      let s := { s with rest := cs, index := s.index + 1 }
      advance n (if c = '\n' then { s with line := s.line + 1, column := 0 }
                 else { s with column := s.column + 1 })

/-- The state in front of a later rest of the text. -/
def advanceTo (rest : Text) (s : Scanner) : Scanner := s.advance (s.rest.length - rest.length)

/-- The state with a further token. -/
def add (t : Token) (s : Scanner) : Scanner := { s with tokens := s.tokens ++ [t] }

/-- The number of flow collections around. -/
def depth (s : Scanner) : Nat := s.flows.length

/-- A block collection may begin or go on here. -/
def inBlock (s : Scanner) : Bool := s.flows.isEmpty

/-- The character `n` places ahead. -/
def ahead (s : Scanner) (n : Nat) : Char := peek (s.rest.drop n)

/-- The blanks and comments in front of the next token skipped. -/
def skipGap : Nat → Scanner → Scanner
  | 0, s => s
  | more + 1, s =>
    let isBlank := if s.inBlock then (· == ' ') else isSpaceOrTab
    let s := s.advance (s.rest.takeWhile isBlank).length
    let s := if peek s.rest = '#' then s.advance (s.rest.takeWhile (· ≠ '\n')).length else s
    match s.rest with
    | '\n' :: _ =>
      let s := s.advance 1
      skipGap more (if s.inBlock then { s with keyAllowed := true } else s)
    | _ => s

/-! ## Possible keys -/

/-- Forgets the possible key at the present depth, which must not be required. -/
def dropKey : Step := fun s =>
  match s.keys.lookup s.depth with
  | some key => if key.required then none else some { s with keys := s.keys.filter (·.1 ≠ s.depth) }
  | none => some s

/-- Forgets the keys that are too far back: on an earlier line, or more than 1024 characters ago. -/
def dropStaleKeys : Step := fun s =>
  let isStale (key : PossibleKey) : Bool := key.line ≠ s.line || 1024 < s.index - key.index
  if s.keys.any fun (_, key) => isStale key && key.required then none
  else some { s with keys := s.keys.filter fun (_, key) => !isStale key }

/-- Remembers the next token as a possible key, if one is allowed. -/
def saveKey : Step := fun s =>
  if s.keyAllowed then do
    let required := s.inBlock && s.indent == s.column
    let s ← s.dropKey
    let key : PossibleKey := ⟨s.tokens.length, required, s.index, s.line, s.column⟩
    return { s with keys := (s.depth, key) :: s.keys }
  else some s

/-! ## Indentation -/

/-- Closes the block collections that are indented more than a column. -/
def unwind (column : Int) (s : Scanner) : Scanner :=
  if s.inBlock then close s.indents s else s
where
  /-- Closes block collections whose surroundings have the given columns. -/
  close : List Int → Scanner → Scanner
    | [], s => s
    | outer :: indents, s =>
      if column < s.indent then close indents { s.add .blockEnd with indent := outer, indents }
      else s

/-- The state with a block collection at a column, and whether that is a new one. -/
def indentTo (column : Nat) (s : Scanner) : Scanner × Bool :=
  if s.indent < column then
    ({ s with indent := column, indents := s.indent :: s.indents }, true)
  else (s, false)

/-- Opens a block collection at the present column, unless it is open already. -/
def openBlock (t : Token) (s : Scanner) : Scanner :=
  let (s, isNew) := s.indentTo s.column
  if isNew then s.add t else s

/-! ## Tokens -/

/-- A document mark or the end of the text: all block collections end here. -/
def endBlocks : Step := fun s => do
  let s ← (s.unwind (-1)).dropKey
  return { s with keyAllowed := false }

/-- The mark between documents. -/
def documentMark (t : Token) : Step := fun s => do
  let s ← s.endBlocks
  return (s.add t).advance 3

/-- A directive, up to the end of its line. -/
def directive : Step := fun s => do
  let s ← s.endBlocks
  return (s.add .directive).advance (s.rest.takeWhile (· ≠ '\n')).length

/-- The opening mark of a flow collection. -/
def openFlow (mark : Char) (t : Token) : Step := fun s => do
  let s ← s.saveKey
  return { s.add t with flows := mark :: s.flows, keyAllowed := true }.advance 1

/-- The closing mark of a flow collection. -/
def closeFlow (t : Token) : Step := fun s => do
  let s ← s.dropKey
  return { s.add t with flows := s.flows.drop 1, keyAllowed := false }.advance 1

/-- A comma of a flow collection. -/
def flowEntry : Step := fun s => do
  let s ← { s with keyAllowed := true }.dropKey
  return (s.add .flowEntry).advance 1

/-- The mark of an entry of a block sequence. -/
def blockEntry : Step := fun s => do
  if s.inBlock && !s.keyAllowed then none
  else
    let s := if s.inBlock then s.openBlock .blockSequenceStart else s
    let s ← { s with keyAllowed := true }.dropKey
    return (s.add .blockEntry).advance 1

/-- The mark of a key. -/
def explicitKey : Step := fun s => do
  if s.inBlock && !s.keyAllowed then none
  else
    let s := if s.inBlock then s.openBlock .blockMappingStart else s
    let s ← { s with keyAllowed := s.inBlock }.dropKey
    return (s.add .key).advance 1

/-- The mark of a value: a possible key in front of it becomes a key, and perhaps the first one of a
block mapping. -/
def valueMark : Step := fun s =>
  match s.keys.lookup s.depth with
  | some key =>
    let s := { s with
      keys := s.keys.filter (·.1 ≠ s.depth)
      tokens := s.tokens.insertIdx key.place .key
      keyAllowed := false }
    let (s, isNew) := if s.inBlock then s.indentTo key.column else (s, false)
    let s := if isNew then
        { s with tokens := s.tokens.insertIdx key.place .blockMappingStart } else s
    some ((s.add .value).advance 1)
  | none => do
    if s.inBlock && !s.keyAllowed then none
    else
      let s := if s.inBlock then s.openBlock .blockMappingStart else s
      let s ← { s with keyAllowed := s.inBlock }.dropKey
      return (s.add .value).advance 1

/-- The characters of the name of an anchor. -/
def isAnchorChar (c : Char) : Bool :=
  (0x21 ≤ c.toNat && c.toNat ≠ 0x7F && c.toNat ≠ 0xFEFF
    && !(0x80 ≤ c.toNat && c.toNat < 0xA0))
    && !(c == ',' || c == '[' || c == ']' || c == '\x7b' || c == '\x7d')

/-- An anchor or an alias: its mark and its name. -/
def anchor (token : Text → Token) : Step := fun s => do
  let s ← s.saveKey
  let name := (s.rest.drop 1).takeWhile isAnchorChar
  let s := { s with keyAllowed := false }
  let behind := s.ahead (1 + name.length)
  if name = [] then none
  else if isGap behind || behind == ',' || behind == '[' || behind == ']' || behind == '\x7b'
      || behind == '\x7d' then
    return (s.add (token name)).advance (1 + name.length)
  else none

/-- The characters of a tag. -/
def isTagChar (c : Char) : Bool :=
  c.isAlphanum || "-;/?:@&=+$,_.!~*\x27()[]%#".toList.contains c

/-- A tag. -/
def tag : Step := fun s => do
  let s ← s.saveKey
  let s := { s with keyAllowed := false }
  let name := (s.rest.drop 1).takeWhile isTagChar
  match s.rest.drop 1 with
  | '<' :: rest =>
    let name := rest.takeWhile isTagChar
    let behind := rest.drop name.length
    if name ≠ [] ∧ peek behind = '>' ∧ isGap (peek (behind.drop 1)) then
      return (s.add (.tag name)).advance (name.length + 3)
    else none
  | rest =>
    if isGap (peek (rest.drop name.length)) then
      return (s.add (.tag ('!' :: name))).advance (1 + name.length)
    else none

/-- A scalar read from the text behind its mark. -/
def scalar (isPlain : Bool) (read : Text → Option Scanned) : Step := fun s => do
  let scanned ← read s.rest
  let s := s.advanceTo scanned.rest
  let s := if scanned.crossedLine && isPlain then { s with keyAllowed := true } else s
  return s.add (.scalar isPlain scanned.value)

/-- A quoted scalar. -/
def quoted (read : Nat → Text → Option Scanned) : Step := fun s => do
  let s ← s.saveKey
  scalar false (fun rest => read (rest.length + 1) (rest.drop 1)) { s with keyAllowed := false }

/-- A literal or folded scalar. -/
def block (folded : Bool) : Step := fun s => do
  let s ← { s with keyAllowed := true }.dropKey
  scalar false (fun rest => blockScalar folded s.indent (rest.drop 1)) s

/-- A plain scalar. -/
def plainScalar : Step := fun s => do
  let s ← s.saveKey
  let inFlow := !s.inBlock
  scalar true (fun rest => some (plain inFlow (s.indent + 1) (rest.length + 1) rest))
    { s with keyAllowed := false }

/-- A plain scalar can begin here. -/
def startsPlain (s : Scanner) : Bool :=
  let c := s.ahead 0
  let next := s.ahead 1
  if !isGap c && !"-?:,[]\x7b\x7d#&*!|>\x27\"%@\x60".toList.contains c then true
  else if c == '-' && !isGap next then true
  else if c == ':' && !s.inBlock && !isSpaceOrTab next then true
  else !isGap next && s.inBlock && (c == '?' || c == ':')

/-- The mark of a value is here. -/
def startsValue (s : Scanner) : Bool :=
  let gap := isGap (s.ahead 1)
  match s.flows with
  | [] => gap
  | '[' :: _ => gap
  | _ => gap || s.tokens.getLast? ≠ some .value

/-- The next token, which is not the end of the text. -/
def token : Step := fun s =>
  let c := s.ahead 0
  let gap := isGap (s.ahead 1)
  if c = '%' ∧ s.column = 0 then s.directive
  else if c = '-' ∧ s.column = 0 ∧ atDocumentMark s.rest then s.documentMark .documentStart
  else if c = '.' ∧ s.column = 0 ∧ atDocumentMark s.rest then s.documentMark .documentEnd
  else if c = '[' then s.openFlow c .flowSequenceStart
  else if c = '{' then s.openFlow c .flowMappingStart
  else if c = ']' then s.closeFlow .flowSequenceEnd
  else if c = '}' then s.closeFlow .flowMappingEnd
  else if c = ',' then s.flowEntry
  else if c = '-' ∧ gap then s.blockEntry
  else if c = '?' ∧ (!s.inBlock ∨ gap) then s.explicitKey
  else if c = ':' ∧ s.startsValue then s.valueMark
  else if c = '*' then s.anchor .reference
  else if c = '&' then s.anchor .anchor
  else if c = '!' then s.tag
  else if c = '|' ∧ s.inBlock then s.block false
  else if c = '>' ∧ s.inBlock then s.block true
  else if c = '\x27' then s.quoted singleQuoted
  else if c = '"' then s.quoted doubleQuoted
  else if s.startsPlain then s.plainScalar
  else none

/-- The state after at most `more` further tokens, and the end of the text. -/
def scanAll : Nat → Step
  | 0, _ => none
  | more + 1, s => do
    let s ← (s.skipGap (s.rest.length + 1)).dropStaleKeys
    let s := s.unwind s.column
    if s.rest = [] then
      let s ← s.endBlocks
      return s.add .streamEnd
    else scanAll more (← s.token)

end Scanner

/-- A character that may occur in a document. -/
def isPrintable (c : Char) : Bool :=
  c == '\t' || c == '\n' || (0x20 ≤ c.toNat && c.toNat ≤ 0x7E) || c.toNat == 0x85
    || (0xA0 ≤ c.toNat && c.toNat ≤ 0xFFFD) || 0x10000 ≤ c.toNat

/-- The tokens of a text. A byte order mark at its beginning does not count. -/
def tokens? (s : Text) : Option (List Token) :=
  if s.all isPrintable then
    let s := if s.head? = some '\uFEFF' then s.drop 1 else s
    (Scanner.scanAll (s.length + 2) { rest := s }).map (·.tokens)
  else none

end ThemeProps.Yaml
