/-
  The nodes of a YAML document.

  * `Node` is a scalar, a sequence, a mapping or an alias, with its tag and its
    anchor;
  * `Node.ofTokens?` reads the one document that some tokens write; a text
    without a document has none.
-/
import ThemeProps.Yaml.Token

namespace ThemeProps.Yaml

/-- The tag and the anchor of a node. -/
structure Properties where
  tag : Option Text := none
  anchor : Option Text := none

/-- A node of a document. -/
inductive Node where
  | reference (name : Text)
  | scalar (properties : Properties) (isPlain : Bool) (s : Text)
  | sequence (properties : Properties) (items : List Node)
  | mapping (properties : Properties) (pairs : List (Node × Node))

namespace Node

/-- The node where nothing is written. -/
def empty : Node := scalar {} true []

/-- Takes nodes off some tokens, or refuses. -/
abbrev Parser := StateT (List Token) Option

/-- The next token. -/
def next? : Parser (Option Token) := fun ts => some (ts.head?, ts)

/-- Drops the next token. -/
def skip : Parser Unit := fun ts => some ((), ts.drop 1)

/-- The next token is one of some tokens. -/
def nextIs (expected : List Token) : Parser Bool := fun ts =>
  some (ts.head?.any expected.contains, ts)

/-- Drops the next token if it is the given one. -/
def skipIf (t : Token) : Parser Bool := fun ts =>
  if ts.head? = some t then some (true, ts.drop 1) else some (false, ts)

/-- Drops the next token, which has to be the given one. -/
def expect (t : Token) : Parser Unit := do
  if !(← skipIf t) then failure

/-- An anchor, if one is next. -/
def anchor? : Parser (Option Text)
  | .anchor name :: ts => some (some name, ts)
  | ts => some (none, ts)

/-- A tag, if one is next. -/
def tag? : Parser (Option Text)
  | .tag name :: ts => some (some name, ts)
  | ts => some (none, ts)

/-- The tag and the anchor of a node, in any order. -/
def properties : Parser Properties := do
  match ← anchor? with
  | some anchor => return { anchor := some anchor, tag := ← tag? }
  | none =>
    match ← tag? with
    | some tag => return { tag := some tag, anchor := ← anchor? }
    | none => return {}

/-- The node of an alias. -/
def reference? : Parser (Option Node)
  | .reference name :: ts => some (some (reference name), ts)
  | ts => some (none, ts)

mutual
/-- A node; `inBlock` tells that block collections may begin here, and `indentless` that entries of
a sequence may follow without a further indentation. The depth of nodes is bounded by the first
argument. -/
def parse (inBlock indentless : Bool) : Nat → Parser Node
  | 0 => failure
  | n + 1 => do
    match ← reference? with
    | some node => return node
    | none =>
      let p ← properties
      match ← next? with
      | some .blockEntry =>
        if indentless then return sequence p (← indentlessEntries n)
        else if p.tag.isSome || p.anchor.isSome then return scalar p true []
        else failure
      | some (.scalar isPlain s) => skip; return scalar p isPlain s
      | some .flowSequenceStart => skip; return sequence p (← flowEntries true n)
      | some .flowMappingStart => skip; return mapping p (← flowPairs true n)
      | some .blockSequenceStart =>
        if inBlock then skip; return sequence p (← blockEntries n)
        else if p.tag.isSome || p.anchor.isSome then return scalar p true []
        else failure
      | some .blockMappingStart =>
        if inBlock then skip; return mapping p (← blockPairs n)
        else if p.tag.isSome || p.anchor.isSome then return scalar p true []
        else failure
      | _ => if p.tag.isSome || p.anchor.isSome then return scalar p true [] else failure
/-- A node, or the empty one in front of some tokens. -/
def parseUnless (stops : List Token) (inBlock indentless : Bool) : Nat → Parser Node
  | 0 => failure
  | n + 1 => do
    if ← nextIs stops then return empty else parse inBlock indentless n
/-- The entries of a block sequence. -/
def blockEntries : Nat → Parser (List Node)
  | 0 => failure
  | n + 1 => do
    if ← skipIf .blockEntry then
      let node ← parseUnless [.blockEntry, .blockEnd] true false n
      return node :: (← blockEntries n)
    else
      expect .blockEnd
      return []
/-- The entries of a sequence at the indentation of the mapping around it. -/
def indentlessEntries : Nat → Parser (List Node)
  | 0 => failure
  | n + 1 => do
    if ← skipIf .blockEntry then
      let node ← parseUnless [.blockEntry, .key, .value, .blockEnd] true false n
      return node :: (← indentlessEntries n)
    else return []
/-- The pairs of a block mapping. -/
def blockPairs : Nat → Parser (List (Node × Node))
  | 0 => failure
  | n + 1 => do
    if ← nextIs [.key, .value] then
      let key ← if ← skipIf .key then parseUnless [.key, .value, .blockEnd] true true n
                else pure empty
      let value ← if ← skipIf .value then parseUnless [.key, .value, .blockEnd] true true n
                  else pure empty
      return (key, value) :: (← blockPairs n)
    else
      expect .blockEnd
      return []
/-- The entries of a flow sequence; behind the first one each follows a comma. An entry may be a
mapping with a single pair. -/
def flowEntries (isFirst : Bool) : Nat → Parser (List Node)
  | 0 => failure
  | n + 1 => do
    if ← skipIf .flowSequenceEnd then return []
    else
      if !isFirst then expect .flowEntry
      if ← skipIf .flowSequenceEnd then return []
      else if ← skipIf .key then
        let key ← parseUnless [.value, .flowEntry, .flowSequenceEnd] false false n
        let value ← if ← skipIf .value then
            parseUnless [.flowEntry, .flowSequenceEnd] false false n
          else pure empty
        return mapping {} [(key, value)] :: (← flowEntries false n)
      else
        let node ← parse false false n
        return node :: (← flowEntries false n)
/-- The pairs of a flow mapping; behind the first one each follows a comma. -/
def flowPairs (isFirst : Bool) : Nat → Parser (List (Node × Node))
  | 0 => failure
  | n + 1 => do
    if ← skipIf .flowMappingEnd then return []
    else
      if !isFirst then expect .flowEntry
      if ← skipIf .flowMappingEnd then return []
      else if ← nextIs [.key, .value] then
        let key ← if ← skipIf .key then
            parseUnless [.value, .flowEntry, .flowMappingEnd] false false n
          else pure empty
        let value ← if ← skipIf .value then
            parseUnless [.flowEntry, .flowMappingEnd] false false n
          else pure empty
        return (key, value) :: (← flowPairs false n)
      else
        let key ← parse false false n
        return (key, empty) :: (← flowPairs false n)
end

/-- Drops tokens as long as they are the given one. -/
def skipAll (t : Token) : Parser Unit := fun ts => some ((), ts.dropWhile (· == t))

/-- The document that some tokens write, if there is one. -/
def document : Parser (Option Node) := do
  let n ← fun ts => some (2 * List.length ts + 2, ts)
  if ← skipIf .streamEnd then return none
  let node ← if ← nextIs [.directive, .documentStart] then do
      skipAll .directive
      expect .documentStart
      parseUnless [.directive, .documentStart, .documentEnd, .streamEnd] true false n
    else parse true false n
  skipAll .documentEnd
  expect .streamEnd
  return some node

/-- The document that some tokens write; the outer option tells whether they are in order. -/
def ofTokens? (ts : List Token) : Option (Option Node) := (document ts).map (·.1)

end Node
end ThemeProps.Yaml
