/-
  The values that YAML documents write.

  * `Node.compose` is the value of a node: scalars are read by their types,
    aliases stand for the nodes with their anchors, and a mapping may take over
    the pairs of other mappings;
  * `document?` is the value of the document in a text; a text without one is
    null.
-/
import ThemeProps.Yaml.Node
import ThemeProps.Yaml.Schema
import ThemeProps.Value.Key

namespace ThemeProps.Yaml

/-- Makes values in view of the anchored values so far, or refuses. -/
abbrev Composer := StateT (List (Text × Value)) Option

namespace Composer

/-- The value, remembered under the anchor of its node. -/
def remember (p : Properties) (v : Value) : Composer Value := fun anchors =>
  match p.anchor with
  | some name => some (v, (name, v) :: anchors)
  | none => some (v, anchors)

/-- The value that an alias stands for. -/
def resolve (name : Text) : Composer Value := fun anchors =>
  (anchors.lookup name).map (·, anchors)

end Composer

/-! ## Scalars -/

/-- The tag of a node. -/
def Properties.tag? (p : Properties) : Option Tag :=
  match p.tag with
  | none => some .unspecific
  | some s => Tag.parse? s

/-- The type of a scalar, from its tag or its form. -/
def scalarType? (p : Properties) (isPlain : Bool) (s : Text) : Option ScalarType := do
  match ← p.tag? with
  | .scalar type => return type
  | .unspecific => return if isPlain || p.tag.isSome then ScalarType.ofPlain s else .str
  | .unknown => return .other
  | _ => none

/-- A sequence may have the tag. -/
def Tag.allowsSequence : Tag → Bool
  | unspecific => true
  | sequence => true
  | unknown => true
  | _ => false

/-- A mapping may have the tag. -/
def Tag.allowsMapping : Tag → Bool
  | unspecific => true
  | mapping => true
  | unknown => true
  | _ => false

/-! ## Mappings -/

/-- A pair of a mapping whose key is a value, or a value that the mapping takes over. -/
inductive Member where
  | pair (key v : Value)
  | merged (v : Value)

/-- The pairs among some members. A key must not occur twice. -/
def ownPairs? : List Member → Option (List (Value × Value))
  | [] => some []
  | .merged _ :: ms => ownPairs? ms
  | .pair key v :: ms => do
    let pairs ← ownPairs? ms
    if pairs.any fun (other, _) => key.equal other then none else some ((key, v) :: pairs)

/-- The mappings that a value stands for when it is taken over: itself, or its items. -/
def sources? : Value → Option (List Fields)
  | .map _ fields => some [fields]
  | .list _ items => items.mapM fun
    | .map _ fields => some fields
    | _ => none
  | _ => none

/-- The mappings that some members take over, which is done once. -/
def merged? : List Member → Option (List Fields)
  | [] => some []
  | .pair _ _ :: ms => merged? ms
  | .merged v :: ms => do
    let sources ← sources? v
    let more ← merged? ms
    if sources.isEmpty then return more
    else if ms.any fun | .merged _ => true | _ => false then none
    else return sources

/-- The fields with those of another mapping that are not among them. -/
def addMissing (fields more : Fields) : Fields :=
  fields ++ more.filter fun (key, _) => (fields.get? key).isNone

/-- The fields that some members make: the own pairs, and behind them what is taken over. -/
def fields? (ms : List Member) : Option Fields := do
  let own ← ownPairs? ms
  let merged ← merged? ms
  return merged.foldl addMissing (own.map fun (key, v) => (key.keyText, v))

/-! ## Nodes -/

namespace Node

/-- The node is the key under which a mapping takes over other mappings. -/
def isMergeKey : Node → Bool
  | scalar p isPlain s => scalarType? p isPlain s = some .merge
  | _ => false

/-- The text of a scalar of a type that is not read. -/
def unreadText? : Node → Option (Properties × Text)
  | scalar p isPlain s => if scalarType? p isPlain s = some .other then some (p, s) else none
  | _ => none

mutual
/-- The value of a node. -/
def compose : Node → Composer Value
  | reference name => Composer.resolve name
  | scalar p isPlain s => do
    let type ← scalarType? p isPlain s
    Composer.remember p (← type.read? p.anchor.isSome s)
  | sequence p items => do
    let tag ← p.tag?
    if !tag.allowsSequence then failure
    Composer.remember p (.list .fresh (← composeItems items))
  | mapping p pairs => do
    let tag ← p.tag?
    if !tag.allowsMapping then failure
    Composer.remember p (.map .fresh (← fields? (← composePairs pairs)))
/-- The values of some nodes. -/
def composeItems : List Node → Composer (List Value)
  | [] => pure []
  | node :: nodes => do
    let v ← compose node
    return v :: (← composeItems nodes)
/-- The members that some pairs of nodes make. A key of a type that is not read
stands for its text. -/
def composePairs : List (Node × Node) → Composer (List Member)
  | [] => pure []
  | (key, node) :: pairs => do
    let k ← match key.unreadText? with
      | some (p, s) => Composer.remember p (.str s)
      | none => compose key
    let v ← compose node
    let members ← composePairs pairs
    return (if key.isMergeKey then .merged v else .pair k v) :: members
end

end Node

/-- The value of the document in a text. -/
def document? (s : Text) : Option Value := do
  match ← Node.ofTokens? (← tokens? s) with
  | none => return .null
  | some node => (node.compose []).map (·.1)

end ThemeProps.Yaml
