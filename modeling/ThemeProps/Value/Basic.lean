/-
  Values: what template expressions evaluate to and what settings hold.

  * `Number` keeps whole numbers of any size apart from doubles;
  * `Value` is an absent value, a truth value, a number, a text, a list or a
    mapping in the order of its keys. Lists and mappings carry an `Identity`,
    since two of them are equal for a template only if they are the same one;
  * `Value.toText` is the output form of a value, which a whole number of too
    many digits does not have;
  * `Value.equal` compares two values by their contents;
  * `Bindings` are the variables that a template sees, in the order in which
    they were first bound.
-/
import ThemeProps.Decimal.Layout
import ThemeProps.Evaluation

namespace ThemeProps

/-! ## Numbers -/

/-- A whole number of any size or a double. -/
inductive Number where
  | int (n : Int)
  | float (x : Float)

namespace Number

/-- The whole number has no more digits than can be written. -/
def IsWritable (n : Int) : Prop := (Text.ofNat n.natAbs).length ≤ maxDigits

instance (n : Int) : Decidable (IsWritable n) := inferInstanceAs (Decidable (_ ≤ _))

/-- The output form of a double. One that is a whole number below `10 ^ 21` is written with all its
digits and has no fraction. -/
def floatText (x : Float) : Text :=
  match integer? x with
  | some n => if n.natAbs < tenTo 21 then Text.ofInt n else Layout.plain.write x
  | none => Layout.plain.write x

/-- The output form of a number. -/
def toText : Number → Evaluation Text
  | int n => if IsWritable n then .ok (Text.ofInt n) else .error .tooManyDigits
  | float x => .ok (floatText x)

/-- The recorded form of a number. -/
def literal : Number → Text
  | int n => Text.ofInt n
  | float x => Layout.literal.write x

/-- The numbers have the same value; NaN has no value. -/
def same : Number → Number → Bool
  | int m, int n => m == n
  | int m, float y => integer? y == some m
  | float x, int n => integer? x == some n
  | float x, float y => x == y

end Number

/-! ## Values -/

/-- Which list or mapping a value is. -/
inductive Identity where
  /-- A list that a filter has just made; nothing else refers to it. -/
  | fresh
  /-- The `n`-th list or mapping of the data that the template was given. -/
  | given (n : Nat)
  /-- The `n`-th list or mapping that the running block has bound. -/
  | made (n : Nat)
  /-- The `n`-th list or mapping of the settings documents. -/
  | read (n : Nat)
deriving DecidableEq

/-- Both are the same object. -/
def Identity.same (a b : Identity) : Bool := a ≠ .fresh && a == b

/-- Both come from the settings documents. Every NaN in them is one and the same object. -/
def Identity.shareNaN : Identity → Identity → Bool
  | read _, read _ => true
  | _, _ => false

/-- A template value or a settings value. -/
inductive Value where
  | null
  | bool (b : Bool)
  | number (n : Number)
  | str (s : Text)
  | list (id : Identity) (items : List Value)
  | map (id : Identity) (fields : List (Text × Value))

instance : Inhabited Value := ⟨.null⟩

/-- The fields of a mapping, in the order of their keys. -/
abbrev Fields := List (Text × Value)

/-- The value of a field. -/
def Fields.get? (fields : Fields) (key : Text) : Option Value := fields.lookup key

namespace Value

/-- A whole number. -/
abbrev int (n : Int) : Value := .number (.int n)

/-- A double. -/
abbrev float (x : Float) : Value := .number (.float x)

mutual
/-- The output form of a value. -/
def toText : Value → Evaluation Text
  | null => .ok []
  | bool b => .ok (if b then "true" else "false")
  | number n => n.toText
  | str s => .ok s
  | list _ items => do return Text.join "," (← itemTexts items)
  | map _ _ => .ok "[object]"
/-- The output forms of the items of a list. -/
def itemTexts : List Value → Evaluation (List Text)
  | [] => .ok []
  | v :: vs => do return (← v.toText) :: (← itemTexts vs)
end

/-- The value is the double that is not a number. -/
def isNaN : Value → Bool
  | number (.float x) => x.isNaN
  | _ => false

mutual
/-- The values have equal contents: a truth value counts as 1 or 0, and the order of the fields of
a mapping does not matter. -/
def equal : Value → Value → Bool
  | null, null => true
  | bool a, bool b => a == b
  | bool a, number n => Number.same (.int (if a then 1 else 0)) n
  | number m, bool b => Number.same m (.int (if b then 1 else 0))
  | number m, number n => m.same n
  | str s, str t => s == t
  | list i xs, list j ys => i.same j || equalItems (i.shareNaN j) xs ys
  | map i fs, map j gs =>
    i.same j || (fs.length == gs.length && equalFields (i.shareNaN j) fs gs)
  | _, _ => false
/-- The lists have equal items; NaN equals itself if the lists share it. -/
def equalItems (sharedNaN : Bool) : List Value → List Value → Bool
  | [], [] => true
  | x :: xs, y :: ys =>
    (equal x y || (sharedNaN && x.isNaN && y.isNaN)) && equalItems sharedNaN xs ys
  | _, _ => false
/-- Every field of the first list has an equal field in the second. -/
def equalFields (sharedNaN : Bool) : List (Text × Value) → Fields → Bool
  | [], _ => true
  | (k, v) :: fs, gs =>
    match gs.get? k with
    | some w => (equal v w || (sharedNaN && v.isNaN && w.isNaN)) && equalFields sharedNaN fs gs
    | none => false
end

section
variable (kind : Nat → Identity)

mutual
/-- The value with the lists and mappings in it told apart by numbers from `n` on, and the next
number. -/
def numberedAs (n : Nat) : Value → Value × Nat
  | list _ items =>
    let (items, next) := numberedItems (n + 1) items
    (list (kind n) items, next)
  | map _ fields =>
    let (fields, next) := numberedFields (n + 1) fields
    (map (kind n) fields, next)
  | v => (v, n)
/-- The items with the lists and mappings in them told apart, and the next number. -/
def numberedItems (n : Nat) : List Value → List Value × Nat
  | [] => ([], n)
  | v :: vs =>
    let (v, next) := numberedAs n v
    let (vs, next) := numberedItems next vs
    (v :: vs, next)
/-- The fields with the lists and mappings in them told apart, and the next number. -/
def numberedFields (n : Nat) : List (Text × Value) → List (Text × Value) × Nat
  | [] => ([], n)
  | (k, v) :: fs =>
    let (v, next) := numberedAs n v
    let (fs, next) := numberedFields next fs
    ((k, v) :: fs, next)
end

end

/-- A value that a template is given, with its lists and mappings numbered from `n` on, and the next
number. -/
def numbered (n : Nat) (v : Value) : Value × Nat := v.numberedAs .given n

/-- The value of a field of a mapping; other values have no fields. -/
def field? (key : Text) : Value → Option Value
  | map _ fields => Fields.get? fields key
  | _ => none

end Value

/-! ## Fields and bindings -/

/-- The fields with one of them set. A known key keeps its place. -/
def Fields.set (key : Text) (v : Value) : Fields → Fields
  | [] => [(key, v)]
  | (k, w) :: fields =>
    if k = key then (k, v) :: fields else (k, w) :: Fields.set key v fields

/-- The variables that a template sees. -/
abbrev Bindings := Fields

end ThemeProps
