/-
  What evaluations ask for, and when they go wrong.

  Operations on values are total but for four: writing a whole number in digits,
  taking it as a double, rounding a result, and placing a run of digits in
  natural order.

  * `Demand` is one use of such an operation, `Demand.Met` says when it gives a
    result;
  * `Makes x ds`: the evaluation `x` makes the demands `ds`, in their order, and
    goes wrong at the first one that is not met; `Makes.bind` composes them;
  * `Makes.ok_iff`: hence an evaluation gives a result if and only if all its
    demands are met.
-/
import ThemeProps.Value.Arithmetic
import ThemeProps.Value.Compare
import ThemeProps.Value.Items
import ThemeProps.Value.NaturalOrder
import Mathlib.Data.List.Basic
import Mathlib.Tactic.Common

namespace ThemeProps

/-! ## Demands -/

/-- A use of an operation that not every value allows. -/
inductive Demand where
  /-- The digits of a whole number. -/
  | digits (n : Int)
  /-- The double nearest to a whole number. -/
  | double (n : Int)
  /-- A product or quotient, rounded to five decimal places. -/
  | rounding (x : Float)
  /-- A run of digits, or a text between such runs, in natural order. -/
  | chunk (run : Text)

namespace Demand

/-- The operation gives a result: the whole number to be written has at most `maxDigits` digits, the
one to be taken as a double fits a double, the number to be rounded stays finite when it is scaled
up, the run of digits is not too long, and the text between such runs does not consist of digits
without a place value. -/
def Met : Demand → Prop
  | digits n => Number.IsWritable n
  | double n => (roundInt? n).isSome
  | rounding x => x.isInf ∨ (floorInt? (x * 100000 + 0.5)).isSome
  | chunk run =>
    if run.any Text.isDigit then run.length ≤ maxDigits else ¬ run.all Text.isDigitLike

instance : DecidablePred Met
  | digits n => inferInstanceAs (Decidable (Number.IsWritable n))
  | double n => inferInstanceAs (Decidable ((roundInt? n).isSome = true))
  | rounding _ => inferInstanceAs (Decidable (_ ∨ _))
  | chunk run => inferInstanceAs (Decidable (if run.any Text.isDigit then _ else _))

/-- What goes wrong if a demand is not met. -/
def error : Demand → EvalError
  | digits _ => .tooManyDigits
  | chunk _ => .unreadableDigits
  | _ => .tooLarge

/-- The error of the first demand that is not met. -/
def firstError : List Demand → Option EvalError
  | [] => none
  | d :: ds => if d.Met then firstError ds else some d.error

@[simp, grind =]
theorem firstError_eq_none {ds : List Demand} : firstError ds = none ↔ ∀ d ∈ ds, d.Met := by
  induction ds with
  | nil => simp [firstError]
  | cons d ds ih =>
    rw [firstError, List.forall_mem_cons, ← ih]
    by_cases h : d.Met <;> simp [h]

/-- The error is that of a demand which is not met. -/
theorem exists_of_firstError {ds : List Demand} {e : EvalError} (h : firstError ds = some e) :
    ∃ d ∈ ds, ¬ d.Met ∧ e = d.error := by
  induction ds with
  | nil => cases h
  | cons d ds ih =>
    rw [firstError] at h
    split_ifs at h with met
    · obtain ⟨d', found, unmet, he⟩ := ih h
      exact ⟨d', List.mem_cons_of_mem d found, unmet, he⟩
    · exact ⟨d, List.mem_cons_self, met, (Option.some.inj h).symm⟩

@[simp, grind =] theorem firstError_append (ds es : List Demand) :
    firstError (ds ++ es) = (firstError ds).or (firstError es) := by
  induction ds with
  | nil => rfl
  | cons d ds ih =>
    rw [List.cons_append, firstError, firstError, ih]
    split <;> rfl

end Demand

/-! ## Evaluations and their demands -/

/-- What an evaluation went wrong with. -/
def errorOf {α : Type} : Evaluation α → Option EvalError
  | .ok _ => none
  | .error e => some e

/-- The demands that follow an evaluation, which depend on its value. -/
def after {α : Type} (x : Evaluation α) (ds : α → List Demand) : List Demand :=
  match x with
  | .ok a => ds a
  | .error _ => []

/-- The evaluation makes the demands and goes wrong at the first one that is not met. -/
def Makes {α : Type} (x : Evaluation α) (ds : List Demand) : Prop :=
  errorOf x = Demand.firstError ds

namespace Makes

variable {α β : Type} {x : Evaluation α} {ds es : List Demand}

theorem ok (a : α) : Makes (.ok a : Evaluation α) [] := rfl

/-- An evaluation that comes to a single demand. -/
theorem one {d : Demand} (met : d.Met → ∃ a, x = .ok a) (unmet : ¬ d.Met → x = .error d.error) :
    Makes x [d] := by
  rw [Makes, Demand.firstError]
  by_cases h : d.Met
  · obtain ⟨a, rfl⟩ := met h
    rw [if_pos h]; rfl
  · rw [unmet h, if_neg h]; rfl

/-- One evaluation and then another. -/
theorem bind {f : α → Evaluation β} (hx : Makes x ds) (hf : ∀ a, x = .ok a → Makes (f a) es) :
    Makes (x >>= f) (ds ++ es) := by
  rw [Makes] at hx
  rw [Makes, Demand.firstError_append, ← hx]
  cases x with
  | ok a => exact hf a rfl
  | error e => rfl

/-- One evaluation and then another that depends on its value. -/
theorem bind_after {f : α → Evaluation β} {ds' : α → List Demand} (hx : Makes x ds)
    (hf : ∀ a, Makes (f a) (ds' a)) : Makes (x >>= f) (ds ++ after x ds') := by
  refine bind hx fun a ha => ?_
  rw [ha]
  exact hf a

/-- An evaluation whose value is used without further demands. -/
theorem then_ok {f : α → Evaluation β} (hx : Makes x ds) (hf : ∀ a, Makes (f a) []) :
    Makes (x >>= f) ds := by
  have both := hx.bind fun a _ => hf a
  rwa [List.append_nil] at both

theorem map (hx : Makes x ds) (f : α → β) : Makes (do return f (← x)) ds :=
  hx.then_ok fun a => ok (f a)

theorem mapM {f : α → Evaluation β} {ds : α → List Demand} (hf : ∀ a, Makes (f a) (ds a))
    (as : List α) : Makes (as.mapM f) (as.flatMap ds) := by
  induction as with
  | nil => exact ok []
  | cons a as ih =>
    rw [List.mapM_cons, List.flatMap_cons]
    exact (hf a).bind fun b _ => ih.map (b :: ·)

/-- **An evaluation gives a result** if and only if all its demands are met. -/
theorem ok_iff (hx : Makes x ds) : (∃ a, x = .ok a) ↔ ∀ d ∈ ds, d.Met := by
  rw [← Demand.firstError_eq_none, ← hx]
  cases x <;> simp [errorOf]

end Makes

/-! ## Demands of operations on values -/

theorem makes_writePieces {α : Type} {write : α → Evaluation Text} {ds : α → List Demand}
    (h : ∀ a, Makes (write a) (ds a)) (ps : List (Piece α)) :
    Makes (Reader.writePieces write ps)
      ((ps.filterMap fun | .plain _ => none | .found _ a => some a).flatMap ds) := by
  induction ps with
  | nil => exact .ok []
  | cons p ps ih =>
    cases p with
    | plain c => exact ih.map (c :: ·)
    | found source a => exact (h a).bind fun here _ => ih.map (here ++ ·)

theorem makes_replaceEveryM {α : Type} {reader : Reader α} {write : α → Evaluation Text}
    {ds : α → List Demand} (h : ∀ a, Makes (write a) (ds a)) (s : Text) :
    Makes (Reader.replaceEveryM reader write s) ((Reader.findEvery reader s).flatMap ds) :=
  makes_writePieces h (Reader.pieces reader s)

namespace Value

mutual
/-- The whole numbers that the output form of a value writes, from left to right. -/
def wholeNumbers : Value → List Int
  | number (.int n) => [n]
  | list _ items => itemNumbers items
  | _ => []
/-- The whole numbers that the output forms of some items write. -/
def itemNumbers : List Value → List Int
  | [] => []
  | v :: vs => v.wholeNumbers ++ itemNumbers vs
end

/-- The demands of the output form of a value. -/
def textDemands (v : Value) : List Demand := v.wholeNumbers.map .digits

theorem makes_digits (n : Int) : Makes (Number.toText (.int n)) [.digits n] :=
  .one (fun h => ⟨_, if_pos h⟩) fun h => if_neg h

mutual
theorem makes_toText : ∀ v : Value, Makes v.toText v.textDemands
  | null => .ok _
  | bool _ => .ok _
  | number (.int n) => makes_digits n
  | number (.float _) => .ok _
  | str _ => .ok _
  | list _ items => (makes_itemTexts items).map _
  | map _ _ => .ok _
theorem makes_itemTexts : ∀ items : List Value,
    Makes (itemTexts items) ((itemNumbers items).map .digits)
  | [] => .ok _
  | v :: vs => by
    rw [itemNumbers, List.map_append]
    exact (makes_toText v).bind fun s _ => (makes_itemTexts vs).map (s :: ·)
end

/-- The demands of a value that is taken as a number: a list is read off its output form. -/
def numberDemands : Value → List Demand
  | number (.int n) => [.double n]
  | list id items => (list id items).textDemands
  | _ => []

theorem makes_double (n : Int) : Makes (Number.toFloat (.int n)) [.double n] := by
  rw [Number.toFloat]
  refine .one (fun h => ?_) fun h => ?_
  · obtain ⟨x, hx⟩ := Option.isSome_iff_exists.1 h
    exact ⟨x, by rw [hx]⟩
  · rw [Option.not_isSome_iff_eq_none.1 h]; rfl

theorem makes_toNumber (v : Value) : Makes v.toNumber v.numberDemands := by
  cases v with
  | number n =>
    cases n with
    | int n => exact makes_double n
    | float x => exact .ok x
  | list id items => exact (makes_toText (list id items)).map _
  | _ => exact .ok _

/-- The demands of the truth test. -/
def truthDemands : Value → List Demand
  | number (.int n) => if n = 0 then [] else [.double n]
  | _ => []

theorem makes_truth (v : Value) : Makes v.truth v.truthDemands := by
  cases v with
  | number n =>
    cases n with
    | int n =>
      rw [truth, truthDemands]
      split_ifs with h
      · exact .ok false
      · exact (makes_double n).map fun _ => true
    | float x => exact .ok _
  | _ => exact .ok _

/-- The demands of a result that is rounded. -/
def roundingDemands (x : Float) : List Demand := if x.isNaN then [] else [.rounding x]

theorem makes_roundNoise (x : Float) : Makes (roundNoise x) [.rounding x] := by
  rw [roundNoise]
  refine .one (fun h => ?_) fun h => ?_
  · split_ifs with inf
    · exact ⟨x, rfl⟩
    · obtain ⟨n, hn⟩ := Option.isSome_iff_exists.1 (h.resolve_left inf)
      exact ⟨_, by rw [hn]⟩
  · obtain ⟨finite, none⟩ := not_or.1 h
    rw [if_neg finite, Option.not_isSome_iff_eq_none.1 none]; rfl

theorem makes_ofRounded (x : Float) : Makes (ofRounded x) (roundingDemands x) := by
  rw [ofRounded, roundingDemands]
  split_ifs
  · exact .ok (int 0)
  · exact (makes_roundNoise x).map float

/-- The demands of a quotient. -/
def quotientDemands (v : Value) (divisor : Float) : List Demand :=
  if divisor == 0 then []
  else v.numberDemands ++ after v.toNumber fun x => roundingDemands (x / divisor)

theorem makes_quotient (v : Value) (divisor : Float) :
    Makes (v.quotient divisor) (v.quotientDemands divisor) := by
  rw [quotient, quotientDemands]
  split_ifs
  · exact .ok (int 0)
  · exact (makes_toNumber v).bind_after fun x => makes_ofRounded (x / divisor)

end Value

/-- The demands of an operation whose operand makes the demands `ds`. -/
def Arithmetic.demands (operation : Arithmetic) (v : Value) (operand : Evaluation Float)
    (ds : List Demand) : List Demand :=
  match operation with
  | .times => v.numberDemands ++ after v.toNumber fun x =>
      ds ++ after operand fun y => Value.roundingDemands (x * y)
  | .dividedBy => ds ++ after operand v.quotientDemands
  | .minus => v.numberDemands ++ ds
  | .plus => v.numberDemands ++ ds

open Value in
theorem Arithmetic.makes_apply (operation : Arithmetic) (v : Value) {operand : Evaluation Float}
    {ds : List Demand} (h : Makes operand ds) :
    Makes (operation.apply v operand) (operation.demands v operand ds) := by
  cases operation with
  | times =>
    refine (makes_toNumber v).bind_after fun x => ?_
    exact h.bind_after fun y => makes_ofRounded (x * y)
  | dividedBy => exact h.bind_after fun y => makes_quotient v y
  | minus => exact (makes_toNumber v).bind fun x _ => h.map _
  | plus => exact (makes_toNumber v).bind fun x _ => h.map _

namespace Value

/-! ### Comparisons -/

/-- The demands of what a value is compared as: a list is compared as its output form. -/
def operandDemands : Value → List Demand
  | list id items => (list id items).textDemands
  | _ => []

/-- The demands of the double that a value is compared as. -/
def doubleDemands : Value → List Demand
  | number (.int n) => [.double n]
  | _ => []

theorem numberDemands_eq (v : Value) : v.numberDemands = v.operandDemands ++ v.doubleDemands := by
  cases v with
  | number n => cases n <;> rfl
  | list id items => exact (List.append_nil _).symm
  | _ => rfl

theorem makes_operand (v : Value) : Makes v.operand v.operandDemands := by
  cases v with
  | list id items => exact (makes_toText (list id items)).map _
  | _ => exact .ok _

theorem makes_operand_toFloat {v : Value} {a : Operand} (h : v.operand = .ok a) :
    Makes a.toFloat v.doubleDemands := by
  cases v with
  | number n =>
    obtain rfl := Except.ok.inj h
    cases n with
    | int n => exact makes_double n
    | float x => exact .ok x
  | list id items =>
    cases hs : (list id items).toText with
    | error e =>
      rw [operand, hs] at h
      cases h
      all_goals nofun
    | ok s =>
      rw [operand, hs] at h
      · obtain rfl := Except.ok.inj h
        exact .ok _
      all_goals nofun
  | _ =>
    obtain rfl := Except.ok.inj h
    exact .ok _

/-- The demands of the equality of templates: an absent value is compared at once, and so are two
lists and two mappings. -/
def equalDemands : Value → Value → List Demand
  | null, _ => []
  | _, null => []
  | list _ _, list _ _ => []
  | map _ _, map _ _ => []
  | v, w => v.operandDemands ++ (w.operandDemands ++ (v.doubleDemands ++ w.doubleDemands))

theorem makes_equals {v w : Value} {a b : Operand} (ha : v.operand = .ok a)
    (hb : w.operand = .ok b) : Makes (a.equals b) (v.doubleDemands ++ w.doubleDemands) := by
  have numbers : Makes (do return (← a.toFloat) == (← b.toFloat))
      (v.doubleDemands ++ w.doubleDemands) :=
    (makes_operand_toFloat ha).bind fun x _ => (makes_operand_toFloat hb).map (x == ·)
  cases a <;> cases b <;> exact numbers

theorem makes_looseEquals (v w : Value) : Makes (v.looseEquals w) (equalDemands v w) := by
  have equals : Makes (do (← v.operand).equals (← w.operand)) (v.operandDemands ++
      (w.operandDemands ++ (v.doubleDemands ++ w.doubleDemands))) :=
    (makes_operand v).bind fun a ha => (makes_operand w).bind fun b hb => makes_equals ha hb
  cases v <;> cases w
  all_goals first
    | exact .ok _
    | exact equals

/-- The demands of a comparison. -/
def compareDemands (c : Comparison) (v w : Value) : List Demand :=
  match c with
  | .equal => equalDemands v w
  | .unequal => equalDemands v w
  | _ => v.numberDemands ++ w.numberDemands

theorem makes_compareBy (c : Comparison) (v w : Value) :
    Makes (v.compareBy c w) (compareDemands c v w) := by
  cases c with
  | equal => exact makes_looseEquals v w
  | unequal => exact (makes_looseEquals v w).map (!·)
  | _ => exact (makes_toNumber v).bind fun x _ => (makes_toNumber w).map _

/-! ### Lists -/

/-- The demands of an item of a list that is sorted: its output form and every run in it. -/
def keyDemands (v : Value) : List Demand :=
  v.textDemands ++ after v.toText fun s => (digitRuns s).map .chunk

/-- The demands of a list that is sorted. -/
def sortDemands : Value → List Demand
  | list _ items => items.flatMap keyDemands
  | _ => []

theorem makes_naturalKey (s : Text) : Makes (naturalKey s) ((digitRuns s).map .chunk) := by
  have run : ∀ run : Text,
      Makes (if run.any Text.isDigit then Chunk.ofDigits run else Chunk.ofWord run)
        [.chunk run] := by
    intro run
    rw [Chunk.ofDigits, Chunk.ofWord]
    by_cases digits : run.any Text.isDigit
    · rw [if_pos digits]
      refine .one (fun h => ?_) fun h => ?_
      all_goals rw [Demand.Met, if_pos digits] at h
      · exact ⟨_, if_pos h⟩
      · exact if_neg h
    · rw [if_neg digits]
      refine .one (fun h => ?_) fun h => ?_
      all_goals rw [Demand.Met, if_neg digits] at h
      · exact ⟨_, if_neg h⟩
      · exact if_pos (not_not.1 h)
  have := Makes.mapM run (digitRuns s)
  rwa [← List.map_eq_flatMap] at this

theorem makes_sortNatural (v : Value) : Makes v.sortNatural v.sortDemands := by
  cases v with
  | list id items =>
    have item : ∀ v, Makes (withNaturalKey v) v.keyDemands := fun v =>
      (makes_toText v).bind_after fun s => (makes_naturalKey s).map fun key => (key, v)
    have keyed : Makes (items.mapM withNaturalKey) (items.flatMap keyDemands) :=
      Makes.mapM item items
    exact (keyed.map _).map (list .fresh)
  | _ => exact .ok _

/-- The demands of the search for a number: the items up to the first that stands for it. -/
def positionDemands (sought : Float) : List Value → List Demand
  | [] => []
  | v :: vs => v.numberDemands ++ after v.toNumber fun x =>
      if x == sought then [] else positionDemands sought vs

theorem makes_positionOfNumber (sought : Float) (n : Nat) (vs : List Value) :
    Makes (positionOfNumber sought n vs) (positionDemands sought vs) := by
  induction vs generalizing n with
  | nil => exact .ok none
  | cons v vs ih =>
    refine (makes_toNumber v).bind_after fun x => ?_
    split_ifs
    · exact .ok (some n)
    · exact ih (n + 1)

/-- The demands of the search for a text or else for a number. -/
def indexDemands (items : List Value) (sought : Text) : List Demand :=
  match positionOfText sought 0 items with
  | some _ => []
  | none => (str sought).numberDemands ++ after (str sought).toNumber fun x =>
      if x.isNaN then [] else positionDemands x items

theorem makes_indexOf (items : List Value) (sought : Text) :
    Makes (indexOf items sought) (indexDemands items sought) := by
  rw [indexOf, indexDemands]
  cases positionOfText sought 0 items with
  | some n => exact .ok _
  | none =>
    refine (makes_toNumber (str sought)).bind_after fun x => ?_
    split_ifs
    · exact .ok _
    · refine (makes_positionOfNumber x 0 items).then_ok fun found => ?_
      cases found with
      | some n => exact .ok _
      | none => exact .ok _

end Value
end ThemeProps
