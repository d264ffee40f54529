/-
  Sorting in natural order.

  * `Chunk.Below` is the order of single chunks and `KeyAtMost` that of keys, where
    the first difference decides; `compareKeys_isLE`: this is how keys are
    compared, and `compareKeys_trans` and `compareKeys_total`: the order is total;
  * `HasNaturalKey`: a text is cut into the longest runs of digits and the texts
    between them, which become the chunks of its key. `naturalKey_eq_ok`: every
    text has at most one key, and this is the one that is computed;
  * `sortItems_eq_ok`: a list is sorted if each of its items has a key;
  * `sortNatural_stable`: sorting in natural order is stable.
-/
import ThemeProps.Value.NaturalOrder
import ThemeProps.Proofs.Evaluation
import ThemeProps.Proofs.Lists
import ThemeProps.Proofs.Text.Order
import ThemeProps.Proofs.Text.Reader

namespace ThemeProps

/-! ## The order of keys -/

namespace Chunk

/-- Numbers come before words; numbers are ordered as such, and words as texts. -/
inductive Below : Chunk → Chunk → Prop
  | number {m n : Nat} (less : m < n) : Below (.number m) (.number n)
  | numberWord (n : Nat) (s : Text) : Below (.number n) (.word s)
  | word {s t : Text} (less : s < t) : Below (.word s) (.word t)

theorem compare_eq_lt {a b : Chunk} : compare a b = .lt ↔ Below a b := by
  constructor
  · intro h
    cases a <;> cases b <;> rw [compare] at h
    · split_ifs at h with less
      exact .number less
    · exact .numberWord _ _
    · cases h
    · exact .word (Text.compare_eq_lt.1 h)
  · rintro (less | _ | less)
    · exact if_pos less
    · rfl
    · exact Text.compare_eq_lt.2 less

/-- Numbers come first. -/
def rank : Chunk → Nat
  | number _ => 0
  | word _ => 1

def value : Chunk → Nat
  | number n => n
  | word _ => 0

def letters : Chunk → Text
  | number _ => []
  | word s => s

/-- Chunks are compared by their kinds, then by their numbers, then by their letters. -/
theorem compare_eq :
    compare = compareLex (compareOn rank) (compareLex (compareOn value) (compareOn letters)) := by
  funext a b
  cases a with
  | number m =>
    cases b with
    | number n =>
      show _ = (Ord.compare m n).then .eq
      rw [Ordering.then_eq, compare, Nat.compare_eq_ite_lt]
    | word t => rfl
  | word s =>
    cases b with
    | number n => rfl
    | word t => exact Text.compare_eq s t

instance : Std.TransCmp compare := by
  rw [compare_eq]
  infer_instance

instance : Std.LawfulEqCmp compare where
  compare_self := by
    rw [compare_eq]
    exact Std.ReflCmp.compare_self
  eq_of_compare {a b} h := by
    cases a <;> cases b <;> rw [compare] at h
    case number.number m n =>
      split_ifs at h
      obtain rfl : m = n := by omega
      rfl
    case number.word => cases h
    case word.number => cases h
    case word.word s t =>
      rw [Text.compare_eq] at h
      obtain rfl : s = t := Std.LawfulEqCmp.eq_of_compare h
      rfl

end Chunk

/-- The first difference decides, and a beginning comes before its extensions. -/
def KeyAtMost (a b : List Chunk) : Prop := a = b ∨ List.Lex Chunk.Below a b

theorem compareKeys_eq (a b : List Chunk) :
    compareKeys a b = List.compareLex Chunk.compare a b := by
  induction a generalizing b with
  | nil => cases b <;> rfl
  | cons x a ih =>
    cases b with
    | nil => rfl
    | cons y b =>
      rw [compareKeys, List.compareLex_cons_cons, ih]
      cases Chunk.compare x y <;> rfl

theorem compareKeys_trans (a b c : List Chunk) (h : (compareKeys a b).isLE = true)
    (h' : (compareKeys b c).isLE = true) : (compareKeys a c).isLE = true := by
  rw [compareKeys_eq] at *
  exact Std.TransCmp.isLE_trans h h'

theorem compareKeys_total (a b : List Chunk) :
    ((compareKeys a b).isLE || (compareKeys b a).isLE) = true := by
  rw [compareKeys_eq, compareKeys_eq,
    show List.compareLex Chunk.compare b a = _ from Std.OrientedCmp.eq_swap]
  cases List.compareLex Chunk.compare a b <;> rfl

@[simp, grind =] theorem compareKeys_eq_eq {a b : List Chunk} : compareKeys a b = .eq ↔ a = b := by
  rw [compareKeys_eq]
  exact Std.LawfulEqCmp.compare_eq_iff_eq

@[simp, grind =] theorem compareKeys_eq_lt {a b : List Chunk} :
    compareKeys a b = .lt ↔ List.Lex Chunk.Below a b := by
  induction a generalizing b with
  | nil =>
    cases b with
    | nil => exact iff_of_false nofun nofun
    | cons y b => exact iff_of_true rfl .nil
  | cons x a ih =>
    cases b with
    | nil => exact iff_of_false nofun nofun
    | cons y b =>
      have same : Chunk.compare x y = .eq ↔ x = y := Std.LawfulEqCmp.compare_eq_iff_eq
      rw [compareKeys, List.cons_lex_cons_iff, ← Chunk.compare_eq_lt, ← ih, ← same]
      cases Chunk.compare x y <;> simp

@[simp, grind =] theorem compareKeys_isLE {a b : List Chunk} :
    (compareKeys a b).isLE = true ↔ KeyAtMost a b := by
  rw [KeyAtMost, ← compareKeys_eq_eq, ← compareKeys_eq_lt]
  cases compareKeys a b <;> decide

/-! ## The key of a text -/

open Reader (Stops)

/-- The key that a text is sorted by. Each longest run of digits, if it is not too long, becomes a
number. The texts between them, unless they consist of other digits alone, become words in which
letter case does not count. -/
inductive HasNaturalKey : Text → List Chunk → Prop
  | nil : HasNaturalKey [] []
  | number {run rest : Text} {key : List Chunk} (digits : ∀ c ∈ run, Text.isDigit c = true)
      (nonempty : run ≠ []) (ends : Stops Text.isDigit rest)
      (length : run.length ≤ maxDigits) (further : HasNaturalKey rest key) :
      HasNaturalKey (run ++ rest) (.number (Text.numberOfDigits run) :: key)
  | word {run rest : Text} {key : List Chunk} (noDigits : ∀ c ∈ run, Text.isDigit c = false)
      (nonempty : run ≠ []) (ends : Stops (!Text.isDigit ·) rest)
      (letters : ∃ c ∈ run, Text.isDigitLike c = false) (further : HasNaturalKey rest key) :
      HasNaturalKey (run ++ rest) (.word (Text.foldCase run) :: key)

theorem digitRuns_cons (c : Char) (s : Text) :
    ∃ run runs, digitRuns (c :: s) = (c :: run) :: runs := by
  rw [digitRuns]
  split
  · exact ⟨_, _, rfl⟩
  · exact ⟨_, _, rfl⟩
  · split_ifs <;> exact ⟨_, _, rfl⟩

/-- A longest run in front is the first one. -/
theorem digitRuns_append {digits : Bool} {run rest : Text} (nonempty : run ≠ [])
    (same : ∀ c ∈ run, Text.isDigit c = digits) (ends : Stops (Text.isDigit · == digits) rest) :
    digitRuns (run ++ rest) = run :: digitRuns rest := by
  induction run with
  | nil => exact absurd rfl nonempty
  | cons c run ih =>
    rw [List.forall_mem_cons] at same
    rw [List.cons_append, digitRuns]
    rcases eq_or_ne run [] with rfl | more
    · cases rest with
      | nil => rfl
      | cons d rest =>
        obtain ⟨next, runs, first⟩ := digitRuns_cons d rest
        have differ : Text.isDigit c ≠ Text.isDigit d := by
          rw [same.1]
          exact (beq_eq_false_iff_ne.1
            (Reader.stops_cons (p := fun c => Text.isDigit c == digits) |>.1 ends)).symm
        rw [List.nil_append, first]
        exact if_neg differ
    · rw [ih more same.2]
      obtain ⟨d, run, rfl⟩ := List.exists_cons_of_ne_nil more
      exact if_pos (same.1.trans (same.2 d List.mem_cons_self).symm)

/-- A text that is not empty begins with a longest run. -/
theorem exists_run {s : Text} (h : s ≠ []) : ∃ digits run rest, s = run ++ rest ∧ run ≠ [] ∧
    (∀ c ∈ run, Text.isDigit c = digits) ∧ Stops (Text.isDigit · == digits) rest := by
  obtain ⟨c, s, rfl⟩ := List.exists_cons_of_ne_nil h
  let p (d : Char) : Bool := Text.isDigit d == Text.isDigit c
  refine ⟨Text.isDigit c, c :: s.takeWhile p, s.dropWhile p,
    by rw [List.cons_append, List.takeWhile_append_dropWhile], List.cons_ne_nil _ _, ?_,
    Reader.stops_dropWhile⟩
  exact List.forall_mem_cons.2 ⟨rfl, fun d hd => eq_of_beq (List.mem_takeWhile_imp (p := p) hd)⟩

/-- A run becomes a chunk if it is a number that is not too long, or a word. -/
def runChunk (run : Text) : Evaluation Chunk :=
  if run.any Text.isDigit then Chunk.ofDigits run else Chunk.ofWord run

theorem naturalKey_eq (s : Text) : naturalKey s = (digitRuns s).mapM runChunk := rfl

theorem runChunk_digits {run : Text} {chunk : Chunk} (nonempty : run ≠ [])
    (digits : ∀ c ∈ run, Text.isDigit c = true) :
    runChunk run = .ok chunk ↔
      run.length ≤ maxDigits ∧ .number (Text.numberOfDigits run) = chunk := by
  have any : run.any Text.isDigit = true := by
    obtain ⟨c, run, rfl⟩ := List.exists_cons_of_ne_nil nonempty
    rw [List.any_cons, digits c List.mem_cons_self, Bool.true_or]
  rw [runChunk, if_pos any, Chunk.ofDigits]
  split_ifs with length
  · simp [length]
  · simp [length]

theorem runChunk_noDigits {run : Text} {chunk : Chunk}
    (noDigits : ∀ c ∈ run, Text.isDigit c = false) :
    runChunk run = .ok chunk ↔
      (∃ c ∈ run, Text.isDigitLike c = false) ∧ .word (Text.foldCase run) = chunk := by
  have none : ¬ run.any Text.isDigit = true := by simpa using noDigits
  have mixed : (∃ c ∈ run, Text.isDigitLike c = false) ↔ ¬ run.all Text.isDigitLike = true := by
    simp
  rw [runChunk, if_neg none, Chunk.ofWord, mixed]
  split_ifs with digitLike
  · simp [digitLike]
  · simp [digitLike]

theorem HasNaturalKey.naturalKey {s : Text} {key : List Chunk} (h : HasNaturalKey s key) :
    naturalKey s = .ok key := by
  induction h with
  | nil => rfl
  | number digits nonempty ends length _ ih =>
    rw [naturalKey_eq, digitRuns_append nonempty digits (by simpa using ends), mapM_cons_eq_ok]
    exact ⟨_, _, (runChunk_digits nonempty digits).2 ⟨length, rfl⟩, ih, rfl⟩
  | word noDigits nonempty ends letters _ ih =>
    rw [naturalKey_eq, digitRuns_append nonempty noDigits (by simpa using ends), mapM_cons_eq_ok]
    exact ⟨_, _, (runChunk_noDigits noDigits).2 ⟨letters, rfl⟩, ih, rfl⟩

theorem hasNaturalKey_of_naturalKey {s : Text} {key : List Chunk} (h : naturalKey s = .ok key) :
    HasNaturalKey s key := by
  rcases eq_or_ne s [] with rfl | nonempty
  · cases h
    exact .nil
  · obtain ⟨digits, run, rest, rfl, nonempty, same, ends⟩ := exists_run nonempty
    have shorter : rest.length < (run ++ rest).length := by
      have := List.length_pos_iff.2 nonempty
      rw [List.length_append]
      omega
    rw [naturalKey_eq, digitRuns_append nonempty same ends, mapM_cons_eq_ok] at h
    obtain ⟨chunk, key, first, further, rfl⟩ := h
    have further : HasNaturalKey rest key := hasNaturalKey_of_naturalKey further
    cases digits with
    | true =>
      obtain ⟨length, rfl⟩ := (runChunk_digits nonempty same).1 first
      exact .number same nonempty (by simpa using ends) length further
    | false =>
      obtain ⟨letters, rfl⟩ := (runChunk_noDigits same).1 first
      exact .word same nonempty (by simpa using ends) letters further
termination_by s.length

/-- A text has the key that is computed for it, and no other. -/
@[simp, grind =] theorem naturalKey_eq_ok {s : Text} {key : List Chunk} :
    naturalKey s = .ok key ↔ HasNaturalKey s key :=
  ⟨hasNaturalKey_of_naturalKey, HasNaturalKey.naturalKey⟩

theorem HasNaturalKey.unique {s : Text} {key key' : List Chunk} (h : HasNaturalKey s key)
    (h' : HasNaturalKey s key') : key = key' :=
  Except.ok.inj (h.naturalKey.symm.trans h'.naturalKey)

instance (s : Text) (key : List Chunk) : Decidable (HasNaturalKey s key) :=
  decidable_of_iff ((naturalKey s).toOption = some key) (toOption_eq_some.trans naturalKey_eq_ok)

/-! ## Sorted lists -/

namespace Value

/-- The value has an output form, and the key is that of this text. -/
def HasKey (v : Value) (key : List Chunk) : Prop := ∃ s, v.toText = .ok s ∧ HasNaturalKey s key

theorem HasKey.unique {v : Value} {key key' : List Chunk} (h : v.HasKey key) (h' : v.HasKey key') :
    key = key' := by
  obtain ⟨s, hs, hkey⟩ := h
  obtain ⟨s', hs', hkey'⟩ := h'
  obtain rfl := Except.ok.inj (hs.symm.trans hs')
  exact hkey.unique hkey'

@[simp, grind =] theorem hasKey_iff {v : Value} {key : List Chunk} :
    v.HasKey key ↔ (do naturalKey (← v.toText)) = .ok key := by
  rw [Evaluation.bind_eq_ok, HasKey]
  simp only [naturalKey_eq_ok]

instance (v : Value) (key : List Chunk) : Decidable (v.HasKey key) :=
  decidable_of_iff ((do naturalKey (← v.toText) : Evaluation _).toOption = some key)
    (toOption_eq_some.trans hasKey_iff.symm)

/-- The key of one value is at most that of another. -/
def NaturalAtMost (v w : Value) : Prop := ∃ a b, v.HasKey a ∧ w.HasKey b ∧ KeyAtMost a b

/-- Items with their keys are ordered by the keys alone. -/
def keyedAtMost (a b : List Chunk × Value) : Bool := (compareKeys a.1 b.1).isLE

theorem withNaturalKey_eq_ok {v : Value} {keyed : List Chunk × Value} :
    v.withNaturalKey = .ok keyed ↔ keyed.2.HasKey keyed.1 ∧ keyed.2 = v := by
  obtain ⟨key, w⟩ := keyed
  rw [withNaturalKey, ← bind_assoc, Evaluation.bind_eq_ok]
  constructor
  · rintro ⟨key, hkey, ⟨⟩⟩
    exact ⟨hasKey_iff.2 hkey, rfl⟩
  · rintro ⟨hkey, rfl⟩
    exact ⟨key, hasKey_iff.1 hkey, rfl⟩

/-- A list is sorted by the keys of its items if all of them have one. -/
theorem sortItems_eq_ok {items sorted : List Value} : sortItems items = .ok sorted ↔
    ∃ keyed : List (List Chunk × Value), (∀ kv ∈ keyed, kv.2.HasKey kv.1) ∧
      keyed.map (·.2) = items ∧ (keyed.mergeSort keyedAtMost).map (·.2) = sorted := by
  have keys {keyed : List (List Chunk × Value)} : items.mapM withNaturalKey = .ok keyed ↔
      (∀ kv ∈ keyed, kv.2.HasKey kv.1) ∧ keyed.map (·.2) = items := by
    rw [mapM_eq_ok_iff]
    constructor
    · intro h
      induction h with
      | nil => exact ⟨nofun, rfl⟩
      | cons first _ ih =>
        obtain ⟨hkey, rfl⟩ := withNaturalKey_eq_ok.1 first
        exact ⟨List.forall_mem_cons.2 ⟨hkey, ih.1⟩, congrArg _ ih.2⟩
    · rintro ⟨h, rfl⟩
      rw [List.forall₂_map_left_iff, List.forall₂_same]
      exact fun kv hkv => withNaturalKey_eq_ok.2 ⟨h kv hkv, rfl⟩
  rw [sortItems]
  constructor
  · intro h
    cases hkeyed : items.mapM withNaturalKey with
    | error e =>
      rw [hkeyed] at h
      cases h
    | ok keyed =>
      rw [hkeyed] at h
      obtain ⟨hkeys, items_eq⟩ := keys.1 hkeyed
      exact ⟨keyed, hkeys, items_eq, Except.ok.inj h⟩
  · rintro ⟨keyed, hkeys, items_eq, rfl⟩
    rw [keys.2 ⟨hkeys, items_eq⟩]
    rfl

section
variable {keyed : List (List Chunk × Value)}

theorem pairwise_mergeSort_keyed (keyed : List (List Chunk × Value)) :
    (keyed.mergeSort keyedAtMost).Pairwise fun a b => keyedAtMost a b = true :=
  List.pairwise_mergeSort (fun a b c => compareKeys_trans a.1 b.1 c.1)
    (fun a b => compareKeys_total a.1 b.1) keyed

/-- The items that have one key are those whose computed key it is. -/
theorem filter_hasKey (hkeys : ∀ kv ∈ keyed, kv.2.HasKey kv.1)
    (key : List Chunk) : (keyed.map (·.2)).filter (·.HasKey key) =
      (keyed.filter (·.1 = key)).map (·.2) := by
  rw [List.filter_map]
  congr 1
  refine List.filter_congr fun kv hkv => decide_eq_decide.2 ?_
  exact ⟨(hkeys kv hkv).unique, fun same => same ▸ hkeys kv hkv⟩

end

/-- **Sorting in natural order is stable.** Whenever a list can be sorted, the sorted list has the
same items, and the key of each is at most those of the later ones. Items with the same key keep
their order, and to sort the list again changes nothing. -/
theorem sortNatural_stable (identity : Identity) (items : List Value) {w : Value}
    (h : (list identity items).sortNatural = .ok w) :
    ∃ sorted, w = list .fresh sorted ∧ sorted.Perm items ∧ sorted.Pairwise NaturalAtMost ∧
      (∀ key, sorted.filter (·.HasKey key) = items.filter (·.HasKey key)) ∧
      w.sortNatural = .ok w := by
  obtain ⟨sorted, hsorted, rfl⟩ : ∃ sorted, sortItems items = .ok sorted ∧
      list .fresh sorted = w := by
    rw [sortNatural] at h
    cases hsorted : sortItems items with
    | error e =>
      rw [hsorted] at h
      cases h
    | ok sorted =>
      rw [hsorted] at h
      exact ⟨sorted, rfl, Except.ok.inj h⟩
  obtain ⟨keyed, hkeys, rfl, rfl⟩ := sortItems_eq_ok.1 hsorted
  have perm : (keyed.mergeSort keyedAtMost).Perm keyed := List.mergeSort_perm _ _
  have keysAfter : ∀ kv ∈ keyed.mergeSort keyedAtMost, kv.2.HasKey kv.1 :=
    fun kv hkv => hkeys kv (perm.mem_iff.1 hkv)
  refine ⟨_, rfl, perm.map _, ?ordered, fun key => ?stable, ?again⟩
  case ordered =>
    rw [List.pairwise_map]
    refine (pairwise_mergeSort_keyed keyed).imp_of_mem fun {a b} ha hb atMost => ?_
    exact ⟨a.1, b.1, keysAfter a ha, keysAfter b hb, compareKeys_isLE.1 atMost⟩
  case stable =>
    rw [filter_hasKey keysAfter, filter_hasKey hkeys]
    congr 1
    refine filter_mergeSort (fun a b c => compareKeys_trans a.1 b.1 c.1)
      (fun a b => compareKeys_total a.1 b.1) (fun a b ha hb => ?_) keyed
    exact compareKeys_isLE.2 (.inl ((of_decide_eq_true ha).trans (of_decide_eq_true hb).symm))
  case again =>
    have fixed : sortItems ((keyed.mergeSort keyedAtMost).map (·.2)) =
        .ok ((keyed.mergeSort keyedAtMost).map (·.2)) :=
      sortItems_eq_ok.2 ⟨_, keysAfter, rfl,
        by rw [List.mergeSort_of_pairwise (pairwise_mergeSort_keyed keyed)]⟩
    rw [sortNatural, fixed]
    rfl

/-- The number in a size counts, not its digits. -/
theorem sortNatural_sizes :
    let items : List Value := [.str "size-10".toList, .str "Size-2".toList, .str "size-02".toList]
    let sorted : List Value := [.str "Size-2".toList, .str "size-02".toList, .str "size-10".toList]
    (list .fresh items).sortNatural = .ok (list .fresh sorted) ∧ sorted.Perm items ∧
      sorted.Pairwise NaturalAtMost ∧
      (∀ key, sorted.filter (·.HasKey key) = items.filter (·.HasKey key)) ∧
      (list .fresh sorted).sortNatural = .ok (list .fresh sorted) := by
  intro items sorted
  let size := Chunk.word "size-".toList
  let keyed := [[size, .number 10], [size, .number 2], [size, .number 2]].zip items
  have sorts : (list .fresh items).sortNatural = .ok (list .fresh sorted) := by
    have order : (keyed.mergeSort keyedAtMost).map (·.2) = sorted := by
      simp [keyed, items, sorted, size, List.mergeSort, keyedAtMost, compareKeys, Chunk.compare,
        Text.compare]
    have itemsSorted : sortItems items = .ok sorted :=
      sortItems_eq_ok.2 ⟨keyed, by decide, rfl, order⟩
    rw [sortNatural, itemsSorted]
    rfl
  obtain ⟨_, ⟨⟩, stable⟩ := sortNatural_stable .fresh items sorts
  exact ⟨sorts, stable⟩

end Value
end ThemeProps
