/-
  Values whose texts have no opening brace.

  Numbers are written without braces, and the filters make no text but from the
  texts that they are given.

  * `Value.NoBrace`: no text in the value, and no key, has an opening brace;
  * `NoBrace.gives_toText`: then neither has its output form;
  * `NoBrace.splitText`, `NoBrace.replaceText` and so on: what a filter makes of
    such values is such a value.
-/
import ThemeProps.Value.Arithmetic
import ThemeProps.Value.Items
import ThemeProps.Value.NaturalOrder
import ThemeProps.Proofs.Evaluation
import ThemeProps.Proofs.Text.Takes
import ThemeProps.Proofs.Value.Representatives

namespace ThemeProps

/-! ## Numbers -/

@[simp] theorem Text.notMem_ofNat (n : Nat) : '{' ∉ Text.ofNat n := by
  intro h
  have digit : Char.isDigit '{' = true := Nat.isDigit_of_mem_toDigits (by decide) (by decide) h
  exact absurd digit (by decide)

@[simp] theorem Text.notMem_ofInt (n : Int) : '{' ∉ Text.ofInt n := by
  cases n with
  | ofNat n => exact Text.notMem_ofNat n
  | negSucc n =>
    rw [Text.ofInt, List.mem_cons, not_or]
    exact ⟨by decide, Text.notMem_ofNat _⟩

namespace Decimal

theorem notMem_ofScaled (c : Nat) (k : Int) : '{' ∉ (ofScaled c k).digits := by
  intro h
  have digit : '{' ∈ (Text.ofNat c).reverse :=
    (List.dropWhile_suffix _).subset (List.mem_reverse.1 h)
  exact Text.notMem_ofNat c (List.mem_reverse.1 digit)

theorem notMem_shortestFrom (m : Nat) (q top : Int) (more : Nat) :
    '{' ∉ (shortestFrom m q top more).digits := by
  induction more with
  | zero => exact notMem_ofScaled _ _
  | succ more ih =>
    rw [shortestFrom]
    split
    · exact notMem_ofScaled _ _
    · exact ih

end Decimal

namespace Layout

variable {d : Decimal} (hd : '{' ∉ d.digits)
include hd

theorem notMem_positional (keepsFraction : Bool) : '{' ∉ positional keepsFraction d := by
  have zeros (n : Nat) : '{' ∉ List.replicate n '0' := fun h =>
    absurd (List.eq_of_mem_replicate h) (by decide)
  have digits (n : Nat) : '{' ∉ d.digits ++ List.replicate n '0' := by
    rw [List.mem_append, not_or]
    exact ⟨hd, zeros n⟩
  simp only [positional]
  split_ifs
  · simp [hd, zeros]
  · rw [List.mem_append, List.mem_cons, not_or, not_or]
    exact ⟨fun h => digits _ (List.mem_of_mem_take h), by decide,
      fun h => digits _ (List.mem_of_mem_drop h)⟩
  · rw [List.mem_append, not_or]
    exact ⟨digits _, by decide⟩
  · exact digits _

theorem notMem_scientific (exponentDigits : Nat) : '{' ∉ scientific exponentDigits d := by
  have zeros (n : Nat) : '{' ∉ List.replicate n '0' := fun h =>
    absurd (List.eq_of_mem_replicate h) (by decide)
  have sign : '{' ≠ (if d.exponent < 0 then '-' else '+') := by split_ifs <;> decide
  rw [scientific]
  simp only [List.mem_append, List.mem_cons, not_or]
  refine ⟨?_, by decide, sign, zeros _, Text.notMem_ofNat _⟩
  split
  · next first next more he =>
    rw [he] at hd
    simp only [List.mem_cons, not_or] at hd ⊢
    exact ⟨hd.1, by decide, hd.2⟩
  · exact hd

theorem notMem_writeDecimal (l : Layout) : '{' ∉ l.writeDecimal d := by
  rw [writeDecimal]
  split_ifs
  · exact notMem_scientific hd _
  · exact notMem_positional hd _

end Layout

theorem Layout.notMem_write {l : Layout} (hn : '{' ∉ l.notANumber) (hi : '{' ∉ l.infinity)
    (x : Float) : '{' ∉ l.write x := by
  have minus {s : Text} (hs : '{' ∉ s) (negative : Bool) :
      '{' ∉ (if negative then '-' :: s else s) := by
    split_ifs
    · rw [List.mem_cons, not_or]
      exact ⟨by decide, hs⟩
    · exact hs
  rw [Layout.write]
  split
  · exact hn
  · exact minus hi _
  · next negative m q _ =>
    refine minus (Layout.notMem_writeDecimal ?_ l) negative
    split_ifs
    · decide
    · exact Decimal.notMem_shortestFrom _ _ _ _

theorem Number.notMem_floatText (x : Float) : '{' ∉ floatText x := by
  have plain : '{' ∉ Layout.plain.write x := Layout.notMem_write (by decide) (by decide) x
  rw [floatText]
  split
  · split_ifs
    · exact Text.notMem_ofInt _
    · exact plain
  · exact plain

theorem Number.gives_toText (n : Number) : Gives ('{' ∉ ·) n.toText := by
  cases n with
  | int n =>
    rw [Number.toText]
    split_ifs
    · exact .ok (Text.notMem_ofInt n)
    · exact .error _
  | float x => exact .ok (Number.notMem_floatText x)

/-! ## Values -/

namespace Value

/-- No text in the value and no key has an opening brace. -/
inductive NoBrace : Value → Prop
  | null : NoBrace .null
  | bool (b : Bool) : NoBrace (.bool b)
  | number (n : Number) : NoBrace (.number n)
  | str {s : Text} (h : '{' ∉ s) : NoBrace (.str s)
  | list {id : Identity} {items : List Value} (h : ∀ v ∈ items, NoBrace v) :
      NoBrace (.list id items)
  | map {id : Identity} {fields : List (Text × Value)} (hkeys : ∀ f ∈ fields, '{' ∉ f.1)
      (h : ∀ f ∈ fields, NoBrace f.2) : NoBrace (.map id fields)

end Value

/-- No text in the values of the variables has an opening brace. -/
def Bindings.NoBrace (b : Bindings) : Prop := ∀ binding ∈ b, binding.2.NoBrace

theorem Bindings.NoBrace.get? {b : Bindings} (h : b.NoBrace) {name : Text} {v : Value}
    (hv : b.get? name = some v) : v.NoBrace := by
  rw [Fields.get?, List.lookup_eq_some_iff] at hv
  obtain ⟨before, after, rfl, -⟩ := hv
  exact h (name, v) (by simp)

/-- No text in the fields and none of their keys has an opening brace. -/
def Fields.NoBrace (fields : Fields) : Prop := ∀ f ∈ fields, '{' ∉ f.1 ∧ f.2.NoBrace

theorem Fields.NoBrace.get? {fields : Fields} (h : fields.NoBrace) {key : Text} {v : Value}
    (hv : fields.get? key = some v) : v.NoBrace :=
  Bindings.NoBrace.get? (fun f hf => (h f hf).2) hv

namespace Value

@[simp] theorem noBrace_map {id : Identity} {fields : Fields} :
    NoBrace (.map id fields) ↔ fields.NoBrace := by
  constructor
  · rintro (_ | _ | _ | _ | _ | ⟨hkeys, h⟩) f hf
    exact ⟨hkeys f hf, h f hf⟩
  · intro h
    exact .map (fun f hf => (h f hf).1) fun f hf => (h f hf).2

theorem NoBrace.field? {v w : Value} (h : v.NoBrace) {key : Text} (hw : v.field? key = some w) :
    w.NoBrace := by
  cases v with
  | map id fields => exact (noBrace_map.1 h).get? hw
  | _ => cases hw

mutual
/-- The output form of a value without opening braces has none. -/
theorem NoBrace.gives_toText : ∀ {v : Value}, v.NoBrace → Gives ('{' ∉ ·) v.toText
  | .null, _ => .ok List.not_mem_nil
  | .bool b, _ => by
    refine .ok ?_
    split_ifs <;> decide
  | .number n, _ => n.gives_toText
  | .str _, .str h => .ok h
  | .list _ _, .list h =>
    (gives_itemTexts h).bind fun _ hts => .ok (Text.notMem_join (by decide) hts)
  | .map _ _, _ => .ok (by decide)
theorem gives_itemTexts : ∀ {items : List Value}, (∀ v ∈ items, v.NoBrace) →
    Gives (fun ts => ∀ t ∈ ts, '{' ∉ t) (itemTexts items)
  | [], _ => .ok (by simp)
  | v :: vs, h => by
    rw [List.forall_mem_cons] at h
    refine h.1.gives_toText.bind fun t ht => (gives_itemTexts h.2).bind fun ts hts => .ok ?_
    exact List.forall_mem_cons.2 ⟨ht, hts⟩
end

end Value

/-! ## Filters -/

theorem Text.notMem_replaceAll {search r s : Text} (hr : '{' ∉ r) (hs : '{' ∉ s) :
    '{' ∉ Text.replaceAll search r s := by
  intro hc
  rw [Text.replaceAll] at hc
  split_ifs at hc
  · rw [List.mem_append, List.mem_flatMap] at hc
    rcases hc with hc | ⟨c, hm, hc⟩
    · exact hr hc
    · rcases List.mem_cons.1 hc with rfl | hc
      · exact hs hm
      · exact hr hc
  · rcases Reader.mem_replaceEvery (Reader.leaves_literal search) _ hc with hc | ⟨_, hc⟩
    · exact hs hc
    · exact hr hc

namespace Value

variable {v w : Value}

@[simp] theorem noBrace_str {s : Text} : NoBrace (.str s) ↔ '{' ∉ s :=
  ⟨fun h => by cases h; assumption, .str⟩

theorem NoBrace.items {id : Identity} {items : List Value} (h : NoBrace (.list id items)) :
    ∀ v ∈ items, v.NoBrace := by
  cases h
  assumption

theorem NoBrace.splitText (h : v.NoBrace) (delimiter : Text) :
    Gives NoBrace (v.splitText delimiter) := by
  refine h.gives_toText.bind fun s hs => .ok (.list fun u hu => ?_)
  have pieces : ∀ p ∈ (if delimiter = [] then s.map fun c => [c] else Text.splitOn delimiter s),
      '{' ∉ p := by
    intro p hp hc
    refine hs ?_
    split_ifs at hp
    · obtain ⟨c, hm, rfl⟩ := List.mem_map.1 hp
      rwa [List.mem_singleton.1 hc]
    · exact Text.subset_of_mem_splitOn hp hc
  obtain ⟨p, hp, rfl⟩ := List.mem_map.1 hu
  exact .str (pieces p hp)

theorem NoBrace.replaceText (h : v.NoBrace) (hw : w.NoBrace) (search : Text) :
    Gives NoBrace (v.replaceText search w) :=
  hw.gives_toText.bind fun _ hr => h.gives_toText.bind fun _ hs =>
    .ok (.str (Text.notMem_replaceAll hr hs))

theorem NoBrace.uniq (h : v.NoBrace) : v.uniq.NoBrace := by
  cases v with
  | list id items => exact .list fun u hu => h.items u ((uniqueFrom_sublist [] items).subset hu)
  | _ => exact h

theorem NoBrace.sortNatural (h : v.NoBrace) : Gives NoBrace v.sortNatural := by
  cases v with
  | list id items =>
    have keyed : Gives (fun pairs : List (List Chunk × Value) => ∀ pair ∈ pairs, pair.2.NoBrace)
        (items.mapM withNaturalKey) := by
      have known := h.items
      clear h
      induction items with
      | nil => exact .ok (by simp)
      | cons v vs ih =>
        rw [List.forall_mem_cons] at known
        rw [List.mapM_cons]
        have first : Gives (fun pair : List Chunk × Value => pair.2.NoBrace) v.withNaturalKey :=
          (Gives.any _).bind fun _ _ => (Gives.any _).bind fun _ _ => .ok known.1
        refine first.bind fun pair hp => (ih known.2).bind fun pairs hps => .ok ?_
        exact List.forall_mem_cons.2 ⟨hp, hps⟩
    refine Gives.bind (keyed.bind fun pairs hps => .ok ?_) fun sorted hs => .ok (.list hs)
    intro u hu
    obtain ⟨pair, hm, rfl⟩ := List.mem_map.1 hu
    exact hps pair (List.mem_mergeSort.1 hm)
  | _ => exact .ok h

theorem gives_ofRounded (x : Float) : Gives NoBrace (ofRounded x) := by
  rw [ofRounded]
  split_ifs
  · exact .ok (.number _)
  · exact (Gives.any _).bind fun _ _ => .ok (.number _)

theorem noBrace_ofResult (x : Float) : (ofResult x).NoBrace := by
  rw [ofResult]
  split_ifs <;> exact .number _

end Value

theorem Arithmetic.gives_apply (operation : Arithmetic) (v : Value) (operand : Evaluation Float) :
    Gives Value.NoBrace (operation.apply v operand) := by
  cases operation with
  | times =>
    exact (Gives.any _).bind fun _ _ => (Gives.any _).bind fun _ _ => Value.gives_ofRounded _
  | dividedBy =>
    refine (Gives.any _).bind fun y _ => ?_
    rw [Value.quotient]
    split_ifs
    · exact .ok (.number _)
    · exact (Gives.any _).bind fun _ _ => Value.gives_ofRounded _
  | minus =>
    exact (Gives.any _).bind fun _ _ => (Gives.any _).bind fun _ _ =>
      .ok (Value.noBrace_ofResult _)
  | plus =>
    exact (Gives.any _).bind fun _ _ => (Gives.any _).bind fun _ _ =>
      .ok (Value.noBrace_ofResult _)

end ThemeProps
