/-
  Lists without repeated items.

  * `SameItem` says which items count as one: numbers of one amount, and other items
    of one kind that are the same object or have equal contents. It is what
    `sameItem` decides. NaN is not the same item as itself;
  * `uniqueFrom_concat` is what is kept of a list with one item more at its end;
  * `Representatives` are the positions of the items that are not the same as one
    kept before them. A list has them at one choice of positions alone, and
    `representatives_uniqueFrom`: they are what is kept;
  * `uniq_representatives` puts this together with what follows for the list that
    is kept.
-/
import ThemeProps.Proofs.Decimal.Exact
import ThemeProps.Value.Items

namespace ThemeProps.Value

/-! ## The same item -/

/-- The items count as one. -/
inductive SameItem : Value → Value → Prop
  | null : SameItem .null .null
  | bool (b : Bool) : SameItem (.bool b) (.bool b)
  | number {m n : Number} {a : Amount} (hm : m.amount? = some a) (hn : n.amount? = some a) :
      SameItem (.number m) (.number n)
  | str (s : Text) : SameItem (.str s) (.str s)
  | list {i j : Identity} {xs ys : List Value}
      (h : i.same j = true ∨ equalItems (i.shareNaN j) xs ys = true) :
      SameItem (.list i xs) (.list j ys)
  | map {i j : Identity} {fs gs : Fields}
      (h : i.same j = true ∨ fs.length = gs.length ∧ equalFields (i.shareNaN j) fs gs = true) :
      SameItem (.map i fs) (.map j gs)

@[simp, grind =] theorem sameItem_iff {v w : Value} : v.sameItem w = true ↔ SameItem v w := by
  constructor
  · intro h
    cases v <;> cases w
    case null.null => exact .null
    case bool.bool a b =>
      obtain rfl : a = b := by simpa [sameItem, sameKind, equal] using h
      exact .bool a
    case number.number m n =>
      obtain ⟨a, hm, hn⟩ := Number.same_iff.1 h
      exact .number hm hn
    case str.str s t =>
      obtain rfl : s = t := by simpa [sameItem, sameKind, equal] using h
      exact .str s
    case list.list i xs j ys => exact .list (by simpa [sameItem, sameKind, equal] using h)
    case map.map i fs j gs => exact .map (by simpa [sameItem, sameKind, equal] using h)
    all_goals simp [sameItem, sameKind] at h
  · intro h
    cases h with
    | null => rfl
    | bool b => simp [sameItem, sameKind, equal]
    | number hm hn => exact Number.same_iff.2 ⟨_, hm, hn⟩
    | str s => simp [sameItem, sameKind, equal]
    | list h => simpa [sameItem, sameKind, equal] using h
    | map h => simpa [sameItem, sameKind, equal] using h

instance (v w : Value) : Decidable (SameItem v w) := decidable_of_iff _ sameItem_iff

/-! ## What is kept -/

section
variable {seen items : List Value}

@[simp, grind =]
theorem any_sameItem {v : Value} : seen.any v.sameItem = true ↔ ∃ u ∈ seen, SameItem v u := by
  simp only [List.any_eq_true, sameItem_iff]

theorem uniqueFrom_concat (v : Value) :
    uniqueFrom seen (items ++ [v]) =
      if ∃ u ∈ seen ++ uniqueFrom seen items, SameItem v u then uniqueFrom seen items
      else uniqueFrom seen items ++ [v] := by
  induction items generalizing seen with
  | nil =>
    rw [List.nil_append, uniqueFrom, uniqueFrom, List.append_nil]
    simp only [any_sameItem, uniqueFrom, List.nil_append]
  | cons w items ih =>
    rw [List.cons_append, uniqueFrom, uniqueFrom]
    by_cases known : seen.any w.sameItem = true
    · rw [if_pos known, if_pos known]
      exact ih
    · rw [if_neg known, if_neg known, ih, List.append_assoc, List.singleton_append]
      split_ifs
      · rfl
      · rfl

theorem uniqueFrom_sublist (seen items : List Value) : (uniqueFrom seen items).Sublist items := by
  induction items generalizing seen with
  | nil => exact .slnil
  | cons v items ih =>
    rw [uniqueFrom]
    split_ifs
    · exact (ih seen).cons v
    · exact (ih (seen ++ [v])).cons_cons v

theorem pairwise_uniqueFrom (seen items : List Value) :
    (uniqueFrom seen items).Pairwise (fun u v => ¬ SameItem v u) ∧
      ∀ v ∈ uniqueFrom seen items, ∀ u ∈ seen, ¬ SameItem v u := by
  induction items generalizing seen with
  | nil => exact ⟨.nil, nofun⟩
  | cons w items ih =>
    rw [uniqueFrom]
    split_ifs with known
    · exact ih seen
    · obtain ⟨pairwise, apart⟩ := ih (seen ++ [w])
      rw [any_sameItem] at known
      refine ⟨.cons (fun v hv => apart v hv w (by simp)) pairwise, fun v hv u hu same => ?_⟩
      obtain rfl | hv := List.mem_cons.1 hv
      · exact known ⟨u, hu, same⟩
      · exact apart v hv u (List.mem_append_left _ hu) same

/-- Nothing is dropped of a list in which no item is the same as an earlier one. -/
theorem uniqueFrom_eq_self (h : (seen ++ items).Pairwise fun u v => ¬ SameItem v u) :
    uniqueFrom seen items = items := by
  induction items generalizing seen with
  | nil => rfl
  | cons v items ih =>
    have new : ¬ ∃ u ∈ seen, SameItem v u := by
      rintro ⟨u, hu, same⟩
      exact (List.pairwise_append.1 h).2.2 u hu v List.mem_cons_self same
    rw [uniqueFrom, if_neg (by rwa [any_sameItem]), ih (by rwa [List.append_assoc])]

end

/-! ## Where it stands -/

/-- The positions of the items of a list that are not the same as one kept before them. -/
structure Representatives (items : List Value) (positions : List Nat) : Prop where
  inside : ∀ p ∈ positions, p < items.length
  increasing : positions.Pairwise (· < ·)
  /-- No item that is kept is the same as one that is kept before it. -/
  distinct : ∀ p ∈ positions, ∀ q ∈ positions, p < q → ∀ u v, items[p]? = some u →
    items[q]? = some v → ¬ SameItem v u
  /-- An item that is dropped is the same as one that is kept before it. -/
  covered : ∀ q v, items[q]? = some v → q ∉ positions →
    ∃ p ∈ positions, p < q ∧ ∃ u, items[p]? = some u ∧ SameItem v u

theorem getElem?_concat_eq_some {items : List Value} {v w : Value} {p : Nat} :
    (items ++ [v])[p]? = some w ↔ items[p]? = some w ∨ p = items.length ∧ w = v := by
  rw [List.getElem?_append]
  split_ifs with inside
  · exact ⟨.inl, fun h => h.resolve_right fun last => inside.ne last.1⟩
  · rw [List.getElem?_eq_none (Nat.le_of_not_lt inside), List.getElem?_singleton]
    split_ifs with last
    · have : p = items.length := by omega
      simp [this, eq_comm]
    · have : p ≠ items.length := by omega
      simp [this]

namespace Representatives

variable {items : List Value} {positions : List Nat} {v w : Value} {p : Nat}

theorem behind (h : Representatives items positions) (hp : p ∈ positions) :
    (items ++ [v])[p]? = some w ↔ items[p]? = some w := by
  rw [getElem?_concat_eq_some, or_iff_left fun last => (h.inside p hp).ne last.1]

theorem drop (h : Representatives items positions)
    (same : ∃ p ∈ positions, ∃ u, items[p]? = some u ∧ SameItem v u) :
    Representatives (items ++ [v]) positions where
  inside p hp := (h.inside p hp).trans (by simp)
  increasing := h.increasing
  distinct p hp q hq lt u w hu hw :=
    h.distinct p hp q hq lt u w ((h.behind hp).1 hu) ((h.behind hq).1 hw)
  covered q w hw hq := by
    obtain hw | ⟨rfl, rfl⟩ := getElem?_concat_eq_some.1 hw
    · obtain ⟨p, hp, lt, u, hu, same⟩ := h.covered q w hw hq
      exact ⟨p, hp, lt, u, (h.behind hp).2 hu, same⟩
    · obtain ⟨p, hp, u, hu, same⟩ := same
      exact ⟨p, hp, h.inside p hp, u, (h.behind hp).2 hu, same⟩

theorem keep (h : Representatives items positions)
    (new : ∀ p ∈ positions, ∀ u, items[p]? = some u → ¬ SameItem v u) :
    Representatives (items ++ [v]) (positions ++ [items.length]) where
  inside p hp := by
    obtain hp | hp := List.mem_append.1 hp
    · exact (h.inside p hp).trans (by simp)
    · simp [List.mem_singleton.1 hp]
  increasing := by
    refine List.pairwise_append.2 ⟨h.increasing, List.pairwise_singleton _ _, fun p hp q hq => ?_⟩
    exact (h.inside p hp).trans_eq (List.mem_singleton.1 hq).symm
  distinct p hp q hq lt u w hu hw := by
    have upTo {r : Nat} (hr : r ∈ positions ++ [items.length]) : r ≤ items.length := by
      obtain hr | hr := List.mem_append.1 hr
      · exact (h.inside r hr).le
      · exact (List.mem_singleton.1 hr).le
    have hp : p ∈ positions := (List.mem_append.1 hp).resolve_right fun last =>
      (lt.trans_le (upTo hq)).ne (List.mem_singleton.1 last)
    have hu' := (h.behind hp).1 hu
    obtain hw | ⟨rfl, rfl⟩ := getElem?_concat_eq_some.1 hw
    · have inside : q < items.length := (List.getElem?_eq_some_iff.1 hw).1
      have hq : q ∈ positions := (List.mem_append.1 hq).resolve_right fun last =>
        inside.ne (List.mem_singleton.1 last)
      exact h.distinct p hp q hq lt u w hu' hw
    · exact new p hp u hu'
  covered q w hw hq := by
    obtain hw | ⟨rfl, rfl⟩ := getElem?_concat_eq_some.1 hw
    · have hq : q ∉ positions := fun kept => hq (List.mem_append_left _ kept)
      obtain ⟨p, hp, lt, u, hu, same⟩ := h.covered q w hw hq
      exact ⟨p, List.mem_append_left _ hp, lt, u, (h.behind hp).2 hu, same⟩
    · exact absurd (List.mem_append_right _ (List.mem_singleton_self _)) hq

/-- A list has its representatives at one choice of positions alone. -/
theorem unique {positions' : List Nat} (h : Representatives items positions)
    (h' : Representatives items positions') : positions = positions' := by
  -- Whether a position is one of them depends on the positions before it.
  have step {ps qs : List Nat} (hp : Representatives items ps) (hq : Representatives items qs)
      {q : Nat} (ih : ∀ p < q, p ∈ ps ↔ p ∈ qs) (mem : q ∈ ps) : q ∈ qs := by
    by_contra dropped
    obtain ⟨p, kept, lt, u, hu, same⟩ :=
      hq.covered q _ (List.getElem?_eq_getElem (hp.inside q mem)) dropped
    exact hp.distinct p ((ih p lt).2 kept) q mem lt u _ hu
      (List.getElem?_eq_getElem (hp.inside q mem)) same
  refine h.increasing.eq_of_mem_iff h'.increasing fun q => ?_
  induction q using Nat.strongRecOn with
  | _ q ih => exact ⟨step h h' ih, step h' h fun p lt => (ih p lt).symm⟩

end Representatives

/-- What is kept of a list are its representatives. -/
theorem representatives_uniqueFrom (items : List Value) : ∃ positions,
    Representatives items positions ∧
      positions.map (items[·]?) = (uniqueFrom [] items).map some := by
  induction items using List.reverseRecOn with
  | nil => exact ⟨[], ⟨nofun, .nil, nofun, by simp⟩, rfl⟩
  | append_singleton items v ih =>
    obtain ⟨positions, h, kept⟩ := ih
    have mem {u : Value} : u ∈ uniqueFrom [] items ↔ ∃ p ∈ positions, items[p]? = some u := by
      have members := congrArg (some u ∈ ·) kept
      simpa using members.symm
    have front : positions.map ((items ++ [v])[·]?) = (uniqueFrom [] items).map some := by
      rw [← kept]
      exact List.map_congr_left fun p hp => List.getElem?_append_left (h.inside p hp)
    rw [uniqueFrom_concat]
    split_ifs with same
    · obtain ⟨u, hu, same⟩ := same
      obtain ⟨p, hp, hu⟩ := mem.1 hu
      exact ⟨positions, h.drop ⟨p, hp, u, hu, same⟩, front⟩
    · have new : ∀ p ∈ positions, ∀ u, items[p]? = some u → ¬ SameItem v u :=
        fun p hp u hu sameItem => same ⟨u, mem.2 ⟨p, hp, hu⟩, sameItem⟩
      refine ⟨_, h.keep new, ?_⟩
      rw [List.map_append, List.map_append, front]
      simp

/-- **A list without repetitions** has the first items of the list that count as one. It is a
subsequence of the list. An item is dropped if and only if it is the same as one that is kept
before it, so the first item is kept, and in what is kept there is nothing more to drop. -/
theorem uniq_representatives (i : Identity) (items : List Value) : ∃ positions kept,
    (list i items).uniq = list .fresh kept ∧
      Representatives items positions ∧ positions.map (items[·]?) = kept.map some ∧
      kept.Sublist items ∧ kept.Pairwise (fun u v => ¬ SameItem v u) ∧
      kept.head? = items.head? ∧ ∀ j, (list j kept).uniq = list .fresh kept := by
  obtain ⟨positions, representatives, h⟩ := representatives_uniqueFrom items
  have pairwise := (pairwise_uniqueFrom [] items).1
  refine ⟨positions, uniqueFrom [] items, rfl, representatives, h, uniqueFrom_sublist [] items,
    pairwise, ?first, fun j => ?again⟩
  case first => cases items <;> rfl
  case again => rw [uniq, uniqueFrom_eq_self pairwise]

/-- NaN is kept each time, and numbers of one amount are one item. -/
example : (list .fresh [float notANumber, int 1, bool true, float 1, float notANumber]).uniq =
    list .fresh [float notANumber, int 1, bool true, float notANumber] := by
  rfl

end ThemeProps.Value
