/-
  Lists: without repetitions, sorted, and of values that may be missing.

  * `eraseDups_filter`, `pairwise_eraseDups` and `nodup_eraseDups`: what is left of a
    list without repetitions;
  * `filter_mergeSort`: sorting keeps the order of items that are at most each other;
  * `mapM_eq_ok_iff`: a function that can fail gives a result for a list if it gives
    one for each item.
-/
import Mathlib.Data.List.Basic
import Mathlib.Data.List.Forall2
import Mathlib.Tactic.Common

namespace ThemeProps

section
variable {α : Type}

/-! ## Lists without repetitions -/

theorem eraseDups_filter [BEq α] [LawfulBEq α] (p : α → Bool) (as : List α) :
    (as.filter p).eraseDups = as.eraseDups.filter p := by
  cases as with
  | nil => rfl
  | cons a as =>
    have rest := eraseDups_filter p (as.filter fun b => !b == a)
    rw [List.filter_comm] at rest
    cases h : p a with
    | true => rw [List.filter_cons_of_pos h, List.eraseDups_cons, List.eraseDups_cons,
        List.filter_cons_of_pos h, rest]
    | false =>
      rw [List.filter_cons_of_neg (by simp [h]), List.eraseDups_cons,
        List.filter_cons_of_neg (by simp [h]), ← rest]
      congr 1
      refine (List.filter_eq_self.2 fun b hb => ?_).symm
      have differ : b ≠ a := by
        rintro rfl
        rw [(List.mem_filter.1 hb).2] at h
        cases h
      simpa using differ
termination_by as.length
decreasing_by exact Nat.lt_succ_of_le (List.length_filter_le _ _)

theorem pairwise_eraseDups [BEq α] [LawfulBEq α] {r : α → α → Prop} : ∀ as : List α,
    as.Pairwise r → as.eraseDups.Pairwise fun a b => r a b ∧ a ≠ b
  | [], _ => .nil
  | a :: as, h => by
    obtain ⟨first, rest⟩ := List.pairwise_cons.1 h
    rw [List.eraseDups_cons]
    refine .cons (fun b hb => ?_) (pairwise_eraseDups _ (rest.filter _))
    obtain ⟨hb, differ⟩ := List.mem_filter.1 (List.mem_eraseDups.1 hb)
    exact ⟨first b hb, fun he => by simp [he] at differ⟩
termination_by as => as.length
decreasing_by exact Nat.lt_succ_of_le (List.length_filter_le _ _)

theorem nodup_eraseDups [BEq α] [LawfulBEq α] (as : List α) : as.eraseDups.Nodup :=
  (pairwise_eraseDups as (List.pairwise_of_forall fun _ _ => trivial)).imp And.right

/-! ## Sorted lists -/

/-- Items that are at most each other stand in their order when the list is sorted. -/
theorem filter_mergeSort {le : α → α → Bool} {p : α → Bool}
    (trans : ∀ a b c, le a b = true → le b c = true → le a c = true)
    (total : ∀ a b, (le a b || le b a) = true)
    (same : ∀ a b, p a = true → p b = true → le a b = true) (as : List α) :
    (as.mergeSort le).filter p = as.filter p := by
  have sorted : (as.filter p).Pairwise fun a b => le a b = true :=
    List.pairwise_of_forall_mem_list fun a ha b hb =>
      same a b (List.mem_filter.1 ha).2 (List.mem_filter.1 hb).2
  have kept : (as.filter p).Sublist (as.mergeSort le) :=
    List.sublist_mergeSort trans total sorted List.filter_sublist
  have within : (as.filter p).Sublist ((as.mergeSort le).filter p) := by
    have filtered := kept.filter p
    simp only [List.filter_filter, Bool.and_self] at filtered
    exact filtered
  exact (within.eq_of_length ((List.mergeSort_perm as le).filter p).length_eq.symm).symm

end

/-! ## Functions that can fail -/

section
variable {α β ε : Type} {f : α → Except ε β} {as : List α} {bs : List β}

@[simp, grind =]
theorem toOption_eq_some {x : Except ε α} {a : α} : x.toOption = some a ↔ x = .ok a := by
  cases x with
  | error e => exact iff_of_false nofun nofun
  | ok b => exact ⟨fun h => congrArg _ (Option.some.inj h), fun h => congrArg _ (Except.ok.inj h)⟩

theorem mapM_map {g : α → Except ε β} {k : β → β} (h : ∀ a, f a = (g a).map k) (as : List α) :
    as.mapM f = (as.mapM g).map (·.map k) := by
  induction as with
  | nil => rfl
  | cons a as ih =>
    rw [List.mapM_cons, List.mapM_cons, h, ih]
    cases g a with
    | error e => rfl
    | ok b => cases as.mapM g <;> rfl

@[grind =] theorem mapM_cons_eq_ok {a : α} :
    (a :: as).mapM f = .ok bs ↔ ∃ b rest, f a = .ok b ∧ as.mapM f = .ok rest ∧ b :: rest = bs := by
  rw [List.mapM_cons]
  cases f a with
  | error e => exact iff_of_false nofun nofun
  | ok b =>
    cases as.mapM f with
    | error e => exact iff_of_false nofun nofun
    | ok rest =>
      constructor
      · intro h
        exact ⟨b, rest, rfl, rfl, Except.ok.inj h⟩
      · rintro ⟨_, _, ⟨⟩, ⟨⟩, rfl⟩
        rfl

/-- A function that can fail, applied to each of some values. -/
@[grind =]
theorem mapM_eq_ok_iff : as.mapM f = .ok bs ↔ List.Forall₂ (fun a b => f a = .ok b) as bs := by
  induction as generalizing bs with
  | nil =>
    rw [List.forall₂_nil_left_iff]
    exact ⟨fun h => (Except.ok.inj h).symm, fun h => by rw [h]; rfl⟩
  | cons a as ih =>
    rw [List.forall₂_cons_left_iff, mapM_cons_eq_ok]
    simp only [ih, eq_comm]

theorem mem_mapM_iff (h : as.mapM f = .ok bs) {b : β} : b ∈ bs ↔ ∃ a ∈ as, f a = .ok b := by
  induction mapM_eq_ok_iff.1 h with
  | nil => simp
  | @cons a b' as bs first rest ih =>
    rw [List.mem_cons, ih (mapM_eq_ok_iff.2 rest)]
    simp [first, eq_comm]

theorem exists_mapM_iff : (∃ bs, as.mapM f = .ok bs) ↔ ∀ a ∈ as, ∃ b, f a = .ok b := by
  simp only [mapM_eq_ok_iff]
  induction as with
  | nil => exact ⟨fun _ => by simp, fun _ => ⟨[], .nil⟩⟩
  | cons a as ih =>
    rw [List.forall_mem_cons, ← ih]
    simp [List.forall₂_cons_left_iff]

end

end ThemeProps
