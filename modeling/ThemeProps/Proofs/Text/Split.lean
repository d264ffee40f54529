/-
  Texts cut at a separator.

  * `first_of_cutAt`: a text is cut at the first occurrence of the separator, that
    is, none begins before it;
  * `splitOn_induction`: the pieces of a text are the text itself, if the separator
    does not occur in it, or what stands before the first separator and the
    pieces of what stands behind it;
  * `join_splitOn` puts the pieces together again, and no piece has the separator
    in it (`not_infix_of_mem_splitOn`);
  * `replaceEvery_literal`: to write a text for each separator is to put the pieces
    together with that text.
-/
import ThemeProps.Proofs.Text.Pieces

namespace ThemeProps.Text

variable {w s before after : Text}

/-- The separator begins nowhere before the place where the text is cut. -/
theorem first_of_cutAt (h : cutAt w s = some (before, after)) :
    ∀ t, t <:+ before → t ≠ [] → ¬ w <+: t ++ (w ++ after) := by
  induction s generalizing before with
  | nil =>
    rw [cutAt] at h
    split_ifs at h
    obtain ⟨rfl, -⟩ : [] = before ∧ [] = after := by simpa using h
    exact fun t ht hne => absurd (List.suffix_nil.1 ht) hne
  | cons c s ih =>
    have parts := cutAt_eq_some h
    rw [List.append_assoc] at parts
    rw [cutAt] at h
    split at h
    · obtain ⟨rfl, -⟩ : [] = before ∧ _ = after := by simpa using h
      exact fun t ht hne => absurd (List.suffix_nil.1 ht) hne
    · next notHere =>
      rw [Option.map_eq_some_iff] at h
      obtain ⟨⟨before', after'⟩, found, he⟩ := h
      obtain ⟨rfl, rfl⟩ : c :: before' = before ∧ after' = after := by simpa using he
      intro t ht hne
      rcases List.suffix_cons_iff.1 ht with rfl | ht
      · rw [← parts]
        exact stripFrom_eq_none.1 notHere
      · exact ih found t ht hne

/-- What stands before a first separator does not contain it. -/
theorem not_infix_of_first (hw : w ≠ [])
    (first : ∀ t, t <:+ before → t ≠ [] → ¬ w <+: t ++ (w ++ after)) : ¬ w <:+: before := by
  rintro ⟨a, b, rfl⟩
  refine first (w ++ b) ⟨a, (List.append_assoc a w b).symm⟩
    (List.append_ne_nil_of_left_ne_nil hw b) ?_
  rw [List.append_assoc]
  exact List.prefix_append w _

@[simp] theorem splitOn_ne_nil : splitOn w s ≠ [] := by
  rw [splitOn]
  split
  · exact List.cons_ne_nil _ _
  · split_ifs
    · exact List.cons_ne_nil _ _
    · exact List.cons_ne_nil _ _

/-- A text with its pieces: there is one piece if the separator does not occur, and otherwise the
first one ends at the first separator. -/
theorem splitOn_induction {R : Text → List Text → Prop} (hw : w ≠ [])
    (whole : ∀ s, ¬ w <:+: s → R s [s])
    (cut : ∀ a b, (∀ t, t <:+ a → t ≠ [] → ¬ w <+: t ++ (w ++ b)) → R b (splitOn w b) →
      R (a ++ (w ++ b)) (a :: splitOn w b)) (s : Text) : R s (splitOn w s) := by
  induction s using splitOn.induct w with
  | case1 s hnone =>
    have absent := cutAt_eq_none.1 hnone
    have single : splitOn w s = [s] := splitOn_of_not_infix absent
    rw [single]
    exact whole s absent
  | case2 s before after hcut _ ih =>
    have first := first_of_cutAt hcut
    rw [cutAt_eq_some hcut, List.append_assoc, splitOn_append hw first]
    exact cut before after first ih
  | case3 s before after hcut longer =>
    refine absurd ?_ longer
    have := List.length_pos_iff.2 hw
    rw [cutAt_eq_some hcut, List.length_append, List.length_append]
    omega

@[simp] theorem join_splitOn (hw : w ≠ []) (s : Text) : join w (splitOn w s) = s := by
  refine splitOn_induction (R := fun s pieces => join w pieces = s) hw (fun s _ => rfl)
    (fun a b _ ih => ?_) s
  rw [join_cons w a splitOn_ne_nil, ih, List.append_assoc]

theorem not_infix_of_mem_splitOn (hw : w ≠ []) (s : Text) : ∀ p ∈ splitOn w s, ¬ w <:+: p := by
  refine splitOn_induction (R := fun _ pieces => ∀ p ∈ pieces, ¬ w <:+: p) hw
    (fun s absent => List.forall_mem_singleton.2 absent) (fun a b first ih => ?_) s
  exact List.forall_mem_cons.2 ⟨not_infix_of_first hw first, ih⟩

/-- To write a text for each separator is to put the pieces together with that text. -/
theorem replaceEvery_literal (hw : w ≠ []) (r s : Text) :
    (Reader.literal w).replaceEvery (fun _ => r) s = join r (splitOn w s) := by
  refine splitOn_induction
    (R := fun s pieces => (Reader.literal w).replaceEvery (fun _ => r) s = join r pieces) hw
    (fun s absent => ?_) (fun a b first ih => ?_) s
  · refine Reader.replaceEvery_of_refuses fun t ht _ => Reader.literal_eq_none.2 fun begins => ?_
    rw [List.append_nil] at begins
    exact absent (begins.isInfix.trans ht.isInfix)
  · have passed : Reader.Refuses (Reader.literal w) a (w ++ b) :=
      fun t ht hne => Reader.literal_eq_none.2 (first t ht hne)
    rw [Reader.replaceEvery_append passed,
      Reader.replaceEvery_of_reads (Reader.reads_literal w b) hw, ih, join_cons r a splitOn_ne_nil,
      List.append_assoc]

end ThemeProps.Text
