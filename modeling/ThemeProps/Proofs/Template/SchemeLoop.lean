/-
  The scheme loop in tidy texts.

  * `Renames s t`: `t` is `s` with paths in the places of other paths. A renaming
    touches neither braces nor percent signs nor quotation marks, so it keeps a
    text tidy (`Renames.tidy`);
  * `tidy_firstIteration`: so do the steps that write out the first round;
  * `tidy_expand`: a tidy text with its loops written out is tidy.
-/
import ThemeProps.Template.SchemeLoop
import ThemeProps.Proofs.NoBrace.Setting
import ThemeProps.Proofs.Template.Tidy

namespace ThemeProps.SchemeLoop

open Template

variable {k : Constructs} {a s t : Text} {c : Char}

/-! ## Renaming -/

/-- The text is a path. -/
structure IsPath (w : Text) : Prop where
  nonempty : w ≠ []
  letters : ∀ c ∈ w, Text.isWordOrDot c = true

/-- Some paths have others in their places. -/
inductive Renames : Text → Text → Prop where
  | nil : Renames [] []
  | keep (c : Char) {s t : Text} (h : Renames s t) : Renames (c :: s) (c :: t)
  | path {a b s t : Text} (ha : IsPath a) (hb : IsPath b) (h : Renames s t) :
      Renames (a ++ s) (b ++ t)

theorem IsPath.notMem (h : IsPath a) (hc : Text.isWordOrDot c = false) : c ∉ a := by
  intro hm
  rw [h.letters c hm] at hc
  cases hc

namespace Renames

/-- What is in no path stays in front. -/
theorem of_cons (hc : Text.isWordOrDot c = false) (h : Renames (c :: s) t) :
    ∃ t', t = c :: t' ∧ Renames s t' := by
  generalize hx : c :: s = x at h
  cases h with
  | nil => cases hx
  | keep d h =>
    obtain ⟨rfl, rfl⟩ := List.cons.inj hx
    exact ⟨_, rfl, h⟩
  | path ha hb h =>
    obtain ⟨d, w, rfl⟩ := List.exists_cons_of_ne_nil ha.nonempty
    obtain ⟨rfl, -⟩ := List.cons.inj hx
    exact absurd List.mem_cons_self (ha.notMem hc)

/-- What is in no path stays between what is renamed before it and behind it. -/
theorem of_append (hc : Text.isWordOrDot c = false) (h : Renames (a ++ c :: s) t) :
    ∃ a' s', t = a' ++ c :: s' ∧ Renames a a' ∧ Renames s s' := by
  generalize hx : a ++ c :: s = x at h
  induction h generalizing a with
  | nil => simp at hx
  | keep d h ih =>
    cases a with
    | nil =>
      obtain ⟨rfl, rfl⟩ := List.cons.inj hx
      exact ⟨[], _, rfl, .nil, h⟩
    | cons e a =>
      obtain ⟨rfl, there⟩ := List.cons.inj hx
      obtain ⟨a', s', rfl, before, behind⟩ := ih there
      exact ⟨e :: a', s', rfl, .keep e before, behind⟩
  | @path w w' u v hw hw' h ih =>
    rcases List.append_eq_append_iff.1 hx with ⟨x, rfl, hu⟩ | ⟨x, rfl, hu⟩
    · cases x with
      | nil =>
        obtain ⟨a', s', rfl, before, behind⟩ := ih (a := []) hu
        exact ⟨w' ++ a', s', by simp, by simpa using Renames.path hw hw' before, behind⟩
      | cons d x =>
        obtain ⟨rfl, -⟩ := List.cons.inj hu
        exact absurd (by simp) (hw.notMem hc)
    · obtain ⟨a', s', rfl, before, behind⟩ := ih hu.symm
      exact ⟨w' ++ a', s', by simp, .path hw hw' before, behind⟩

/-- Outside the paths nothing changes. -/
theorem filter_eq (h : Renames s t) :
    t.filter (fun c => !Text.isWordOrDot c) = s.filter (fun c => !Text.isWordOrDot c) := by
  have none {w : Text} (hw : IsPath w) : w.filter (fun c => !Text.isWordOrDot c) = [] :=
    List.filter_eq_nil_iff.2 fun c hc => by rw [hw.letters c hc]; decide
  induction h with
  | nil => rfl
  | keep c h ih => rw [List.filter_cons, List.filter_cons, ih]
  | path ha hb h ih => rw [List.filter_append, List.filter_append, none ha, none hb, ih]

theorem mem_iff (h : Renames s t) (hc : Text.isWordOrDot c = false) : c ∈ t ↔ c ∈ s := by
  have outside (w : Text) : c ∈ w.filter (fun c => !Text.isWordOrDot c) ↔ c ∈ w := by
    rw [List.mem_filter, hc]
    simp
  rw [← outside t, ← outside s, h.filter_eq]

theorem countP_eq (h : Renames s t) {p : Char → Bool}
    (hp : ∀ c, p c = true → Text.isWordOrDot c = false) : t.countP p = s.countP p := by
  have outside (w : Text) : (w.filter fun c => !Text.isWordOrDot c).countP p = w.countP p := by
    rw [List.countP_filter]
    refine List.countP_congr fun c _ => ?_
    cases hc : p c
    · simp
    · simp [hp c hc]
  rw [← outside t, ← outside s, h.filter_eq]

theorem head?_eq (h : Renames s t) (hc : Text.isWordOrDot c = false) (ht : t.head? = some c) :
    s.head? = some c := by
  cases h with
  | nil => exact ht
  | keep d h => exact ht
  | path ha hb h =>
    obtain ⟨d, w, rfl⟩ := List.exists_cons_of_ne_nil hb.nonempty
    obtain rfl : d = c := Option.some.inj ht
    exact absurd List.mem_cons_self (hb.notMem hc)

theorem closesTag (h : Renames s t) (hs : ClosesTag s) : ClosesTag t := by
  obtain ⟨args, rest, rfl, ho, hp⟩ := hs
  obtain ⟨args', t, rfl, before, behind⟩ := h.of_append (by decide)
  obtain ⟨rest', rfl, -⟩ := behind.of_cons (by decide)
  exact ⟨args', rest', rfl, fun hm => ho ((before.mem_iff (by decide)).1 hm),
    fun hm => hp ((before.mem_iff (by decide)).1 hm)⟩

theorem closesOutput (h : Renames s t) (hs : ClosesOutput s) : ClosesOutput t := by
  have marks (c : Char) (hc : Text.isQuoteMark c = true) : Text.isWordOrDot c = false := by
    rw [Text.isQuoteMark, Bool.or_eq_true, beq_iff_eq, beq_iff_eq] at hc
    rcases hc with rfl | rfl <;> decide
  obtain ⟨args, rest, rfl, ⟨ho, hc⟩, first, quotes⟩ := hs
  obtain ⟨args', t, rfl, before, behind⟩ := h.of_append (by decide)
  obtain ⟨rest', rfl, -⟩ := behind.of_cons (by decide)
  refine ⟨args', rest', rfl, ⟨fun hm => ho ((before.mem_iff (by decide)).1 hm),
    fun hm => hc ((before.mem_iff (by decide)).1 hm)⟩,
    fun hp => first (before.head?_eq (by decide) hp), ?_⟩
  rwa [before.countP_eq marks]

theorem opens (h : Renames s t) (hs : Opens k s) : Opens k t := by
  cases h with
  | nil => exact hs
  | keep c h =>
    rw [Opens] at hs ⊢
    split_ifs at hs ⊢
    · exact ⟨hs.1, h.closesTag hs.2⟩
    · exact ⟨hs.1, h.closesOutput hs.2⟩
  | path ha hb h =>
    obtain ⟨d, w, rfl⟩ := List.exists_cons_of_ne_nil hb.nonempty
    have letter := hb.letters d List.mem_cons_self
    rw [List.cons_append, Opens, if_neg, if_neg]
    · trivial
    · rintro rfl
      exact absurd letter (by decide)
    · rintro rfl
      exact absurd letter (by decide)

/-- A renaming keeps a text tidy. -/
theorem tidy (h : Renames s t) (hs : Tidy k s) : Tidy k t := by
  induction h with
  | nil => trivial
  | keep c h ih => exact ⟨fun hc => h.opens (hs.1 hc), ih hs.2⟩
  | @path a b s t ha hb h ih =>
    exact (tidy_of_notMem (hb.notMem (by decide))).append (ih (hs.suffix (List.suffix_append a s)))

end Renames

/-- What is read as a word, and what stands in for it, are paths. -/
theorem isPath_of_renamedWord {name v r : Text} (h : renamedWord name s = some (v, r)) :
    ∃ w, s = w ++ r ∧ IsPath w ∧ IsPath v := by
  obtain ⟨word, t, hword, read⟩ := Reader.bind_eq_some.1 h
  obtain ⟨rfl, hne, hword⟩ := Reader.run1_eq_some hword
  have letters : ∀ c ∈ word, Text.isWordOrDot c = true := fun c hc => by
    rw [Text.isWordOrDot, hword c hc, Bool.true_or]
  have settings : ∀ c ∈ (".settings." : Text), Text.isWordOrDot c = true :=
    Text.forall_mem_of_all rfl
  cases hs : (do
      if word ≠ name then failure
      Reader.literal ".settings."
      return "scheme.settings." : Reader Text) t with
  | none =>
    -- a word that stays as it is
    rw [Reader.orElse_none hs] at read
    obtain ⟨rfl, rfl⟩ : word = v ∧ t = r := Prod.mk.inj (Option.some.inj read)
    exact ⟨word, rfl, ⟨hne, letters⟩, ⟨hne, letters⟩⟩
  | some found =>
    -- the loop variable, with the settings behind it
    rw [Reader.orElse_of hs] at read
    obtain rfl : found = (v, r) := Option.some.inj read
    have hn : word = name := by
      by_contra hn
      rw [if_pos hn] at hs
      exact absurd (Reader.bind_none rfl _) (by rw [hs]; exact Option.some_ne_none _)
    rw [if_neg (not_not_intro hn)] at hs
    obtain ⟨_, u, behind, hs⟩ := Reader.bind_eq_some.1 hs
    obtain rfl := Reader.literal_eq_some.1 behind
    obtain ⟨rfl, rfl⟩ : "scheme.settings.".toList = v ∧ u = r := Prod.mk.inj (Option.some.inj hs)
    refine ⟨word ++ ".settings.", by rw [List.append_assoc], ⟨by simp [hne], fun c hc => ?_⟩,
      ⟨by decide, Text.forall_mem_of_all rfl⟩⟩
    rcases List.mem_append.1 hc with hc | hc
    · exact letters c hc
    · exact settings c hc

/-- The loop variable is renamed. -/
theorem renames_replaceEvery (name s : Text) :
    Renames s (Reader.replaceEvery (renamedWord name) id s) := by
  have leaves : Reader.Leaves (renamedWord name) := by
    intro s v r h
    obtain ⟨w, rfl, -, -⟩ := isPath_of_renamedWord h
    exact ⟨w, rfl, fun _ _ => trivial⟩
  refine Reader.replaceEvery_induction leaves .nil (fun c s _ ih => .keep c ih)
    (fun w v r _ read ih => ?_) s
  obtain ⟨w', he, hw, hv⟩ := isPath_of_renamedWord read
  obtain rfl := List.append_cancel_right he
  exact .path hw hv ih

/-! ## The first round -/

variable (name : Text)

theorem rewrites_idOutput {id : Text} (hid : '{' ∉ id) :
    Rewrites k k (idOutput name) fun _ => id := by
  refine .behind (.inr Tag.begins_openOutput) Tag.proceeds_openOutput fun _ => ?_
  refine finds_of_leaves ?_ fun _ => tidy_of_notMem hid
  exact (Reader.leaves_literal _).bind fun _ =>
    (Reader.leaves_literal _).bind fun _ => Tag.leaves_closeOutput

theorem rewrites_indexOutput : Rewrites k k indexOutput fun _ => "1" := by
  refine .behind (.inr Tag.begins_openOutput) Tag.proceeds_openOutput fun _ => ?_
  refine finds_of_leaves ?_ fun _ => tidy_of_notMem (by decide)
  exact (Reader.leaves_literal _).bind fun _ => Tag.leaves_closeOutput

theorem rewrites_firstRound : Rewrites k k firstRound id := by
  refine .behind (.inl (Tag.begins_opening _)) (Tag.proceeds_opening _) fun _ => ?_
  refine finds_behind (Reader.leaves_keyword _) fun _ => ?_
  refine finds_behind Reader.leaves_blanks fun _ => ?_
  refine finds_behind (Reader.leaves_literal _) fun _ => ?_
  refine finds_behind Reader.leaves_blanks fun _ => finds_behind (Reader.leaves_char _) fun _ => ?_
  exact finds_behind Tag.leaves_closeTag fun _ => finds_upToWord _

theorem rewrites_otherRound : Rewrites k k otherRound fun _ => [] := by
  refine .behind (.inl (Tag.begins_opening _)) (Tag.proceeds_opening _) fun _ => ?_
  refine finds_of_leaves ?_ fun _ => trivial
  refine (Reader.leaves_keyword _).bind fun _ => (Reader.leaves_run1 _).bind fun _ => ?_
  refine (Reader.leaves_char _).bind fun _ => (Reader.leaves_char _).bind fun _ => ?_
  exact (Tag.leaves_upToWord _).bind fun _ => Reader.leaves_pure ()

/-- The first round of a tidy body is tidy. -/
theorem tidy_firstIteration {id body : Text} (hid : '{' ∉ id) (h : Tidy k body) :
    Tidy k (firstIteration id name body) := by
  rw [firstIteration]
  have filled := (rewrites_idOutput name hid).tidy_replaceEvery h
  have renamed := (renames_replaceEvery name _).tidy filled
  have numbered := rewrites_indexOutput.tidy_replaceEvery renamed
  exact rewrites_otherRound.tidy_replaceEvery (rewrites_firstRound.tidy_replaceEvery numbered)

theorem rewrites_loop {id : Text} (hid : '{' ∉ id) :
    Rewrites k k loop fun found => firstIteration id found.1 found.2 := by
  refine .behind (.inl (Tag.begins_opening _)) (Tag.proceeds_opening _) fun _ => ?_
  refine finds_behind (Reader.leaves_run1 _) fun name => ?_
  refine finds_behind Reader.leaves_blanks1 fun _ => ?_
  refine finds_behind (Reader.leaves_keyword _) fun _ => ?_
  refine finds_behind Reader.leaves_blanks1 fun _ => ?_
  refine finds_behind (Reader.leaves_keyword _) fun _ => ?_
  refine finds_behind Tag.leaves_closeTag fun _ => ?_
  exact (finds_upToWord _).map fun body hbody => tidy_firstIteration name hid hbody

/-- A tidy text with the first round of its loops is tidy. -/
theorem tidy_expand {store : Store} (hstore : store.NoBrace) (hs : Tidy k s) :
    Tidy k (expand store s) :=
  (rewrites_loop hstore.notMem_schemeId).tidy_replaceEvery hs

end ThemeProps.SchemeLoop
