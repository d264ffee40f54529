/-
  Tidy templates: every tag and every output closes before another brace.

  * `Tidy k s`: whatever begins in `s` is a tag or an output with its closing
    mark, and only of the kinds that `k` admits; a brace that begins neither has
    another character behind it. Tidy texts are closed under concatenation and
    ends (`Tidy.append`, `Tidy.suffix`), and so are the stretches before a tag
    (`Tidy.before`). Whether a text is tidy can be computed;
  * `Finds k p reader`: what the reader reads in tidy texts has the property `p`;
  * `Rewrites k k' reader write`: the reader takes tags and outputs only, what is
    written for them is tidy, and what `k'` does not admit is not left over;
  * `Rewrites.tidy_replaceEvery`: such a rewriting makes tidy texts tidy.
-/
import ThemeProps.Expr.Pipes
import ThemeProps.Proofs.NoBrace.Value
import ThemeProps.Proofs.Template.Tag
import ThemeProps.Proofs.Text.Takes

namespace ThemeProps.Template

/-! ## Tidy texts -/

/-- The kinds of constructs that a text may hold. -/
structure Constructs where
  tags : Bool
  outputs : Bool

namespace Constructs

def all : Constructs := ⟨true, true⟩

def outputsOnly : Constructs := ⟨false, true⟩

def none : Constructs := ⟨false, false⟩

end Constructs

/-- The text goes on with the arguments of a tag and its closing mark. -/
def ClosesTag (s : Text) : Prop :=
  ∃ args rest, s = args ++ '%' :: '}' :: rest ∧ '{' ∉ args ∧ '%' ∉ args

/-- The text goes on with the contents of an output and its closing mark. A quotation that is opened
in it is closed. -/
def ClosesOutput (s : Text) : Prop :=
  ∃ args rest, s = args ++ '}' :: '}' :: rest ∧ ('{' ∉ args ∧ '}' ∉ args) ∧
    args.head? ≠ some '%' ∧ args.countP Text.isQuoteMark ≠ 1

/-- What stands behind an opening brace. -/
def Opens (k : Constructs) : Text → Prop
  | [] => False
  | c :: s =>
    if c = '%' then k.tags = true ∧ ClosesTag s
    else if c = '{' then k.outputs = true ∧ ClosesOutput s
    else True

/-- Behind each opening brace stands what may stand there. -/
def Tidy (k : Constructs) : Text → Prop
  | [] => True
  | c :: s => (c = '{' → Opens k s) ∧ Tidy k s

section
variable {k k' : Constructs} {a b s t : Text}

theorem ClosesTag.append (h : ClosesTag s) (t : Text) : ClosesTag (s ++ t) := by
  obtain ⟨args, rest, rfl, ha⟩ := h
  exact ⟨args, rest ++ t, by simp, ha⟩

theorem ClosesOutput.append (h : ClosesOutput s) (t : Text) : ClosesOutput (s ++ t) := by
  obtain ⟨args, rest, rfl, ha⟩ := h
  exact ⟨args, rest ++ t, by simp, ha⟩

theorem Opens.append (h : Opens k s) (t : Text) : Opens k (s ++ t) := by
  cases s with
  | nil => exact h.elim
  | cons c s =>
    rw [Opens] at h
    rw [List.cons_append, Opens]
    split_ifs at h ⊢ with hc ho
    · exact ⟨h.1, h.2.append t⟩
    · exact ⟨h.1, h.2.append t⟩

theorem Tidy.append (hs : Tidy k s) (ht : Tidy k t) : Tidy k (s ++ t) := by
  induction s with
  | nil => exact ht
  | cons c s ih => exact ⟨fun hc => (hs.1 hc).append t, ih hs.2⟩

theorem Tidy.suffix (hs : Tidy k s) (h : t <:+ s) : Tidy k t := by
  induction s with
  | nil => rw [List.suffix_nil.1 h]; trivial
  | cons c s ih =>
    rcases List.suffix_cons_iff.1 h with rfl | h
    · exact hs
    · exact ih hs.2 h

theorem tidy_of_notMem (h : '{' ∉ s) : Tidy k s := by
  induction s with
  | nil => trivial
  | cons c s ih =>
    rw [List.mem_cons, not_or] at h
    exact ⟨fun hc => absurd hc.symm h.1, ih h.2⟩

/-- What closes before an opening brace closes without it. -/
theorem closes_before {args rest : Text} {c d : Char} (h : a ++ '{' :: b = args ++ c :: d :: rest)
    (hargs : '{' ∉ args) (hc : c ≠ '{') (hd : d ≠ '{') :
    ∃ rest', a = args ++ c :: d :: rest' := by
  obtain ⟨u, rfl, hu⟩ := Text.eq_append_of_cons h hargs
  rcases u with _ | ⟨x, _ | ⟨y, u⟩⟩
  · exact absurd (List.cons.inj hu).1 hc
  · exact absurd (List.cons.inj (List.cons.inj hu).2).1 hd
  · simp only [List.cons_append, List.cons.injEq] at hu
    obtain ⟨rfl, rfl, -⟩ := hu
    exact ⟨u, rfl⟩

theorem Opens.before (h : Opens k (a ++ '{' :: '%' :: b)) : Opens k a := by
  cases a with
  | nil =>
    -- a percent sign does not begin an output
    obtain ⟨-, args, rest, he, -, first, -⟩ : k.outputs = true ∧ ClosesOutput ('%' :: b) := h
    cases args with
    | nil => cases he
    | cons x args => exact absurd (by rw [(List.cons.inj he).1]; rfl) first
  | cons c a =>
    rw [List.cons_append, Opens] at h
    rw [Opens]
    split_ifs at h ⊢ with hc ho
    · obtain ⟨hk, args, rest, he, ha⟩ := h
      obtain ⟨rest', rfl⟩ := closes_before he ha.1 (by decide) (by decide)
      exact ⟨hk, args, rest', rfl, ha⟩
    · obtain ⟨hk, args, rest, he, ha⟩ := h
      obtain ⟨rest', rfl⟩ := closes_before he ha.1.1 (by decide) (by decide)
      exact ⟨hk, args, rest', rfl, ha⟩

/-- The stretch before a tag is tidy on its own. -/
theorem Tidy.before (h : Tidy k (a ++ '{' :: '%' :: b)) : Tidy k a := by
  induction a with
  | nil => trivial
  | cons c a ih => exact ⟨fun hc => (h.1 hc).before, ih h.2⟩

theorem Opens.endsAt (hs : Opens k s) (h : Tag.EndsAt t s) : Opens k t := by
  obtain ⟨r, rfl, rfl | ⟨r, rfl⟩⟩ := h
  · rwa [List.append_nil] at hs
  · exact hs.before

theorem Tidy.endsAt (hs : Tidy k s) (h : Tag.EndsAt t s) : Tidy k t := by
  obtain ⟨r, rfl, rfl | ⟨r, rfl⟩⟩ := h
  · rwa [List.append_nil] at hs
  · exact hs.before

theorem Tidy.upTo {α : Type} {stop : Reader α} {v : α} {r : Text} (hs : Tidy k s)
    (hstop : Reader.Begins Tag.tagMark stop) (h : Reader.upTo stop s = some ((t, v), r)) :
    Tidy k t := by
  obtain ⟨b, rfl, hb⟩ := Reader.upTo_eq_some h
  exact hs.endsAt ⟨b, rfl, .inr (hstop b (by rw [hb]; exact Option.some_ne_none _))⟩

/-- A tidy text without tags has no opening mark of a tag. -/
theorem Tidy.noTag (h : Tidy k s) (hk : k.tags = false) : ¬ Tag.tagMark <:+: s := by
  rintro ⟨a, b, rfl⟩
  rw [List.append_assoc] at h
  obtain ⟨opens, -⟩ := h.suffix (List.suffix_append a _)
  obtain ⟨ht, -⟩ : k.tags = true ∧ ClosesTag b := opens rfl
  rw [hk] at ht
  cases ht

theorem Tidy.noOutput (h : Tidy k s) (hk : k.outputs = false) : ¬ Tag.outputMark <:+: s := by
  rintro ⟨a, b, rfl⟩
  rw [List.append_assoc] at h
  obtain ⟨opens, -⟩ := h.suffix (List.suffix_append a _)
  obtain ⟨ho, -⟩ : k.outputs = true ∧ ClosesOutput b := opens rfl
  rw [hk] at ho
  cases ho

end

/-! ## Checking -/

/-- The character is neither an opening brace nor the one that a closing mark begins with. -/
def isArgument (closing c : Char) : Bool := c ≠ '{' && c ≠ closing

section
variable {k : Constructs} {s args : Text} {closing : Char}

theorem forall_isArgument :
    (∀ c ∈ args, isArgument closing c = true) ↔ '{' ∉ args ∧ closing ∉ args := by
  simp only [isArgument, Bool.and_eq_true, decide_eq_true_eq]
  constructor
  · exact fun h => ⟨fun hm => (h _ hm).1 rfl, fun hm => (h _ hm).2 rfl⟩
  · exact fun h c hc => ⟨fun he => h.1 (he ▸ hc), fun he => h.2 (he ▸ hc)⟩

/-- The arguments up to a closing mark are the longest ones. -/
theorem closes_iff {d : Char} : (∃ rest, s = args ++ closing :: d :: rest) ∧
      (∀ c ∈ args, isArgument closing c = true) ↔
    args = s.takeWhile (isArgument closing) ∧
      [closing, d] <+: s.dropWhile (isArgument closing) := by
  have stops (rest : Text) : Reader.Stops (isArgument closing) (closing :: d :: rest) :=
    Reader.stops_cons.2 (by simp [isArgument])
  constructor
  · rintro ⟨⟨rest, rfl⟩, letters⟩
    rw [Reader.takeWhile_append_stops letters (stops rest),
      Reader.dropWhile_append_stops letters (stops rest)]
    exact ⟨rfl, rest, rfl⟩
  · rintro ⟨rfl, rest, hr⟩
    refine ⟨⟨rest, ?_⟩, fun c hc => List.mem_takeWhile_imp hc⟩
    calc s = s.takeWhile (isArgument closing) ++ s.dropWhile (isArgument closing) :=
          List.takeWhile_append_dropWhile.symm
      _ = _ := by rw [← hr]; rfl

theorem closesTag_iff : ClosesTag s ↔ ['%', '}'] <+: s.dropWhile (isArgument '%') := by
  constructor
  · rintro ⟨args, rest, hs, ha⟩
    exact (closes_iff.1 ⟨⟨rest, hs⟩, forall_isArgument.2 ha⟩).2
  · intro h
    obtain ⟨⟨rest, hs⟩, letters⟩ := closes_iff.2 ⟨rfl, h⟩
    exact ⟨_, rest, hs, forall_isArgument.1 letters⟩

theorem closesOutput_iff : ClosesOutput s ↔ ['}', '}'] <+: s.dropWhile (isArgument '}') ∧
    (s.takeWhile (isArgument '}')).head? ≠ some '%' ∧
      (s.takeWhile (isArgument '}')).countP Text.isQuoteMark ≠ 1 := by
  constructor
  · rintro ⟨args, rest, hs, ha, more⟩
    obtain ⟨rfl, h⟩ := closes_iff.1 ⟨⟨rest, hs⟩, forall_isArgument.2 ha⟩
    exact ⟨h, more⟩
  · rintro ⟨h, more⟩
    obtain ⟨⟨rest, hs⟩, letters⟩ := closes_iff.2 ⟨rfl, h⟩
    exact ⟨_, rest, hs, forall_isArgument.1 letters, more⟩

instance : Decidable (ClosesTag s) := decidable_of_iff _ closesTag_iff.symm

instance : Decidable (ClosesOutput s) := decidable_of_iff _ closesOutput_iff.symm

instance : Decidable (Opens k s) :=
  match s with
  | [] => inferInstanceAs (Decidable False)
  | c :: s => inferInstanceAs (Decidable (if c = '%' then k.tags = true ∧ ClosesTag s
      else if c = '{' then k.outputs = true ∧ ClosesOutput s else True))

instance Tidy.decidable : (s : Text) → Decidable (Tidy k s)
  | [] => inferInstanceAs (Decidable True)
  | c :: s =>
    have := decidable s
    inferInstanceAs (Decidable ((c = '{' → Opens k s) ∧ Tidy k s))

end

/-! ## What is read from tidy texts -/

/-- Whatever is read from a tidy text has the property; an end of the text is left. -/
structure Finds {α : Type} (k : Constructs) (p : α → Prop) (reader : Reader α) : Prop where
  leaves : Reader.Leaves reader
  found : ∀ s v r, Tidy k s → reader s = some (v, r) → p v

section
variable {α β : Type} {k : Constructs} {p : α → Prop} {q : β → Prop} {x : Reader α}

theorem finds_of_leaves (h : Reader.Leaves x) (hp : ∀ v, p v) : Finds k p x :=
  ⟨h, fun _ v _ _ _ => hp v⟩

/-- What is read first does not matter. -/
theorem finds_behind {f : α → Reader β} (hx : Reader.Leaves x) (hf : ∀ v, Finds k q (f v)) :
    Finds k q (x >>= f) := by
  refine ⟨hx.bind fun v => (hf v).leaves, fun s v r hs hr => ?_⟩
  obtain ⟨u, t, h₁, h₂⟩ := Reader.bind_eq_some.1 hr
  exact (hf u).found t v r (hs.suffix (hx.suffix h₁)) h₂

theorem Finds.map {f : α → β} (h : Finds k p x) (hf : ∀ v, p v → q (f v)) :
    Finds k q (x >>= fun v => pure (f v)) := by
  refine ⟨h.leaves.bind fun v => Reader.leaves_pure (f v), fun s v r hs hr => ?_⟩
  obtain ⟨u, t, h₁, h₂⟩ := Reader.bind_eq_some.1 hr
  obtain rfl : f u = v := (Prod.mk.inj (Option.some.inj h₂)).1
  exact hf u (h.found s u t hs h₁)

theorem finds_upTo (h : Reader.Begins Tag.tagMark x) (hx : Reader.Leaves x) :
    Finds k (fun found => Tidy k found.1) (Reader.upTo x) :=
  ⟨Reader.Takes.upTo hx, fun _ _ _ hs hr => hs.upTo h hr⟩

theorem finds_upToWord (keyword : Text) : Finds k (Tidy k) (Tag.upToWord keyword) :=
  (finds_upTo (Tag.begins_word keyword) (Tag.proceeds_word keyword).leaves).map fun _ h => h

end

/-! ## Rewriting -/

/-- The text that is written, or none if writing goes wrong. -/
def written (x : Evaluation Text) : Text := x.toOption.getD []

theorem tidy_written {k : Constructs} {x : Evaluation Text} (h : Gives (Tidy k) x) :
    Tidy k (written x) := by
  cases x with
  | ok t => exact h t rfl
  | error e => trivial

/-- The reader takes tags or outputs, what is written for them is tidy, and what it does not take
may be left. -/
structure Rewrites {α : Type} (k k' : Constructs) (reader : Reader α) (write : α → Text) :
    Prop where
  begins : Reader.Begins Tag.tagMark reader ∨ Reader.Begins Tag.outputMark reader
  proceeds : Reader.Proceeds reader
  writes : ∀ s v r, Tidy k s → reader s = some (v, r) → Tidy k' (write v)
  leaves : ∀ s, Opens k s → reader ('{' :: s) = none → Opens k' s

namespace Rewrites

variable {α : Type} {k k' : Constructs} {reader : Reader α} {write : α → Text} {s : Text}

theorem begins_brace (h : Rewrites k k' reader write) : Reader.Begins ['{'] reader := by
  intro s hs
  rcases h.begins with hb | hb
  · exact (List.prefix_append ['{'] ['%']).trans (hb s hs)
  · exact (List.prefix_append ['{'] ['{']).trans (hb s hs)

/-- Behind the first brace of an output nothing is read. -/
theorem refuses_output (h : Rewrites k k' reader write) {args b : Text} (ho : '{' ∉ args)
    (hp : args.head? ≠ some '%') : Reader.Refuses reader ('{' :: (args ++ ['}', '}'])) b := by
  refine Reader.refuses_cons.2 ⟨?_, h.begins_brace.refuses_of_notMem (by simp [ho])⟩
  by_contra hr
  rcases h.begins with hb | hb
  · have second := (List.cons_prefix_cons.1 (hb _ hr)).2
    cases args with
    | nil => exact absurd (List.cons_prefix_cons.1 second).1 (by decide)
    | cons c args => exact hp (by rw [← (List.cons_prefix_cons.1 second).1]; rfl)
  · have second := (List.cons_prefix_cons.1 (hb _ hr)).2
    cases args with
    | nil => exact absurd (List.cons_prefix_cons.1 second).1 (by decide)
    | cons c args =>
      rw [← (List.cons_prefix_cons.1 second).1] at ho
      exact ho List.mem_cons_self

/-- What stands behind a brace that is left stays there. -/
theorem opens_replaceEvery (h : Rewrites k k' reader write) (hs : Opens k' s) :
    Opens k' (Reader.replaceEvery reader write s) := by
  cases s with
  | nil => exact hs.elim
  | cons c s =>
    have plain {a b : Text} (ha : '{' ∉ a) : Reader.Refuses reader a b :=
      h.begins_brace.refuses_of_notMem ha
    rw [Opens] at hs
    split_ifs at hs with hc ho
    · obtain ⟨hk, args, rest, rfl, ha⟩ := hs
      have shape : c :: (args ++ '%' :: '}' :: rest) = (c :: (args ++ ['%', '}'])) ++ rest := by
        simp
      have refused : Reader.Refuses reader (c :: (args ++ ['%', '}'])) rest :=
        plain (by simp [hc, ha.1])
      rw [shape, Reader.replaceEvery_append refused, List.cons_append, Opens, if_pos hc]
      exact ⟨hk, args, Reader.replaceEvery reader write rest, by simp, ha⟩
    · obtain ⟨hk, args, rest, rfl, ha⟩ := hs
      subst ho
      have shape : '{' :: (args ++ '}' :: '}' :: rest) = ('{' :: (args ++ ['}', '}'])) ++ rest := by
        simp
      rw [shape, Reader.replaceEvery_append (h.refuses_output ha.1.1 ha.2.1), List.cons_append,
        Opens, if_neg hc, if_pos rfl]
      exact ⟨hk, args, Reader.replaceEvery reader write rest, by simp, ha⟩
    · have refused : Reader.Refuses reader [c] s := plain (by simpa using Ne.symm ho)
      have shape : c :: s = [c] ++ s := rfl
      rw [shape, Reader.replaceEvery_append refused, List.singleton_append, Opens, if_neg hc,
        if_neg ho]
      trivial

/-- **Rewriting keeps a text tidy.** -/
theorem tidy_replaceEvery (h : Rewrites k k' reader write) (hs : Tidy k s) :
    Tidy k' (Reader.replaceEvery reader write s) := by
  -- a brace that is left stands before the rewritten rest, which `opens_replaceEvery` needs
  refine (Reader.replaceEvery_induction (R := fun s t => Tidy k s → Tidy k' t) h.proceeds.leaves
    ?_ ?_ ?_ s) hs
  · exact fun _ => trivial
  · intro c s unread ih hs
    refine ⟨fun hc => ?_, ih hs.2⟩
    subst hc
    have refused : reader ('{' :: s) = none := by
      by_contra hr
      obtain ⟨⟨v, r⟩, hv⟩ := Option.ne_none_iff_exists'.1 hr
      obtain ⟨w, hw, he⟩ := h.proceeds _ _ _ hv
      rw [unread v r hv] at he
      exact hw (List.self_eq_append_left.1 he)
    exact h.opens_replaceEvery (h.leaves s (hs.1 rfl) refused)
  · intro w v r _ read ih hs
    exact (h.writes _ _ _ hs read).append (ih (hs.suffix (List.suffix_append w r)))

/-- Behind the opening mark of a tag or an output it matters what is found. -/
theorem behind {β : Type} {mark : Reader β} {f : β → Reader α}
    (begins : Reader.Begins Tag.tagMark mark ∨ Reader.Begins Tag.outputMark mark)
    (proceeds : Reader.Proceeds mark) (finds : ∀ v, Finds k (fun v => Tidy k (write v)) (f v)) :
    Rewrites k k (mark >>= f) write where
  begins := begins.imp (·.bind f) (·.bind f)
  proceeds := proceeds.bind fun v => (finds v).leaves
  writes := (finds_behind proceeds.leaves finds).found
  leaves _ h _ := h

/-- Writing may go wrong; if it does not, the text stays tidy. -/
theorem tidy_replaceEveryM {write : α → Evaluation Text}
    (h : Rewrites k k' reader fun v => written (write v)) (hs : Tidy k s) :
    Gives (Tidy k') (Reader.replaceEveryM reader write s) := by
  intro t ht
  rw [Reader.eq_of_replaceEveryM ht]
  exact h.tidy_replaceEvery hs

end Rewrites

end ThemeProps.Template
