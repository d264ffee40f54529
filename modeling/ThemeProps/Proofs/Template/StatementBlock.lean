/-
  Texts with statement blocks in them.

  Blocks are run first, so nothing of them is left for the other stages, and
  their sources may hold what the arguments of other tags may not.

  * `TidyAround k ps`: the plain stretches between the blocks are tidy, each on
    its own, and the blocks have no opening brace. A tidy text is tidy around its
    blocks (`Tidy.aroundBlocks`);
  * `gives_runBlocks`: with its blocks run such a text is tidy.
-/
import ThemeProps.Template.Stage
import ThemeProps.Proofs.NoBrace.Block
import ThemeProps.Proofs.Template.Tidy

namespace ThemeProps.Template

variable {store : Store} {k : Constructs} {s t r : Text} {ps : List (Piece Text)}

/-! ## Stretches between blocks -/

/-- The plain characters in front. -/
def stretch : List (Piece Text) → Text
  | .plain c :: ps => c :: stretch ps
  | _ => []

/-- Behind each opening brace stands, before the next block, what may stand there; and the blocks
have no opening brace. -/
def TidyAround (k : Constructs) : List (Piece Text) → Prop
  | [] => True
  | .plain c :: ps => (c = '{' → Opens k (stretch ps)) ∧ TidyAround k ps
  | .found _ source :: ps => '{' ∉ source ∧ TidyAround k ps

instance TidyAround.decidable : (ps : List (Piece Text)) → Decidable (TidyAround k ps)
  | [] => inferInstanceAs (Decidable True)
  | .plain c :: ps =>
    have := decidable ps
    inferInstanceAs (Decidable ((c = '{' → Opens k (stretch ps)) ∧ TidyAround k ps))
  | .found _ source :: ps =>
    have := decidable ps
    inferInstanceAs (Decidable ('{' ∉ source ∧ TidyAround k ps))

/-- The text is tidy around its blocks. -/
def TidyAroundBlocks (k : Constructs) (s : Text) : Prop :=
  TidyAround k (Reader.pieces statementBlock s)

instance : Decidable (TidyAroundBlocks k s) := TidyAround.decidable _

/-! ## Tidy texts -/

theorem begins_statementBlock : Reader.Begins Tag.tagMark statementBlock :=
  (Tag.begins_opening _).bind _

theorem leaves_statementBlock : Reader.Leaves statementBlock :=
  (Tag.proceeds_opening _).leaves.bind fun _ =>
    (Reader.Takes.upTo Tag.leaves_endTag).bind fun _ => Reader.leaves_pure _

/-- A block lies within its tag. -/
theorem notMem_statementBlock {source : Text} (hs : Tidy k s)
    (hr : statementBlock s = some (source, r)) : '{' ∉ source := by
  obtain ⟨_, t, opened, hr⟩ := Reader.bind_eq_some.1 hr
  obtain ⟨⟨source', _⟩, _, ended, hr⟩ := Reader.bind_eq_some.1 hr
  obtain rfl : source' = source := (Prod.mk.inj (Option.some.inj hr)).1
  obtain ⟨a, rfl, ha⟩ := Tag.opening_eq_some (Text.forall_mem_of_all rfl) opened
  obtain ⟨-, args, rest, he, ho, -⟩ : k.tags = true ∧ ClosesTag (a ++ t) := hs.1 rfl
  obtain ⟨args, rfl, rfl⟩ := Text.eq_append_of_cons he.symm ha
  have closed : Tag.endTag ('%' :: '}' :: rest) ≠ none := by
    rw [Tag.reads_endTag]
    exact Option.some_ne_none _
  have within : source' <+: args := Reader.upTo_within ended closed
  exact fun hm => ho (List.mem_append_right a (within.subset hm))

/-- The stretch in front reaches up to a tag. -/
theorem endsAt_stretch (s : Text) :
    Tag.EndsAt (stretch (Reader.pieces statementBlock s)) s := by
  refine Reader.pieces_induction (R := fun s ps => Tag.EndsAt (stretch ps) s)
    leaves_statementBlock ⟨[], rfl, .inl rfl⟩ ?_ ?_ s
  · rintro c s _ ⟨r, he, mark⟩
    exact ⟨r, congrArg (c :: ·) he, mark⟩
  · intro w source r _ read _
    exact ⟨w ++ r, rfl, .inr (begins_statementBlock _ (by rw [read]; exact Option.some_ne_none _))⟩

/-- A tidy text is tidy around its blocks. -/
theorem Tidy.aroundBlocks (hs : Tidy k s) : TidyAroundBlocks k s := by
  refine Reader.pieces_induction (R := fun s ps => Tidy k s → TidyAround k ps)
    leaves_statementBlock ?_ ?_ ?_ s hs
  · exact fun _ => trivial
  · exact fun c s _ ih hs => ⟨fun hc => (hs.1 hc).endsAt (endsAt_stretch s), ih hs.2⟩
  · intro w source r _ read ih hs
    exact ⟨notMem_statementBlock hs read, ih (hs.suffix (List.suffix_append w r))⟩

/-! ## Running the blocks -/

/-- The plain characters in front stay there, which is what a brace among them needs. -/
theorem gives_writePieces (hstore : store.NoBrace) (h : TidyAround k ps) :
    Gives (fun t => Tidy k t ∧ stretch ps <+: t) (Reader.writePieces (runBlock store []) ps) := by
  induction ps with
  | nil => exact .ok ⟨trivial, List.nil_prefix⟩
  | cons p ps ih =>
    cases p with
    | plain c =>
      refine (ih h.2).bind fun t ht => ?_
      refine .ok ⟨⟨fun hc => ?_, ht.1⟩, List.cons_prefix_cons.2 ⟨rfl, ht.2⟩⟩
      obtain ⟨behind, rfl⟩ := ht.2
      exact (h.1 hc).append behind
    | found w source =>
      refine (notMem_runBlock hstore h.1).bind fun echoed he => (ih h.2).bind fun t ht => ?_
      exact .ok ⟨(tidy_of_notMem he).append ht.1, List.nil_prefix⟩

/-- With its blocks run, a text that is tidy around them is tidy. -/
theorem gives_runBlocks (hstore : store.NoBrace) (hs : TidyAroundBlocks k s) :
    Gives (Tidy k) (runBlocks store s) :=
  fun t ht => (gives_writePieces hstore hs t ht).1

end ThemeProps.Template
