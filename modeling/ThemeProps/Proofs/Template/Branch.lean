/-
  Conditional regions as they are written.

  * `reads_conditionalRegion`: a region is read as its condition and its body, up
    to the first `endif`;
  * `splitBranches_plain` and `splitBranches_else`: a body without tags is one
    branch, and an `else` tag in it begins another one. `stretches_pieces`: in any
    body the branches are stretches that reach up to a tag;
  * `evaluateSettingCondition_of_noSetting`: a condition that mentions no setting
    does not hold.
-/
import ThemeProps.Template.Branch
import ThemeProps.Proofs.Template.Stage

namespace ThemeProps

variable {condition body s t : Text}

/-! ## Regions -/

/-- A conditional region with the given condition and body. -/
def writeRegion (condition body : Text) : Text :=
  "\x7b% if " ++ condition ++ " %\x7d" ++ body ++ Tag.writeWord "endif"

theorem writeRegion_assoc (condition body s : Text) :
    writeRegion condition body ++ s =
      "\x7b% if " ++ (condition ++ (" %\x7d" ++ (body ++ (Tag.writeWord "endif" ++ s)))) := by
  unfold writeRegion
  simp only [List.append_assoc]

theorem writeRegion_append (condition body s : Text) :
    writeRegion condition body ++ s = ("\x7b% " : Text) ++ ("if" : Text) ++ ' ' ::
      (condition ++ [' '] ++ '%' :: '}' :: (body ++ (Tag.writeWord "endif" ++ s))) := by
  unfold writeRegion
  simp only [List.append_assoc, List.cons_append, List.nil_append]
  rfl

theorem writeRegion_ne_nil : writeRegion condition body ≠ [] := by
  unfold writeRegion
  simp

/-- A reader of tags passes over a region if it takes neither of its tags. -/
theorem refuses_writeRegion {α : Type} {reader : Reader α} (h : Reader.Begins Tag.tagMark reader)
    (hc : '{' ∉ condition) (hb : ∀ b, Reader.Refuses reader body b)
    (hif : reader (writeRegion condition body ++ s) = none)
    (hend : reader (Tag.writeWord "endif" ++ s) = none) :
    Reader.Refuses reader (writeRegion condition body) s := by
  have shape : writeRegion condition body =
      '{' :: ("% if " ++ condition ++ " %\x7d" ++ body ++ Tag.writeWord "endif") := rfl
  have plain {s : Text} (hs : '{' ∉ s) (b : Text) : Reader.Refuses reader s b :=
    h.refuses_of_notMem hs
  rw [shape] at hif ⊢
  refine Reader.refuses_cons.2 ⟨hif, ?_⟩
  simp only [Reader.refuses_append]
  exact ⟨⟨⟨⟨plain (by decide) _, plain hc _⟩, plain (by decide) _⟩, hb _⟩,
    Reader.refuses_cons.2 ⟨hend, plain (by decide) _⟩⟩

/-- A region is read as its condition and its body. -/
theorem reads_conditionalRegion (hne : condition ≠ []) (hs : Reader.Stops Text.isBlank condition)
    (hh : '-' ∉ condition) (hp : '%' ∉ condition)
    (hb : Reader.Refuses (Tag.word "endif") body (Tag.writeWord "endif" ++ s)) :
    conditionalRegion (writeRegion condition body ++ s) = some ((condition ++ [' '], body), s) := by
  have stops : Reader.Stops Text.isBlank (condition ++ [' '] ++ '%' :: '}' ::
      (body ++ (Tag.writeWord "endif" ++ s))) := by
    rw [List.append_assoc]
    exact Reader.stops_append hne hs _
  have conditionRead := Reader.upTo_append
    (Tag.refuses_endTag (s := condition ++ [' ']) (by simp [hh]) (by simp [hp]) _)
    (Tag.reads_endTag (body ++ (Tag.writeWord "endif" ++ s)))
  have bodyRead := Tag.reads_upToWord hb (Tag.reads_word (by decide) s)
  rw [writeRegion_append, conditionalRegion,
    Reader.bind_of (Tag.reads_opening (by decide) stops),
    Reader.bind_of conditionRead]
  change (Tag.upToWord "endif" >>= fun body => pure (condition ++ [' '], body)) _ = _
  rw [Reader.bind_of bodyRead]
  rfl

/-! ## Branches -/

namespace Branch

variable {boundaries : List (Piece (Option Text))} {next c : Option Text}

theorem ofPieces_plain (s : Text) : ofPieces c (s.map .plain) = [⟨c, s⟩] := by
  induction s with
  | nil => rfl
  | cons d s ih => rw [List.map_cons, ofPieces, ih]

theorem ofPieces_found (s w : Text) :
    ofPieces c (s.map .plain ++ .found w next :: boundaries) =
      ⟨c, s⟩ :: ofPieces next boundaries := by
  induction s with
  | nil => rfl
  | cons d s ih => rw [List.map_cons, List.cons_append, ofPieces, ih]

theorem begins_boundary : Reader.Begins Tag.tagMark boundary := Tag.begins_openTag.bind _

theorem leaves_boundary : Reader.Leaves boundary := by
  refine Tag.proceeds_openTag.leaves.bind fun _ => Reader.Takes.orElse ?_ ?_
  · refine (Reader.leaves_keyword _).bind fun _ => Reader.leaves_blanks1.bind fun _ => ?_
    exact (Reader.Takes.upTo Tag.leaves_closeTag).bind fun _ => Reader.leaves_pure _
  · refine (Reader.leaves_keyword _).bind fun _ => Tag.leaves_closeTag.bind fun _ => ?_
    exact Reader.leaves_pure none

/-- The branches that some pieces make up are stretches of `s`, the first one from its beginning. -/
def Stretches (s : Text) (ps : List (Piece (Option Text))) : Prop :=
  ∀ condition, ∃ branch branches, ofPieces condition ps = branch :: branches ∧
    Tag.EndsAt branch.content s ∧ ∀ b ∈ branches, ∃ t, t <:+ s ∧ Tag.EndsAt b.content t

theorem stretches_pieces (s : Text) : Stretches s (Reader.pieces boundary s) := by
  refine Reader.pieces_induction leaves_boundary ?_ ?_ ?_ s
  · exact fun condition => ⟨⟨condition, []⟩, [], rfl, ⟨[], rfl, .inl rfl⟩, by simp⟩
  · intro c s _ ih condition
    obtain ⟨branch, branches, he, ⟨r, rfl, mark⟩, others⟩ := ih condition
    refine ⟨_, branches, by rw [ofPieces, he], ⟨r, rfl, mark⟩, fun b hb => ?_⟩
    obtain ⟨t, suffix, stretch⟩ := others b hb
    exact ⟨t, suffix.trans (List.suffix_cons c _), stretch⟩
  · intro w next r _ read ih condition
    obtain ⟨branch, branches, he, first, others⟩ := ih next
    have mark : Tag.tagMark <+: w ++ r :=
      begins_boundary _ (by rw [read]; exact Option.some_ne_none _)
    refine ⟨⟨condition, []⟩, branch :: branches, by rw [ofPieces, he], ⟨w ++ r, rfl, .inr mark⟩, ?_⟩
    rw [List.forall_mem_cons]
    refine ⟨⟨r, List.suffix_append w r, first⟩, fun b hb => ?_⟩
    obtain ⟨t, suffix, stretch⟩ := others b hb
    exact ⟨t, suffix.trans (List.suffix_append w r), stretch⟩

end Branch

/-- A body without tags is one branch. -/
theorem splitBranches_plain (hs : '{' ∉ s) :
    splitBranches condition s = [⟨some (Text.trim condition), s⟩] := by
  rw [splitBranches, Reader.pieces_of_refuses (Branch.begins_boundary.refuses_of_notMem hs),
    Branch.ofPieces_plain]

/-- An `else` tag begins a branch. -/
theorem splitBranches_else (hs : '{' ∉ s) (ht : '{' ∉ t) :
    splitBranches condition (s ++ (Tag.writeWord "else" ++ t)) =
      [⟨some (Text.trim condition), s⟩, ⟨none, t⟩] := by
  have found : Branch.boundary (Tag.writeWord "else" ++ t) = some (none, t) := rfl
  rw [splitBranches, Reader.pieces_append (Branch.begins_boundary.refuses_of_notMem hs),
    Reader.pieces_of_reads found (by simp [Tag.writeWord]), Branch.ofPieces_found,
    Reader.pieces_of_refuses (Branch.begins_boundary.refuses_of_notMem ht), Branch.ofPieces_plain]

/-! ## Conditions -/

/-- A condition that mentions no setting does not hold. -/
theorem evaluateSettingCondition_of_noSetting {s : Text} (h : ¬ "settings.".toList <:+: s)
    (store : Store) : evaluateSettingCondition store s = .ok false := by
  have begins : Reader.Begins "settings.".toList SettingCondition.reference :=
    (Reader.begins_literal _).bind _
  have trimmed : ¬ "settings.".toList <:+: Text.trim s :=
    fun hs => h (hs.trans (Text.isInfix_trim s))
  have noComparison : Reader.findFirst SettingCondition.comparison (Text.trim s) = none :=
    (begins.bind _).findFirst_eq_none trimmed
  have noReference : Reader.findFirst SettingCondition.reference (Text.trim s) = none :=
    begins.findFirst_eq_none trimmed
  have never : SettingCondition.parse s = .never := by
    simp only [SettingCondition.parse, noComparison, noReference]
  rw [evaluateSettingCondition, never]
  rfl

end ThemeProps
