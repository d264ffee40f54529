/-
  Statements and the lines that write them.

  * `Line.collectBody_subset` and `Line.collectArms_subset`: the bodies of blocks are
    made of lines of the source;
  * `StatementRules`: how a property of statements comes from a property of the lines
    that write them, and `Statement.forall_ofLines`: then the statements that some
    lines write have it if the lines have theirs.
-/
import ThemeProps.Block.Statement
import Mathlib.Data.List.Basic

namespace ThemeProps

/-! ## Lines of bodies -/

namespace Line

theorem afterComment_subset (lines : List Text) : afterComment lines ⊆ lines := by
  induction lines with
  | nil => exact List.Subset.refl _
  | cons line lines ih =>
    rw [afterComment]
    split_ifs
    · exact List.subset_cons_self line lines
    · exact List.Subset.trans ih (List.subset_cons_self line lines)

/-- A body and the lines after it are lines of the block. -/
theorem collectBody_subset (opener closer : Text) (depth : Nat) (lines : List Text) :
    (collectBody opener closer depth lines).1 ⊆ lines ∧
      (collectBody opener closer depth lines).2 ⊆ lines := by
  induction lines generalizing depth with
  | nil => exact ⟨List.Subset.refl _, List.Subset.refl _⟩
  | cons line lines ih =>
    have kept (depth : Nat) : line :: (collectBody opener closer depth lines).1 ⊆ line :: lines ∧
        (collectBody opener closer depth lines).2 ⊆ line :: lines :=
      ⟨List.cons_subset_cons line (ih depth).1,
        List.Subset.trans (ih depth).2 (List.subset_cons_self line lines)⟩
    simp only [collectBody]
    split_ifs
    · exact kept (depth + 1)
    · cases depth with
      | zero => exact ⟨List.nil_subset _, List.subset_cons_self line lines⟩
      | succ depth => exact kept depth
    · exact kept depth

/-- The arms of a choice and the lines after it are lines of the block. -/
theorem collectArms_subset (depth : Nat) (lines : List Text) :
    (collectArms depth lines).1.1 ⊆ lines ∧
      (∀ arm ∈ (collectArms depth lines).1.2, arm.2 ⊆ lines) ∧
        (collectArms depth lines).2 ⊆ lines := by
  induction lines generalizing depth with
  | nil => exact ⟨List.Subset.refl _, by simp [collectArms], List.Subset.refl _⟩
  | cons line lines ih =>
    have wider {ls : List Text} (h : ls ⊆ lines) : ls ⊆ line :: lines :=
      List.Subset.trans h (List.subset_cons_self line lines)
    have rest (depth : Nat) : (∀ arm ∈ (collectArms depth lines).1.2, arm.2 ⊆ line :: lines) ∧
        (collectArms depth lines).2 ⊆ line :: lines :=
      ⟨fun arm h => wider ((ih depth).2.1 arm h), wider (ih depth).2.2⟩
    have kept (depth : Nat) : line :: (collectArms depth lines).1.1 ⊆ line :: lines :=
      List.cons_subset_cons line (ih depth).1
    have opened (depth : Nat) (condition : Option Text) :
        ∀ arm ∈ (condition, (collectArms depth lines).1.1) :: (collectArms depth lines).1.2,
          arm.2 ⊆ line :: lines :=
      List.forall_mem_cons.2 ⟨wider (ih depth).1, (rest depth).1⟩
    simp only [collectArms]
    split_ifs
    · exact ⟨kept _, rest _⟩
    · cases depth with
      | zero => exact ⟨List.nil_subset _, by simp, List.subset_cons_self line lines⟩
      | succ depth => exact ⟨kept _, rest _⟩
    · split
      · exact ⟨List.nil_subset _, opened _ _, (rest _).2⟩
      · exact ⟨wider (ih _).1, rest _⟩
    · exact ⟨List.nil_subset _, opened _ _, (rest _).2⟩
    · exact ⟨kept _, rest _⟩

end Line

/-! ## Statements from lines -/

/-- The rules by which a property `P` of statements comes from a property `Q` of the lines that
write them. -/
structure StatementRules (Q : Text → Prop) (P : Statement → Prop) : Prop where
  assign {line name value rest : Text} : Q line → Line.isTag "assign" line = true →
    Line.assignment line = some ((name, value), rest) → P (.assign name (Expr.parse value))
  echo {line : Text} : Q line → P (.echo (Expr.parse (Text.trim (line.drop 4))))
  forEach {line item array rest : Text} {body : List Statement} : Q line →
    Line.isTag "for" line = true → Line.loopHeader line = some ((item, array), rest) →
    (∀ s ∈ body, P s) → P (.forEach item array body)
  choose {arms : List (Option Condition × List Statement)} :
    (∀ arm ∈ arms, ∀ s ∈ arm.2, P s) → P (.choose arms)
  whenNot {condition : Condition} {body : List Statement} :
    (∀ s ∈ body, P s) → P (.whenNot condition body)

namespace Statement

/-- The rules carry a property of lines to the statements that they write, those in bodies included.
The induction is on the number of lines, which is smaller for the bodies and for the lines after
them. -/
theorem forall_ofLines {Q : Text → Prop} {P : Statement → Prop} (rules : StatementRules Q P)
    {lines : List Text} (h : ∀ line ∈ lines, Q line) : ∀ s ∈ ofLines lines, P s := by
  induction hn : lines.length using Nat.strongRecOn generalizing lines with
  | ind n ih =>
    cases lines with
    | nil => intro s hs; rw [ofLines] at hs; cases hs
    | cons line lines =>
      rw [List.forall_mem_cons] at h
      have inner {more : List Text} (hsub : more ⊆ lines) (hlen : more.length ≤ lines.length) :
          ∀ s ∈ ofLines more, P s :=
        ih more.length (by rw [← hn, List.length_cons]; omega) (fun l hl => h.2 l (hsub hl)) rfl
      have after : ∀ s ∈ ofLines lines, P s := inner (List.Subset.refl _) (Nat.le_refl _)
      have comment := inner (Line.afterComment_subset lines) (Line.length_afterComment lines)
      obtain ⟨loopBody, afterLoop⟩ := Line.collectBody_subset "for" "endfor" 0 lines
      obtain ⟨unlessBody, afterUnless⟩ := Line.collectBody_subset "unless" "endunless" 0 lines
      obtain ⟨firstArm, moreArms, afterArms⟩ := Line.collectArms_subset 0 lines
      have loop := length_loopBody lines
      have unless_ := length_unlessBody lines
      obtain ⟨firstLength, armLengths, afterLength⟩ := Line.length_collectArms 0 lines
      rw [Statement.loopBody] at loop
      rw [Statement.unlessBody] at unless_
      have afterLoop := inner afterLoop (by omega)
      have afterUnless := inner afterUnless (by omega)
      have first {t : Statement} (ht : P t) {more : List Statement} (hmore : ∀ s ∈ more, P s) :
          ∀ s ∈ t :: more, P s :=
        List.forall_mem_cons.2 ⟨ht, hmore⟩
      rw [ofLines]
      split_ifs with isComment assigns echoes loops chooses unlesses
      · exact comment
      · split
        · next name value _ read => exact first (rules.assign h.1 assigns read) after
        · exact after
      · exact first (rules.echo h.1) after
      · split
        · next item array _ read =>
          exact first (rules.forEach h.1 loops read (inner loopBody (by omega))) afterLoop
        · exact afterLoop
      · split
        · refine first (rules.choose ?_) (inner afterArms afterLength)
          rintro arm harm
          rcases List.mem_cons.1 harm with rfl | harm
          · exact inner firstArm firstLength
          · obtain ⟨⟨⟨condition, body⟩, hm⟩, -, rfl⟩ := List.mem_map.1 harm
            exact inner (moreArms _ hm) (armLengths _ hm)
        · exact after
      · split
        · exact first (rules.whenNot (inner unlessBody (by omega))) afterUnless
        · exact afterUnless
      · exact after

end Statement
end ThemeProps
