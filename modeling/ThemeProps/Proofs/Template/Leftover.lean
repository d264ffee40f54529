/-
  No template constructs are left.

  * for each kind of construct it is said that rewriting it keeps a text tidy:
    what is read from it is tidy or has no opening brace, and so has what is
    written for it if the settings have none (`rewrites_assignTag`,
    `rewrites_conditionalRegion`, `rewrites_settingOutput` and so on);
  * `rewrites_anyTag` leaves no tag and `rewrites_anyOutput` no output;
  * `Stage.gives_apply`: so each stage keeps a text tidy, and `Stage.gives_foldlM`
    several of them;
  * `toStylesheet_leaves_nothing`: so a text that is tidy around its statement
    blocks becomes a stylesheet without tags and outputs.
    `toStylesheet_percent_left` shows that other texts may keep some.
-/
import ThemeProps.Proofs.Template.Branch
import ThemeProps.Proofs.Template.SchemeLoop
import ThemeProps.Proofs.Template.StatementBlock

namespace ThemeProps

namespace Template

variable {store : Store} {k : Constructs} {s t r : Text}

/-! ## `assign` tags -/

theorem rewrites_assignTag : Rewrites k k assignTag fun _ => [] := by
  refine .behind (.inl Tag.begins_openTag) Tag.proceeds_openTag fun _ => ?_
  refine finds_of_leaves ?_ fun _ => trivial
  refine (Reader.leaves_literal _).bind fun _ => (Reader.leaves_satisfy _).bind fun _ => ?_
  refine (Reader.leaves_run1 _).bind fun _ => ?_
  exact (Reader.leaves_char _).bind fun _ => Reader.leaves_char _

/-! ## Conditional regions -/

/-- The branches of a tidy body are tidy. -/
theorem tidy_splitBranches (condition : Text) (hs : Tidy k s) :
    ∀ branch ∈ splitBranches condition s, Tidy k branch.content := by
  obtain ⟨branch, branches, he, first, others⟩ :=
    Branch.stretches_pieces s (some (Text.trim condition))
  rw [splitBranches, he, List.forall_mem_cons]
  refine ⟨hs.endsAt first, fun b hb => ?_⟩
  obtain ⟨t, suffix, stretch⟩ := others b hb
  exact (hs.suffix suffix).endsAt stretch

/-- The branch that is selected is one of them, or nothing. -/
theorem gives_selectBranch {branches : List Branch} (h : ∀ b ∈ branches, Tidy k b.content) :
    Gives (Tidy k) (selectBranch store branches) := by
  induction branches with
  | nil => exact .ok trivial
  | cons branch branches ih =>
    rw [List.forall_mem_cons] at h
    obtain ⟨condition, content⟩ := branch
    cases condition with
    | none => exact .ok h.1
    | some condition =>
      refine (Gives.any (evaluateSettingCondition store condition)).bind fun holds _ => ?_
      cases holds with
      | true => exact .ok h.1
      | false => exact ih h.2

theorem rewrites_conditionalRegion : Rewrites k k conditionalRegion fun found =>
    written (selectBranch store (splitBranches found.1 found.2)) := by
  refine .behind (.inl (Tag.begins_opening _)) (Tag.proceeds_opening _) fun _ => ?_
  refine finds_behind (Reader.Takes.upTo Tag.leaves_endTag) fun found => ?_
  exact (finds_upToWord _).map fun body hbody =>
    tidy_written (gives_selectBranch (tidy_splitBranches found.1 hbody))

/-! ## Numeric conditionals -/

theorem begins_branchEnd : Reader.Begins Tag.tagMark branchEnd :=
  Reader.Begins.orElse ((Tag.begins_word _).bind _) (Tag.begins_word _)

theorem leaves_branchEnd : Reader.Leaves branchEnd :=
  ((Tag.proceeds_word _).leaves.bind fun _ => (Tag.leaves_upToWord _).bind fun _ =>
    Reader.leaves_pure ()).orElse (Tag.proceeds_word _).leaves

theorem rewrites_numericConditional : Rewrites k k numericConditional id := by
  refine .behind (.inl (Tag.begins_opening _)) (Tag.proceeds_opening _) fun _ => ?_
  refine finds_behind (Reader.leaves_run1 _) fun _ => finds_behind Reader.leaves_blanks fun _ => ?_
  refine finds_behind (Reader.leaves_run1 _) fun _ => finds_behind Reader.leaves_blanks fun _ => ?_
  refine finds_behind (Reader.leaves_run1 _) fun _ => finds_behind Tag.leaves_closeTag fun _ => ?_
  exact (finds_upTo begins_branchEnd leaves_branchEnd).map fun _ h => h

/-! ## Outputs of settings -/

/-- The character may stand in an output outside of quotations. -/
def Unquoted (c : Char) : Prop := c ≠ '}' ∧ Text.isQuoteMark c = false

instance (c : Char) : Decidable (Unquoted c) := inferInstanceAs (Decidable (_ ∧ _))

theorem unquoted_of {p : Char → Bool} (hp : ∀ c ∈ ['}', '\x27', '"'], p c = false) {c : Char}
    (h : p c = true) : Unquoted c := by
  have other (d : Char) (hd : d ∈ ['}', '\x27', '"']) : c ≠ d := by
    rintro rfl
    rw [hp c hd] at h
    cases h
  refine ⟨other '}' (by decide), Bool.eq_false_iff.2 fun hq => ?_⟩
  rw [Text.isQuoteMark, Bool.or_eq_true, beq_iff_eq, beq_iff_eq] at hq
  exact hq.elim (other _ (by decide)) (other _ (by decide))

/-- What stands before the quotation of a suffix. -/
def suffixLead : Reader Unit := do
  Reader.blanks
  Reader.char '|'
  Reader.blanks
  Reader.literal "append:"
  Reader.blanks

/-- The quotation of a suffix. -/
def quotation : Reader Text := do
  let _ ← Reader.satisfy Text.isQuoteMark
  let s ← Reader.run1 fun c => c ≠ '\x27' && c ≠ '"'
  let _ ← Reader.satisfy Text.isQuoteMark
  return s

theorem suffix_eq : suffix = suffixLead >>= fun _ => quotation := by
  simp only [suffixLead, bind_assoc]
  rfl

theorem takes_suffixLead : Reader.Takes Unquoted suffixLead := by
  have blanks : Reader.Takes Unquoted Reader.blanks :=
    Reader.takes_blanks fun _ => unquoted_of (Text.forall_mem_of_all rfl)
  refine blanks.bind fun _ => (Reader.takes_char (by decide)).bind fun _ => blanks.bind fun _ => ?_
  exact (Reader.takes_literal (Text.forall_mem_of_all rfl)).bind fun _ => blanks

theorem leaves_suffix : Reader.Leaves suffix := by
  rw [suffix_eq]
  refine takes_suffixLead.leaves.bind fun _ => (Reader.leaves_satisfy _).bind fun _ => ?_
  refine (Reader.leaves_run1 _).bind fun _ => (Reader.leaves_satisfy _).bind fun _ => ?_
  exact Reader.leaves_pure _

/-- A suffix is what stands behind the first quotation mark, up to the next one. -/
theorem suffix_eq_some {v : Text} (h : suffix s = some (v, r)) :
    ∃ a mark t, s = a ++ mark :: (v ++ t) ∧ (∀ c ∈ a, Unquoted c) ∧
      Text.isQuoteMark mark = true ∧ ∀ c ∈ v, Text.isQuoteMark c = false := by
  rw [suffix_eq] at h
  obtain ⟨_, t₁, before, h⟩ := Reader.bind_eq_some.1 h
  obtain ⟨mark, t₂, opened, h⟩ := Reader.bind_eq_some.1 h
  obtain ⟨v', t₃, quoted, h⟩ := Reader.bind_eq_some.1 h
  obtain ⟨_, t₄, -, h⟩ := Reader.bind_eq_some.1 h
  obtain rfl : v' = v := (Prod.mk.inj (Option.some.inj h)).1
  obtain ⟨a, rfl, ha⟩ := takes_suffixLead _ _ _ before
  obtain ⟨rfl, hmark⟩ := Reader.satisfy_eq_some opened
  obtain ⟨rfl, -, hv⟩ := Reader.run1_eq_some quoted
  refine ⟨a, mark, t₃, rfl, ha, hmark, fun c hc => ?_⟩
  simpa [Text.isQuoteMark] using hv c hc

/-- A quotation that is opened in an output lies within it. -/
theorem within_output {args rest a v : Text} {mark : Char}
    (h : a ++ mark :: (v ++ t) = args ++ '}' :: rest) (ha : ∀ c ∈ a, Unquoted c)
    (hmark : Text.isQuoteMark mark = true) (hv : ∀ c ∈ v, Text.isQuoteMark c = false)
    (hq : args.countP Text.isQuoteMark ≠ 1) : v ⊆ args := by
  obtain ⟨args, rfl, he⟩ := Text.eq_append_of_cons h.symm fun hm => (ha _ hm).1 rfl
  cases args with
  | nil =>
    obtain ⟨rfl, -⟩ := List.cons.inj he
    cases hmark
  | cons d args =>
    obtain ⟨rfl, behind⟩ := List.cons.inj he
    -- the mark that opens the quotation is not the only one, and it does not pass another one
    have none : a.countP Text.isQuoteMark = 0 :=
      List.countP_eq_zero.2 fun c hc => by rw [(ha c hc).2]; decide
    rw [List.countP_append, none, List.countP_cons_of_pos hmark, Nat.zero_add] at hq
    obtain ⟨closing, hm, hclosing⟩ : ∃ c ∈ args, Text.isQuoteMark c = true :=
      List.countP_pos_iff.1 (by omega)
    obtain ⟨x, y, rfl⟩ := List.append_of_mem hm
    have closes : x ++ closing :: (y ++ '}' :: rest) = v ++ t := by rw [behind]; simp
    obtain ⟨x, rfl, -⟩ := Text.eq_append_of_cons closes fun hm => by
      rw [hv closing hm] at hclosing
      cases hclosing
    intro c hc
    simp [hc]

/-- The path and the suffix of an output lie within it. -/
theorem notMem_settingOutput {beginning path appended : Text} (hb : ∀ c ∈ beginning, Unquoted c)
    (hs : Tidy k s) (hr : settingOutput beginning s = some ((path, appended), r)) :
    '{' ∉ path ∧ '{' ∉ appended := by
  obtain ⟨_, t₁, opened, hr⟩ := Reader.bind_eq_some.1 hr
  obtain ⟨_, t₂, begun, hr⟩ := Reader.bind_eq_some.1 hr
  obtain ⟨path', t₃, named, hr⟩ := Reader.bind_eq_some.1 hr
  obtain ⟨appended', t₄, suffixed, hr⟩ := Reader.bind_eq_some.1 hr
  obtain ⟨_, t₅, -, hr⟩ := Reader.bind_eq_some.1 hr
  obtain ⟨rfl, rfl⟩ : path' = path ∧ appended' = appended :=
    Prod.mk.inj (Prod.mk.inj (Option.some.inj hr)).1
  obtain ⟨a, rfl, ha⟩ := Tag.openOutput_eq_some opened
  obtain rfl := Reader.literal_eq_some.1 begun
  obtain ⟨rfl, -, letters⟩ := Reader.run1_eq_some named
  refine ⟨fun hm => absurd (letters _ hm) (by decide), ?_⟩
  cases hsuffix : suffix t₃ with
  | none =>
    rw [Reader.orElse_none hsuffix] at suffixed
    obtain rfl : [] = appended' := (Prod.mk.inj (Option.some.inj suffixed)).1
    exact List.not_mem_nil
  | some found =>
    rw [Reader.orElse_of hsuffix] at suffixed
    obtain rfl : found = (appended', t₄) := Option.some.inj suffixed
    obtain ⟨lead, mark, t, rfl, hlead, hmark, hv⟩ := suffix_eq_some hsuffix
    obtain ⟨-, args, rest, he, ⟨ho, -⟩, -, hq⟩ : k.outputs = true ∧ ClosesOutput _ := hs.1 rfl
    have before : ∀ c ∈ a ++ beginning ++ path' ++ lead, Unquoted c := by
      simp only [List.forall_mem_append]
      refine ⟨⟨⟨fun c hc => ?_, hb⟩, fun c hc => ?_⟩, hlead⟩
      · rcases ha c hc with rfl | hc
        · decide
        · exact unquoted_of (Text.forall_mem_of_all rfl) hc
      · exact unquoted_of (Text.forall_mem_of_all rfl) (letters c hc)
    have within := within_output (t := t) (by rw [← he]; simp) before hmark hv hq
    exact fun hm => ho (within hm)

theorem rewrites_settingOutput {beginning : Text} (hb : ∀ c ∈ beginning, Unquoted c)
    {render : Text → Evaluation Text}
    (hrender : ∀ path, '{' ∉ path → Gives ('{' ∉ ·) (render path)) :
    Rewrites k k (settingOutput beginning) fun found =>
      written (do return (← render found.1) ++ found.2) where
  begins := .inr begins_settingOutput
  proceeds := by
    refine Tag.proceeds_openOutput.bind fun _ => (Reader.leaves_literal _).bind fun _ => ?_
    refine (Reader.leaves_run1 _).bind fun _ => ?_
    refine (leaves_suffix.orElse (Reader.leaves_pure [])).bind fun _ => ?_
    exact Tag.leaves_closeOutput.bind fun _ => Reader.leaves_pure _
  writes := by
    rintro s ⟨path, appended⟩ r hs hr
    obtain ⟨hpath, happended⟩ := notMem_settingOutput hb hs hr
    refine tidy_written ((hrender path hpath).bind fun shown hshown => .ok (tidy_of_notMem ?_))
    rw [List.mem_append, not_or]
    exact ⟨hshown, happended⟩
  leaves _ h _ := h

theorem rewrites_bareOutput : Rewrites k k bareOutput fun _ => fallback := by
  refine .behind (.inr Tag.begins_openOutput) Tag.proceeds_openOutput fun _ => ?_
  refine finds_of_leaves ?_ fun _ => tidy_of_notMem (by decide)
  exact (Reader.leaves_run1 _).bind fun _ => Tag.leaves_closeOutput

/-! ## Leftovers -/

/-- A construct between braces: a mark, anything without the closing mark, and the closing mark. -/
def between (mark closing : Char) : Reader Unit := do
  Reader.char '{'
  Reader.char mark
  let _ ← Reader.run (· ≠ closing)
  Reader.char closing
  Reader.char '}'

section
variable (mark closing : Char) {args : Text}

theorem proceeds_between : Reader.Proceeds (between mark closing) :=
  (Reader.proceeds_char '{').bind fun _ => (Reader.leaves_char _).bind fun _ =>
    (Reader.leaves_run _).bind fun _ => (Reader.leaves_char _).bind fun _ =>
      Reader.leaves_char _

theorem reads_between (h : closing ∉ args) (s : Text) :
    between mark closing ('{' :: mark :: (args ++ closing :: '}' :: s)) = some ((), s) := by
  have inside : Reader.run (· ≠ closing) (args ++ closing :: '}' :: s) =
      some (args, closing :: '}' :: s) :=
    Reader.reads_run (fun c hm => decide_eq_true fun he => h (he ▸ hm))
      (Reader.stops_cons.2 (by simp))
  rw [between, Reader.bind_of (Reader.reads_char _ _), Reader.bind_of (Reader.reads_char _ _),
    Reader.bind_of inside, Reader.bind_of (Reader.reads_char _ _)]
  exact Reader.reads_char _ _

end

/-- Tags without a percent sign in them are removed. -/
theorem rewrites_anyTag : Rewrites Constructs.all Constructs.outputsOnly anyTag fun _ => [] where
  begins := .inl begins_anyTag
  proceeds := proceeds_between '%' '%'
  writes _ _ _ _ _ := trivial
  leaves s hs unread := by
    cases s with
    | nil => exact hs
    | cons c s =>
      rw [Opens] at hs ⊢
      split_ifs at hs ⊢ with hc ho
      · obtain ⟨-, args, rest, rfl, -, hp⟩ := hs
        have removed : anyTag ('{' :: '%' :: (args ++ '%' :: '}' :: rest)) = some ((), rest) :=
          reads_between _ _ hp rest
        rw [hc, removed] at unread
        cases unread
      · exact ⟨rfl, hs.2⟩

/-- Outputs without a closing brace in them are removed. -/
theorem rewrites_anyOutput :
    Rewrites Constructs.outputsOnly Constructs.none anyOutput fun _ => [] where
  begins := .inr begins_anyOutput
  proceeds := proceeds_between '{' '}'
  writes _ _ _ _ _ := trivial
  leaves s hs unread := by
    cases s with
    | nil => exact hs
    | cons c s =>
      rw [Opens] at hs ⊢
      split_ifs at hs ⊢ with hc ho
      · exact absurd hs.1 (by decide)
      · obtain ⟨-, args, rest, rfl, ⟨-, hp⟩, -⟩ := hs
        have removed : anyOutput ('{' :: '{' :: (args ++ '}' :: '}' :: rest)) = some ((), rest) :=
          reads_between _ _ hp rest
        rw [ho, removed] at unread
        cases unread

theorem tidy_removeLeftovers (hs : Tidy Constructs.all s) :
    Tidy Constructs.none (removeLeftovers s) :=
  rewrites_anyOutput.tidy_replaceEvery (rewrites_anyTag.tidy_replaceEvery hs)

end Template

/-! ## All stages -/

namespace Stage

open Template

variable {store : Store} {s : Text}

/-- Each stage but the last keeps a text tidy. -/
theorem gives_apply (hstore : store.NoBrace) {stage : Stage} (hstage : stage ≠ leftovers)
    (hs : Tidy Constructs.all s) : Gives (Tidy Constructs.all) (stage.apply store s) := by
  cases stage with
  | statementBlocks => exact gives_runBlocks hstore hs.aroundBlocks
  | schemeLoop => exact .ok (SchemeLoop.tidy_expand hstore hs)
  | assignTags => exact .ok (rewrites_assignTag.tidy_replaceEvery hs)
  | settingConditionals => exact rewrites_conditionalRegion.tidy_replaceEveryM hs
  | numericConditionals => exact .ok (rewrites_numericConditional.tidy_replaceEvery hs)
  | schemeSettings =>
    exact (rewrites_settingOutput (Text.forall_mem_of_all rfl) fun _ =>
      hstore.gives_renderSchemeSetting).tidy_replaceEveryM hs
  | settings =>
    exact (rewrites_settingOutput (Text.forall_mem_of_all rfl) fun _ =>
      hstore.gives_renderSetting).tidy_replaceEveryM hs
  | bareOutputs => exact .ok (rewrites_bareOutput.tidy_replaceEvery hs)
  | leftovers => exact absurd rfl hstage

/-- So do several of them, in any order. -/
theorem gives_foldlM (hstore : store.NoBrace) {stages : List Stage} (h : leftovers ∉ stages)
    (hs : Tidy Constructs.all s) :
    Gives (Tidy Constructs.all) (stages.foldlM (fun s stage => stage.apply store s) s) := by
  induction stages generalizing s with
  | nil => exact .ok hs
  | cons stage stages ih =>
    rw [List.mem_cons, not_or] at h
    rw [List.foldlM_cons]
    exact (gives_apply hstore (Ne.symm h.1) hs).bind fun t ht => ih h.2 ht

end Stage

section
open Template
variable {store : Store} {s v : Text}

/-- A text that is tidy around its blocks becomes one without tags and outputs. -/
theorem tidy_toStylesheet (hstore : store.NoBrace) (hs : TidyAroundBlocks Constructs.all s) :
    Gives (Tidy Constructs.none) (toStylesheet store s) := by
  have order : Stage.all = .statementBlocks :: (Stage.all.tail.dropLast ++ [.leftovers]) := rfl
  rw [toStylesheet, order, List.foldlM_cons]
  refine (gives_runBlocks hstore hs).bind fun t ht => ?_
  rw [List.foldlM_append]
  refine (Stage.gives_foldlM hstore (by decide) ht).bind fun t ht => ?_
  exact .ok (tidy_removeLeftovers ht)

/-- The text has an opening mark of a tag and, anywhere behind it, a closing one. -/
def HasTag (s : Text) : Prop := ∃ a b c, s = a ++ (Tag.tagMark ++ (b ++ ("%\x7d" ++ c)))

/-- The text has an opening mark of an output and, anywhere behind it, a closing one. -/
def HasOutput (s : Text) : Prop := ∃ a b c, s = a ++ (Tag.outputMark ++ (b ++ ("\x7d\x7d" ++ c)))

/-- **No construct is left of a text that is tidy around its blocks.** -/
theorem toStylesheet_leaves_nothing (hstore : store.NoBrace)
    (hs : TidyAroundBlocks Constructs.all s) (h : toStylesheet store s = .ok v) :
    ¬ HasTag v ∧ ¬ HasOutput v := by
  have tidy := tidy_toStylesheet hstore hs v h
  refine ⟨?_, ?_⟩
  · rintro ⟨a, b, c, rfl⟩
    exact tidy.noTag rfl ⟨a, b ++ ("%\x7d" ++ c), by rw [List.append_assoc]⟩
  · rintro ⟨a, b, c, rfl⟩
    exact tidy.noOutput rfl ⟨a, b ++ ("\x7d\x7d" ++ c), by rw [List.append_assoc]⟩

theorem toStylesheet_leaves_nothing_radius :
    toStylesheet ⟨[("radius", .str "4px")], []⟩
        (":root \x7b --w: \x7b% liquid echo '50%' %\x7d; \x7b% assign w = 5 %\x7d" ++
          "--r: \x7b\x7b settings.radius \x7d\x7d; \x7d") =
      .ok ":root \x7b --w: 50%; --r: 4px; \x7d" ∧
    ¬ HasTag ":root \x7b --w: 50%; --r: 4px; \x7d" ∧
      ¬ HasOutput ":root \x7b --w: 50%; --r: 4px; \x7d" := by
  have noBrace : Store.NoBrace ⟨[("radius", .str "4px")], []⟩ := by
    refine ⟨fun f hf => ?_, fun f hf => absurd hf List.not_mem_nil⟩
    obtain rfl := List.mem_singleton.1 hf
    exact ⟨by decide, .str (by decide)⟩
  have filled : toStylesheet ⟨[("radius", .str "4px")], []⟩
        (":root \x7b --w: \x7b% liquid echo '50%' %\x7d; \x7b% assign w = 5 %\x7d" ++
          "--r: \x7b\x7b settings.radius \x7d\x7d; \x7d") =
      .ok ":root \x7b --w: 50%; --r: 4px; \x7d" := by decide +kernel
  exact ⟨filled, toStylesheet_leaves_nothing noBrace (by decide +kernel) filled⟩

/-- An `assign` tag with a percent sign is left. -/
theorem toStylesheet_percent_left :
    ¬ ∀ (store : Store) (s v : Text), store.NoBrace → toStylesheet store s = .ok v →
      ¬ HasTag v ∧ ¬ HasOutput v := by
  intro h
  have noBrace : Store.NoBrace {} :=
    ⟨fun f hf => absurd hf List.not_mem_nil, fun f hf => absurd hf List.not_mem_nil⟩
  have kept : toStylesheet {} ":root \x7b \x7b% assign w = '50%' %\x7d--a: 1px; \x7d" =
      .ok ":root \x7b \x7b% assign w = '50%' %\x7d--a: 1px; \x7d" := by decide +kernel
  exact (h {} _ _ noBrace kept).1 ⟨":root \x7b ", " assign w = '50%' ", "--a: 1px; \x7d", rfl⟩

end

end ThemeProps
