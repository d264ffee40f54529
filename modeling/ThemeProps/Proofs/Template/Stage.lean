/-
  What the stages leave alone, and what they fill in.

  A stage leaves a text without the mark of its constructs as it is.

  * `toStylesheet_eq` writes the stages out, and `toStylesheet_of_noTag` says that
    a text without tags only has its outputs filled in;
  * `reads_settingOutput`: the output of a setting is read as its path, and
    `schemeOutput_eq_none`: it is no output of a color scheme;
  * `fillSettings_output` and `fillSettings_append`: so its value is filled in,
    and the text before it stays; `fillSettings_suffixOutput` does the same for an
    output with a suffix.
-/
import ThemeProps.Template.Stage
import ThemeProps.Proofs.Evaluation
import ThemeProps.Proofs.Template.Tag

namespace ThemeProps

/-! ## Texts without tags -/

section
open Template
variable {store : Store} {s : Text}

theorem runBlocks_of_noTag (h : ¬ Tag.tagMark <:+: s) : runBlocks store s = .ok s :=
  Reader.replaceEveryM_of_refuses (((Tag.begins_opening _).bind _).refuses h)

theorem expand_of_noTag (h : ¬ Tag.tagMark <:+: s) : SchemeLoop.expand store s = s :=
  Reader.replaceEvery_of_refuses (((Tag.begins_opening _).bind _).refuses h)

theorem removeEvery_assignTag_of_noTag (h : ¬ Tag.tagMark <:+: s) :
    Reader.removeEvery assignTag s = s :=
  Reader.replaceEvery_of_refuses ((Tag.begins_openTag.bind _).refuses h)

theorem reduceConditionals_of_noTag (h : ¬ Tag.tagMark <:+: s) :
    reduceConditionals store s = .ok s :=
  Reader.replaceEveryM_of_refuses (((Tag.begins_opening _).bind _).refuses h)

theorem keepFirstBranches_of_noTag (h : ¬ Tag.tagMark <:+: s) : keepFirstBranches s = s :=
  Reader.replaceEvery_of_refuses (((Tag.begins_opening _).bind _).refuses h)

/-- The stages one after the other; four of them can go wrong. -/
theorem toStylesheet_eq (store : Store) (s : Text) :
    toStylesheet store s = (do
      let s ← runBlocks store s
      let s ← reduceConditionals store (Reader.removeEvery assignTag (SchemeLoop.expand store s))
      let s ← fillSchemeSettings store (keepFirstBranches s)
      let s ← fillSettings store s
      return removeLeftovers (fillBareOutputs s)) := rfl

/-- A text without tags only has its outputs filled in. -/
theorem toStylesheet_of_noTag (h : ¬ Tag.tagMark <:+: s) :
    toStylesheet store s = (do
      let s ← fillSchemeSettings store s
      let s ← fillSettings store s
      return removeLeftovers (fillBareOutputs s)) := by
  rw [toStylesheet_eq, runBlocks_of_noTag h, Evaluation.ok_bind, expand_of_noTag h,
    removeEvery_assignTag_of_noTag h, reduceConditionals_of_noTag h, Evaluation.ok_bind,
    keepFirstBranches_of_noTag h]

/-! ## Texts without outputs -/

theorem fillBareOutputs_of_noOutput (h : ¬ Tag.outputMark <:+: s) : fillBareOutputs s = s :=
  Reader.replaceEvery_of_refuses ((Tag.begins_openOutput.bind _).refuses h)

theorem begins_anyTag : Reader.Begins Tag.tagMark anyTag :=
  Reader.begins_char_bind (Reader.begins_char_bind Reader.begins_nil)

theorem begins_anyOutput : Reader.Begins Tag.outputMark anyOutput :=
  Reader.begins_char_bind (Reader.begins_char_bind Reader.begins_nil)

theorem removeLeftovers_of_plain (ht : ¬ Tag.tagMark <:+: s) (ho : ¬ Tag.outputMark <:+: s) :
    removeLeftovers s = s := by
  have noTag : Reader.removeEvery anyTag s = s :=
    Reader.replaceEvery_of_refuses (begins_anyTag.refuses ht)
  rw [removeLeftovers, noTag]
  exact Reader.replaceEvery_of_refuses (begins_anyOutput.refuses ho)

end

/-! ## Outputs of settings -/

namespace Template

theorem begins_settingOutput {beginning : Text} :
    Reader.Begins Tag.outputMark (settingOutput beginning) := Tag.begins_openOutput.bind _

/-- The output of a setting is read as its path and the suffix behind that. -/
theorem reads_settingOutput_tail {beginning path tail tail' s rest : Text} (hb : beginning ≠ [])
    (hs : Reader.Stops Text.isBlank beginning) (hne : path ≠ [])
    (hpath : ∀ c ∈ path, Text.isWordOrDot c = true) (stops : Reader.Stops Text.isWordOrDot tail)
    (read : (suffix <|> pure []) tail = some (s, tail'))
    (closed : Tag.closeOutput tail' = some ((), rest)) :
    settingOutput beginning ('{' :: '{' :: ' ' :: (beginning ++ (path ++ tail))) =
      some ((path, s), rest) := by
  have opened : Reader.Stops Text.isBlank (beginning ++ (path ++ tail)) :=
    Reader.stops_append hb hs _
  rw [settingOutput, Reader.bind_of (Tag.reads_openOutput opened),
    Reader.bind_of (Reader.reads_literal _ _),
    Reader.bind_of (Reader.reads_run1 hne hpath stops), Reader.bind_of read, Reader.bind_of closed]
  rfl

/-- The output of a setting is read as its path. -/
theorem reads_settingOutput {beginning path : Text} (hb : beginning ≠ [])
    (hs : Reader.Stops Text.isBlank beginning) (hne : path ≠ [])
    (hpath : ∀ c ∈ path, Text.isWordOrDot c = true) (rest : Text) :
    settingOutput beginning (Tag.writeOutput (beginning ++ path) ++ rest) =
      some ((path, []), rest) := by
  have noSuffix : suffix (' ' :: '}' :: '}' :: rest) = none := by
    have blank : Reader.blanks (' ' :: '}' :: '}' :: rest) = some ((), '}' :: '}' :: rest) :=
      Reader.reads_blanks_cons (by decide) (Reader.stops_cons.2 (by decide))
    rw [suffix, Reader.bind_of blank]
    exact Reader.bind_none (Reader.char_of_ne (by decide)) _
  rw [Tag.writeOutput_append, List.append_assoc]
  exact reads_settingOutput_tail hb hs hne hpath (Reader.stops_cons.2 (by decide))
    (Reader.orElse_none noSuffix) (Tag.reads_closeOutput rest)

/-- The output of a setting is no output of a setting of the color scheme. -/
theorem schemeOutput_eq_none (rest : Text) :
    settingOutput "scheme.settings." ("\x7b\x7b settings." ++ rest) = none := by
  have opened : Reader.Stops Text.isBlank ("settings." ++ rest) :=
    Reader.stops_append (by decide) (by decide) _
  have other : Reader.literal "scheme.settings." ("settings." ++ rest) = none := by
    rw [Reader.literal_eq_none]
    simp
  have shape : ("\x7b\x7b settings." : Text) ++ rest =
      '{' :: '{' :: ' ' :: ("settings." ++ rest) := rfl
  rw [shape, settingOutput, Reader.bind_of (Tag.reads_openOutput opened)]
  exact Reader.bind_none other _

/-- The output of a setting is filled in. -/
theorem fillSettings_output (store : Store) {path : Text} (hne : path ≠ [])
    (hpath : ∀ c ∈ path, Text.isWordOrDot c = true) (rest : Text) :
    fillSettings store ("\x7b\x7b settings." ++ path ++ " \x7d\x7d" ++ rest) = (do
      let value ← store.renderSetting path
      let filled ← fillSettings store rest
      return value ++ filled) := by
  have read : settingOutput "settings." (Tag.writeOutput ("settings." ++ path) ++ rest) =
      some ((path, []), rest) := reads_settingOutput (by decide) (by decide) hne hpath rest
  calc fillSettings store ("\x7b\x7b settings." ++ path ++ " \x7d\x7d" ++ rest)
      _ = _ := Reader.replaceEveryM_of_reads read Tag.writeOutput_ne_nil
      _ = _ := by simp only [bind_assoc, pure_bind, List.append_nil]; rfl

/-- A quoted suffix, with one blank on both sides of the pipe. -/
theorem reads_suffix {t : Text} (hne : t ≠ []) (single : '\x27' ∉ t) (double : '"' ∉ t)
    (rest : Text) : suffix (" | append: '" ++ t ++ '\x27' :: rest) = some (t, rest) := by
  have inside : ∀ c ∈ t, (c ≠ '\x27' && c ≠ '"') = true := fun c hc => by
    rw [Bool.and_eq_true, decide_eq_true_iff, decide_eq_true_iff]
    exact ⟨fun he => single (he ▸ hc), fun he => double (he ▸ hc)⟩
  have blank {s : Text} (h : Reader.Stops Text.isBlank s) :
      Reader.blanks (' ' :: s) = some ((), s) := Reader.reads_blanks_cons (by decide) h
  have mark (s : Text) : Reader.satisfy (fun c => c == '\x27' || c == '"') ('\x27' :: s) =
      some ('\x27', s) := rfl
  have quoted : Reader.run1 (fun c => c ≠ '\x27' && c ≠ '"') (t ++ '\x27' :: rest) =
      some (t, '\x27' :: rest) := Reader.reads_run1 hne inside (Reader.stops_cons.2 rfl)
  have shape : " | append: '" ++ t ++ '\x27' :: rest =
      ' ' :: '|' :: ' ' :: ("append:" ++ ' ' :: '\x27' :: (t ++ '\x27' :: rest)) := by simp
  rw [shape, suffix, Reader.bind_of (blank (Reader.stops_cons.2 (by decide))),
    Reader.bind_of (Reader.reads_char _ _),
    Reader.bind_of (blank (Reader.stops_append (by decide) (by decide) _)),
    Reader.bind_of (Reader.reads_literal _ _),
    Reader.bind_of (blank (Reader.stops_cons.2 (by decide))), Reader.bind_of (mark _),
    Reader.bind_of quoted, Reader.bind_of (mark _)]
  rfl

/-- The output of a setting with a suffix is filled in. -/
theorem fillSettings_suffixOutput (store : Store) {path t : Text} (hne : path ≠ [])
    (hpath : ∀ c ∈ path, Text.isWordOrDot c = true) (ht : t ≠ []) (single : '\x27' ∉ t)
    (double : '"' ∉ t) (rest : Text) :
    fillSettings store
        ("\x7b\x7b settings." ++ path ++ " | append: '" ++ t ++ "' \x7d\x7d" ++ rest) = (do
      let value ← store.renderSetting path
      let filled ← fillSettings store rest
      return value ++ t ++ filled) := by
  have read : settingOutput "settings."
      ("\x7b\x7b settings." ++ path ++ " | append: '" ++ t ++ "' \x7d\x7d" ++ rest) =
        some ((path, t), rest) := by
    have shape : "\x7b\x7b settings." ++ path ++ " | append: '" ++ t ++ "' \x7d\x7d" ++ rest =
        '{' :: '{' :: ' ' :: ("settings." ++
          (path ++ (" | append: '" ++ t ++ '\x27' :: ' ' :: '}' :: '}' :: rest))) := by simp
    rw [shape]
    exact reads_settingOutput_tail (by decide) (by decide) hne hpath
      (Reader.stops_cons.2 (by decide)) (Reader.orElse_of (reads_suffix ht single double _))
      (Tag.reads_closeOutput rest)
  calc fillSettings store
        ("\x7b\x7b settings." ++ path ++ " | append: '" ++ t ++ "' \x7d\x7d" ++ rest)
      _ = _ := Reader.replaceEveryM_of_reads read (by simp)
      _ = _ := by simp only [bind_assoc, pure_bind]; rfl

/-- Text before a mark is left alone. -/
theorem fillSettings_append (store : Store) {a : Text} (h : Text.NoPair '{' '{' a) (b : Text) :
    fillSettings store (a ++ b) = (a ++ ·) <$> fillSettings store b :=
  Reader.replaceEveryM_append (begins_settingOutput.refuses_of_noPair h b)

theorem fillSettings_nil (store : Store) : fillSettings store [] = .ok [] :=
  Reader.replaceEveryM_of_refuses Reader.refuses_nil

end Template

end ThemeProps
