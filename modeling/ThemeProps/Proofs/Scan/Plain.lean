/-
  Stylesheets that are no templates.

  A text without tags and without outputs is `Plain`. Every stage looks for one
  of the two marks, so it finds nothing in such a text.

  * `toStylesheet_of_plain`: a plain text stays as it is, whatever the settings
    are;
  * `Source.written` are the declarations of the style regions of a file as they
    are written, and `Extraction.ofSource_of_plain`: these are what is found in a
    file whose regions are plain;
  * `scanSources_plain`: so the registry of such files does not depend on the
    settings.
-/
import ThemeProps.Proofs.Scan.Append
import ThemeProps.Proofs.Template.Stage

namespace ThemeProps

/-- The text has neither the mark of a tag nor that of an output. -/
def Plain (s : Text) : Prop := ¬ Tag.tagMark <:+: s ∧ ¬ Tag.outputMark <:+: s

instance (s : Text) : Decidable (Plain s) := inferInstanceAs (Decidable (_ ∧ _))

/-! ## Plain texts -/

/-- A plain text is the stylesheet that it stands for. -/
theorem toStylesheet_of_plain (store : Store) {s : Text} (h : Plain s) :
    toStylesheet store s = .ok s := by
  obtain ⟨noTag, noOutput⟩ := h
  have scheme : Template.fillSchemeSettings store s = .ok s :=
    Reader.replaceEveryM_of_refuses (Template.begins_settingOutput.refuses noOutput)
  have settings : Template.fillSettings store s = .ok s :=
    Reader.replaceEveryM_of_refuses (Template.begins_settingOutput.refuses noOutput)
  rw [toStylesheet_of_noTag noTag, scheme, Evaluation.ok_bind, settings, Evaluation.ok_bind,
    fillBareOutputs_of_noOutput noOutput, removeLeftovers_of_plain noTag noOutput]
  rfl

/-! ## Files with plain style regions -/

namespace Source

/-- All style regions of the file are plain. -/
def HasPlainRegions (source : Source) : Prop :=
  ∀ region ∈ Stylesheet.regions source.content, Plain region.content

/-- The declarations of the style regions of a file, as they are written. -/
def written (onlyRoot : Bool) (source : Source) : List Declaration :=
  if Text.occursIn Stylesheet.rootMarker source.content then
    (Stylesheet.regions source.content).flatMap fun region =>
      Extraction.ofStylesheet onlyRoot source.path region.content
  else []

end Source

namespace Extraction

variable {store : Store} {onlyRoot : Bool}

/-- Extractions that go well give what they find in turn. -/
theorem all_of_ok {α : Type} {f : α → Extraction} {found : α → List Declaration} {as : List α}
    (h : ∀ a ∈ as, f a = { declarations := found a }) :
    all (as.map f) = { declarations := as.flatMap found } := by
  induction as with
  | nil => rfl
  | cons a as ih =>
    rw [List.forall_mem_cons] at h
    rw [List.map_cons, all, h.1, ih h.2]
    rfl

theorem ofRegion_of_plain {content : Text} (h : Plain content) (file : Text) :
    ofRegion store onlyRoot file content =
      { declarations := ofStylesheet onlyRoot file content } := by
  rw [ofRegion, toStylesheet_of_plain store h]

/-- In a file with plain regions the declarations are found as they are written. -/
theorem ofSource_of_plain {source : Source} (h : source.HasPlainRegions) :
    ofSource store onlyRoot source = { declarations := source.written onlyRoot } := by
  rw [ofSource, Source.written]
  split_ifs
  · exact all_of_ok fun region hr => ofRegion_of_plain (h region hr) source.path
  · rfl

end Extraction

/-- **Plain stylesheets are left alone.** A text without tags and outputs is not changed, whatever
the settings are; and files whose style regions are such texts are scanned without an error and give
one registry under all settings. -/
theorem scanSources_plain :
    (∀ (store : Store) (s : Text), Plain s → toStylesheet store s = .ok s) ∧
    ∀ (onlyRoot : Bool) (sources : List Source), (∀ source ∈ sources, source.HasPlainRegions) →
      ∃ r, ∀ store, scanSources store onlyRoot sources = .ok r := by
  refine ⟨fun store s h => toStylesheet_of_plain store h, fun onlyRoot sources h => ?_⟩
  refine ⟨Registry.declareAll {} (sources.flatMap (Source.written onlyRoot)), fun store => ?_⟩
  have found : Extraction.ofSources store onlyRoot sources =
      { declarations := sources.flatMap (Source.written onlyRoot) } :=
    Extraction.all_of_ok fun source hs => Extraction.ofSource_of_plain (h source hs)
  rw [scanSources, found]

/-- A percent sign and a brace alone make no template, and outputs outside of the style regions do
not count. -/
theorem scanSources_plain_media :
    let css : Text := ":root \x7b --a: 50%; @media print \x7b--a:1px;\x7d\x7d"
    let file : Source := ⟨"a.liquid", "\x7b\x7b settings.a \x7d\x7d<style>" ++ css ++ "</style>"⟩
    let dark : Store := { current := [("a", .str "dark")] }
    toStylesheet dark css = .ok css ∧
      ∃ r, scanSources {} false [file] = .ok r ∧ scanSources dark false [file] = .ok r := by
  intro css file dark
  have plain : Plain css := by decide
  have regions : file.HasPlainRegions := by
    have found : (Stylesheet.regions file.content).all
        (fun region => decide (Plain region.content)) := by decide +kernel
    exact fun region hr => of_decide_eq_true (List.all_eq_true.1 found region hr)
  obtain ⟨untouched, same⟩ := scanSources_plain
  obtain ⟨r, hr⟩ := same false [file] (List.forall_mem_singleton.2 regions)
  exact ⟨untouched dark css plain, r, hr {}, hr dark⟩

end ThemeProps
