/-
  What a scan asks of the settings.

  The scan is defined over a store. Here it is shown that it could as well ask a
  session, whatever that remembers.

  * A `Dialogue` asks questions, each of which may depend on the answers before
    it. `Dialogue.run` lets a store answer, `Dialogue.inSession` a session, and
    `Dialogue.agrees_inSession` says that both come to the same;
  * `Asks f`: what `f` says of a store can be found out in a dialogue. There is
    one `asks_` lemma for each function of the settings, from expressions up to
    stages and files;
  * `scanSources_inSession`: a scan in a session gives the registry that it gives
    over the store, and the session answers as before.
-/
import ThemeProps.Extraction
import ThemeProps.Proofs.Failure.Block
import ThemeProps.Proofs.Settings.Memory

namespace ThemeProps

namespace Session

variable {α β : Type} {store : Store}

/-! ## Dialogues -/

/-- A question about the settings, with the type of its answer. -/
inductive Question : Type → Type where
  | setting (path : Text) : Question Value
  | rendering (path : Text) : Question (Evaluation Text)
  | schemeRendering (path : Text) : Question (Evaluation Text)
  | firstScheme : Question (Option Text)

namespace Question

/-- What a store says. -/
def answer (store : Store) : Question α → α
  | setting path => store.get path
  | rendering path => store.renderSetting path
  | schemeRendering path => store.renderSchemeSetting path
  | firstScheme => store.firstSchemeId?

/-- Asking a session. -/
def ask : Question α → Lookup α
  | setting path => get path
  | rendering path => renderSetting path
  | schemeRendering path => renderSchemeSetting path
  | firstScheme => firstSchemeId?

theorem agrees_ask : ∀ q : Question α, Agrees store q.ask (pure (q.answer store))
  | setting path => agrees_get path
  | rendering path => agrees_renderSetting path
  | schemeRendering path => agrees_renderSchemeSetting path
  | firstScheme => agrees_firstSchemeId?

end Question

/-- A computation that asks questions, one after the other. -/
inductive Dialogue (α : Type) : Type 1 where
  | done (a : α)
  | ask {β : Type} (q : Question β) (next : β → Dialogue α)

namespace Dialogue

/-- What comes out if a store answers. -/
def run (store : Store) : Dialogue α → α
  | done a => a
  | ask q next => (next (q.answer store)).run store

/-- The computation in a session. -/
def inSession : Dialogue α → Lookup α
  | done a => pure a
  | ask q next => do (next (← q.ask)).inSession

/-- One dialogue and then another. -/
def bind : Dialogue α → (α → Dialogue β) → Dialogue β
  | done a, f => f a
  | ask q next, f => ask q fun answer => (next answer).bind f

@[simp] theorem run_bind (d : Dialogue α) (f : α → Dialogue β) (store : Store) :
    (d.bind f).run store = (f (d.run store)).run store := by
  induction d with
  | done a => rfl
  | ask q next ih => exact ih (q.answer store)

/-- A session answers like its store to the end of the dialogue. -/
theorem agrees_inSession (d : Dialogue α) : Agrees store d.inSession (pure (d.run store)) := by
  induction d with
  | done a => exact agrees_pure a
  | ask q next ih =>
    refine Gives.bind q.agrees_ask fun answer he => ?_
    obtain rfl : answer = q.answer store := he
    exact ih _

end Dialogue

/-! ## Functions of the settings -/

/-- What the function says of a store can be found out in a dialogue. -/
def Asks (f : Store → α) : Prop := ∃ d : Dialogue α, ∀ store, d.run store = f store

namespace Asks

variable {f : Store → α}

theorem const (a : α) : Asks fun _ => a := ⟨.done a, fun _ => rfl⟩

theorem question (q : Question α) : Asks q.answer := ⟨.ask q .done, fun _ => rfl⟩

theorem bind {g : α → Store → β} (hf : Asks f) (hg : ∀ a, Asks (g a)) :
    Asks fun store => g (f store) store := by
  obtain ⟨d, hd⟩ := hf
  choose next hnext using hg
  refine ⟨d.bind next, fun store => ?_⟩
  rw [Dialogue.run_bind, hd, hnext]

theorem map (hf : Asks f) (k : α → β) : Asks fun store => k (f store) :=
  hf.bind fun a => const (k a)

/-- Nothing else has to be asked for what depends on the outcome of `f` alone. -/
theorem factors {g : Store → β} (hf : Asks f)
    (h : ∀ store store', f store = f store' → g store = g store') : Asks g := by
  have inhabited : Nonempty β := ⟨g {}⟩
  have through : g.FactorsThrough f := fun store store' => h store store'
  obtain ⟨k, rfl⟩ := (Function.factorsThrough_iff g).1 through
  exact hf.map k

/-- One evaluation and then another, unless the first goes wrong. -/
theorem andThen {x : Store → Evaluation α} {g : α → Store → Evaluation β} (hx : Asks x)
    (hg : ∀ a, Asks (g a)) : Asks fun store => x store >>= fun a => g a store :=
  hx.bind (g := fun outcome store => outcome >>= fun a => g a store) fun
    | .ok a => hg a
    | .error e => const (Except.error e)

theorem replaceEveryM {γ : Type} {reader : Reader γ} {write : Store → γ → Evaluation Text}
    (h : ∀ v, Asks fun store => write store v) (s : Text) :
    Asks fun store => reader.replaceEveryM (write store) s := by
  have written (ps : List (Piece γ)) : Asks fun store => Reader.writePieces (write store) ps := by
    induction ps with
    | nil => exact const _
    | cons p ps ih =>
      cases p with
      | plain c => exact ih.andThen fun rest => const _
      | found source v => exact (h v).andThen fun here => ih.andThen fun rest => const _
  exact written _

end Asks

/-! ## Expressions and conditions -/

theorem asks_get (path : Text) : Asks (Store.get · path) := .question (.setting path)

theorem asks_getOrEmpty (path : Text) : Asks (Store.getOrEmpty · path) :=
  (asks_get path).factors fun _ _ same => by
    rw [Store.getOrEmpty, same, ← Store.getOrEmpty]

theorem asks_evalItem (b : Bindings) (name : Text) (index : Value) :
    Asks (evalItem · b name index) := by
  unfold evalItem
  split_ifs
  · exact (Asks.const _).andThen fun path => (asks_getOrEmpty path).map Except.ok
  · exact .const _

theorem asks_evalDotted (b : Bindings) (source name path : Text) :
    Asks (evalDotted · b source name path) := by
  unfold evalDotted
  split_ifs
  · exact asks_getOrEmpty path
  · exact .const _

mutual
theorem asks_eval (b : Bindings) : ∀ e : Expr, Asks (e.eval · b)
  | .chain base filters => by
    simp only [Expr.eval]
    exact (asks_evalBase b base).andThen fun v => asks_evalFilters b filters v
theorem asks_evalBase (b : Bindings) : ∀ base : Base Expr, Asks (evalBase · b base)
  | .item name index => by
    simp only [evalBase]
    exact (asks_eval b index).andThen fun v => asks_evalItem b name v
  | .dotted source name path => by
    simp only [evalBase]
    exact (asks_evalDotted b source name path).map Except.ok
  | .quoted s => by simp only [evalBase]; exact .const _
  | .word s => by simp only [evalBase]; exact .const _
  | .number n => by simp only [evalBase]; exact .const _
  | .template s => by simp only [evalBase]; exact .const _
theorem asks_evalFilters (b : Bindings) :
    ∀ (filters : List (Filter Expr)) (v : Value), Asks (evalFilters · b filters v)
  | [], v => by simp only [evalFilters]; exact .const _
  | f :: filters, v => by
    simp only [evalFilters]
    exact (asks_evalFilter b f v).andThen fun w => asks_evalFilters b filters w
theorem asks_evalFilter (b : Bindings) :
    ∀ (f : Filter Expr) (v : Value), Asks (evalFilter · b f v)
  | .replace search source replacement, v => by
    simp only [evalFilter]
    exact (asks_eval b replacement).andThen fun r => .const _
  | .append suffix, v => by
    simp only [evalFilter]
    exact (asks_eval b suffix).andThen fun s => .const _
  | .arithmetic operation operand, v => by
    simp only [evalFilter]
    have number : Asks (fun store => do (← operand.eval store b).toNumber) :=
      (asks_eval b operand).andThen fun w => .const w.toNumber
    exact number.map (operation.apply v)
  | .findIndex sought, v => by
    simp only [evalFilter]
    cases v with
    | list id items => exact (asks_eval b sought).andThen fun s => .const _
    | _ => exact .const _
  | .split delimiter, v => by simp only [evalFilter]; exact .const _
  | .uniq, v => by simp only [evalFilter]; exact .const _
  | .sortNatural, v => by simp only [evalFilter]; exact .const _
  | .keep, v => by simp only [evalFilter]; exact .const _
end

theorem asks_holds (b : Bindings) (c : Condition) : Asks (c.holds · b) := by
  cases c with
  | contains whole part =>
    refine (asks_eval b whole).andThen fun v => (Asks.const v.toText).andThen fun s => ?_
    exact (asks_eval b part).andThen fun w => .const _
  | compare left c right =>
    exact (asks_eval b left).andThen fun v => (asks_eval b right).andThen fun w => .const _
  | truthy e => exact (asks_eval b e).andThen fun v => .const _

/-! ## Statements -/

/-- So it can of an action, whatever variables it starts with. -/
def AsksIn (x : Store → Action α) : Prop := ∀ env, Asks fun store => x store env

namespace AsksIn

variable {x : Store → Action α}

theorem const (a : Action α) : AsksIn fun _ => a := fun env => .const (a env)

theorem bind {f : α → Store → Action β} (hx : AsksIn x) (hf : ∀ a, AsksIn (f a)) :
    AsksIn fun store => x store >>= fun a => f a store := by
  intro env
  -- What follows `x` depends on the store and on the outcome of `x`.
  let next (outcome : Except EvalError α × Env) (store : Store) : Except EvalError β × Env :=
    ((fun _ => outcome : Action α) >>= fun a => f a store) env
  refine (hx env).bind (g := next) fun outcome => ?_
  obtain ⟨e | a, env'⟩ := outcome
  · exact .const (Except.error e, env')
  · exact hf a env'

theorem append {x y : Store → Action Text} (hx : AsksIn x) (hy : AsksIn y) :
    AsksIn fun store => do return (← x store) ++ (← y store) :=
  hx.bind fun _ => hy.bind fun _ => const _

theorem eval (e : Expr) : AsksIn fun store => Action.eval store e :=
  fun env => (asks_eval env.bindings e).map fun outcome => (outcome, env)

theorem test (c : Condition) : AsksIn fun store => Action.test store c :=
  fun env => (asks_holds env.bindings c).map fun outcome => (outcome, env)

theorem forItems {body : Store → Action Text} (h : AsksIn body) (item : Text) (length : Nat)
    (vs : List Value) (position : Nat) :
    AsksIn fun store => Action.forItems item length (body store) position vs := by
  induction vs generalizing position with
  | nil => exact const _
  | cons v vs ih =>
    exact (const _).bind fun _ => (const _).bind fun _ => h.append (ih (position + 1))

end AsksIn

mutual
theorem asks_run : ∀ statement : Statement, AsksIn fun store => statement.run store
  | .assign name e => by
    simp only [Statement.run]
    exact (AsksIn.eval e).bind fun v => .const _
  | .echo e => by
    simp only [Statement.run]
    exact (AsksIn.eval e).bind fun v => .const _
  | .forEach item array body => by
    simp only [Statement.run]
    refine (AsksIn.const _).bind fun found => ?_
    match found with
    | some (.list _ items) => exact (asks_runAll body).forItems item items.length items 0
    | none | some .null | some (.bool _) | some (.number _) | some (.str _) | some (.map _ _) =>
      exact .const _
  | .choose arms => by
    simp only [Statement.run]
    exact asks_runArms arms
  | .whenNot condition body => by
    simp only [Statement.run]
    refine (AsksIn.test condition).bind fun holds => ?_
    split_ifs
    · exact .const _
    · exact asks_runAll body
theorem asks_runAll : ∀ statements : List Statement,
    AsksIn fun store => Statement.runAll store statements
  | [] => by simp only [Statement.runAll]; exact .const _
  | statement :: statements => by
    simp only [Statement.runAll]
    exact (asks_run statement).append (asks_runAll statements)
theorem asks_runArms : ∀ arms : List (Option Condition × List Statement),
    AsksIn fun store => Statement.runArms store arms
  | [] => by simp only [Statement.runArms]; exact .const _
  | (none, body) :: _ => by
    simp only [Statement.runArms]
    exact asks_runAll body
  | (some condition, body) :: arms => by
    simp only [Statement.runArms]
    refine (AsksIn.test condition).bind fun holds => ?_
    split_ifs
    · exact asks_runAll body
    · exact asks_runArms arms
end

theorem asks_runBlock (b : Bindings) (source : Text) : Asks (runBlock · b source) :=
  (asks_runAll (Statement.ofSource source) ⟨b, 0⟩).map (·.1)

/-! ## Stages -/

theorem asks_evaluateSettingCondition (s : Text) : Asks (evaluateSettingCondition · s) := by
  unfold evaluateSettingCondition
  cases SettingCondition.parse s with
  | compare path c v => exact (asks_get path).map fun w => w.compareBy c v
  | present path => exact (asks_get path).map fun w => Except.ok (SettingCondition.isSet w)
  | never => exact .const _

theorem asks_selectBranch (branches : List Branch) : Asks (selectBranch · branches) := by
  induction branches with
  | nil => exact .const _
  | cons branch branches ih =>
    obtain ⟨_ | condition, content⟩ := branch
    · exact .const _
    · refine (asks_evaluateSettingCondition condition).andThen fun holds => ?_
      split_ifs
      · exact .const _
      · exact ih

theorem asks_firstSchemeId? : Asks Store.firstSchemeId? := .question .firstScheme

theorem asks_schemeId : Asks SchemeLoop.schemeId :=
  asks_firstSchemeId?.factors fun _ _ same => by
    rw [SchemeLoop.schemeId, same, ← SchemeLoop.schemeId]

theorem asks_expand (s : Text) : Asks (SchemeLoop.expand · s) :=
  asks_schemeId.factors fun _ _ same => by
    rw [SchemeLoop.expand, same, ← SchemeLoop.expand]

theorem asks_apply (stage : Stage) (s : Text) : Asks (stage.apply · s) := by
  cases stage with
  | statementBlocks => exact .replaceEveryM (asks_runBlock []) s
  | schemeLoop => exact (asks_expand s).map Except.ok
  | settingConditionals =>
    exact .replaceEveryM (fun (condition, body) =>
      asks_selectBranch (splitBranches condition body)) s
  | schemeSettings =>
    exact .replaceEveryM (fun (path, _) =>
      (Asks.question (.schemeRendering path)).andThen fun _ => .const _) s
  | settings =>
    exact .replaceEveryM (fun (path, _) =>
      (Asks.question (.rendering path)).andThen fun _ => .const _) s
  | assignTags | numericConditionals | bareOutputs | leftovers => exact .const _

theorem asks_toStylesheet (s : Text) : Asks (toStylesheet · s) := by
  have stages (stages : List Stage) : ∀ s : Text,
      Asks fun store => stages.foldlM (fun s stage => stage.apply store s) s := by
    induction stages with
    | nil => exact fun s => .const _
    | cons stage stages ih => exact fun s => (asks_apply stage s).andThen ih
  exact stages Stage.all s

/-! ## Files -/

open Extraction

theorem asks_all {γ : Type} {x : Store → γ → Extraction} (h : ∀ c, Asks fun store => x store c)
    (cs : List γ) : Asks fun store => all (cs.map (x store)) := by
  induction cs with
  | nil => exact .const _
  | cons c cs ih => exact (h c).bind fun here => ih.map here.andThen

theorem asks_ofRegion (onlyRoot : Bool) (file content : Text) :
    Asks (ofRegion · onlyRoot file content) :=
  (asks_toStylesheet content).factors fun _ _ same => by rw [ofRegion, same, ← ofRegion]

theorem asks_ofSource (onlyRoot : Bool) (source : Source) : Asks (ofSource · onlyRoot source) := by
  unfold ofSource
  split_ifs
  · exact asks_all (fun region : Stylesheet.Region =>
      asks_ofRegion onlyRoot source.path region.content) _
  · exact .const _

theorem asks_scanSources (onlyRoot : Bool) (sources : List Source) :
    Asks (scanSources · onlyRoot sources) :=
  (asks_all (asks_ofSource onlyRoot) sources).factors fun _ _ same => by
    rw [scanSources, ofSources, same, ← ofSources, ← scanSources]

/-- **A scan in a session.** There is a dialogue that finds out what a scan gives over any store.
Held in a session that remembers nothing but what its store says, it gives the same registry, or
goes wrong in the same way, and the answers that the session gives afterwards are those of the
store. -/
theorem scanSources_inSession (onlyRoot : Bool) (sources : List Source) :
    ∃ scan : Dialogue (Evaluation Registry),
      (∀ store, scan.run store = scanSources store onlyRoot sources) ∧
      ∀ store s, Faithful store s →
        (scan.inSession s).1 = scanSources store onlyRoot sources ∧
        ∀ qs : List Query, (∀ q ∈ qs, q.Valued) →
          List.Forall₂ Reply.Same (answers (scan.inSession s).2 qs)
            (qs.map (Query.reply store)) := by
  obtain ⟨scan, found⟩ := asks_scanSources onlyRoot sources
  refine ⟨scan, found, fun store s hs => ?_⟩
  have agrees : Agrees store scan.inSession (pure (scan.run store)) := scan.agrees_inSession
  obtain ⟨same, after⟩ := agrees s hs
  exact ⟨same.trans (found store), fun qs valued => answers_same after valued⟩

end Session
end ThemeProps
