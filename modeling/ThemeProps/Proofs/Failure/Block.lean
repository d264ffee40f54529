/-
  The demands of expressions, conditions and blocks of statements.

  * `Expr.demands` are those of an expression under some bindings, and
    `Condition.demands` those of a condition;
  * `Statement.demands` are those of a statement in the environment in which it
    starts; what follows a statement is in the environment that it leaves;
  * `makes_runBlock`: a block makes the demands of its statements.
-/
import ThemeProps.Block.Run
import ThemeProps.Proofs.Failure.Demand

namespace ThemeProps

/-! ## Expressions -/

/-- The demands of a text with the names of variables in brackets: the values are written in their
places. -/
def templateDemands (b : Bindings) (s : Text) : List Demand :=
  (Reader.findEvery Bindings.placeholder s).flatMap fun name =>
    ((b.get? name).getD .null).textDemands

/-- The demands of `name[index]` for the value of the index. -/
def itemDemands (b : Bindings) (name : Text) (index : Value) : List Demand :=
  if name = "settings" then index.textDemands
  else
    match b.get? name with
    | some (.list _ _) => index.numberDemands
    | _ => []

mutual
/-- The demands of an expression. -/
def Expr.demands (store : Store) (b : Bindings) : Expr → List Demand
  | .chain base filters => baseDemands store b base ++
      after (evalBase store b base) (filtersDemands store b filters)
/-- The demands of a base. -/
def baseDemands (store : Store) (b : Bindings) : Base Expr → List Demand
  | .item name index => index.demands store b ++ after (index.eval store b) (itemDemands b name)
  | .quoted _ => []
  | .dotted _ _ _ => []
  | .word _ => []
  | .number _ => []
  | .template s => templateDemands b s
/-- The demands of some filters for the value that they start from. -/
def filtersDemands (store : Store) (b : Bindings) : List (Filter Expr) → Value → List Demand
  | [], _ => []
  | f :: fs, v => filterDemands store b f v ++
      after (evalFilter store b f v) (filtersDemands store b fs)
/-- The demands of a filter. -/
def filterDemands (store : Store) (b : Bindings) : Filter Expr → Value → List Demand
  | .replace _ source replacement, v => replacement.demands store b ++
      after (replacement.eval store b) fun r =>
        (replacementValue source r).textDemands ++ v.textDemands
  | .append suffix, v => suffix.demands store b ++
      after (suffix.eval store b) fun s => v.textDemands ++ s.textDemands
  | .arithmetic operation operand, v =>
    operation.demands v (do (← operand.eval store b).toNumber)
      (operand.demands store b ++ after (operand.eval store b) Value.numberDemands)
  | .sortNatural, v => v.sortDemands
  | .findIndex sought, v =>
    match v with
    | .list _ items => sought.demands store b ++
        after (sought.eval store b) fun s =>
          s.textDemands ++ after s.toText (Value.indexDemands items)
    | _ => []
  | .split _, v => v.textDemands
  | .uniq, _ => []
  | .keep, _ => []
end

section
variable (store : Store) (b : Bindings)

theorem makes_itemAt (items : List Value) (index : Value) :
    Makes (Value.itemAt items index) index.numberDemands := by
  refine (Value.makes_toNumber index).then_ok fun x => ?_
  split <;> exact .ok _

theorem makes_fillIn (s : Text) : Makes (b.fillIn s) (templateDemands b s) :=
  makes_replaceEveryM (fun name => Value.makes_toText ((b.get? name).getD .null)) s

theorem makes_evalItem (name : Text) (index : Value) :
    Makes (evalItem store b name index) (itemDemands b name index) := by
  rw [evalItem, itemDemands]
  split_ifs
  · exact (Value.makes_toText index).map _
  · rcases b.get? name with _ | v
    · exact .ok _
    · cases v with
      | list id items => exact makes_itemAt items index
      | _ => exact .ok _

mutual
theorem Expr.makes_eval : ∀ e : Expr, Makes (e.eval store b) (e.demands store b)
  | .chain base filters => by
    rw [Expr.eval, Expr.demands]
    exact (makes_evalBase base).bind_after fun v => makes_evalFilters filters v
theorem makes_evalBase : ∀ base : Base Expr,
    Makes (evalBase store b base) (baseDemands store b base)
  | .item name index => by
    rw [evalBase, baseDemands]
    exact (Expr.makes_eval index).bind_after fun v => makes_evalItem store b name v
  | .quoted _ => by rw [evalBase, baseDemands]; exact .ok _
  | .dotted _ _ _ => by rw [evalBase, baseDemands]; exact .ok _
  | .word _ => by rw [evalBase, baseDemands]; exact .ok _
  | .number _ => by rw [evalBase, baseDemands]; exact .ok _
  | .template s => by rw [evalBase, baseDemands]; exact (makes_fillIn b s).map _
theorem makes_evalFilters : ∀ (fs : List (Filter Expr)) (v : Value),
    Makes (evalFilters store b fs v) (filtersDemands store b fs v)
  | [], v => by rw [evalFilters, filtersDemands]; exact .ok v
  | f :: fs, v => by
    rw [evalFilters, filtersDemands]
    exact (makes_evalFilter f v).bind_after fun w => makes_evalFilters fs w
theorem makes_evalFilter : ∀ (f : Filter Expr) (v : Value),
    Makes (evalFilter store b f v) (filterDemands store b f v)
  | .replace _ _ replacement, v => by
    rw [evalFilter, filterDemands]
    refine (Expr.makes_eval replacement).bind_after fun r => ?_
    exact (Value.makes_toText _).bind fun _ _ => (Value.makes_toText v).map _
  | .append suffix, v => by
    rw [evalFilter, filterDemands]
    refine (Expr.makes_eval suffix).bind_after fun s => ?_
    exact (Value.makes_toText v).bind fun _ _ => (Value.makes_toText s).map _
  | .arithmetic operation operand, v => by
    rw [evalFilter, filterDemands]
    exact operation.makes_apply v ((Expr.makes_eval operand).bind_after Value.makes_toNumber)
  | .sortNatural, v => by
    rw [evalFilter, filterDemands]
    exact v.makes_sortNatural
  | .findIndex sought, v => by
    cases v with
    | list id items =>
      rw [evalFilter, filterDemands]
      refine (Expr.makes_eval sought).bind_after fun s => ?_
      exact (Value.makes_toText s).bind_after fun t => (Value.makes_indexOf items t).map _
    | _ =>
      rw [evalFilter, filterDemands]
      exact .ok _
      all_goals nofun
  | .split _, v => by rw [evalFilter, filterDemands]; exact v.makes_toText.map _
  | .uniq, v => by rw [evalFilter, filterDemands]; exact .ok _
  | .keep, v => by rw [evalFilter, filterDemands]; exact .ok _
end

end

/-! ## Conditions -/

/-- The demands of a condition. -/
def Condition.demands (store : Store) (b : Bindings) : Condition → List Demand
  | contains whole part => (whole.demands store b ++
      after (whole.eval store b) Value.textDemands) ++
        (part.demands store b ++ after (part.eval store b) Value.textDemands)
  | compare left c right => left.demands store b ++ after (left.eval store b) fun v =>
      right.demands store b ++ after (right.eval store b) fun w => Value.compareDemands c v w
  | truthy e => e.demands store b ++ after (e.eval store b) Value.truthDemands

theorem Condition.makes_holds (store : Store) (b : Bindings) (c : Condition) :
    Makes (c.holds store b) (c.demands store b) := by
  cases c with
  | contains whole part =>
    have text (e : Expr) : Makes (do (← e.eval store b).toText)
        (e.demands store b ++ after (e.eval store b) Value.textDemands) :=
      (e.makes_eval store b).bind_after Value.makes_toText
    have texts := (text whole).bind fun s _ => (text part).map (Text.occursIn · s)
    rw [holds, demands]
    simpa only [bind_assoc] using texts
  | compare left c right =>
    refine (left.makes_eval store b).bind_after fun v => ?_
    exact (right.makes_eval store b).bind_after fun w => Value.makes_compareBy c v w
  | truthy e => exact (e.makes_eval store b).bind_after Value.makes_truth

/-! ## Actions -/

namespace Action

variable {α β : Type} {x : Action α} {ds : Env → List Demand}

/-- The demands that follow an action, which depend on its value and on the environment that it
leaves. -/
def after (x : Action α) (ds : α → Env → List Demand) (env : Env) : List Demand :=
  match x env with
  | (.ok a, env) => ds a env
  | (.error _, _) => []

/-- In each environment, the action makes its demands there. -/
def Makes (x : Action α) (ds : Env → List Demand) : Prop :=
  ∀ env, ThemeProps.Makes (x env).1 (ds env)

@[simp] theorem bind_apply (x : Action α) (f : α → Action β) (env : Env) :
    (x >>= f) env =
      match x env with
      | (.ok a, env) => f a env
      | (.error e, env) => (.error e, env) := by
  show ExceptT.bindCont f (x env).1 (x env).2 = _
  rcases x env with ⟨_ | _, _⟩ <;> rfl

theorem makes_pure (a : α) : Makes (pure a : Action α) fun _ => [] := fun _ => .ok a

theorem Makes.bind {f : α → Action β} {ds' : α → Env → List Demand} (hx : Makes x ds)
    (hf : ∀ a, Makes (f a) (ds' a)) : Makes (x >>= f) fun env => ds env ++ after x ds' env := by
  intro env
  have here := hx env
  rw [ThemeProps.Makes] at here
  rw [ThemeProps.Makes, Demand.firstError_append, ← here, bind_apply, after]
  rcases x env with ⟨e | a, env'⟩
  · rfl
  · exact hf a env'

theorem Makes.then_ok {f : α → Action β} (hx : Makes x ds) (hf : ∀ a, Makes (f a) fun _ => []) :
    Makes (x >>= f) ds := by
  intro env
  have both : ThemeProps.Makes _ (ds env ++ after x (fun _ _ => []) env) := hx.bind hf env
  have nothing : after x (fun _ _ => []) env = [] := by
    rw [after]
    rcases x env with ⟨_ | _, _⟩ <;> rfl
  rwa [nothing, List.append_nil] at both

theorem Makes.map (hx : Makes x ds) (f : α → β) : Makes (do return f (← x)) ds :=
  hx.then_ok fun a => makes_pure (f a)

theorem makes_eval (store : Store) (e : Expr) :
    Makes (eval store e) fun env => e.demands store env.bindings :=
  fun env => e.makes_eval store env.bindings

theorem makes_text (v : Value) : Makes (text v) fun _ => v.textDemands :=
  fun _ => v.makes_toText

theorem makes_test (store : Store) (c : Condition) :
    Makes (test store c) fun env => c.demands store env.bindings :=
  fun env => c.makes_holds store env.bindings

/-- The demands of the rounds of a loop, given those of its body. -/
def roundsDemands (item : Text) (length : Nat) (body : Action Text) (ds : Env → List Demand)
    (position : Nat) : List Value → Env → List Demand
  | [], _ => []
  | v :: vs, env =>
    let inside := (env.bind item v).bind "forloop" (loopRecord position length)
    ds inside ++ after body (fun _ => roundsDemands item length body ds (position + 1) vs) inside

theorem makes_forItems {body : Action Text} (hbody : Makes body ds) (item : Text) (length : Nat)
    (position : Nat) (vs : List Value) :
    Makes (forItems item length body position vs)
      (roundsDemands item length body ds position vs) := by
  induction vs generalizing position with
  | nil => exact makes_pure []
  | cons v vs ih =>
    -- the two bindings of a round make no demands, but the body sees them
    intro env
    exact (hbody.bind fun here => (ih (position + 1)).map (here ++ ·))
      ((env.bind item v).bind "forloop" (loopRecord position length))

end Action

/-! ## Statements -/

namespace Statement

mutual
/-- The demands of a statement in the environment in which it starts. -/
def demands (store : Store) : Statement → Env → List Demand
  | assign _ e, env => e.demands store env.bindings
  | echo e, env => e.demands store env.bindings ++
      Action.after (Action.eval store e) (fun v _ => v.textDemands) env
  | forEach item array body, env =>
    match env.bindings.get? array with
    | some (.list _ items) =>
      Action.roundsDemands item items.length (runAll store body) (allDemands store body) 0 items env
    | _ => []
  | choose arms, env => armsDemands store arms env
  | whenNot condition body, env => condition.demands store env.bindings ++
      Action.after (Action.test store condition)
        (fun holds => if holds then fun _ => [] else allDemands store body) env
/-- The demands of some statements, each in the environment that those before it leave. -/
def allDemands (store : Store) : List Statement → Env → List Demand
  | [], _ => []
  | statement :: statements, env => demands store statement env ++
      Action.after (run store statement) (fun _ => allDemands store statements) env
/-- The demands of the arms of a choice. -/
def armsDemands (store : Store) : List (Option Condition × List Statement) → Env → List Demand
  | [], _ => []
  | (none, body) :: _, env => allDemands store body env
  | (some condition, body) :: arms, env => condition.demands store env.bindings ++
      Action.after (Action.test store condition)
        (fun holds => if holds then allDemands store body else armsDemands store arms) env
end

section
variable (store : Store)

mutual
theorem makes_run : ∀ statement : Statement,
    Action.Makes (run store statement) (demands store statement)
  | assign name e => by
    intro env
    rw [run, demands]
    exact (Action.makes_eval store e).then_ok (fun v _ => .ok _) env
  | echo e => by
    intro env
    rw [run, demands]
    exact (Action.makes_eval store e).bind Action.makes_text env
  | forEach item array body => by
    intro env
    rw [run, demands, Action.bind_apply, Action.get?]
    rcases env.bindings.get? array with _ | v
    · exact .ok _
    · cases v with
      | list id items => exact Action.makes_forItems (makes_runAll body) item _ 0 items env
      | _ => exact .ok _
  | choose arms => by
    intro env
    rw [run, demands]
    exact makes_runArms arms env
  | whenNot condition body => by
    intro env
    rw [run, demands]
    refine (Action.makes_test store condition).bind (fun holds => ?_) env
    split_ifs
    · exact Action.makes_pure []
    · exact makes_runAll body
theorem makes_runAll : ∀ statements : List Statement,
    Action.Makes (runAll store statements) (allDemands store statements)
  | [] => by
    intro env
    rw [runAll, allDemands]
    exact Action.makes_pure [] env
  | statement :: statements => by
    intro env
    rw [runAll, allDemands]
    exact (makes_run statement).bind (fun here => (makes_runAll statements).map (here ++ ·)) env
theorem makes_runArms : ∀ arms : List (Option Condition × List Statement),
    Action.Makes (runArms store arms) (armsDemands store arms)
  | [] => by
    intro env
    rw [runArms, armsDemands]
    exact Action.makes_pure [] env
  | (none, body) :: _ => by
    intro env
    rw [runArms, armsDemands]
    exact makes_runAll body env
  | (some condition, body) :: arms => by
    intro env
    rw [runArms, armsDemands]
    refine (Action.makes_test store condition).bind (fun holds => ?_) env
    split_ifs
    · exact makes_runAll body
    · exact makes_runArms arms
end

end

end Statement

/-- The demands of a block that starts with the given variables. -/
def blockDemands (store : Store) (b : Bindings) (source : Text) : List Demand :=
  Statement.allDemands store (Statement.ofSource source) ⟨b, 0⟩

/-- A block makes the demands of its statements. -/
theorem makes_runBlock (store : Store) (b : Bindings) (source : Text) :
    Makes (runBlock store b source) (blockDemands store b source) :=
  Statement.makes_runAll store (Statement.ofSource source) ⟨b, 0⟩

end ThemeProps
