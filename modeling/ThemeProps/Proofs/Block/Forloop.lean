/-
  The loop record that the statements of a loop see.

  The rounds of all loops set one variable, `forloop`, when they begin.

  * `Follows`: along some events `forloop` changes where a round begins, and only
    there. `Statement.tracks_runAll`: so it does in the run of any statements that
    do not set it themselves;
  * `forloop_of_executes`: a statement in a loop sees the record of the round that
    began last. This is the round that it is executed in, unless a round of a loop
    within that round began since;
  * `forloop_after_nested`: after a nested loop, it is the record of that loop.
-/
import ThemeProps.Proofs.Block.Trace
import ThemeProps.Proofs.Block.Refinement
import ThemeProps.Proofs.Value.Fields

namespace ThemeProps

/-! ## The loop record in the bindings -/

/-- The loop record. -/
def Env.forloop? (env : Env) : Option Value := env.bindings.get? "forloop"

theorem Env.forloop?_bind {name : Text} (h : name ≠ "forloop") (v : Value) (env : Env) :
    (env.bind name v).forloop? = env.forloop? := by
  unfold Env.bind
  split <;> exact Fields.get?_set_of_ne h.symm _ _

/-! ## Loop records -/

namespace Round

/-- What a loop body sees of a round. -/
def fields (r : Round) : Fields :=
  [("index", .int (r.position + 1)), ("index0", .int r.position),
    ("first", .bool (decide (r.position = 0))),
    ("last", .bool (decide (r.position + 1 = r.length))), ("length", .int r.length)]

/-- The value is the record of the round, as it was bound when the round began. -/
def IsRecord (r : Round) (v : Value) : Prop := ∃ n, v = .map (.made n) r.fields

/-- The beginning of a round sets its record. -/
theorem isRecord_bind (r : Round) (env : Env) :
    ∃ v, (env.bind "forloop" (Action.loopRecord r.position r.length)).forloop? = some v ∧
      r.IsRecord v :=
  ⟨.map (.made env.made) r.fields, Fields.get?_set_self _ _ _, env.made, rfl⟩

end Round

/-! ## Following the record -/

/-- The loop record before and after some events: it changes where a round begins, and every
statement sees it as it is then. -/
inductive Follows : Option Value → List RunEvent → Option Value → Prop
  | nil {v : Option Value} : Follows v [] v
  | executes {v : Option Value} {events : List RunEvent} (statement : Statement)
      (inner : Option Round) {env : Env} :
    Follows env.forloop? events v → Follows env.forloop? (.executes statement inner env :: events) v
  | begins {v w : Option Value} {u : Value} {events : List RunEvent} {r : Round} :
    r.IsRecord u → Follows (some u) events w → Follows v (.begins r :: events) w

namespace Follows

variable {u v w : Option Value} {events more : List RunEvent}

theorem append (h : Follows u events v) (h' : Follows v more w) : Follows u (events ++ more) w := by
  induction h with
  | nil => exact h'
  | executes statement inner _ ih => exact .executes statement inner (ih h')
  | begins record _ ih => exact .begins record (ih h')

theorem behind (h : Follows u (events ++ more) w) : ∃ v, Follows v more w := by
  induction events generalizing u with
  | nil => exact ⟨u, h⟩
  | cons event events ih =>
    cases h with
    | executes _ _ h => exact ih h
    | begins _ h => exact ih h

/-- What a statement sees is the record of the round that began last. -/
theorem last {since after : List RunEvent} {r : Round} {statement : Statement}
    {inner : Option Round} {env : Env} {record : Value} (hr : r.IsRecord record)
    (h : Follows (some record) (since ++ .executes statement inner env :: after) w) :
    ∃ v, env.forloop? = some v ∧ ((RunEvent.begun since).getLastD r).IsRecord v := by
  induction since generalizing r record with
  | nil =>
    generalize seen : some record = u at h
    cases h
    exact ⟨record, seen.symm, hr⟩
  | cons event since ih =>
    generalize seen : some record = u at h
    cases h with
    | executes _ _ h => exact ih hr (seen ▸ h)
    | begins hr' h =>
      rw [RunEvent.begun, List.filterMap_cons, List.getLastD_cons]
      exact ih hr' h

end Follows

/-! ## Actions -/

namespace Action

/-- The loop record follows the events of the action. -/
def Tracks {α : Type} (x : Action α) (es : Env → List RunEvent) : Prop :=
  ∀ env, Follows env.forloop? (es env) (x env).2.forloop?

variable {α β : Type} {x : Action α} {es : Env → List RunEvent}

/-- An action that keeps the loop record and has no events. -/
theorem tracks_silent (h : ∀ env, (x env).2.forloop? = env.forloop?) : Tracks x fun _ => [] := by
  intro env
  rw [h]
  exact .nil

theorem tracks_test (store : Store) (c : Condition) : Tracks (test store c) fun _ => [] :=
  tracks_silent fun _ => rfl

theorem Tracks.bind {f : α → Action β} {es' : α → Env → List RunEvent} (hx : Tracks x es)
    (hf : ∀ a, Tracks (f a) (es' a)) : Tracks (x >>= f) fun env => es env ++ next x es' env := by
  intro env
  have first := hx env
  show Follows _ (es env ++ next x es' env) _
  rw [bind_apply, next]
  rcases hxe : x env with ⟨e | a, env'⟩
  · rw [hxe] at first
    exact first.append .nil
  · rw [hxe] at first
    exact first.append (hf a env')

theorem Tracks.map (hx : Tracks x es) (f : α → β) : Tracks (do return f (← x)) es := by
  intro env
  have first := hx env
  rw [bind_apply]
  rcases hxe : x env with ⟨e | a, env'⟩ <;> rw [hxe] at first <;> exact first

theorem Tracks.append {y z : Action Text} {es' : Env → List RunEvent} (hy : Tracks y es)
    (hz : Tracks z es') :
    Tracks (do let here ← y; let there ← z; return here ++ there)
      fun env => es env ++ next y (fun _ => es') env :=
  hy.bind fun here => hz.map (here ++ ·)

theorem Tracks.executes (hx : Tracks x es) (statement : Statement) (inner : Option Round) :
    Tracks x fun env => .executes statement inner env :: es env :=
  fun env => .executes statement inner (hx env)

/-- Each round of a loop begins with its own record. -/
theorem tracks_forItems {body : Action Text} {inside : Round → Env → List RunEvent}
    (h : ∀ r, Tracks body (inside r)) (item : Text) (length : Nat) (vs : List Value)
    (position : Nat) :
    Tracks (forItems item length body position vs)
      (traceRounds item length body inside position vs) := by
  induction vs generalizing position with
  | nil => exact tracks_silent fun _ => rfl
  | cons v vs ih =>
    intro env
    obtain ⟨record, set, own⟩ := Round.isRecord_bind ⟨position, length⟩ (env.bind item v)
    have round := (h ⟨position, length⟩).append (ih (position + 1))
      ((env.bind item v).bind "forloop" (loopRecord position length))
    rw [set] at round
    exact .begins own round

end Action

/-! ## Statements -/

namespace Statement

mutual
/-- The names that a statement assigns or iterates with. -/
def names : Statement → List Text
  | assign name _ => [name]
  | echo _ => []
  | forEach item _ body => item :: allNames body
  | choose arms => armsNames arms
  | whenNot _ body => allNames body
/-- The names that some statements assign or iterate with. -/
def allNames : List Statement → List Text
  | [] => []
  | statement :: statements => names statement ++ allNames statements
/-- The names that the arms of a choice assign or iterate with. -/
def armsNames : List (Option Condition × List Statement) → List Text
  | [] => []
  | (_, body) :: arms => allNames body ++ armsNames arms
end

section
variable (store : Store)

mutual
theorem tracks_run (inner : Option Round) : ∀ statement : Statement,
    "forloop".toList ∉ names statement →
    Action.Tracks (run store statement) (trace store inner statement)
  | assign name e, h => by
    rw [names, List.mem_singleton] at h
    intro env
    have kept : (run store (assign name e) env).2.forloop? = env.forloop? := by
      rw [run, Action.bind_apply, Action.eval]
      rcases e.eval store env.bindings with _ | v
      · rfl
      · exact Env.forloop?_bind (Ne.symm h) v env
    rw [trace, kept]
    exact .executes _ _ .nil
  | echo e, h => by
    intro env
    have kept : (run store (echo e) env).2.forloop? = env.forloop? := by
      rw [run, Action.bind_apply, Action.eval]
      rcases e.eval store env.bindings with _ | v <;> rfl
    rw [trace, kept]
    exact .executes _ _ .nil
  | forEach item array body, h => by
    rw [names, List.mem_cons, not_or] at h
    intro env
    rw [run, trace, Action.bind_apply, Action.get?]
    refine .executes _ _ ?_
    rcases env.bindings.get? array with _ | v
    · exact .nil
    · cases v with
      | list id items =>
        exact Action.tracks_forItems (fun r => tracks_runAll (some r) body h.2) item _ items 0 env
      | _ => exact .nil
  | choose arms, h => by
    rw [names] at h
    intro env
    rw [run, trace]
    exact .executes _ _ (tracks_runArms inner arms h env)
  | whenNot condition body, h => by
    rw [names] at h
    intro env
    rw [run, trace]
    refine .executes _ _ ((Action.tracks_test store condition).bind (fun holds => ?_) env)
    split_ifs
    · exact Action.tracks_silent fun _ => rfl
    · exact tracks_runAll inner body h
/-- In the run of statements that do not set it, the loop record follows the rounds that begin. -/
theorem tracks_runAll (inner : Option Round) : ∀ statements : List Statement,
    "forloop".toList ∉ allNames statements →
    Action.Tracks (runAll store statements) (traceAll store inner statements)
  | [], h => by
    intro env
    rw [runAll, traceAll]
    exact .nil
  | statement :: statements, h => by
    rw [allNames, List.mem_append, not_or] at h
    intro env
    rw [runAll, traceAll]
    exact (tracks_run inner statement h.1).append (tracks_runAll inner statements h.2) env
theorem tracks_runArms (inner : Option Round) :
    ∀ arms : List (Option Condition × List Statement), "forloop".toList ∉ armsNames arms →
    Action.Tracks (runArms store arms) (traceArms store inner arms)
  | [], h => by
    intro env
    rw [runArms, traceArms]
    exact .nil
  | (none, body) :: _, h => by
    rw [armsNames, List.mem_append, not_or] at h
    intro env
    rw [runArms, traceArms]
    exact tracks_runAll inner body h.1 env
  | (some condition, body) :: arms, h => by
    rw [armsNames, List.mem_append, not_or] at h
    intro env
    rw [runArms, traceArms]
    refine (Action.tracks_test store condition).bind (fun holds => ?_) env
    split_ifs
    · exact tracks_runAll inner body h.1
    · exact tracks_runArms inner arms h.2
end

end

end Statement

/-- **forloop describes the round that began last.**  Let statements, none of which assigns
`forloop` or iterates with it, run from any variables, and execute a statement with the round `r` of
the innermost loop around it. Then `r` has begun before, and since then only what is within `r` has
happened; and `forloop` is the record of `r` if no round began since, and else the record of the one
that began last, which is a round of a nested loop. -/
theorem forloop_of_executes {store : Store} {statements : List Statement} {env : Env}
    (names : "forloop".toList ∉ Statement.allNames statements)
    {before after : List RunEvent} {statement : Statement} {r : Round} {here : Env}
    (split : Statement.traceAll store none statements env =
      before ++ .executes statement (some r) here :: after) :
    ∃ earlier since v, before = earlier ++ .begins r :: since ∧ Within (some r) since ∧
      here.bindings.get? "forloop" = some v ∧
      (RunEvent.begun since = [] → r.IsRecord v) ∧
      ∀ nested, (RunEvent.begun since).getLast? = some nested → nested.IsRecord v := by
  have within := Statement.within_traceAll store none statements env
  have follows := Statement.tracks_runAll store none statements names env
  rcases within.split split with ⟨same, -⟩ | ⟨earlier, since, rfl, inside⟩
  · cases same
  · rw [split, List.append_assoc, List.cons_append] at follows
    obtain ⟨u, follows⟩ := follows.behind
    cases follows with
    | begins own rest =>
      obtain ⟨v, seen, last⟩ := rest.last own
      rw [List.getLastD_eq_getLast?] at last
      refine ⟨earlier, since, v, rfl, inside, seen, fun none => ?_, fun nested began => ?_⟩
      · rwa [none] at last
      · rwa [began] at last

/-- In a loop of two rounds, the first statement of the first round sees that round's record. -/
theorem forloop_of_executes_first :
    let echo : Statement := .echo (.chain (.dotted "forloop.index" "forloop" "index") [])
    let loop : Statement := .forEach "i" "a" [echo]
    let env : Env := ⟨[("a", .list (.given 0) [.str "x", .str "y"])], 0⟩
    ∃ here after,
      Statement.traceAll {} none [loop] env = [.executes loop none env, .begins ⟨0, 2⟩] ++
        .executes echo (some ⟨0, 2⟩) here :: after ∧
      ∃ v, here.bindings.get? "forloop" = some v ∧ Round.IsRecord ⟨0, 2⟩ v := by
  intro echo loop env
  have runs : ∃ here after, Statement.traceAll {} none [loop] env =
      [.executes loop none env, .begins ⟨0, 2⟩] ++
        .executes echo (some ⟨0, 2⟩) here :: after := ⟨_, _, rfl⟩
  obtain ⟨here, after, split⟩ := runs
  obtain ⟨earlier, since, v, stands, -, seen, own, -⟩ := forloop_of_executes (by decide) split
  have nothing : since = [] := by
    rcases earlier with _ | ⟨_, _ | ⟨_, _⟩⟩ <;> simp_all
  exact ⟨here, after, split, v, seen, own (by rw [nothing]; rfl)⟩

/-- A loop with a nested loop, and a statement after that. -/
def nestedLoops : Program :=
  let array : Identifier := ⟨"a", by decide, List.all_eq_true.1 rfl⟩
  .cons (.forEach ⟨"i", by decide, List.all_eq_true.1 rfl⟩ array
    (.cons (.forEach ⟨"j", by decide, List.all_eq_true.1 rfl⟩ array .nil)
      (.cons (.echo "forloop.index") .nil))) .nil

/-- After a nested loop, `forloop` is the record of the last round of that loop. -/
theorem forloop_after_nested :
    ¬ ∀ (store : Store) (p : Program) (env here : Env) (statement : Statement) (r : Round),
      "forloop".toList ∉ Statement.allNames (Statement.ofLines p.lines) →
      .executes statement (some r) here ∈
        Statement.traceAll store none (Statement.ofLines p.lines) env →
      ∃ v, here.bindings.get? "forloop" = some v ∧ r.IsRecord v := by
  intro claim
  have innermost := claim {} nestedLoops ⟨[("a", .list (.given 0) [.str "x", .str "y"])], 0⟩
  rw [nestedLoops.ofLines_lines] at innermost
  -- the statement after the nested loop, in the first round
  obtain ⟨v, seen, n, own⟩ := innermost _ _ ⟨0, 2⟩ (by decide)
    (List.mem_of_getElem? (show _[5]? = _ from rfl))
  have last : some v = some (.map (.made 2) (Round.fields ⟨1, 2⟩)) := seen.symm.trans rfl
  rw [own] at last
  simp [Round.fields] at last

end ThemeProps
