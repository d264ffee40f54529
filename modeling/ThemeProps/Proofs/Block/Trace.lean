/-
  What a run of statements does, event by event.

  * A `Round` of a loop has its position among the rounds. A `RunEvent` is the
    beginning of a round, or the execution of a statement with the round of the
    innermost loop around it and the variables that it starts with;
  * `Statement.traceAll` are the events of a run in their order. What follows a
    statement starts with the variables that it leaves, and nothing follows an error;
  * `Within`: events nest as their loops do, and `Statement.within_traceAll`: so do
    the events of every run. `Within.split`: a statement of a round comes after the
    beginning of the round, and between the two are only events within the round;
  * `Statement.echoes_traceAll`: what a run echoes is what the events of its trace echo.
-/
import ThemeProps.Proofs.Failure.Block

namespace ThemeProps

/-! ## Events -/

/-- A round of a loop: its position, counted from 0, and how many rounds the loop has. -/
structure Round where
  position : Nat
  length : Nat
deriving DecidableEq

/-- What happens in a run. -/
inductive RunEvent where
  /-- A round begins: its variables are bound. -/
  | begins (r : Round)
  /-- A statement is executed, in the given round of the innermost loop around it. -/
  | executes (statement : Statement) (inner : Option Round) (env : Env)

namespace RunEvent

/-- The rounds that begin in some events. -/
def begun (events : List RunEvent) : List Round :=
  events.filterMap fun
    | begins r => some r
    | executes _ _ _ => none

/-- What a statement echoes by itself. -/
def echoed (store : Store) : RunEvent → Text
  | executes (.echo e) _ env =>
    match e.eval store env.bindings >>= Value.toText with
    | .ok t => t
    | .error _ => []
  | _ => []

end RunEvent

/-! ## Traces -/

namespace Action

/-- The events that follow an action, which depend on its value and on the variables that it
leaves. -/
def next {α : Type} (x : Action α) (es : α → Env → List RunEvent) (env : Env) : List RunEvent :=
  match x env with
  | (.ok a, env) => es a env
  | (.error _, _) => []

/-- The events of the rounds of a loop, given those inside a round. -/
def traceRounds (item : Text) (length : Nat) (body : Action Text)
    (inside : Round → Env → List RunEvent) (position : Nat) : List Value → Env → List RunEvent
  | [], _ => []
  | v :: vs, env =>
    let start := (env.bind item v).bind "forloop" (loopRecord position length)
    .begins ⟨position, length⟩ :: (inside ⟨position, length⟩ start ++
      next body (fun _ => traceRounds item length body inside (position + 1) vs) start)

end Action

namespace Statement

mutual
/-- The events of a statement in a round, started with the given variables. -/
def trace (store : Store) (inner : Option Round) : Statement → Env → List RunEvent
  | assign name e, env => [.executes (assign name e) inner env]
  | echo e, env => [.executes (echo e) inner env]
  | forEach item array body, env => .executes (forEach item array body) inner env ::
    match env.bindings.get? array with
    | some (.list _ items) =>
      Action.traceRounds item items.length (runAll store body)
        (fun r => traceAll store (some r) body) 0 items env
    | _ => []
  | choose arms, env => .executes (choose arms) inner env :: traceArms store inner arms env
  | whenNot condition body, env => .executes (whenNot condition body) inner env ::
      Action.next (Action.test store condition)
        (fun holds => if holds then fun _ => [] else traceAll store inner body) env
/-- The events of some statements, each started with the variables that those before it leave. -/
def traceAll (store : Store) (inner : Option Round) : List Statement → Env → List RunEvent
  | [], _ => []
  | statement :: statements, env => trace store inner statement env ++
      Action.next (run store statement) (fun _ => traceAll store inner statements) env
/-- The events of the arms of a choice. -/
def traceArms (store : Store) (inner : Option Round) :
    List (Option Condition × List Statement) → Env → List RunEvent
  | [], _ => []
  | (none, body) :: _, env => traceAll store inner body env
  | (some condition, body) :: arms, env =>
      Action.next (Action.test store condition)
        (fun holds => if holds then traceAll store inner body else traceArms store inner arms) env
end

end Statement

/-! ## Nesting -/

/-- The events within a round: statements that are executed in it, and whole rounds of the loops in
it. -/
inductive Within : Option Round → List RunEvent → Prop
  | nil {inner : Option Round} : Within inner []
  | executes {inner : Option Round} {events : List RunEvent} (statement : Statement) (env : Env) :
    Within inner events → Within inner (.executes statement inner env :: events)
  | round {inner : Option Round} {inside events : List RunEvent} (r : Round) :
    Within (some r) inside → Within inner events → Within inner (.begins r :: (inside ++ events))

section
variable {inner : Option Round} {events more : List RunEvent}

theorem Within.append (h : Within inner events) (h' : Within inner more) :
    Within inner (events ++ more) := by
  induction h with
  | nil => exact h'
  | executes statement env _ ih => exact .executes statement env (ih h')
  | round r inside _ _ ih =>
    rw [List.cons_append, List.append_assoc]
    exact .round r inside (ih h')

/-- Where an entry of two lists stands. -/
theorem exists_of_append {α : Type} {xs ys before after : List α} {a : α}
    (h : xs ++ ys = before ++ a :: after) :
    (∃ middle, before = xs ++ middle ∧ ys = middle ++ a :: after) ∨
      ∃ later, xs = before ++ a :: later := by
  rcases List.append_eq_append_iff.1 h with ⟨middle, hb, hy⟩ | ⟨later, hx, hl⟩
  · exact .inl ⟨middle, hb, hy⟩
  · cases later with
    | nil => exact .inl ⟨[], by rw [hx, List.append_nil, List.append_nil], hl.symm⟩
    | cons b later =>
      injection hl with same _
      exact .inr ⟨later, same ▸ hx⟩

/-- A statement of a round comes after the beginning of the round, with only events within the round
in between. -/
theorem Within.split {before after : List RunEvent} {statement : Statement} {r : Round} {env : Env}
    (h : Within inner events)
    (split : events = before ++ .executes statement (some r) env :: after) :
    (inner = some r ∧ Within inner before) ∨
      ∃ earlier since, before = earlier ++ .begins r :: since ∧ Within (some r) since := by
  induction h generalizing before after with
  | nil => exact absurd split (by simp)
  | executes other start rest ih =>
    cases before with
    | nil =>
      injection split with here
      injection here with _ same
      exact .inl ⟨same, .nil⟩
    | cons first before =>
      injection split with here there
      subst here
      rcases ih there with ⟨same, first⟩ | ⟨earlier, since, rfl, hs⟩
      · exact .inl ⟨same, .executes other start first⟩
      · exact .inr ⟨_ :: earlier, since, rfl, hs⟩
  | @round _ inside _ r' within rest ihInside ihRest =>
    cases before with
    | nil => cases split
    | cons first before =>
      injection split with here there
      subst here
      rcases exists_of_append there with ⟨middle, rfl, eq⟩ | ⟨later, eq⟩
      -- the statement stands behind the round that begins here
      · rcases ihRest eq with ⟨same, first⟩ | ⟨earlier, since, rfl, hs⟩
        · exact .inl ⟨same, .round r' within first⟩
        · refine .inr ⟨.begins r' :: (inside ++ earlier), since, ?_, hs⟩
          rw [List.cons_append, List.append_assoc]
      -- or inside it
      · rcases ihInside eq with ⟨same, first⟩ | ⟨earlier, since, rfl, hs⟩
        · cases same
          exact .inr ⟨[], before, rfl, first⟩
        · exact .inr ⟨.begins r' :: earlier, since, rfl, hs⟩

end

section
variable (store : Store)

theorem Action.within_next {α : Type} {inner : Option Round} {es : α → Env → List RunEvent}
    (h : ∀ a env, Within inner (es a env)) (x : Action α) (env : Env) :
    Within inner (next x es env) := by
  rw [next]
  rcases x env with ⟨_ | a, env⟩
  · exact .nil
  · exact h a env

theorem Action.within_traceRounds {inner : Option Round} {inside : Round → Env → List RunEvent}
    (h : ∀ r env, Within (some r) (inside r env)) (item : Text) (length : Nat)
    (body : Action Text) (vs : List Value) (position : Nat) (env : Env) :
    Within inner (traceRounds item length body inside position vs env) := by
  induction vs generalizing position env with
  | nil => exact .nil
  | cons v vs ih =>
    exact .round _ (h _ _) (within_next (fun _ => ih (position + 1)) body _)

namespace Statement

mutual
theorem within_trace (inner : Option Round) : ∀ (statement : Statement) (env : Env),
    Within inner (trace store inner statement env)
  | assign name e, env => .executes _ _ .nil
  | echo e, env => .executes _ _ .nil
  | forEach item array body, env => by
    rw [trace]
    refine .executes _ _ ?_
    rcases env.bindings.get? array with _ | v
    · exact .nil
    · cases v with
      | list id items =>
        exact Action.within_traceRounds (fun r => within_traceAll (some r) body) item _ _ items 0
          env
      | _ => exact .nil
  | choose arms, env => by
    rw [trace]
    exact .executes _ _ (within_traceArms inner arms env)
  | whenNot condition body, env => by
    rw [trace]
    refine .executes _ _ (Action.within_next (fun holds env => ?_) _ env)
    split_ifs
    · exact .nil
    · exact within_traceAll inner body env
/-- The events of a run nest as its loops do. -/
theorem within_traceAll (inner : Option Round) : ∀ (statements : List Statement) (env : Env),
    Within inner (traceAll store inner statements env)
  | [], env => .nil
  | statement :: statements, env => by
    rw [traceAll]
    exact (within_trace inner statement env).append
      (Action.within_next (fun _ => within_traceAll inner statements) _ env)
theorem within_traceArms (inner : Option Round) :
    ∀ (arms : List (Option Condition × List Statement)) (env : Env),
    Within inner (traceArms store inner arms env)
  | [], env => .nil
  | (none, body) :: _, env => by
    rw [traceArms]
    exact within_traceAll inner body env
  | (some condition, body) :: arms, env => by
    rw [traceArms]
    refine Action.within_next (fun holds env => ?_) _ env
    split_ifs
    · exact within_traceAll inner body env
    · exact within_traceArms inner arms env
end

end Statement

end

/-! ## Echoes -/

namespace Action

/-- If the action goes well, its text is what the events echo. -/
def Echoes (store : Store) (x : Action Text) (es : Env → List RunEvent) : Prop :=
  ∀ env t, (x env).1 = .ok t → t = (es env).flatMap (RunEvent.echoed store)

variable {store : Store} {x y : Action Text} {es es' : Env → List RunEvent}

theorem echoes_pure : Echoes store (pure []) fun _ => [] := by
  intro env t h
  exact (Except.ok.inj h).symm

/-- An action after one whose value is no text. -/
theorem echoes_bind {α : Type} {z : Action α} {f : α → Action Text} {es : α → Env → List RunEvent}
    (h : ∀ a, Echoes store (f a) (es a)) : Echoes store (z >>= f) (next z es) := by
  intro env t ht
  rw [bind_apply] at ht
  rw [next]
  rcases hz : z env with ⟨e | a, env'⟩
  · rw [hz] at ht
    cases ht
  · rw [hz] at ht
    exact h a env' t ht

theorem echoes_append (hx : Echoes store x es) (hy : Echoes store y es') :
    Echoes store (do let here ← x; let there ← y; return here ++ there)
      fun env => es env ++ next x (fun _ => es') env := by
  intro env t ht
  rw [bind_apply] at ht
  rw [List.flatMap_append, next]
  rcases hxe : x env with ⟨e | here, env₁⟩
  · rw [hxe] at ht
    cases ht
  · have first := hx env here (by rw [hxe])
    rw [hxe] at ht
    dsimp only at ht
    rw [bind_apply] at ht
    rcases hye : y env₁ with ⟨e | there, env₂⟩
    · rw [hye] at ht
      cases ht
    · have second := hy env₁ there (by rw [hye])
      rw [hye] at ht
      rw [← Except.ok.inj ht, first, second]

theorem echoes_forItems {body : Action Text} {inside : Round → Env → List RunEvent}
    (h : ∀ r, Echoes store body (inside r)) (item : Text) (length : Nat) (vs : List Value)
    (position : Nat) :
    Echoes store (forItems item length body position vs)
      (traceRounds item length body inside position vs) := by
  induction vs generalizing position with
  | nil => exact echoes_pure
  | cons v vs ih =>
    intro env t ht
    exact echoes_append (h ⟨position, length⟩) (ih (position + 1))
      ((env.bind item v).bind "forloop" (loopRecord position length)) t ht

end Action

namespace Statement

section
variable (store : Store)

mutual
theorem echoes_trace (inner : Option Round) : ∀ statement : Statement,
    Action.Echoes store (run store statement) (trace store inner statement)
  | assign name e => by
    intro env t ht
    rw [run, Action.bind_apply, Action.eval] at ht
    rcases he : e.eval store env.bindings with _ | v
    · rw [he] at ht
      cases ht
    · rw [he] at ht
      exact (Except.ok.inj ht).symm
  | echo e => by
    intro env t ht
    have shown : e.eval store env.bindings >>= Value.toText = .ok t := by
      rw [run, Action.bind_apply, Action.eval] at ht
      rcases he : e.eval store env.bindings with _ | v
      · rw [he] at ht
        cases ht
      · rw [he] at ht
        exact ht
    rw [trace, List.flatMap_cons, RunEvent.echoed, shown]
    exact (List.append_nil _).symm
  | forEach item array body => by
    intro env t ht
    rw [run, Action.bind_apply, Action.get?] at ht
    rw [trace]
    rcases ha : env.bindings.get? array with _ | v
    · rw [ha] at ht
      exact (Except.ok.inj ht).symm
    · rw [ha] at ht
      cases v with
      | list id items =>
        exact Action.echoes_forItems (fun r => echoes_traceAll (some r) body) item _ items 0 env t
          ht
      | _ => exact (Except.ok.inj ht).symm
  | choose arms => by
    intro env t ht
    rw [run] at ht
    rw [trace]
    exact echoes_traceArms inner arms env t ht
  | whenNot condition body => by
    intro env t ht
    rw [run] at ht
    rw [trace]
    refine Action.echoes_bind (fun holds => ?_) env t ht
    split_ifs
    · exact Action.echoes_pure
    · exact echoes_traceAll inner body
/-- What a run echoes is what the events of its trace echo. -/
theorem echoes_traceAll (inner : Option Round) : ∀ statements : List Statement,
    Action.Echoes store (runAll store statements) (traceAll store inner statements)
  | [] => by
    intro env t ht
    rw [runAll] at ht
    exact (Except.ok.inj ht).symm
  | statement :: statements => by
    intro env t ht
    rw [runAll] at ht
    rw [traceAll]
    exact Action.echoes_append (echoes_trace inner statement) (echoes_traceAll inner statements)
      env t ht
theorem echoes_traceArms (inner : Option Round) :
    ∀ arms : List (Option Condition × List Statement),
    Action.Echoes store (runArms store arms) (traceArms store inner arms)
  | [] => by
    intro env t ht
    rw [runArms] at ht
    exact (Except.ok.inj ht).symm
  | (none, body) :: _ => by
    intro env t ht
    rw [runArms] at ht
    rw [traceArms]
    exact echoes_traceAll inner body env t ht
  | (some condition, body) :: arms => by
    intro env t ht
    rw [runArms] at ht
    rw [traceArms]
    refine Action.echoes_bind (fun holds => ?_) env t ht
    split_ifs
    · exact echoes_traceAll inner body
    · exact echoes_traceArms inner arms
end

end

end Statement

end ThemeProps
