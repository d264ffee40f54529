/-
  What a run of lines can change.

  * `Line.sets` are the variables that a line sets: that of an assignment, and those
    of the rounds of a loop;
  * `Bindings.Grows`: only some variables have changed, and the new ones among them
    stand behind all others, which are still there in their order;
  * `Action.Sets` says so of an action, and `Statement.SetsOnly` names the variables of
    a statement. `Statement.sets_runAll`: statements change only those;
  * `runLines_frame`: so lines, well nested or not, change only the variables that
    one of them sets.
-/
import ThemeProps.Proofs.Block.Comment
import ThemeProps.Proofs.Block.Forloop
import ThemeProps.Proofs.Block.Lines

namespace ThemeProps

/-- The variables that a line sets, if it is executed. -/
def Line.sets (line : Text) : List Text :=
  if isTag "assign" line then
    match assignment line with
    | some ((name, _), _) => [name]
    | none => []
  else if isTag "for" line then
    match loopHeader line with
    | some ((item, _), _) => [item, "forloop"]
    | none => []
  else []

/-! ## Growing bindings -/

/-- Only variables among the given names have changed. All that were bound before are bound in the
same order, and those that are new stand behind them. -/
structure Bindings.Grows (names : List Text) (b b' : Bindings) : Prop where
  unchanged : ∀ name ∉ names, b'.get? name = b.get? name
  grown : ∃ new, b'.names = b.names ++ new ∧ new.Nodup ∧
    ∀ name ∈ new, name ∈ names ∧ name ∉ b.names

namespace Bindings.Grows

variable {names : List Text} {b b' b'' : Bindings}

theorem refl (names : List Text) (b : Bindings) : Bindings.Grows names b b :=
  ⟨fun _ _ => rfl, [], (List.append_nil _).symm, List.nodup_nil, by simp⟩

theorem trans (h : Bindings.Grows names b b') (h' : Bindings.Grows names b' b'') :
    Bindings.Grows names b b'' := by
  refine ⟨fun name hn => (h'.unchanged name hn).trans (h.unchanged name hn), ?_⟩
  obtain ⟨new, order, distinct, fresh⟩ := h.grown
  obtain ⟨more, order', distinct', fresh'⟩ := h'.grown
  have behind {name : Text} (hn : name ∈ more) : name ∉ b.names ∧ name ∉ new := by
    have unknown := (fresh' name hn).2
    rwa [order, List.mem_append, not_or] at unknown
  refine ⟨new ++ more, by rw [order', order, List.append_assoc], ?_, ?_⟩
  · refine List.nodup_append.2 ⟨distinct, distinct', fun name hn other ho same => ?_⟩
    exact (behind ho).2 (same ▸ hn)
  · intro name hn
    rcases List.mem_append.1 hn with hn | hn
    · exact fresh name hn
    · exact ⟨(fresh' name hn).1, (behind hn).1⟩

/-- One variable is set. -/
theorem set {name : Text} (h : name ∈ names) (b : Bindings) (v : Value) :
    Bindings.Grows names b (b.set name v) := by
  refine ⟨fun other ho => Fields.get?_set_of_ne (ne_of_mem_of_not_mem h ho).symm v b, ?_⟩
  rw [Bindings.names_set]
  split_ifs with known
  · exact (refl names b).grown
  · exact ⟨[name], rfl, by simp, by simpa using ⟨h, known⟩⟩

theorem bind {name : Text} (h : name ∈ names) (env : Env) (v : Value) :
    Bindings.Grows names env.bindings (env.bind name v).bindings := by
  unfold Env.bind
  split <;> exact set h _ _

end Bindings.Grows

/-! ## Actions -/

namespace Action

variable {α β : Type} {names : List Text} {x : Action α} {store : Store}

/-- The action sets only variables among the given names, whether it goes well or not. -/
def Sets (names : List Text) (x : Action α) : Prop :=
  ∀ env, Bindings.Grows names env.bindings (x env).2.bindings

@[simp] theorem sets_pure (a : α) : Sets names (pure a) := fun env => .refl names env.bindings

theorem Sets.bind {f : α → Action β} (hx : Sets names x) (hf : ∀ a, Sets names (f a)) :
    Sets names (x >>= f) := by
  intro env
  have first := hx env
  rw [bind_apply]
  rcases hxe : x env with ⟨e | a, env'⟩
  · rw [hxe] at first
    exact first
  · rw [hxe] at first
    exact first.trans (hf a env')

@[simp]
theorem sets_eval (e : Expr) : Sets names (eval store e) := fun env => .refl names env.bindings

@[simp]
theorem sets_test (c : Condition) : Sets names (test store c) := fun env => .refl names env.bindings

theorem sets_bind {name : Text} (h : name ∈ names) (v : Value) : Sets names (bind name v) :=
  fun env => .bind h env v

/-- The rounds of a loop set its variable, the loop record and what the body sets. -/
theorem sets_forItems {body : Action Text} {item : Text} (hbody : Sets names body)
    (hitem : item ∈ names) (hrecord : "forloop".toList ∈ names) (length : Nat) (vs : List Value)
    (position : Nat) : Sets names (forItems item length body position vs) := by
  induction vs generalizing position with
  | nil => exact sets_pure []
  | cons v vs ih =>
    refine (sets_bind hitem v).bind fun _ => (sets_bind hrecord _).bind fun _ => ?_
    exact hbody.bind fun here => (ih (position + 1)).bind fun there => sets_pure (here ++ there)

end Action

/-! ## Statements -/

namespace Statement

/-- The variables that the statement can set are among the given names. -/
inductive SetsOnly (names : List Text) : Statement → Prop
  | assign {name : Text} {e : Expr} (h : name ∈ names) : SetsOnly names (.assign name e)
  | echo {e : Expr} : SetsOnly names (.echo e)
  | forEach {item array : Text} {body : List Statement} (hitem : item ∈ names)
      (hrecord : "forloop".toList ∈ names) (h : ∀ s ∈ body, SetsOnly names s) :
      SetsOnly names (.forEach item array body)
  | choose {arms : List (Option Condition × List Statement)}
      (h : ∀ arm ∈ arms, ∀ s ∈ arm.2, SetsOnly names s) : SetsOnly names (.choose arms)
  | whenNot {condition : Condition} {body : List Statement} (h : ∀ s ∈ body, SetsOnly names s) :
      SetsOnly names (.whenNot condition body)

variable {names : List Text}

/-- The statements that some lines write set what the lines set. -/
theorem setsOnly_ofLines {lines : List Text} (h : ∀ line ∈ lines, Line.sets line ⊆ names) :
    ∀ s ∈ ofLines lines, SetsOnly names s := by
  refine forall_ofLines (Q := (Line.sets · ⊆ names)) ?_ h
  exact {
    assign := fun {line name value rest} hl assigns read => by
      rw [Line.sets, if_pos assigns, read] at hl
      exact .assign (hl List.mem_cons_self)
    echo := fun _ => .echo
    forEach := fun {line item array rest body} hl loops read inside => by
      have notAssign : ¬ Line.isTag "assign" line = true :=
        Bool.eq_false_iff.1 (Line.isTag_eq_false loops (by decide) (by decide) (by decide))
      rw [Line.sets, if_neg notAssign, if_pos loops, read] at hl
      exact .forEach (hl List.mem_cons_self) (hl (List.mem_cons_of_mem _ List.mem_cons_self)) inside
    choose := .choose
    whenNot := .whenNot }

section
variable (store : Store)

mutual
theorem sets_run : ∀ {statement : Statement}, SetsOnly names statement →
    Action.Sets names (run store statement)
  | .assign name e, .assign h => by
    rw [run]
    exact (Action.sets_eval e).bind fun v => (Action.sets_bind h v).bind fun _ =>
      Action.sets_pure []
  | .echo e, .echo => by
    rw [run]
    exact (Action.sets_eval e).bind fun v => Action.sets_pure v.toText
  | .forEach item array body, .forEach hitem hrecord h => by
    intro env
    rw [run, Action.bind_apply, Action.get?]
    rcases env.bindings.get? array with _ | v
    · exact .refl names env.bindings
    · cases v with
      | list id items => exact Action.sets_forItems (sets_runAll h) hitem hrecord _ items 0 env
      | _ => exact .refl names env.bindings
  | .choose arms, .choose h => by
    rw [run]
    exact sets_runArms h
  | .whenNot condition body, .whenNot h => by
    rw [run]
    refine (Action.sets_test condition).bind fun holds => ?_
    split_ifs
    · exact Action.sets_pure []
    · exact sets_runAll h
/-- A run of statements sets only the variables that one of them sets. -/
theorem sets_runAll : ∀ {statements : List Statement}, (∀ s ∈ statements, SetsOnly names s) →
    Action.Sets names (runAll store statements)
  | [], _ => by
    rw [runAll]
    exact Action.sets_pure []
  | statement :: statements, h => by
    rw [List.forall_mem_cons] at h
    rw [runAll]
    exact (sets_run h.1).bind fun here => (sets_runAll h.2).bind fun there =>
      Action.sets_pure (here ++ there)
theorem sets_runArms : ∀ {arms : List (Option Condition × List Statement)},
    (∀ arm ∈ arms, ∀ s ∈ arm.2, SetsOnly names s) → Action.Sets names (runArms store arms)
  | [], _ => by
    rw [runArms]
    exact Action.sets_pure []
  | (none, body) :: _, h => by
    rw [List.forall_mem_cons] at h
    rw [runArms]
    exact sets_runAll h.1
  | (some condition, body) :: arms, h => by
    rw [List.forall_mem_cons] at h
    rw [runArms]
    refine (Action.sets_test condition).bind fun holds => ?_
    split_ifs
    · exact sets_runAll h.1
    · exact sets_runArms h.2
end

end

end Statement

/-- **A run changes only what its lines set.** Whatever the lines are, and from whatever variables
they run: a variable has changed only if a line assigns it or loops with it, or if it is `forloop`
and a line begins a loop. No variable has disappeared, those that were bound are bound in the same
order, and the new ones, each of which a line sets, stand behind them. This holds also of a run that
goes wrong, for the variables that it leaves. -/
theorem runLines_frame (store : Store) (lines : List Text) (env : Env) :
    let after := (runLines store lines env).2.bindings
    (∀ name, after.get? name ≠ env.bindings.get? name → name ∈ lines.flatMap Line.sets) ∧
      ∃ new, after.names = env.bindings.names ++ new ∧ new.Nodup ∧
        ∀ name ∈ new, name ∈ lines.flatMap Line.sets ∧ name ∉ env.bindings.names := by
  have lines_set : ∀ line ∈ lines, Line.sets line ⊆ lines.flatMap Line.sets :=
    fun line hl _ hn => List.mem_flatMap.2 ⟨line, hl, hn⟩
  have grows := Statement.sets_runAll store (Statement.setsOnly_ofLines lines_set) env
  refine ⟨fun name changed => ?_, grows.grown⟩
  by_contra unset
  exact changed (grows.unchanged name unset)

end ThemeProps
