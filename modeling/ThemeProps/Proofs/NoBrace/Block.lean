/-
  Blocks of statements without opening braces.

  * `Statement.Safe store`: every expression whose value a statement binds or
    echoes is safe; `Statement.safe_ofLines`: so it is in the statements that
    lines without opening braces write, since bodies are made of such lines;
  * `Action.Keeps p x`: started under bindings without opening braces, the action
    leaves such bindings, and its value has the property `p`;
  * `Statement.keeps_run`: safe statements keep the bindings so and echo no
    opening brace, hence `notMem_runBlock` for a block.
-/
import ThemeProps.Proofs.Block.Lines
import ThemeProps.Proofs.Failure.Block
import ThemeProps.Proofs.NoBrace.Expr

namespace ThemeProps

variable {store : Store}

/-! ## Lines -/

namespace Line

theorem subset_of_assignment {line name value r : Text}
    (h : assignment line = some ((name, value), r)) : value ⊆ line := by
  obtain ⟨_, s₁, h₁, read⟩ := Reader.bind_eq_some.1 h
  obtain ⟨_, s₂, h₂, read⟩ := Reader.bind_eq_some.1 read
  obtain ⟨_, s₃, h₃, read⟩ := Reader.bind_eq_some.1 read
  obtain ⟨_, s₄, h₄, read⟩ := Reader.bind_eq_some.1 read
  obtain ⟨_, s₅, h₅, read⟩ := Reader.bind_eq_some.1 read
  obtain ⟨rest, s₆, h₆, read⟩ := Reader.bind_eq_some.1 read
  have behind : s₅ <:+ line :=
    ((Reader.leaves_char _).suffix h₅).trans <| (Reader.leaves_blanks.suffix h₄).trans <|
      ((Reader.leaves_run1 _).suffix h₃).trans <| (Reader.leaves_blanks1.suffix h₂).trans <|
        (Reader.leaves_literal _).suffix h₁
  obtain rfl : s₅ = rest := (Prod.mk.inj (Option.some.inj h₆)).1
  simp only at read
  split_ifs at read
  · cases read
  · have taken : Text.trim s₅ = value :=
      (Prod.mk.inj (Prod.mk.inj (Option.some.inj read)).1).2
    rw [← taken]
    exact List.Subset.trans (Text.isInfix_trim s₅).subset behind.subset

end Line

/-! ## Statements -/

namespace Statement

/-- The expressions whose values the statement binds or echoes are safe. -/
inductive Safe (store : Store) : Statement → Prop
  | assign {name : Text} {e : Expr} (h : e.Safe store) : Safe store (.assign name e)
  | echo {e : Expr} (h : e.Safe store) : Safe store (.echo e)
  | forEach {item array : Text} {body : List Statement} (h : ∀ s ∈ body, Safe store s) :
      Safe store (.forEach item array body)
  | choose {arms : List (Option Condition × List Statement)}
      (h : ∀ arm ∈ arms, ∀ s ∈ arm.2, Safe store s) : Safe store (.choose arms)
  | whenNot {condition : Condition} {body : List Statement} (h : ∀ s ∈ body, Safe store s) :
      Safe store (.whenNot condition body)

/-- Lines without opening braces write safe statements. -/
theorem safe_ofLines (hstore : store.NoBrace) {lines : List Text} (h : ∀ line ∈ lines, '{' ∉ line) :
    ∀ s ∈ ofLines lines, s.Safe store := by
  refine forall_ofLines (Q := ('{' ∉ ·)) ?_ h
  exact {
    assign := fun hl _ read => .assign (Expr.safe_parse hstore fun hm =>
      hl (Line.subset_of_assignment read hm))
    echo := fun hl => .echo (Expr.safe_parse hstore fun hm =>
      hl (List.mem_of_mem_drop ((Text.isInfix_trim _).subset hm)))
    forEach := fun _ _ _ => .forEach
    choose := .choose
    whenNot := .whenNot }

end Statement

/-! ## Actions -/

namespace Action

variable {α β : Type} {p : α → Prop} {q : β → Prop} {x : Action α}

/-- Started under bindings without opening braces, the action leaves such bindings, and its value
has the property. -/
def Keeps (p : α → Prop) (x : Action α) : Prop :=
  ∀ env, Bindings.NoBrace env.bindings → Gives p (x env).1 ∧ Bindings.NoBrace (x env).2.bindings

theorem Keeps.bind {f : α → Action β} (hx : Keeps p x) (hf : ∀ a, p a → Keeps q (f a)) :
    Keeps q (x >>= f) := by
  intro env henv
  obtain ⟨value, bindings⟩ := hx env henv
  rw [bind_apply]
  generalize x env = outcome at value bindings ⊢
  obtain ⟨result, env'⟩ := outcome
  cases result with
  | error e => exact ⟨fun _ h => (nomatch h), bindings⟩
  | ok a => exact hf a (value a rfl) env' bindings

theorem keeps_pure {a : α} (h : p a) : Keeps p (pure a) := fun _ henv => ⟨.ok h, henv⟩

theorem keeps_append {y : Action Text} {x : Action Text} (hx : Keeps ('{' ∉ ·) x)
    (hy : Keeps ('{' ∉ ·) y) : Keeps ('{' ∉ ·) (do return (← x) ++ (← y)) := by
  refine hx.bind fun s hs => hy.bind fun t ht => keeps_pure ?_
  rw [List.mem_append, not_or]
  exact ⟨hs, ht⟩

theorem keeps_eval {e : Expr} (h : e.Safe store) : Keeps Value.NoBrace (eval store e) :=
  fun env henv => ⟨h env.bindings henv, henv⟩

theorem keeps_text {v : Value} (h : v.NoBrace) : Keeps ('{' ∉ ·) (text v) :=
  fun _ henv => ⟨h.gives_toText, henv⟩

theorem keeps_test (c : Condition) : Keeps (fun _ => True) (test store c) :=
  fun _ henv => ⟨.any _, henv⟩

end Action

theorem Bindings.NoBrace.set {b : Bindings} (h : b.NoBrace) (name : Text) {v : Value}
    (hv : v.NoBrace) : Bindings.NoBrace (Fields.set name v b) := by
  induction b with
  | nil => exact List.forall_mem_singleton.2 hv
  | cons binding b ih =>
    rw [NoBrace, List.forall_mem_cons] at h
    rw [Fields.set]
    split_ifs
    · exact List.forall_mem_cons.2 ⟨hv, h.2⟩
    · exact List.forall_mem_cons.2 ⟨h.1, ih h.2⟩

theorem Env.noBrace_bind {env : Env} (h : Bindings.NoBrace env.bindings) (name : Text) {v : Value}
    (hv : v.NoBrace) : Bindings.NoBrace (env.bind name v).bindings := by
  unfold Env.bind
  split
  · exact h.set name (.list hv.items)
  · exact h.set name (Value.noBrace_map.2 (Value.noBrace_map.1 hv))
  · exact h.set name hv

namespace Action

theorem keeps_bind (name : Text) {v : Value} (hv : v.NoBrace) :
    Keeps (fun _ => True) (bind name v) :=
  fun _ henv => ⟨.any _, Env.noBrace_bind henv name hv⟩

theorem noBrace_loopRecord (position length : Nat) : (loopRecord position length).NoBrace := by
  constructor
  · simp only [List.forall_mem_cons, List.not_mem_nil, IsEmpty.forall_iff, implies_true, and_true]
    exact ⟨by decide, by decide, by decide, by decide, by decide⟩
  · simp only [List.forall_mem_cons, List.not_mem_nil, IsEmpty.forall_iff, implies_true, and_true]
    exact ⟨.number _, .number _, .bool _, .bool _, .number _⟩

/-- The rounds of a loop keep the bindings so if its body does. -/
theorem keeps_forItems {body : Action Text} (hbody : Keeps ('{' ∉ ·) body) (item : Text)
    (length position : Nat) {items : List Value} (hitems : ∀ v ∈ items, v.NoBrace) :
    Keeps ('{' ∉ ·) (forItems item length body position items) := by
  induction items generalizing position with
  | nil => exact keeps_pure List.not_mem_nil
  | cons v vs ih =>
    rw [List.forall_mem_cons] at hitems
    refine (keeps_bind item hitems.1).bind fun _ _ => ?_
    refine (keeps_bind "forloop" (noBrace_loopRecord position length)).bind fun _ _ => ?_
    exact keeps_append hbody (ih (position + 1) hitems.2)

end Action

/-! ## Runs -/

namespace Statement

mutual
theorem keeps_run : ∀ {statement : Statement}, statement.Safe store →
    Action.Keeps ('{' ∉ ·) (run store statement)
  | .assign name e, .assign h => by
    rw [run]
    refine (Action.keeps_eval h).bind fun v hv => (Action.keeps_bind name hv).bind fun _ _ => ?_
    exact Action.keeps_pure List.not_mem_nil
  | .echo e, .echo h => by
    rw [run]
    exact (Action.keeps_eval h).bind fun _ hv => Action.keeps_text hv
  | .forEach item array body, .forEach h => by
    rw [run]
    have nothing : Action.Keeps ('{' ∉ ·) (pure []) := Action.keeps_pure List.not_mem_nil
    intro env henv
    rw [Action.bind_apply, Action.get?]
    cases hv : Fields.get? env.bindings array with
    | none => exact nothing env henv
    | some v =>
      cases v with
      | list id items =>
        exact Action.keeps_forItems (keeps_runAll h) item _ 0 (henv.get? hv).items env henv
      | _ => exact nothing env henv
  | .choose arms, .choose h => by
    rw [run]
    exact keeps_runArms h
  | .whenNot condition body, .whenNot h => by
    rw [run]
    refine (Action.keeps_test condition).bind fun holds _ => ?_
    split_ifs
    · exact Action.keeps_pure List.not_mem_nil
    · exact keeps_runAll h
theorem keeps_runAll : ∀ {statements : List Statement}, (∀ s ∈ statements, s.Safe store) →
    Action.Keeps ('{' ∉ ·) (runAll store statements)
  | [], _ => by
    rw [runAll]
    exact Action.keeps_pure List.not_mem_nil
  | statement :: statements, h => by
    rw [List.forall_mem_cons] at h
    rw [runAll]
    exact Action.keeps_append (keeps_run h.1) (keeps_runAll h.2)
theorem keeps_runArms : ∀ {arms : List (Option Condition × List Statement)},
    (∀ arm ∈ arms, ∀ s ∈ arm.2, s.Safe store) → Action.Keeps ('{' ∉ ·) (runArms store arms)
  | [], _ => by
    rw [runArms]
    exact Action.keeps_pure List.not_mem_nil
  | (none, body) :: _, h => by
    rw [List.forall_mem_cons] at h
    rw [runArms]
    exact keeps_runAll h.1
  | (some condition, body) :: arms, h => by
    rw [List.forall_mem_cons] at h
    rw [runArms]
    refine (Action.keeps_test condition).bind fun holds _ => ?_
    split_ifs
    · exact keeps_runAll h.1
    · exact keeps_runArms h.2
end

end Statement

/-- A block without opening braces echoes none. -/
theorem notMem_runBlock (hstore : store.NoBrace) {source : Text} (hs : '{' ∉ source) :
    Gives ('{' ∉ ·) (runBlock store [] source) := by
  have lines : ∀ line ∈ ((Text.lines source).map Text.trim).filter (· ≠ []), '{' ∉ line := by
    intro line hl hm
    obtain ⟨raw, hraw, rfl⟩ := List.mem_map.1 (List.mem_of_mem_filter hl)
    exact hs (Text.subset_of_mem_splitAtChar hraw ((Text.isInfix_trim raw).subset hm))
  have safe := Statement.safe_ofLines hstore lines
  have empty : Bindings.NoBrace [] := fun _ h => absurd h List.not_mem_nil
  exact (Statement.keeps_runAll safe ⟨[], 0⟩ empty).1

end ThemeProps
