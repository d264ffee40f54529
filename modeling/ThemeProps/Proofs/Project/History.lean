/-
  A project whose files change while it is scanned, cleared and read.

  * `Scan.Of` says what the files of a theme give: their settings, and the
    registry of their templates under these very settings;
  * `Project.rescanInPlace` is a new scan step by step, on a project that keeps
    what is done to it before a failure. `rescanInPlace_eq`: it comes to
    `Project.rescan`, and if it fails, the project is as before;
  * `Event` is what happens to a project and its files, and `Situation.after` is
    how they are after some events;
  * `Published` says which scan a history leaves: that of the last success since
    the project was cleared, for the files as they were then;
  * `published_after`: this is the scan that a project has after any history.
-/
import ThemeProps.Project
import Mathlib.Data.List.Basic
import Mathlib.Data.List.Induction
import Mathlib.Tactic.Common

namespace ThemeProps

/-! ## What the files give -/

/-- The scan is what some files give: the settings are those of the files, and the registry is that
of the template files under these settings. -/
structure Scan.Of (scan : Scan) (root : Path) (config : Config) (files : Node) : Prop where
  store : ∃ problems, Store.load files root = .ok (scan.store, problems)
  registry : ∃ paths, discover files root config.included config.excluded = .ok paths ∧
    scanSources scan.store config.onlyRoot (Project.readSources files paths).1 = .ok scan.registry

namespace Project

variable {p p' : Project} {files : Node} {ms : List Message} {e : ScanError} {scan : Scan}

theorem rescan_eq (p : Project) (files : Node) :
    p.rescan files = match Store.load files p.root with
      | .error e => .error (.settings e)
      | .ok (store, problems) =>
        match discover files p.root p.config.included p.config.excluded with
        | .error e => .error (.glob e)
        | .ok paths =>
          match scanSources store p.config.onlyRoot (readSources files paths).1 with
          | .error e => .error (.evaluation e)
          | .ok registry =>
            .ok ({ p with scan := ⟨registry, store⟩ },
              problems ++ (readSources files paths).2) := by
  unfold rescan scanFiles sourceFiles
  cases Store.load files p.root with
  | error e => rfl
  | ok loaded =>
    cases discover files p.root p.config.included p.config.excluded with
    | error e => rfl
    | ok paths =>
      simp only [Except.mapError, bind, Except.bind]
      cases scanSources loaded.1 p.config.onlyRoot (readSources files paths).1 <;> rfl

/-- A scan that succeeds puts what the files give in place. -/
theorem of_rescan (h : p.rescan files = .ok (p', ms)) :
    p' = { p with scan := p'.scan } ∧ p'.scan.Of p.root p.config files := by
  rw [rescan_eq] at h
  split at h
  · cases h
  · next store problems hl =>
    split at h
    · cases h
    · next paths hd =>
      split at h
      · cases h
      · next registry hs =>
        obtain ⟨rfl, -⟩ := Prod.mk.inj (Except.ok.inj h)
        exact ⟨rfl, ⟨problems, hl⟩, paths, hd, hs⟩

/-- A scan fails only if the files give nothing. -/
theorem not_of_rescan (h : p.rescan files = .error e) : ¬ scan.Of p.root p.config files := by
  rintro ⟨⟨problems, hl⟩, paths, hd, hs⟩
  rw [rescan_eq, hl, hd] at h
  simp only [hs] at h
  cases h

/-- What a scan gives does not depend on the scan before it. -/
theorem rescan_congr (hroot : p.root = p'.root) (hconfig : p.config = p'.config) :
    p.rescan files = p'.rescan files := by
  obtain ⟨root, config, scan⟩ := p
  obtain ⟨root', config', scan'⟩ := p'
  obtain rfl : root = root' := hroot
  obtain rfl : config = config' := hconfig
  rw [rescan_eq, rescan_eq]

/-! ## Scans in place -/

/-- An action on a project, which may fail. What it has done to the project by then stays done. -/
abbrev Update := ExceptT ScanError (StateM Project)

/-- The value of a computation that may fail. -/
def Update.of {α : Type} (x : Except ScanError α) : Update α := fun p => (x, p)

/-- The steps of a new scan. Its result is put in place as the last one. -/
def rescanInPlace (files : Node) : Update (List Message) := do
  let p ← get
  let (store, problems) ← Update.of ((Store.load files p.root).mapError .settings)
  let paths ← Update.of ((p.sourceFiles files).mapError .glob)
  let (sources, more) := readSources files paths
  let registry ← Update.of ((scanSources store p.config.onlyRoot sources).mapError .evaluation)
  set { p with scan := ⟨registry, store⟩ }
  return problems ++ more

theorem Update.of_bind {α β : Type} (x : Except ScanError α) (f : α → Update β) (p : Project) :
    (Update.of x >>= f) p = match x with
      | .error e => (.error e, p)
      | .ok a => f a p := by
  cases x <;> rfl

/-- A new scan in place comes to `rescan`, and if it fails, the project is as it was. -/
theorem rescanInPlace_eq (files : Node) (p : Project) :
    rescanInPlace files p = match p.rescan files with
      | .error e => (.error e, p)
      | .ok (p', ms) => (.ok ms, p') := by
  have steps : rescanInPlace files p =
      (Update.of ((Store.load files p.root).mapError .settings) >>= fun loaded =>
        Update.of ((p.sourceFiles files).mapError .glob) >>= fun paths =>
        Update.of ((scanSources loaded.1 p.config.onlyRoot
            (readSources files paths).1).mapError .evaluation) >>= fun registry => do
          set { p with scan := ⟨registry, loaded.1⟩ }
          return loaded.2 ++ (readSources files paths).2) p := rfl
  rw [steps, Update.of_bind, rescan_eq, sourceFiles]
  cases Store.load files p.root with
  | error e => rfl
  | ok loaded =>
    simp only [Except.mapError, Update.of_bind]
    cases discover files p.root p.config.included p.config.excluded with
    | error e => rfl
    | ok paths =>
      dsimp only
      cases scanSources loaded.1 p.config.onlyRoot (readSources files paths).1 <;> rfl

end Project

/-! ## Histories -/

/-- What happens to a project and its files. -/
inductive Event where
  /-- The files become these. -/
  | edit (files : Node)
  | rescan
  | clear
  /-- The project is asked for its registry, its settings, a property or its template files. -/
  | read

/-- The files of a theme, and the project over them. -/
structure Situation where
  files : Node
  project : Project

namespace Situation

/-- A new project over some files. -/
def start (root : Path) (config : Config) (files : Node) : Situation := ⟨files, { root, config }⟩

/-- The situation after an event. -/
def step (now : Situation) : Event → Situation
  | .edit files => { now with files }
  | .rescan => { now with project := (Project.rescanInPlace now.files now.project).2 }
  | .clear => { now with project := now.project.clear }
  | .read => now

/-- The situation after some events. -/
def after (now : Situation) (events : List Event) : Situation := events.foldl step now

/-- The scan is what the files give in a situation. -/
def Gives (now : Situation) (scan : Scan) : Prop :=
  scan.Of now.project.root now.project.config now.files

variable {first now : Situation} {events before since : List Event} {event : Event} {scan : Scan}

theorem after_append (now : Situation) (events more : List Event) :
    now.after (events ++ more) = (now.after events).after more := List.foldl_append

theorem step_rescan (now : Situation) :
    now.step .rescan = match now.project.rescan now.files with
      | .error _ => now
      | .ok (p, _) => { now with project := p } := by
  rw [step, Project.rescanInPlace_eq]
  cases now.project.rescan now.files <;> rfl

/-- The root and the configuration of a project stay the same. -/
theorem project_step (now : Situation) (event : Event) :
    (now.step event).project = { now.project with scan := (now.step event).project.scan } := by
  cases event with
  | edit files => rfl
  | clear => rfl
  | read => rfl
  | rescan =>
    rw [step_rescan]
    cases h : now.project.rescan now.files with
    | error e => rfl
    | ok found =>
      obtain ⟨p, ms⟩ := found
      exact (Project.of_rescan h).1

theorem project_after (now : Situation) (events : List Event) :
    (now.after events).project = { now.project with scan := (now.after events).project.scan } := by
  induction events using List.reverseRecOn with
  | nil => rfl
  | append_singleton events event ih =>
    rw [after_append]
    change ((now.after events).step event).project = _
    rw [project_step, ih]
    rfl

/-! ## What is published -/

/-- After the events `before`, the events `since` do not change what is published: the project is
not cleared, and whenever it is scanned anew, the files give nothing. -/
structure Unchanged (first : Situation) (before since : List Event) : Prop where
  notCleared : .clear ∉ since
  notScanned : ∀ between rest, since = between ++ .rescan :: rest →
    ∀ scan, ¬ (first.after (before ++ between)).Gives scan

/-- The scan that a history leaves. -/
inductive Published (first : Situation) : List Event → Scan → Prop where
  /-- No scan has succeeded yet. -/
  | never {events : List Event} (h : Unchanged first [] events) : Published first events {}
  /-- No scan has succeeded since the project was cleared. -/
  | cleared {before since : List Event} (h : Unchanged first (before ++ [.clear]) since) :
    Published first (before ++ .clear :: since) {}
  /-- The last scan that succeeded gave what the files were then. -/
  | scanned {before since : List Event} {scan : Scan} (gives : (first.after before).Gives scan)
    (h : Unchanged first (before ++ [.rescan]) since) :
    Published first (before ++ .rescan :: since) scan

theorem unchanged_nil : Unchanged first before [] :=
  ⟨List.not_mem_nil, fun between rest h => by simp at h⟩

/-- One more event that does not change what is published. -/
theorem Unchanged.snoc (h : Unchanged first before since) (hclear : event ≠ .clear)
    (hrescan : event = .rescan → ∀ scan, ¬ (first.after (before ++ since)).Gives scan) :
    Unchanged first before (since ++ [event]) := by
  refine ⟨fun hm => ?_, fun between rest he => ?_⟩
  · rcases List.mem_append.1 hm with hm | hm
    · exact h.notCleared hm
    · exact hclear (List.mem_singleton.1 hm).symm
  · rcases List.eq_nil_or_concat rest with rfl | ⟨rest, last, rfl⟩
    · obtain ⟨rfl, last⟩ := List.append_inj' he rfl
      exact hrescan (List.singleton_inj.1 last)
    · rw [List.concat_eq_append, ← List.cons_append, ← List.append_assoc] at he
      exact h.notScanned between rest (List.append_inj' he rfl).1

theorem Published.snoc (h : Published first events scan) (hclear : event ≠ .clear)
    (hrescan : event = .rescan → ∀ scan, ¬ (first.after events).Gives scan) :
    Published first (events ++ [event]) scan := by
  cases h with
  | never h => exact .never (h.snoc hclear hrescan)
  | cleared h =>
    rw [List.append_assoc]
    exact .cleared (h.snoc hclear (by simpa using hrescan))
  | scanned gives h =>
    rw [List.append_assoc]
    exact .scanned gives (h.snoc hclear (by simpa using hrescan))

/-- What is published after one more event is what the longer history leaves. -/
theorem Published.step (h : Published first events (first.after events).project.scan)
    (event : Event) :
    Published first (events ++ [event]) ((first.after events).step event).project.scan := by
  cases event with
  | edit files => exact h.snoc nofun nofun
  | read => exact h.snoc nofun nofun
  | clear => exact .cleared unchanged_nil
  | rescan =>
    rw [step_rescan]
    cases hr : (first.after events).project.rescan (first.after events).files with
    | error e => exact h.snoc nofun fun _ _ => Project.not_of_rescan hr
    | ok found =>
      obtain ⟨p, ms⟩ := found
      exact .scanned (Project.of_rescan hr).2 unchanged_nil

/-- What is published after any history. -/
theorem published_scan (root : Path) (config : Config) (files : Node) (events : List Event) :
    Published (start root config files) events
      ((start root config files).after events).project.scan := by
  induction events using List.reverseRecOn with
  | nil => exact .never unchanged_nil
  | append_singleton events event ih =>
    rw [after_append]
    exact ih.step event

end Situation

open Situation in
/-- **What a project publishes is one whole scan.** After any history of edits, scans, clearing and
reading it is the result of the last scan that succeeded since the project was cleared, for the
files as they were then, or nothing if there is none. A scan that fails leaves the project as it
was, and what a scan gives, or why it fails, depends on the configuration and the files alone: it is
the same for a new project. -/
theorem published_after (root : Path) (config : Config) (files : Node) (events : List Event) :
    let first := start root config files
    let now := first.after events
    Published first events now.project.scan ∧
    (∀ e p, Project.rescanInPlace now.files now.project = (.error e, p) → p = now.project) ∧
    now.project.rescan now.files = (start root config now.files).project.rescan now.files := by
  intro first now
  have unchanged : now.project = { first.project with scan := now.project.scan } :=
    project_after first events
  refine ⟨published_scan root config files events, fun e p h => ?_, Project.rescan_congr ?_ ?_⟩
  · rw [Project.rescanInPlace_eq] at h
    split at h
    · exact (Prod.mk.inj h).2.symm
    · cases (Prod.mk.inj h).1
  all_goals
    rw [unchanged]
    rfl

end ThemeProps
