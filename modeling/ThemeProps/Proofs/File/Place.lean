/-
  Paths through file trees, and through pruned ones.

  * `Path.location?` is where a path leads, whatever is there: each pair of dots
    takes back the name before it;
  * `Glob.Place.At`: a place is what a tree holds at a location. `at_find?`: what
    is found at a path is what the tree holds at its location, and
    `file_of_passes`: a way that passes a file ends there;
  * `Node.Cut gone`: one tree is the other without the locations that are gone,
    and `Path.Passes gone`: a path leads to such a location or through one;
  * `Agree`: two places are the same in both trees, and the way to them is left.
    `Agree.enter?` is one step from there, `Agree.enterEach?` several ones;
  * `alike_find?` and `find?_of_passes`: at every other path both trees hold the
    same, and where a path passes what is gone, the first one holds nothing.
-/
import ThemeProps.File.Glob
import ThemeProps.Proofs.File.Tree

namespace ThemeProps

/-! ## Locations -/

namespace Path

/-- Where one more component leads. A location is written from the innermost name on; there is
none beyond the outermost directory, and nothing leads back from there. -/
def climb : Option (List Text) → Text → Option (List Text)
  | none, _ => none
  | some up, part => if part = ['.', '.'] then up.tail? else some (part :: up)

/-- Where some components lead from the outermost directory. -/
def location? (parts : List Text) : Option (List Text) := parts.foldl climb (some [])

@[simp, grind =] theorem location?_concat (parts : List Text) (part : Text) :
    location? (parts ++ [part]) = climb (location? parts) part := List.foldl_concat _ _ _ _

section
variable {gone : List Text → Prop} {parts more : List Text} {part : Text}

/-- The components lead to a location that is gone, or through one. -/
def Passes (gone : List Text → Prop) (parts : List Text) : Prop :=
  ∃ q, q <+: parts ∧ ∃ up, location? q = some up ∧ gone up

instance [DecidablePred gone] : Decidable (Passes gone parts) :=
  decidable_of_iff (∃ q ∈ parts.inits, ∃ up ∈ location? q, gone up) <| by
    simp only [List.mem_inits, Option.mem_def, Passes]

theorem Passes.append (h : Passes gone parts) (more : List Text) : Passes gone (parts ++ more) := by
  obtain ⟨q, hq, there⟩ := h
  exact ⟨q, hq.trans (List.prefix_append parts more), there⟩

theorem Passes.of_prefix (h : Passes gone parts) (hp : parts <+: more) : Passes gone more := by
  obtain ⟨behind, rfl⟩ := hp
  exact h.append behind

@[simp, grind =] theorem passes_nil : Passes gone [] ↔ gone [] := by
  constructor
  · rintro ⟨q, hq, up, there, h⟩
    obtain rfl := List.prefix_nil.1 hq
    obtain rfl := Option.some.inj there
    exact h
  · exact fun h => ⟨[], List.prefix_rfl, [], rfl, h⟩

/-- Where nothing is gone, nothing is passed. -/
@[simp] theorem not_passes_false : ¬ Passes (fun _ => False) parts := fun ⟨_, _, _, _, h⟩ => h

@[simp, grind =] theorem passes_concat : Passes gone (parts ++ [part]) ↔
    Passes gone parts ∨ ∃ up, climb (location? parts) part = some up ∧ gone up := by
  constructor
  · rintro ⟨q, hq, there⟩
    rcases List.prefix_concat_iff.1 hq with rfl | hq
    · rw [location?_concat] at there
      exact .inr there
    · exact .inl ⟨q, hq, there⟩
  · rintro (h | there)
    · exact h.append [part]
    · rw [← location?_concat] at there
      exact ⟨parts ++ [part], List.prefix_rfl, there⟩

end

end Path

/-! ## Places at locations -/

/-- The node at a location, and the directories around it from the innermost on. -/
def Node.at? (tree : Node) : List Text → Option (List Node × Node)
  | [] => some ([], tree)
  | name :: up => (tree.at? up).bind fun (ancestors, node) =>
    (node.children.lookup name).map fun child => (node :: ancestors, child)

theorem Node.map_at? (tree : Node) (up : List Text) :
    (tree.at? up).map (·.2) = tree.below? up.reverse := by
  induction up with
  | nil => rfl
  | cons name up ih =>
    rw [List.reverse_cons, below?_append, ← ih, at?]
    cases tree.at? up with
    | none => rfl
    | some found =>
      obtain ⟨ancestors, node⟩ := found
      cases h : node.children.lookup name <;> simp [below?, h]

namespace Glob.Place

variable {tree : Node} {loc : Option (List Text)} {place next : Place} {name : Text}

/-- The place of the outermost directory. -/
def top (tree : Node) : Place := ⟨[], [], tree⟩

/-- The place is what the tree holds at a location. Beyond the outermost directory everything is
empty. -/
def At (tree : Node) : Option (List Text) → Place → Prop
  | none, place => place.ancestors = [] ∧ place.node = .empty
  | some up, place => tree.at? up = some (place.ancestors, place.node)

theorem At.below? {up : List Text} (h : At tree (some up) place) :
    tree.below? up.reverse = some place.node := by
  rw [← Node.map_at?, show tree.at? up = _ from h]
  rfl

/-- Which names have led to a place does not count. -/
theorem At.withParts (h : At tree loc place) (parts : List Text) :
    At tree loc { place with parts := parts } := by
  cases loc <;> exact h

theorem At.sound (ht : tree.Sound) (h : At tree loc place) : place.node.Sound := by
  cases loc with
  | none =>
    rw [h.2]
    exact Node.sound_empty
  | some up => exact ht.below? h.below?

theorem enter?_parts (h : place.enter? name = some next) : next.parts = place.parts ++ [name] := by
  rw [enter?] at h
  split_ifs at h
  · split at h <;> exact (Option.some.inj h) ▸ rfl
  · obtain ⟨child, -, rfl⟩ := Option.map_eq_some_iff.1 h
    rfl

/-- One step leads to what the tree holds there. -/
theorem At.enter? (h : At tree loc place) (he : place.enter? name = some next) :
    At tree (Path.climb loc name) next := by
  obtain ⟨parts, ancestors, node⟩ := place
  rw [Place.enter?] at he
  cases loc with
  | none =>
    obtain ⟨rfl, rfl⟩ : ancestors = [] ∧ node = .empty := h
    split_ifs at he
    · obtain rfl := Option.some.inj he
      exact ⟨rfl, rfl⟩
    · cases he
  | some up =>
    have there : tree.at? up = some (ancestors, node) := h
    rw [Path.climb]
    split_ifs at he ⊢
    · cases up with
      | nil =>
        obtain ⟨rfl, rfl⟩ : [] = ancestors ∧ tree = node := by simpa [Node.at?] using there
        obtain rfl := Option.some.inj he
        exact ⟨rfl, rfl⟩
      | cons inner up =>
        obtain ⟨⟨above, parent⟩, around, there⟩ := Option.bind_eq_some_iff.1 there
        obtain ⟨child, -, same⟩ := Option.map_eq_some_iff.1 there
        obtain ⟨rfl, rfl⟩ : parent :: above = ancestors ∧ child = node := by simpa using same
        obtain rfl := Option.some.inj he
        exact around
    · obtain ⟨child, found, rfl⟩ := Option.map_eq_some_iff.1 he
      have inside : node.children.lookup name = some child := found
      show (tree.at? up).bind _ = _
      simp only [there, Option.bind_some, inside, Option.map_some]

@[simp, grind =] theorem enterEach?_cons {names : List Text} :
    place.enterEach? (name :: names) =
      if place.node.isDirectory then (place.enter? name).bind (enterEach? · names) else none := rfl

theorem enterEach?_parts {names : List Text} (h : place.enterEach? names = some next) :
    next.parts = place.parts ++ names := by
  induction names generalizing place with
  | nil =>
    obtain rfl := Option.some.inj h
    exact (List.append_nil _).symm
  | cons name names ih =>
    rw [enterEach?_cons] at h
    split_ifs at h
    obtain ⟨between, first, rest⟩ := Option.bind_eq_some_iff.1 h
    rw [ih rest, enter?_parts first, List.append_assoc]
    rfl

theorem At.enterEach? {names : List Text} (h : At tree loc place)
    (he : place.enterEach? names = some next) : At tree (names.foldl Path.climb loc) next := by
  induction names generalizing place loc with
  | nil =>
    obtain rfl := Option.some.inj he
    exact h
  | cons name names ih =>
    rw [enterEach?_cons] at he
    split_ifs at he
    obtain ⟨between, first, rest⟩ := Option.bind_eq_some_iff.1 he
    exact ih (h.enter? first) rest

/-- Names lead on from directories alone. -/
@[simp, grind =] theorem enterEach?_append (place : Place) (names more : List Text) :
    place.enterEach? (names ++ more) =
      (place.enterEach? names).bind (Place.enterEach? · more) := by
  induction names generalizing place with
  | nil => rfl
  | cons name names ih =>
    rw [List.cons_append, enterEach?_cons, enterEach?_cons]
    split_ifs
    · rw [Option.bind_assoc]
      exact Option.bind_congr fun between _ => ih between
    · rfl

theorem walk_eq (place : Place) (names : List Text) :
    Node.walk place.ancestors place.node names = (place.enterEach? names).map (·.node) := by
  induction names generalizing place with
  | nil => rfl
  | cons name names ih =>
    obtain ⟨parts, ancestors, node⟩ := place
    rw [Node.walk.eq_def, enterEach?_cons, Place.enter?]
    cases node with
    | file bytes =>
      dsimp only [Node.children, List.lookup_nil]
      rw [show (Node.file bytes).isDirectory = false from rfl, if_neg Bool.false_ne_true, ite_self]
      rfl
    | directory children =>
      dsimp only [Node.children]
      rw [show (Node.directory children).isDirectory = true from rfl, if_pos rfl]
      split_ifs
      · cases ancestors with
        | nil => exact ih ⟨parts ++ [name], [], .empty⟩
        | cons parent ancestors => exact ih ⟨parts ++ [name], ancestors, parent⟩
      · cases children.lookup name with
        | none => rfl
        | some child => exact ih ⟨parts ++ [name], .directory children :: ancestors, child⟩

/-- A way that passes a file ends there. -/
theorem file_of_passes {names parts : List Text} {bytes : Bytes}
    (there : tree.below? names = some (.file bytes))
    (h : (top tree).enterEach? parts = some place)
    (passes : Path.Passes (names.reverse <:+ ·) parts) : place.node = .file bytes := by
  obtain ⟨q, ⟨rest, rfl⟩, up, hup, behind, rfl⟩ := passes
  rw [enterEach?_append] at h
  obtain ⟨between, first, h⟩ := Option.bind_eq_some_iff.1 h
  have start : At tree (some []) (top tree) := rfl
  have here : At tree (Path.location? q) between := start.enterEach? first
  rw [hup] at here
  have held := here.below?
  rw [List.reverse_append, List.reverse_reverse, Node.below?_append, there,
    Option.bind_some] at held
  obtain ⟨-, isFile⟩ := Node.below?_file held
  cases rest with
  | nil =>
    obtain rfl := Option.some.inj h
    exact isFile
  | cons name rest =>
    rw [enterEach?_cons, isFile] at h
    cases h

end Glob.Place

namespace Node

open Glob (Place)

variable {tree node : Node} {path : Path}

theorem find?_eq (h : path.root = []) :
    tree.find? path = ((Place.top tree).enterEach? path.parts).map (·.node) := by
  rw [find?, if_pos h]
  exact Place.walk_eq (Place.top tree) path.parts

theorem root_of_find? (h : tree.find? path = some node) : path.root = [] := by
  rw [find?] at h
  split_ifs at h with hr
  exact hr

/-- What is found at a path is what the tree holds at its location. -/
theorem at_find? (h : tree.find? path = some node) :
    ∃ ancestors, Place.At tree (Path.location? path.parts) ⟨path.parts, ancestors, node⟩ := by
  rw [find?_eq (root_of_find? h)] at h
  obtain ⟨⟨parts, ancestors, found⟩, he, rfl⟩ := Option.map_eq_some_iff.1 h
  obtain rfl : parts = [] ++ path.parts := Place.enterEach?_parts he
  have start : Place.At tree (some []) (Place.top tree) := rfl
  exact ⟨ancestors, start.enterEach? he⟩

/-- What is found at a path to a place is what the tree holds there. -/
theorem eq_of_find? {names : List Text} {x : Node} (there : tree.below? names = some x)
    (loc : Path.location? path.parts = some names.reverse) (h : tree.find? path = some node) :
    node = x := by
  obtain ⟨ancestors, here⟩ := at_find? h
  rw [loc] at here
  have held := here.below?
  rw [List.reverse_reverse, there] at held
  exact (Option.some.inj held).symm

/-! ## Pruned trees -/

variable {gone : List Text → Prop} [DecidablePred gone] {tree' : Node}

/-- The tree `tree'` is `tree` without the locations that are gone: everywhere else they look the
same, up to the names of what is gone. -/
structure Cut (gone : List Text → Prop) [DecidablePred gone] (tree' tree : Node) : Prop where
  sound' : tree'.Sound
  sound : tree.Sound
  top : ¬ gone []
  below : ∀ name up, gone up → gone (name :: up)
  alike : ∀ up, ¬ gone up → Alike (fun name => decide (¬ gone (name :: up)))
    (tree'.below? up.reverse) (tree.below? up.reverse)

/-- Nothing is gone. -/
theorem cut_self (h : tree.Sound) : Cut (fun _ => False) tree tree :=
  ⟨h, h, id, fun _ _ => id, fun _ _ => alike_self (fun _ => decide_eq_true id) _⟩

/-- The tree without a node is pruned at the location of that node. -/
theorem cut_removeAt {names : List Text} (h : tree.Sound) (hn : names ≠ [])
    (there : (tree.below? names).isSome = true) :
    Cut (names.reverse <:+ ·) (removeAt names tree) tree where
  sound' := Sound.removeAt there h
  sound := h
  top := fun top => hn (List.reverse_eq_nil_iff.1 (List.suffix_nil.1 top))
  below := fun name up behind => behind.trans (List.suffix_cons name up)
  alike := fun up hup => by
    have front (l : List Text) : names.reverse <:+ l ↔ names <+: l.reverse := by
      rw [← List.reverse_prefix, List.reverse_reverse]
    have look := alike_removeAt hn there fun hp => hup ((front up).2 hp)
    simpa only [front, List.reverse_cons] using look

end Node

/-! ## Places in both trees -/

namespace Glob.Place

variable {gone : List Text → Prop} [DecidablePred gone] {tree' tree : Node} {base names : List Text}
  {a b a' b' : Place} {name : Text}

/-- The places are the same in both trees, with the same names from the base on, and the way to
them is left. -/
structure Agree (gone : List Text → Prop) (tree' tree : Node) (base : List Text) (a b : Place) :
    Prop where
  parts : a.parts = b.parts
  left : ¬ Path.Passes gone (base ++ b.parts)
  at' : At tree' (Path.location? (base ++ b.parts)) a
  at_ : At tree (Path.location? (base ++ b.parts)) b

theorem agree_top (cut : Node.Cut gone tree' tree) :
    Agree gone tree' tree [] (top tree') (top tree) :=
  ⟨rfl, fun h => cut.top (Path.passes_nil.1 h), rfl, rfl⟩

/-- The places look the same, up to the names that lead to what is gone. -/
theorem Agree.alike (h : Agree gone tree' tree base a b) (cut : Node.Cut gone tree' tree) :
    Node.Alike (fun name => decide (¬ Path.Passes gone (base ++ b.parts ++ [name])))
      (some a.node) (some b.node) := by
  have ha := h.at'
  have hb := h.at_
  cases loc : Path.location? (base ++ b.parts) with
  | none =>
    rw [loc] at ha hb
    rw [ha.2, hb.2]
    exact .directory rfl
  | some up =>
    rw [loc] at ha hb
    have here : ¬ gone up := fun hg => h.left ⟨_, List.prefix_rfl, up, loc, hg⟩
    have look := cut.alike up here
    rw [ha.below?, hb.below?] at look
    refine look.congr fun name hm => decide_eq_decide.2 (not_congr ?_)
    have plain : name ≠ ['.', '.'] := fun he => (hb.sound cut.sound).noDots (he ▸ hm)
    rw [Path.passes_concat, loc, Path.climb, if_neg plain, or_iff_right h.left]
    simp

omit [DecidablePred gone] in
/-- From places that are the same, a name that does not lead to what is gone leads to places that
are the same. -/
theorem Agree.next (h : Agree gone tree' tree base a b) (ha : a.enter? name = some a')
    (hb : b.enter? name = some b') (left : ¬ Path.Passes gone (base ++ b.parts ++ [name])) :
    Agree gone tree' tree base a' b' := by
  have parts := enter?_parts hb
  refine ⟨by rw [enter?_parts ha, parts, h.parts], ?_, ?_, ?_⟩
  all_goals rw [parts, ← List.append_assoc]
  · exact left
  · rw [Path.location?_concat]
    exact h.at'.enter? ha
  · rw [Path.location?_concat]
    exact h.at_.enter? hb

theorem exists_enter?_dots (place : Place) : ∃ next, place.enter? ['.', '.'] = some next := by
  rw [Place.enter?, if_pos rfl]
  cases place.ancestors with
  | nil => exact ⟨_, rfl⟩
  | cons parent ancestors => exact ⟨_, rfl⟩

theorem enter?_eq_none {place : Place} (h : name ≠ ['.', '.']) :
    place.enter? name = none ↔ name ∉ Node.namesOf place.node.children := by
  rw [Place.enter?, if_neg h, Option.map_eq_none_iff, Node.lookup_eq_none]

/-- One step from places that are the same: it leads to such places, or nowhere in the pruned tree;
then it leads nowhere in the whole tree either, or to what is gone. -/
theorem Agree.enter? (h : Agree gone tree' tree base a b) (cut : Node.Cut gone tree' tree)
    (name : Text) :
    (∃ a' b', a.enter? name = some a' ∧ b.enter? name = some b' ∧
      Agree gone tree' tree base a' b') ∨
    (a.enter? name = none ∧
      (b.enter? name = none ∨ Path.Passes gone (base ++ b.parts ++ [name]))) := by
  by_cases dots : name = ['.', '.']
  · subst dots
    obtain ⟨a', ha⟩ := exists_enter?_dots a
    obtain ⟨b', hb⟩ := exists_enter?_dots b
    refine .inl ⟨a', b', ha, hb, h.next ha hb fun hp => ?_⟩
    rcases Path.passes_concat.1 hp with hp | ⟨up, back, hg⟩
    · exact h.left hp
    · cases loc : Path.location? (base ++ b.parts) with
      | none =>
        rw [loc] at back
        cases back
      | some inner =>
        rw [loc, Path.climb, if_pos rfl] at back
        obtain ⟨name, rfl⟩ : ∃ name, inner = name :: up := by
          cases inner with
          | nil => cases back
          | cons name up' => exact ⟨name, by rw [Option.some.inj back]⟩
        exact h.left ⟨_, List.prefix_rfl, _, loc, cut.below name up hg⟩
  · have names : name ∈ Node.namesOf a.node.children ↔ name ∈ Node.namesOf b.node.children ∧
        ¬ Path.Passes gone (base ++ b.parts ++ [name]) := by
      rw [(h.alike cut).namesOf_eq, List.mem_filter, decide_eq_true_iff]
    by_cases ha : name ∈ Node.namesOf a.node.children
    · obtain ⟨hb, left⟩ := names.1 ha
      obtain ⟨a', ha'⟩ := Option.ne_none_iff_exists'.1 fun hn => (enter?_eq_none dots).1 hn ha
      obtain ⟨b', hb'⟩ := Option.ne_none_iff_exists'.1 fun hn => (enter?_eq_none dots).1 hn hb
      exact .inl ⟨a', b', ha', hb', h.next ha' hb' left⟩
    · refine .inr ⟨(enter?_eq_none dots).2 ha, ?_⟩
      by_cases hb : name ∈ Node.namesOf b.node.children
      · exact .inr (by_contra fun left => ha (names.2 ⟨hb, left⟩))
      · exact .inl ((enter?_eq_none dots).2 hb)

/-- Several steps from places that are the same. -/
theorem Agree.enterEach? (h : Agree gone tree' tree base a b) (cut : Node.Cut gone tree' tree)
    (names : List Text) :
    (∃ a' b', a.enterEach? names = some a' ∧ b.enterEach? names = some b' ∧
      Agree gone tree' tree base a' b') ∨
    (a.enterEach? names = none ∧
      (b.enterEach? names = none ∨ Path.Passes gone (base ++ b.parts ++ names))) := by
  induction names generalizing a b with
  | nil => exact .inl ⟨a, b, rfl, rfl, h⟩
  | cons name names ih =>
    rw [enterEach?_cons, enterEach?_cons, (h.alike cut).isDirectory]
    split_ifs
    · rcases h.enter? cut name with ⟨a', b', ha, hb, h'⟩ | ⟨ha, hb⟩
      · rw [ha, hb, Option.bind_some, Option.bind_some]
        have step := ih h'
        rwa [enter?_parts hb, List.append_assoc, List.append_assoc,
          List.singleton_append, ← List.append_assoc] at step
      · refine .inr ⟨by rw [ha]; rfl, hb.imp (fun hb => by rw [hb]; rfl) fun hp => ?_⟩
        rw [List.append_cons]
        exact hp.append names
    · exact .inr ⟨rfl, .inl rfl⟩

end Glob.Place

namespace Node

open Glob (Place)

variable {gone : List Text → Prop} [DecidablePred gone] {tree' tree : Node} {path : Path}

/-- A path that does not pass what is gone leads to the same in both trees. -/
theorem alike_find? (cut : Cut gone tree' tree) (left : ¬ Path.Passes gone path.parts) :
    ∃ keep, Alike keep (tree'.find? path) (tree.find? path) := by
  by_cases root : path.root = []
  · rw [find?_eq root, find?_eq root]
    rcases (Place.agree_top cut).enterEach? cut path.parts with
      ⟨a', b', ha, hb, h⟩ | ⟨ha, hb | passes⟩
    · rw [ha, hb]
      exact ⟨_, h.alike cut⟩
    · rw [ha, hb]
      exact ⟨fun _ => true, .missing⟩
    · exact absurd passes left
  · rw [find?, find?, if_neg root, if_neg root]
    exact ⟨fun _ => true, .missing⟩

/-- A path that passes what is gone leads nowhere in the pruned tree. -/
theorem find?_of_passes (cut : Cut gone tree' tree) (passes : Path.Passes gone path.parts) :
    tree'.find? path = none := by
  by_cases root : path.root = []
  · rw [find?_eq root]
    rcases (Place.agree_top cut).enterEach? cut path.parts with ⟨a', b', ha, hb, h⟩ | ⟨ha, -⟩
    · have left := h.left
      rw [Place.enterEach?_parts hb] at left
      exact absurd passes left
    · rw [ha]
      rfl
  · rw [find?, if_neg root]

theorem readText?_cut (cut : Cut gone tree' tree) (left : ¬ Path.Passes gone path.parts) :
    tree'.readText? path = tree.readText? path := by
  obtain ⟨keep, look⟩ := alike_find? cut left
  exact look.text?

end Node
end ThemeProps
