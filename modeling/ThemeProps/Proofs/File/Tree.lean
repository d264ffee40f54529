/-
  Changing file trees at one place.

  * `Node.Sound`: the names in every directory are different, and none of them is
    two dots;
  * `Node.below?` is the node that some names lead to, downwards, and
    `Node.replaceAt` puts another node there;
  * `below?_replaceAt`: the other node is there then, and `removeAt_replaceAt`: it
    does not matter which node is taken away;
  * `Node.Alike keep`: two nodes look the same, up to the names that are not kept.
    `alike_removeAt` compares a tree with the tree without one of its nodes.
-/
import ThemeProps.File.Tree
import Mathlib.Data.List.Basic
import Mathlib.Data.List.Infix

namespace ThemeProps.Node

variable {tree node child x : Node} {children : List (Text × Node)} {name other : Text}
  {names : List Text}

/-- What holds of files, and of a directory if it holds of its children, holds of every node. -/
theorem induction {P : Node → Prop} (file : ∀ bytes, P (file bytes))
    (directory : ∀ children, (∀ p ∈ children, P p.2) → P (directory children)) : ∀ node, P node
  | .file bytes => file bytes
  | .directory children => directory children fun p hp =>
    have : sizeOf p.2 < 1 + sizeOf children := by
      have := List.sizeOf_lt_of_mem hp
      cases p
      simp only [Prod.mk.sizeOf_spec] at this
      simp only
      omega
    induction file directory p.2

/-! ## Children -/

/-- The names of some children. -/
abbrev namesOf (children : List (Text × Node)) : List Text := children.map Prod.fst

@[simp, grind =]
theorem namesOf_cons : namesOf ((name, child) :: children) = name :: namesOf children := rfl

@[simp, grind =]
theorem lookup_isSome : (children.lookup name).isSome = true ↔ name ∈ namesOf children := by
  induction children with
  | nil => simp
  | cons first rest ih =>
    obtain ⟨other, node⟩ := first
    by_cases he : name = other
    · simp [he]
    · simp [List.lookup_cons, he, ih, beq_false_of_ne he]

@[simp, grind =]
theorem lookup_eq_none : children.lookup name = none ↔ name ∉ namesOf children := by
  rw [← lookup_isSome, Option.not_isSome_iff_eq_none]

theorem mem_of_lookup (h : children.lookup name = some child) : (name, child) ∈ children := by
  induction children with
  | nil => cases h
  | cons first rest ih =>
    obtain ⟨other, node⟩ := first
    by_cases he : name = other
    · subst he
      rw [List.lookup_cons, beq_self_eq_true] at h
      obtain rfl : node = child := Option.some.inj h
      exact List.mem_cons_self
    · rw [List.lookup_cons, beq_false_of_ne he] at h
      exact List.mem_cons_of_mem _ (ih h)

/-- Where the names are different, each child is found by its name. -/
theorem lookup_of_mem (nodup : (namesOf children).Nodup) (h : (name, child) ∈ children) :
    children.lookup name = some child := by
  induction children with
  | nil => cases h
  | cons first rest ih =>
    obtain ⟨other, node⟩ := first
    obtain ⟨notMem, nodup⟩ := List.nodup_cons.1 nodup
    rcases List.mem_cons.1 h with he | h'
    · obtain ⟨rfl, rfl⟩ := Prod.mk.inj he
      rw [List.lookup_cons, beq_self_eq_true]
    · have he : name ≠ other := by
        rintro rfl
        exact notMem (List.mem_map.2 ⟨_, h', rfl⟩)
      rw [List.lookup_cons, beq_false_of_ne he]
      exact ih nodup h'

theorem lookup_filter (h : other ≠ name) :
    (children.filter (·.1 ≠ name)).lookup other = children.lookup other := by
  induction children with
  | nil => rfl
  | cons first rest ih =>
    obtain ⟨n, node⟩ := first
    by_cases hn : n = name
    · subst hn
      rw [List.filter_cons_of_neg (by simp), ih, List.lookup_cons, beq_false_of_ne h]
    · rw [List.filter_cons_of_pos (by simpa using hn), List.lookup_cons, List.lookup_cons, ih]

theorem namesOf_filter :
    namesOf (children.filter (·.1 ≠ name)) = (namesOf children).filter (· ≠ name) := by
  rw [namesOf, namesOf, List.filter_map]
  rfl

@[simp, grind =]
theorem lookup_setChild_self : (setChild name child children).lookup name = some child := by
  induction children with
  | nil => rw [setChild, List.lookup_cons, beq_self_eq_true]
  | cons first rest ih =>
    obtain ⟨n, node⟩ := first
    rw [setChild]
    split_ifs with hn
    · rw [List.lookup_cons, beq_self_eq_true]
    · rw [List.lookup_cons, beq_false_of_ne (Ne.symm hn), ih]

@[simp, grind =] theorem lookup_setChild (h : other ≠ name) :
    (setChild name child children).lookup other = children.lookup other := by
  induction children with
  | nil => rw [setChild, List.lookup_cons, beq_false_of_ne h]
  | cons first rest ih =>
    obtain ⟨n, node⟩ := first
    rw [setChild]
    split_ifs with hn
    · subst hn
      rw [List.lookup_cons, List.lookup_cons, beq_false_of_ne h]
    · rw [List.lookup_cons, List.lookup_cons, ih]

/-- A known child keeps its place. -/
theorem namesOf_setChild (h : name ∈ namesOf children) :
    namesOf (setChild name child children) = namesOf children := by
  induction children with
  | nil => cases h
  | cons first rest ih =>
    obtain ⟨n, node⟩ := first
    rw [setChild]
    split_ifs with hn
    · rw [hn]
      rfl
    · have hr := (List.mem_cons.1 h).resolve_left fun he => hn he.symm
      rw [namesOf, List.map_cons, ← namesOf, ih hr]
      rfl

theorem filter_setChild :
    (setChild name child children).filter (·.1 ≠ name) = children.filter (·.1 ≠ name) := by
  induction children with
  | nil => simp [setChild]
  | cons first rest ih =>
    obtain ⟨n, node⟩ := first
    rw [setChild]
    split_ifs with hn
    · rw [List.filter_cons_of_neg (by simp), List.filter_cons_of_neg (by simpa using hn)]
    · rw [List.filter_cons_of_pos (by simpa using hn), ih,
        List.filter_cons_of_pos (by simpa using hn)]

@[simp, grind =] theorem setChild_setChild :
    setChild name child (setChild name x children) = setChild name child children := by
  induction children with
  | nil => simp [setChild]
  | cons first rest ih =>
    obtain ⟨n, node⟩ := first
    by_cases hn : n = name
    · rw [setChild, if_pos hn, setChild, if_pos rfl, setChild, if_pos hn]
    · rw [setChild, if_neg hn, setChild, if_neg hn, ih, setChild, if_neg hn]

theorem mem_setChild {p : Text × Node} (h : p ∈ setChild name child children) :
    p = (name, child) ∨ p ∈ children := by
  induction children with
  | nil => exact .inl (List.mem_singleton.1 h)
  | cons first rest ih =>
    obtain ⟨n, node⟩ := first
    rw [setChild] at h
    split_ifs at h with hn
    · exact (List.mem_cons.1 h).imp_right (List.mem_cons_of_mem _)
    · rcases List.mem_cons.1 h with rfl | h
      · exact .inr List.mem_cons_self
      · exact (ih h).imp_right (List.mem_cons_of_mem _)

/-! ## Sound trees -/

/-- The names in every directory are different, as they are in a file system, and none of them is
two dots. -/
inductive Sound : Node → Prop
  | file (bytes : Bytes) : Sound (file bytes)
  | directory {children : List (Text × Node)} (nodup : (namesOf children).Nodup)
    (noDots : ['.', '.'] ∉ namesOf children) (sound : ∀ p ∈ children, Sound p.2) :
    Sound (directory children)

@[simp, grind =] theorem sound_directory : (directory children).Sound ↔
    (namesOf children).Nodup ∧ ['.', '.'] ∉ namesOf children ∧ ∀ p ∈ children, Sound p.2 := by
  constructor
  · rintro ⟨⟩
    exact ⟨‹_›, ‹_›, ‹_›⟩
  · exact fun ⟨nodup, noDots, sound⟩ => .directory nodup noDots sound

mutual
/-- Whether a tree is sound can be decided. -/
def decideSound : (node : Node) → Decidable node.Sound
  | .file bytes => isTrue (.file bytes)
  | .directory children =>
    have := decideSoundAll children
    decidable_of_iff _ sound_directory.symm
/-- Whether some children are sound can be decided. -/
def decideSoundAll : (children : List (Text × Node)) → Decidable (∀ p ∈ children, Sound p.2)
  | [] => isTrue nofun
  | (_, node) :: rest =>
    have := decideSound node
    have := decideSoundAll rest
    decidable_of_iff (node.Sound ∧ ∀ p ∈ rest, Sound p.2) (by rw [List.forall_mem_cons])
end

instance (node : Node) : Decidable node.Sound := decideSound node

@[simp] theorem sound_empty : empty.Sound := .directory List.nodup_nil List.not_mem_nil nofun

theorem Sound.nodup (h : node.Sound) : (namesOf node.children).Nodup := by
  cases h with
  | file bytes => exact List.nodup_nil
  | directory nodup _ _ => exact nodup

theorem Sound.noDots (h : node.Sound) : ['.', '.'] ∉ namesOf node.children := by
  cases h with
  | file bytes => exact List.not_mem_nil
  | directory _ noDots _ => exact noDots

theorem Sound.of_mem (h : node.Sound) (hc : (name, child) ∈ node.children) : child.Sound := by
  cases h with
  | file bytes => cases hc
  | directory _ _ sound => exact sound _ hc

theorem Sound.of_lookup (h : node.Sound) (hc : node.children.lookup name = some child) :
    child.Sound :=
  h.of_mem (mem_of_lookup hc)

/-- Another child in the place of a known one. -/
theorem Sound.setChild (h : node.Sound) (hname : name ∈ namesOf node.children)
    (hchild : child.Sound) : (Node.directory (setChild name child node.children)).Sound := by
  refine .directory ?_ ?_ fun p hp => ?_
  · rw [namesOf_setChild hname]
    exact h.nodup
  · rw [namesOf_setChild hname]
    exact h.noDots
  · rcases mem_setChild hp with rfl | hp
    · exact hchild
    · exact h.of_mem hp

theorem Sound.filter (h : node.Sound) (p : Text × Node → Bool) :
    (Node.directory (node.children.filter p)).Sound := by
  have names : (namesOf (node.children.filter p)).Sublist (namesOf node.children) :=
    List.filter_sublist.map _
  exact .directory (names.nodup h.nodup) (fun hm => h.noDots (names.subset hm))
    fun q hq => h.of_mem (List.mem_of_mem_filter hq)

/-! ## Names that lead downwards -/

/-- The node that some names lead to, downwards. -/
def below? : Node → List Text → Option Node
  | node, [] => some node
  | node, name :: names => (node.children.lookup name).bind fun child => below? child names

@[simp, grind =] theorem below?_append (tree : Node) (names more : List Text) :
    below? tree (names ++ more) = (below? tree names).bind fun node => below? node more := by
  induction names generalizing tree with
  | nil => rfl
  | cons name names ih =>
    rw [List.cons_append, below?, below?, Option.bind_assoc]
    exact Option.bind_congr fun child _ => ih child

/-- Nothing is below a file. -/
theorem below?_file {bytes : Bytes} (h : (file bytes).below? names = some node) :
    names = [] ∧ node = file bytes := by
  cases names with
  | nil => exact ⟨rfl, (Option.some.inj h).symm⟩
  | cons name names => cases h

theorem Sound.below? (h : tree.Sound) (hn : tree.below? names = some node) : node.Sound := by
  induction names generalizing tree with
  | nil =>
    obtain rfl := Option.some.inj hn
    exact h
  | cons name names ih =>
    obtain ⟨child, hc, hn⟩ := Option.bind_eq_some_iff.1 hn
    exact ih (h.of_lookup hc) hn

/-- What is at the first of some names that lead to a node. -/
theorem exists_child (h : (tree.below? (name :: names)).isSome = true) :
    ∃ child, tree.children.lookup name = some child ∧ (child.below? names).isSome = true := by
  obtain ⟨node, h⟩ := Option.isSome_iff_exists.1 h
  obtain ⟨child, hc, hn⟩ := Option.bind_eq_some_iff.1 h
  exact ⟨child, hc, Option.isSome_iff_exists.2 ⟨node, hn⟩⟩

/-! ## Replacing and removing a node -/

/-- The tree with another node where some names lead to. -/
def replaceAt (names : List Text) (x tree : Node) : Node := update (fun _ => x) names (some tree)

theorem replaceAt_cons (hc : tree.children.lookup name = some child) :
    replaceAt (name :: names) x tree =
      directory (setChild name (replaceAt names x child) tree.children) := by
  rw [replaceAt, update]
  simp only [Option.map_some, Option.getD_some, hc]
  rfl

theorem removeAt_singleton : removeAt [name] tree =
    directory (tree.children.filter (·.1 ≠ name)) := rfl

theorem removeAt_cons (hn : names ≠ []) (hc : tree.children.lookup name = some child) :
    removeAt (name :: names) tree =
      directory (setChild name (removeAt names child) tree.children) := by
  obtain ⟨next, names, rfl⟩ := List.exists_cons_of_ne_nil hn
  rw [removeAt, hc]
  simp

section
variable (h : (tree.below? names).isSome = true)
include h

@[simp, grind =]
theorem below?_replaceAt (x : Node) : (replaceAt names x tree).below? names = some x := by
  induction names generalizing tree with
  | nil => rfl
  | cons name names ih =>
    obtain ⟨child, hc, h⟩ := exists_child h
    rw [replaceAt_cons hc, below?, children, lookup_setChild_self]
    exact ih h

theorem Sound.replaceAt (ht : tree.Sound) (hx : x.Sound) : (replaceAt names x tree).Sound := by
  induction names generalizing tree with
  | nil => exact hx
  | cons name names ih =>
    obtain ⟨child, hc, h⟩ := exists_child h
    rw [replaceAt_cons hc]
    refine ht.setChild (lookup_isSome.1 ?_) (ih h (ht.of_lookup hc))
    rw [hc]
    rfl

theorem Sound.removeAt (ht : tree.Sound) : (removeAt names tree).Sound := by
  induction names generalizing tree with
  | nil => exact ht
  | cons name names ih =>
    obtain ⟨child, hc, h⟩ := exists_child h
    rcases eq_or_ne names [] with rfl | hn
    · exact ht.filter _
    · rw [removeAt_cons hn hc]
      refine ht.setChild (lookup_isSome.1 ?_) (ih h (ht.of_lookup hc))
      rw [hc]
      rfl

/-- It does not matter what is taken away. -/
theorem removeAt_replaceAt (hn : names ≠ []) (x : Node) :
    removeAt names (replaceAt names x tree) = removeAt names tree := by
  induction names generalizing tree with
  | nil => exact absurd rfl hn
  | cons name names ih =>
    obtain ⟨child, hc, h⟩ := exists_child h
    rw [replaceAt_cons hc]
    rcases eq_or_ne names [] with rfl | hn
    · rw [removeAt_singleton, removeAt_singleton, children, filter_setChild]
    · rw [removeAt_cons hn lookup_setChild_self, removeAt_cons hn hc, ih h hn, children,
        setChild_setChild]

end

/-! ## Nodes that look the same -/

/-- Both nodes are missing, or files with the same bytes, or directories whose children have the
same names in the same order, if only those that are kept count in the second one. -/
inductive Alike (keep : Text → Bool) : Option Node → Option Node → Prop
  | missing : Alike keep none none
  | file (bytes : Bytes) : Alike keep (some (file bytes)) (some (file bytes))
  | directory {children children' : List (Text × Node)}
    (names : namesOf children = (namesOf children').filter keep) :
    Alike keep (some (directory children)) (some (directory children'))

theorem alike_self {keep : Text → Bool} (h : ∀ name, keep name = true) (node : Option Node) :
    Alike keep node node := by
  rcases node with _ | ⟨bytes⟩ | ⟨children⟩
  · exact .missing
  · exact .file bytes
  · exact .directory (List.filter_eq_self.2 fun name _ => h name).symm

section
variable {keep keep' : Text → Bool} {node' : Node}

theorem Alike.namesOf_eq (h : Alike keep (some node') (some node)) :
    namesOf node'.children = (namesOf node.children).filter keep := by
  cases h with
  | file bytes => rfl
  | directory names => exact names

theorem Alike.isDirectory (h : Alike keep (some node') (some node)) :
    node'.isDirectory = node.isDirectory := by
  cases h <;> rfl

theorem Alike.text? {found found' : Option Node} (h : Alike keep found' found) :
    found'.bind text? = found.bind text? := by
  cases h <;> rfl

/-- Only the names of the second node count. -/
theorem Alike.congr {found' : Option Node} (h : Alike keep found' (some node))
    (same : ∀ name ∈ namesOf node.children, keep name = keep' name) :
    Alike keep' found' (some node) := by
  cases h with
  | file bytes => exact .file bytes
  | directory names => exact .directory (names.trans (List.filter_congr same))

end

/-- Without one of its nodes a tree looks the same everywhere else, up to the name of that node. -/
theorem alike_removeAt (hn : names ≠ []) (h : (tree.below? names).isSome = true) {l : List Text}
    (hl : ¬ names <+: l) :
    Alike (fun name => decide (¬ names <+: l ++ [name])) ((removeAt names tree).below? l)
      (tree.below? l) := by
  induction names generalizing tree l with
  | nil => exact absurd rfl hn
  | cons first names ih =>
    obtain ⟨child, hc, there⟩ := exists_child h
    have known : first ∈ namesOf tree.children := lookup_isSome.1 (by rw [hc]; rfl)
    have isDirectory : tree = directory tree.children := by
      cases tree with
      | file bytes => cases hc
      | directory children => rfl
    have aside {name : Text} {l : List Text} (hname : name ≠ first) (other : Text) :
        decide (¬ first :: names <+: name :: l ++ [other]) = true :=
      decide_eq_true fun hp => hname (List.cons_prefix_cons.1 hp).1.symm
    rcases eq_or_ne names [] with rfl | more
    · rw [removeAt_singleton]
      cases l with
      | nil =>
        rw [below?, below?, isDirectory]
        refine .directory ?_
        rw [namesOf_filter]
        refine List.filter_congr fun name _ => decide_eq_decide.2 ?_
        simp [eq_comm]
      | cons name l =>
        have hname : name ≠ first := by
          rintro rfl
          exact hl (by simp)
        rw [below?, below?, children, lookup_filter hname]
        exact alike_self (aside hname) _
    · rw [removeAt_cons more hc]
      cases l with
      | nil =>
        rw [below?, below?, isDirectory]
        refine .directory ?_
        rw [children, namesOf_setChild known]
        refine (List.filter_eq_self.2 fun name _ => decide_eq_true ?_).symm
        exact fun hp => more (List.prefix_nil.1 (List.cons_prefix_cons.1 hp).2)
      | cons name l =>
        rw [below?, below?, children]
        by_cases hname : name = first
        · subst hname
          rw [lookup_setChild_self, hc]
          simp only [Option.bind_some, List.cons_append, List.cons_prefix_cons, true_and]
          exact ih more there fun hp => hl (List.cons_prefix_cons.2 ⟨rfl, hp⟩)
        · rw [lookup_setChild hname]
          exact alike_self (aside hname) _

end ThemeProps.Node
