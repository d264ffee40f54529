/-
  Chains of appended texts:

      'clamp(' | append: min | append: ', 4vw)'

  * `AppendChain.Link` is a quoted text or a name, and an `AppendChain` is a link with
    more of them appended;
  * `AppendChain.splitPipes_others`: the chain is cut at its own pipes, whatever its
    quoted texts hold, and `AppendChain.parse_text` reads it link by link;
  * `evaluate_appendChain`: its value is what the links show, one after the other.
-/
import ThemeProps.Proofs.Expr.Parse

namespace ThemeProps

/-- A link of a chain. -/
inductive AppendChain.Link where
  /-- A text in quote marks. The mark is not in the text, and no backslash stands before the second
  mark. -/
  | quoted (mark : Char) (s : Text) (isMark : Text.isQuoteMark mark = true) (notMem : mark ∉ s)
      (unescaped : s.getLast? ≠ some '\\')
  /-- The name of a variable. -/
  | name (s : Text) (isName : Base.isName s = true)

/-- A link, and others that are appended to it. -/
structure AppendChain where
  first : AppendChain.Link
  others : List AppendChain.Link

namespace AppendChain

/-! ## Links -/

namespace Link

/-- The link as it is written. -/
def text : Link → Text
  | quoted mark s _ _ _ => mark :: (s ++ [mark])
  | name s _ => s

/-- The expression that the link is. -/
def base : Link → Base Expr
  | quoted _ s _ _ _ => .quoted s
  | name s _ => .word s

/-- The name is that of a variable. -/
def Bound (b : Bindings) : Link → Prop
  | quoted _ _ _ _ _ => True
  | name s _ => ∃ v, b.get? s = some v

/-- The quoted text, or the output form of the variable. -/
def shown (b : Bindings) : Link → Evaluation Text
  | quoted _ s _ _ _ => .ok s
  | name s _ => ((b.get? s).getD .null).toText

variable {b : Bindings} (link : Link)

theorem text_ne_nil : link.text ≠ [] := by
  cases link with
  | quoted mark s _ _ _ => exact List.cons_ne_nil _ _
  | name s isName => exact (Base.isWord_of_isName isName).1

/-- No blank stands at the ends of a link. -/
theorem stops_text : Reader.Stops Text.isBlank link.text ∧
    Reader.Stops Text.isBlank link.text.reverse := by
  cases link with
  | quoted mark s isMark _ _ =>
    have notBlank := isBlank_of_isQuoteMark isMark
    simp [text, notBlank]
  | name s isName =>
    have notBlank (c : Char) (hc : c ∈ s) : Text.isBlank c = false :=
      Text.isBlank_of_isWord ((Base.isWord_of_isName isName).2 c hc)
    exact ⟨fun c hc => notBlank c (List.mem_of_mem_head? hc),
      fun c hc => notBlank c (List.mem_reverse.1 (List.mem_of_mem_head? hc))⟩

theorem trim_text : Text.trim link.text = link.text :=
  Text.trim_eq_self link.stops_text.1 link.stops_text.2

theorem uncut_text : Text.Uncut link.text := by
  cases link with
  | quoted mark s isMark notMem unescaped => exact Text.uncut_quoted isMark notMem unescaped
  | name s isName => exact (Text.isPart_of_isWord (Base.isWord_of_isName isName).2).uncut

theorem parse_text : Expr.parse link.text = .chain link.base [] := by
  cases link with
  | quoted mark s isMark notMem _ => exact Expr.parse_quoted isMark notMem
  | name s isName => exact Expr.parse_name isName

theorem parse_base (f : Text → Expr) : (Base.parse link.text).map f = link.base := by
  cases link with
  | quoted mark s isMark notMem _ =>
    rw [text, Base.parse_quoted isMark]
    rfl
  | name s isName =>
    rw [text, Base.parse_name isName]
    rfl

variable {link}

theorem Bound.evalBase (store : Store) (h : link.Bound b) :
    ∃ v, evalBase store b link.base = .ok v ∧ v.toText = link.shown b := by
  cases link with
  | quoted mark s _ _ _ => exact ⟨.str s, rfl, rfl⟩
  | name s isName =>
    obtain ⟨v, known⟩ := h
    refine ⟨v, ?_, by rw [shown, known]; rfl⟩
    rw [base, ThemeProps.evalBase, Bindings.word, known]

end Link

/-! ## Chains -/

/-- The links that are appended, as they are written. -/
def writeOthers (others : List Link) : Text := others.flatMap fun link => " | append: " ++ link.text

/-- The chain as it is written. -/
def text (chain : AppendChain) : Text := chain.first.text ++ writeOthers chain.others

/-- All links of the chain. -/
def links (chain : AppendChain) : List Link := chain.first :: chain.others

theorem writeOthers_cons (link : Link) (others : List Link) (s : Text) :
    s ++ writeOthers (link :: others) =
      (s ++ [' ']) ++ '|' :: ((" append: " ++ link.text) ++ writeOthers others) := by
  simp [writeOthers]

/-- A link behind the name of the filter. -/
theorem trim_filter (link : Link) :
    Text.trim ("append: " ++ link.text) = "append: " ++ link.text := by
  refine Text.trim_eq_self (Reader.stops_append (by decide) (by decide) _) ?_
  rw [List.reverse_append]
  exact Reader.stops_append (by simpa using link.text_ne_nil) link.stops_text.2 _

theorem uncut_filter (link : Link) : Text.Uncut (" append: " ++ link.text) :=
  (show Text.IsPart " append: " from Text.forall_mem_of_all rfl).uncut.append rfl link.uncut_text

/-- A trimmed text behind blanks is the first part, and each link that is appended is another
one. -/
theorem splitPipes_others {a s : Text} (ha : ∀ c ∈ a, Text.isBlank c = true)
    (trimmed : Text.trim s = s) (hne : s ≠ []) (uncut : Text.Uncut (a ++ s)) (others : List Link) :
    Text.splitPipes (a ++ s ++ writeOthers others) =
      s :: others.map fun link => "append: " ++ link.text := by
  -- Each link that is cut off is the part in front of those that are left.
  induction others generalizing a s with
  | nil =>
    have whole : Text.trim (a ++ s ++ []) = s := Text.trim_append ha trimmed hne (by simp)
    rw [List.append_nil] at whole
    rw [writeOthers, List.flatMap_nil, List.append_nil,
      Text.splitPipes_of_uncut uncut (List.append_ne_nil_of_right_ne_nil a hne), whole]
    rfl
  | cons link others ih =>
    have space : Text.IsPart [' '] := Text.forall_mem_of_all rfl
    have next : Text.splitPipes (" append: " ++ link.text ++ writeOthers others) = _ :=
      ih (a := [' ']) (s := "append: " ++ link.text) (Text.forall_mem_of_all rfl)
        (trim_filter link) (List.append_ne_nil_of_right_ne_nil _ link.text_ne_nil)
        (uncut_filter link)
    rw [writeOthers_cons, Text.splitPipes_append_pipe (uncut.append_part space), next,
      Text.trim_append ha trimmed hne (Text.forall_mem_of_all rfl), List.map_cons]

variable (chain : AppendChain)

theorem trim_text : Text.trim chain.text = chain.text := by
  refine Text.trim_eq_self
    (Reader.stops_append chain.first.text_ne_nil chain.first.stops_text.1 _) ?_
  rw [text, writeOthers]
  rcases List.eq_nil_or_concat chain.others with none | ⟨others, last, more⟩
  · rw [none, List.flatMap_nil, List.append_nil]
    exact chain.first.stops_text.2
  · have ending : (last.text.reverse ≠ []) := by simpa using last.text_ne_nil
    rw [more, List.concat_eq_append, List.flatMap_append, List.flatMap_singleton,
      List.reverse_append, List.reverse_append, List.reverse_append, List.append_assoc,
      List.append_assoc]
    exact Reader.stops_append ending last.stops_text.2 _

theorem length_lt {link : Link} (h : link ∈ chain.others) :
    link.text.length < chain.text.length := by
  have first := List.length_pos_iff.2 chain.first.text_ne_nil
  obtain ⟨before, behind, he⟩ := List.append_of_mem h
  rw [text, he, writeOthers]
  simp only [List.length_append, List.flatMap_append, List.flatMap_cons]
  omega

/-- A chain is read link by link. -/
theorem parse_text : Expr.parse chain.text =
    .chain chain.first.base (chain.others.map fun link => .append (.chain link.base [])) := by
  have parts : Text.splitPipes (Text.trim chain.text) =
      chain.first.text :: chain.others.map fun link => "append: " ++ link.text := by
    rw [trim_text]
    exact splitPipes_others (a := []) (by simp) chain.first.trim_text chain.first.text_ne_nil
      chain.first.uncut_text chain.others
  rw [Expr.parse_eq parts, Link.parse_base, List.map_map]
  congr 1
  refine List.map_congr_left fun link hl => ?_
  have argument : Filter.parse ("append: " ++ link.text) = .append link.text :=
    Filter.parse_append link.text_ne_nil link.stops_text.1
  rw [Function.comp_apply, argument, Filter.map, if_pos (chain.length_lt hl), link.parse_text]

/-! ## Values -/

/-- Appended links lengthen the output form by what they show. -/
theorem evalFilters_others (store : Store) {b : Bindings} {others : List Link}
    (bound : ∀ link ∈ others, link.Bound b) (v : Value) :
    (do (← evalFilters store b (others.map fun link => .append (.chain link.base [])) v).toText) =
      do return (← v.toText) ++ (← others.mapM (Link.shown b)).flatten := by
  induction others generalizing v with
  | nil => simp [evalFilters]
  | cons link others ih =>
    rw [List.forall_mem_cons] at bound
    obtain ⟨suffix, value, shown⟩ := bound.1.evalBase store
    have appended : evalFilter store b (.append (.chain link.base [])) v =
        do return .str ((← v.toText) ++ (← link.shown b)) := by
      rw [evalFilter, Expr.eval, value, ← shown]
      rfl
    simp only [List.map_cons, evalFilters, appended, bind_assoc, Evaluation.pure_eq_ok,
      Evaluation.ok_bind, ih bound.2, Value.toText, List.mapM_cons, List.flatten_cons,
      List.append_assoc]

end AppendChain

/-- **Chains of appended texts.** If the names in it are bound, the output form of a chain's value
is what its links show, one after the other: the quoted texts as they are, and the output forms of
the variables. -/
theorem evaluate_appendChain (store : Store) (b : Bindings) (chain : AppendChain)
    (bound : ∀ link ∈ chain.links, link.Bound b) :
    (do (← evaluate store b chain.text).toText) =
      do return (← chain.links.mapM (AppendChain.Link.shown b)).flatten := by
  rw [AppendChain.links, List.forall_mem_cons] at bound
  obtain ⟨v, value, shown⟩ := bound.1.evalBase store
  have others := AppendChain.evalFilters_others store bound.2 v
  rw [evaluate, chain.parse_text, Expr.eval, value, Evaluation.ok_bind, others, shown,
    AppendChain.links, List.mapM_cons]
  simp only [bind_assoc, Evaluation.pure_eq_ok, Evaluation.ok_bind, List.flatten_cons]

/-- A size between two quoted texts with pipes, brackets, a line break and the other mark. -/
def sizeChain : AppendChain where
  first := .quoted '\x27' "a | append: [size]\n\"" rfl (by decide) (by decide)
  others := [.name "size" (by decide +kernel),
    .quoted '"' "it's | done" rfl (by decide) (by decide)]

theorem evaluate_appendChain_size :
    (do (← evaluate {} [("size", .int 12)]
        "'a | append: [size]\n\"' | append: size | append: \"it's | done\"").toText) =
      .ok "a | append: [size]\n\"12it's | done" := by
  have written : sizeChain.text =
      "'a | append: [size]\n\"' | append: size | append: \"it's | done\"" := by decide
  have bound : ∀ link ∈ sizeChain.links, link.Bound [("size", .int 12)] :=
    List.forall_mem_cons.2 ⟨trivial, List.forall_mem_cons.2 ⟨⟨.int 12, rfl⟩,
      List.forall_mem_singleton.2 trivial⟩⟩
  rw [← written, evaluate_appendChain {} [("size", .int 12)] sizeChain bound]
  decide +kernel

end ThemeProps
