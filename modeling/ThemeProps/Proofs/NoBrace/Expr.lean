/-
  Expressions without opening braces.

  Under settings and bindings without opening braces, an expression whose text
  has none gives a value without them.

  * `Base.text?` and `Filter.argument?` are the texts of an expression that can
    become part of its value;
  * `Expr.Safe store e`: the values of `e` under bindings without opening braces
    have none, and `Expr.safe_parse`: the expression that a text without opening
    braces writes is safe.
-/
import ThemeProps.Expr.Eval
import ThemeProps.Proofs.NoBrace.Setting

namespace ThemeProps

variable {store : Store} {b : Bindings}

/-! ## Bases -/

namespace Base

variable {α β : Type}

/-- The text of a base that can be its value. -/
def text? : Base α → Option Text
  | quoted s => some s
  | dotted source _ _ => some source
  | word s => some s
  | template s => some s
  | item _ _ => none
  | number _ => none

theorem text?_map (f : α → β) (base : Base α) : (base.map f).text? = base.text? := by
  cases base <;> rfl

theorem subset_of_unquote? {s inner : Text} (h : unquote? s = some inner) : inner ⊆ s := by
  cases s with
  | nil => cases h
  | cons c s =>
    cases s with
    | nil => cases h
    | cons next rest =>
      simp only [unquote?] at h
      split_ifs at h
      obtain rfl : (next :: rest).dropLast = inner := by simpa using h
      exact List.Subset.trans (List.dropLast_subset _) (List.subset_cons_self c _)

theorem notMem_parse {s t : Text} (hs : '{' ∉ s) (ht : (parse s).text? = some t) : '{' ∉ t := by
  rw [parse] at ht
  split at ht
  · next inner found =>
    obtain rfl : inner = t := by simpa [text?] using ht
    exact fun h => hs (subset_of_unquote? found h)
  · split at ht
    · cases ht
    · split at ht
      · obtain rfl : s = t := by simpa [text?] using ht
        exact hs
      · split_ifs at ht
        · obtain rfl : s = t := by simpa [text?] using ht
          exact hs
        · split at ht
          · cases ht
          · obtain rfl : s = t := by simpa [text?] using ht
            exact hs

end Base

namespace Bindings

theorem leaves_placeholder : Reader.Leaves placeholder := by
  refine (Reader.leaves_maybe _).bind fun _ => (Reader.leaves_char _).bind fun _ => ?_
  refine (Reader.leaves_run1 _).bind fun _ => ?_
  refine (Reader.leaves_char _).bind fun _ => (Reader.leaves_maybe _).bind fun _ => ?_
  exact Reader.leaves_pure _

theorem gives_fillIn (hb : Bindings.NoBrace b) {s : Text} (hs : '{' ∉ s) :
    Gives ('{' ∉ ·) (b.fillIn s) := by
  have written (name : Text) : Gives ('{' ∉ ·) ((b.get? name).getD .null).toText := by
    cases hv : b.get? name with
    | none => exact .ok List.not_mem_nil
    | some v => exact (hb.get? hv).gives_toText
  intro t ht hm
  rw [Reader.eq_of_replaceEveryM ht] at hm
  rcases Reader.mem_replaceEvery leaves_placeholder s hm with hm | ⟨name, hm⟩
  · exact hs hm
  · cases hw : ((b.get? name).getD .null).toText with
    | error e => rw [hw] at hm; cases hm
    | ok w => rw [hw] at hm; exact written name w hw hm

theorem noBrace_word (hb : Bindings.NoBrace b) {name : Text} (hn : '{' ∉ name) :
    (b.word name).NoBrace := by
  rw [word]
  split
  · next v hv => exact hb.get? hv
  · rw [constant?]
    split_ifs
    · exact .bool _
    · exact .bool _
    · exact .null
    · exact .str hn

end Bindings

theorem Value.NoBrace.atKeys? {v w : Value} (h : v.NoBrace) {keys : List Text}
    (hw : v.atKeys? keys = some w) : w.NoBrace := by
  induction keys generalizing v with
  | nil =>
    obtain rfl : v = w := by simpa [Value.atKeys?] using hw
    exact h
  | cons key keys ih =>
    obtain ⟨u, hu, hw⟩ := Option.bind_eq_some_iff.1 hw
    exact ih (h.field? hu) hw

theorem Store.NoBrace.getOrEmpty (hstore : store.NoBrace) (path : Text) :
    (store.getOrEmpty path).NoBrace := by
  rw [Store.getOrEmpty]
  split
  · exact .str List.not_mem_nil
  · exact hstore.get path

section
variable (hstore : store.NoBrace) (hb : Bindings.NoBrace b)
include hstore hb

theorem noBrace_evalDotted {source : Text} (hs : '{' ∉ source) (name path : Text) :
    (evalDotted store b source name path).NoBrace := by
  rw [evalDotted]
  split_ifs
  · exact hstore.getOrEmpty path
  · split
    · next v hv =>
      obtain ⟨u, hu, hv⟩ := Option.bind_eq_some_iff.1 hv
      exact (hb.get? hu).atKeys? hv
    · exact .str hs

theorem gives_evalItem (name : Text) (index : Value) :
    Gives Value.NoBrace (evalItem store b name index) := by
  rw [evalItem]
  split_ifs
  · exact (Gives.any _).bind fun _ _ => .ok (hstore.getOrEmpty _)
  · split
    · next id items hv =>
      have known := (hb.get? hv).items
      refine (Gives.any _).bind fun x _ => ?_
      split
      · next n _ =>
        refine .ok ?_
        cases hn : items[n]? with
        | none => exact .null
        | some v => exact known v (List.mem_of_getElem? hn)
      · exact .ok .null
    · exact .ok (.str List.not_mem_nil)

theorem gives_evalBase (base : Base Expr) (h : ∀ s, base.text? = some s → '{' ∉ s) :
    Gives Value.NoBrace (evalBase store b base) := by
  cases base with
  | quoted s => rw [evalBase]; exact .ok (.str (h s rfl))
  | item name index =>
    rw [evalBase]
    exact (Gives.any _).bind fun v _ => gives_evalItem hstore hb name v
  | dotted source name path =>
    rw [evalBase]
    exact .ok (noBrace_evalDotted hstore hb (h source rfl) name path)
  | word s => rw [evalBase]; exact .ok (Bindings.noBrace_word hb (h s rfl))
  | number n => rw [evalBase]; exact .ok (.number n)
  | template s =>
    rw [evalBase]
    exact (Bindings.gives_fillIn hb (h s rfl)).bind fun _ ht => .ok (.str ht)

end

/-! ## Filters -/

namespace Filter

variable {α β : Type}

/-- The argument of a filter. -/
def argument? : Filter α → Option α
  | replace _ _ replacement => some replacement
  | append suffix => some suffix
  | arithmetic _ operand => some operand
  | findIndex sought => some sought
  | split _ => none
  | uniq => none
  | sortNatural => none
  | keep => none

theorem argument?_map (f : α → β) (filter : Filter α) :
    (filter.map f).argument? = filter.argument?.map f := by
  cases filter <;> rfl

theorem dropOuterQuotes_subset (s : Text) : dropOuterQuotes s ⊆ s := by
  cases s with
  | nil => exact List.Subset.refl _
  | cons c cs =>
    generalize ht : (if Text.isQuoteMark c then cs else c :: cs) = t
    have first : t ⊆ c :: cs := by
      rw [← ht]
      split_ifs
      · exact List.subset_cons_self c cs
      · exact List.Subset.refl _
    refine List.Subset.trans ?_ first
    simp only [dropOuterQuotes, ht]
    split
    · next d ds he =>
      split_ifs
      · intro x hx
        rw [← List.mem_reverse, he]
        exact List.mem_cons_of_mem d (List.mem_reverse.1 hx)
      · exact List.Subset.refl t
    · exact List.nil_subset t

theorem subset_of_call? {s name argument : Text} (h : call? s = some (name, some argument)) :
    argument ⊆ s := by
  have parts : s.takeWhile Text.isWord ++ s.dropWhile Text.isWord = s :=
    List.takeWhile_append_dropWhile
  rw [call?, List.span_eq_takeWhile_dropWhile] at h
  split at h
  · cases h
  · cases h
  · next name' rest _ he =>
    split at h
    · cases h
    · obtain ⟨-, rfl⟩ : name' = name ∧ Text.trimStart rest = argument := by simpa using h
      have behind : s.dropWhile Text.isWord = ':' :: rest := (Prod.mk.inj he).2
      intro c hc
      rw [← parts, behind]
      have inRest : c ∈ rest := (List.dropWhile_suffix _).subset hc
      exact List.mem_append_right _ (List.mem_cons_of_mem _ inRest)
  · cases h

theorem subset_of_replaceArguments {s search replacement : Text}
    (h : replaceArguments.readAll? s = some (search, replacement)) : replacement ⊆ s := by
  rw [Reader.readAll?] at h
  split at h
  · next pair read =>
    obtain rfl : pair = (search, replacement) := by simpa using h
    obtain ⟨_, s₁, h₁, read⟩ := Reader.bind_eq_some.1 read
    obtain ⟨_, s₂, h₂, read⟩ := Reader.bind_eq_some.1 read
    obtain ⟨_, s₃, h₃, read⟩ := Reader.bind_eq_some.1 read
    obtain ⟨_, s₄, h₄, read⟩ := Reader.bind_eq_some.1 read
    obtain ⟨_, s₅, h₅, read⟩ := Reader.bind_eq_some.1 read
    obtain ⟨r, s₆, h₆, read⟩ := Reader.bind_eq_some.1 read
    have behind : s₅ <:+ s :=
      ((Reader.leaves_char _).suffix h₅).trans <| (Reader.leaves_blanks.suffix h₄).trans <|
        ((Reader.leaves_satisfy _).suffix h₃).trans <| ((Reader.leaves_run _).suffix h₂).trans <|
          (Reader.leaves_satisfy _).suffix h₁
    obtain rfl : s₅ = r := (Prod.mk.inj (Option.some.inj h₆)).1
    simp only at read
    split_ifs at read
    · cases read
    · have taken : Text.trim s₅ = replacement :=
        (Prod.mk.inj (Prod.mk.inj (Option.some.inj read)).1).2
      rw [← taken]
      exact List.Subset.trans (Text.isInfix_trim s₅).subset behind.subset
  · cases h

theorem notMem_parse {s t : Text} (hs : '{' ∉ s) (ht : (parse s).argument? = some t) :
    '{' ∉ t := by
  rw [parse] at ht
  split at ht
  · cases ht
  · next name argument found =>
    have given {default : Text} (hd : '{' ∉ default) : '{' ∉ argument.getD default := by
      cases argument with
      | none => exact hd
      | some a => exact fun h => hs (subset_of_call? found h)
    split_ifs at ht
    · cases ht
    · split at ht
      · next search replacement read =>
        obtain rfl : replacement = t := by simpa [argument?] using ht
        obtain ⟨a, rfl, ha⟩ := Option.bind_eq_some_iff.1 read
        exact fun h => hs (subset_of_call? found (subset_of_replaceArguments ha h))
      · cases ht
    · obtain rfl := Option.some.inj ht
      exact given (by decide)
    · obtain rfl := Option.some.inj ht
      exact given (by decide)
    · obtain rfl := Option.some.inj ht
      exact given (by decide)
    · obtain rfl := Option.some.inj ht
      exact given (by decide)
    · obtain rfl := Option.some.inj ht
      exact given (by decide)
    · cases ht
    · cases ht
    · obtain rfl := Option.some.inj ht
      exact given (by decide)
    · cases ht

end Filter

/-! ## Expressions -/

/-- Under bindings without opening braces the expression gives a value without them. -/
def Expr.Safe (store : Store) (e : Expr) : Prop :=
  ∀ b : Bindings, Bindings.NoBrace b → Gives Value.NoBrace (e.eval store b)

theorem noBrace_replacementValue {v : Value} (h : v.NoBrace) (source : Text) :
    (replacementValue source v).NoBrace := by
  cases v with
  | str s =>
    rw [replacementValue]
    split_ifs
    · exact .str fun hm => Value.noBrace_str.1 h (Filter.dropOuterQuotes_subset s hm)
    · exact h
  | _ => exact h

section
variable (hstore : store.NoBrace) (hb : Bindings.NoBrace b)
include hb

theorem gives_evalFilter (f : Filter Expr) (hf : ∀ e, f.argument? = some e → e.Safe store)
    {v : Value} (hv : v.NoBrace) : Gives Value.NoBrace (evalFilter store b f v) := by
  cases f with
  | split delimiter => rw [evalFilter]; exact hv.splitText delimiter
  | replace search source replacement =>
    rw [evalFilter]
    refine (hf replacement rfl b hb).bind fun r hr => ?_
    exact hv.replaceText (noBrace_replacementValue hr source) search
  | append suffix =>
    rw [evalFilter]
    refine (hf suffix rfl b hb).bind fun s hs => ?_
    refine hv.gives_toText.bind fun t ht => hs.gives_toText.bind fun u hu => .ok (.str ?_)
    rw [List.mem_append, not_or]
    exact ⟨ht, hu⟩
  | arithmetic operation operand =>
    rw [evalFilter]
    exact operation.gives_apply v _
  | uniq => rw [evalFilter]; exact .ok hv.uniq
  | sortNatural => rw [evalFilter]; exact hv.sortNatural
  | findIndex sought =>
    cases v with
    | list id items =>
      rw [evalFilter]
      refine (Gives.any _).bind fun _ _ => (Gives.any _).bind fun _ _ => ?_
      exact (Gives.any _).bind fun _ _ => .ok (.number _)
    | _ =>
      rw [evalFilter]
      · exact .ok (.number _)
      · intro _ _ h
        cases h
  | keep => rw [evalFilter]; exact .ok hv

theorem gives_evalFilters (fs : List (Filter Expr))
    (hfs : ∀ f ∈ fs, ∀ e, f.argument? = some e → e.Safe store) {v : Value} (hv : v.NoBrace) :
    Gives Value.NoBrace (evalFilters store b fs v) := by
  induction fs generalizing v with
  | nil => rw [evalFilters]; exact .ok hv
  | cons f fs ih =>
    rw [List.forall_mem_cons] at hfs
    rw [evalFilters]
    exact (gives_evalFilter hb f hfs.1 hv).bind fun w hw => ih hfs.2 hw

end

/-- The parts of an expression are made from the characters of its text. -/
theorem Text.subset_of_mem_splitPipes {s p : Text} (h : p ∈ splitPipes s) : p ⊆ s := by
  have pieces (s : Text) (escaped : Bool) (quote : Option Char) :
      ∀ p ∈ pipePieces escaped quote s, p ⊆ s := by
    induction s generalizing escaped quote with
    | nil =>
      intro p hp
      rw [List.mem_singleton.1 hp]
      exact List.Subset.refl _
    | cons c s ih =>
      have later (escaped : Bool) (quote : Option Char) :
          ∀ p ∈ pipePieces escaped quote s, p ⊆ c :: s :=
        fun p hp => List.Subset.trans (ih escaped quote p hp) (List.subset_cons_self c s)
      intro p hp
      rw [pipePieces] at hp
      split_ifs at hp
      · rcases List.mem_cons.1 hp with rfl | hp
        · exact List.nil_subset _
        · exact later _ _ p hp
      · have known := ih (c == '\\') (quoteAfter escaped quote c)
        have known' := later (c == '\\') (quoteAfter escaped quote c)
        cases hl : pipePieces (c == '\\') (quoteAfter escaped quote c) s with
        | nil =>
          rw [hl, consToFirst, List.mem_singleton] at hp
          rw [hp]
          exact List.cons_subset_cons c (List.nil_subset s)
        | cons q qs =>
          rw [hl] at known known'
          rw [hl, consToFirst] at hp
          rcases List.mem_cons.1 hp with rfl | hp
          · exact List.cons_subset_cons c (known q List.mem_cons_self)
          · exact known' p (List.mem_cons_of_mem q hp)
  have trimmed (ps : List Text) : ∀ p ∈ trimPieces ps, ∃ q ∈ ps, p ⊆ q := by
    induction ps with
    | nil => intro p hp; cases hp
    | cons q qs ih =>
      intro p hp
      cases qs with
      | nil =>
        rw [trimPieces] at hp
        split_ifs at hp
        · cases hp
        · rw [List.mem_singleton.1 hp]
          exact ⟨q, List.mem_singleton_self q, (isInfix_trim q).subset⟩
      | cons q' qs =>
        rw [trimPieces] at hp
        · rcases List.mem_cons.1 hp with rfl | hp
          · exact ⟨q, List.mem_cons_self, (isInfix_trim q).subset⟩
          · obtain ⟨r, hr, hp⟩ := ih p hp
            exact ⟨r, List.mem_cons_of_mem q hr, hp⟩
        · exact List.cons_ne_nil q' qs
  obtain ⟨q, hq, hp⟩ := trimmed _ p h
  exact List.Subset.trans hp (pieces s _ _ q hq)

/-- The expression that a text without opening braces writes is safe. -/
theorem Expr.safe_parse (hstore : store.NoBrace) {s : Text} (hs : '{' ∉ s) :
    (Expr.parse s).Safe store := by
  induction hn : s.length using Nat.strong_induction_on generalizing s with
  | _ n ih =>
    intro b hb
    have ofText {t : Text} (ht : '{' ∉ t) : (ofText t).Safe store := by
      intro b hb
      rw [Expr.ofText, Expr.eval, evalBase]
      refine Gives.bind (.ok (Value.NoBrace.str ht)) fun v hv => ?_
      rw [evalFilters]
      exact .ok hv
    have argument {t : Text} (ht : '{' ∉ t) :
        (if t.length < s.length then Expr.parse t else Expr.ofText t).Safe store := by
      split_ifs with shorter
      · exact ih t.length (hn ▸ shorter) ht rfl
      · exact ofText ht
    have parts : ∀ p ∈ Text.splitPipes (Text.trim s), '{' ∉ p := fun p hp h =>
      hs ((Text.isInfix_trim s).subset (Text.subset_of_mem_splitPipes hp h))
    rw [Expr.parse]
    split
    · exact ofText List.not_mem_nil b hb
    · next base filters he =>
      rw [he, List.forall_mem_cons] at parts
      rw [Expr.eval]
      refine (gives_evalBase hstore hb _ fun t ht => ?_).bind fun v hv =>
        gives_evalFilters hb _ (fun f hf e he => ?_) hv
      · rw [Base.text?_map] at ht
        exact Base.notMem_parse parts.1 ht
      · obtain ⟨part, hp, rfl⟩ := List.mem_map.1 hf
        rw [Filter.argument?_map, Option.map_eq_some_iff] at he
        obtain ⟨t, ht, rfl⟩ := he
        exact argument (Filter.notMem_parse (parts.2 part hp) ht)

end ThemeProps
