/-
  The memory of a session.

  A session remembers settings and colors, and a color may come back that was
  read for another opacity of equal value.

  * `Session.Faithful`: all that a session remembers is what the store says;
  * `Gives store P action`: whatever the session remembers of the store, the
    action gives a value with the property and leaves such a session. There is
    one `gives_` lemma for each way to look something up;
  * `Query` is a question to a session, and `answers` are the answers to some of
    them, one after the other;
  * `answers_fresh`: each answer is that of a new session, up to the form of the
    opacity of a color.
-/
import ThemeProps.Proofs.Color
import ThemeProps.Settings.Session
import Mathlib.Data.List.Basic
import Mathlib.Data.List.Forall2
import Mathlib.Tactic.Common

namespace ThemeProps

/-! ## Numbers of equal value -/

namespace Number

/-- The number has a value: it is not the double that is none. -/
def Valued : Number → Prop
  | int _ => True
  | float x => x.isNaN = false

instance : (n : Number) → Decidable n.Valued
  | int _ => inferInstanceAs (Decidable True)
  | float _ => inferInstanceAs (Decidable (_ = _))

theorem same_self {n : Number} (h : n.Valued) : n.same n = true := by
  cases n with
  | int n => exact beq_self_eq_true n
  | float x =>
    -- The comparison goes by the unpacked form, in which only NaN differs from itself.
    change (x.toModel.unpack.beq x.toModel.unpack) = true
    have valued : x.toModel.unpack.isNaN = false := h
    cases hx : x.toModel.unpack with
    | notANumber => rw [hx] at valued; cases valued
    | infinity sign => cases sign <;> rfl
    | zero sign => cases sign <;> rfl
    | finite sign m e pos =>
      have equal : (compare e e).then (compare m m) = .eq := by simp
      refine beq_iff_eq.2 ?_
      cases sign with
      | positive => exact congrArg some equal
      | negative => exact congrArg (fun order => some order.swap) equal

/-- Numbers of the value one are written alike. -/
theorem toText_of_same_one {n : Number} (h : n.same (.int 1) = true) :
    n.toText = .ok ("1" : Text) := by
  cases n with
  | int n =>
    obtain rfl : n = 1 := by simpa [same] using h
    rfl
  | float x =>
    have whole : integer? x = some 1 := by simpa [same] using h
    rw [toText, floatText, whole]
    rfl

end Number

/-! ## Colors that differ in the form of their opacity -/

namespace Color

/-- The colors have equal channels, and opacities of equal value. -/
structure Same (c c' : Color) : Prop where
  red : c.red = c'.red
  green : c.green = c'.green
  blue : c.blue = c'.blue
  alpha : c.alpha.same c'.alpha = true

theorem lt_of_mem_bytes? {digits : Text} {ns : List Nat} (h : bytes? digits = some ns) :
    ∀ n ∈ ns, n < 256 := by
  induction ns generalizing digits with
  | nil => simp
  | cons n ns ih =>
    obtain ⟨high, low, rest, rfl, byte, more⟩ := bytes?_eq_cons.1 h
    exact List.forall_mem_cons.2 ⟨Nat.lt_succ_of_le byte.le, ih more⟩

/-- An opacity that is read from a byte has a value. -/
theorem same_byte {n : Nat} (h : n < 256) :
    Number.same (.float (Float.ofNat n / 255)) (.float (Float.ofNat n / 255)) = true := by
  have valued : ∀ n < 256, (Float.ofNat n / 255).isNaN = false := by decide +kernel
  exact Number.same_self (n := .float (Float.ofNat n / 255)) (valued n h)

/-- A color read for one of two opacities of equal value is the same as for the other. -/
theorem same_ofHex? {a b : Number} (h : a.same b = true) (hex : Text) :
    Option.Rel Same (ofHex? a hex) (ofHex? b hex) := by
  unfold ofHex?
  cases hb : bytes? (longDigits (dropMark hex)) with
  | none => exact .none
  | some ns =>
    match ns with
    | [] | [_] | [_, _] | _ :: _ :: _ :: _ :: _ :: _ => exact .none
    | [_, _, _] => exact .some ⟨rfl, rfl, rfl, h⟩
    | [_, _, _, opacity] =>
      have byte : opacity < 256 := lt_of_mem_bytes? hb opacity (by simp)
      exact .some ⟨rfl, rfl, rfl, same_byte byte⟩

end Color

namespace Session

variable {α β : Type} {store : Store} {s : Session}

/-! ## What a session remembers -/

/-- A session over a store that remembers nothing but what the store says. -/
structure Faithful (store : Store) (s : Session) : Prop where
  sameStore : s.store = store
  settings : ∀ path v, (path, v) ∈ s.settings → v = store.get path
  colors : ∀ hex alpha c, ((hex, alpha), c) ∈ s.colors → c = Color.ofHex? alpha hex

theorem faithful_new (store : Store) : Faithful store { store } :=
  ⟨rfl, fun _ _ h => absurd h List.not_mem_nil, fun _ _ _ h => absurd h List.not_mem_nil⟩

/-- Over any faithful session the action gives a value with the property and leaves a faithful
session. -/
def Gives (store : Store) (p : α → Prop) (action : Lookup α) : Prop :=
  ∀ s, Faithful store s → p (action s).1 ∧ Faithful store (action s).2

section
variable {p : α → Prop} {q : β → Prop}

theorem gives_pure {v : α} (h : p v) : Gives store p (pure v) := fun _ hs => ⟨h, hs⟩

theorem Gives.bind {action : Lookup α} {f : α → Lookup β} (h : Gives store p action)
    (hf : ∀ v, p v → Gives store q (f v)) : Gives store q (action >>= f) := by
  intro s hs
  obtain ⟨first, between⟩ := h s hs
  exact hf _ first _ between

end

theorem gives_get (path : Text) : Gives store (· = store.get path) (get path) := by
  intro s hs
  unfold get
  split
  · next v found =>
    obtain ⟨before, behind, he, -⟩ := List.lookup_eq_some_iff.1 found
    exact ⟨hs.settings path v (by rw [he]; simp), hs⟩
  · refine ⟨by rw [hs.sameStore], hs.sameStore, fun key v hmem => ?_, hs.colors⟩
    rcases List.mem_cons.1 hmem with he | hmem
    · obtain ⟨rfl, rfl⟩ := Prod.mk.inj he
      rw [hs.sameStore]
    · exact hs.settings key v hmem

/-- A color comes back as it was read for some opacity of equal value. -/
theorem gives_color {alpha : Number} (h : alpha.Valued) (hex : Text) :
    Gives store (fun c => ∃ a, a.same alpha = true ∧ c = Color.ofHex? a hex) (color alpha hex) := by
  intro s hs
  unfold color
  split
  · next key c found =>
    obtain ⟨hex', a⟩ := key
    have matched : hex' = hex ∧ a.same alpha = true := by simpa using List.find?_some found
    obtain ⟨rfl, value⟩ := matched
    exact ⟨⟨a, value, hs.colors hex' a c (List.mem_of_find?_eq_some found)⟩, hs⟩
  · refine ⟨⟨alpha, Number.same_self h, rfl⟩, hs.sameStore, hs.settings, ?_⟩
    intro hex' alpha' c hmem
    rcases List.mem_cons.1 hmem with he | hmem
    · obtain ⟨key, rfl⟩ := Prod.mk.inj he
      obtain ⟨rfl, rfl⟩ := Prod.mk.inj key
      rfl
    · exact hs.colors hex' alpha' c hmem

/-! ## Writing settings -/

/-- A color text is written alike for all opacities of the value one. -/
theorem channels_of_same {a : Number} (h : a.same (.int 1) = true) (hex accessor : Text) :
    (Color.ofHex? a hex).elim (.ok hex) (Color.channels accessor) =
      (Color.ofHex? (.int 1) hex).elim (.ok hex) (Color.channels accessor) := by
  unfold Color.ofHex?
  split
  · next red green blue _ =>
    have opacity : a.toText = (Number.int 1).toText := Number.toText_of_same_one h
    have rgba : Color.toRgba ⟨red, green, blue, a⟩ = Color.toRgba ⟨red, green, blue, .int 1⟩ := by
      rw [Color.toRgba, Color.toRgba, opacity]
    rw [Option.elim_some, Option.elim_some, Color.channels, Color.channels, rgba]
    rfl
  · rfl
  · rfl

/-- The action gives what is given without a memory. -/
def Agrees (store : Store) (action : Lookup α) (direct : Id α) : Prop :=
  Gives store (· = direct.run) action

theorem agrees_pure (v : α) : Agrees store (pure v) (pure v) := gives_pure rfl

theorem Agrees.bind {action : Lookup α} {direct : Id α} {f : α → Lookup β} {f' : α → Id β}
    (h : Agrees store action direct) (hf : ∀ v, Agrees store (f v) (f' v)) :
    Agrees store (action >>= f) (direct >>= f') :=
  Gives.bind h fun v hv => hv ▸ hf v

theorem agrees_get (path : Text) : Agrees store (get path) (pure (store.get path)) :=
  gives_get path

theorem agrees_formatColor (hex accessor : Text) :
    Agrees store (formatColorBy (color (.int 1)) hex accessor)
      (formatColorBy (fun hex => pure (Color.ofHex? (.int 1) hex)) hex accessor) := by
  have one : Number.Valued (.int 1) := trivial
  refine (gives_color one hex).bind fun c ⟨a, value, hc⟩ => ?_
  have direct : Id.run (formatColorBy (fun hex => pure (Color.ofHex? (.int 1) hex)) hex accessor)
      = c.elim (.ok hex) (Color.channels accessor) := by
    rw [hc, channels_of_same value, formatColorBy]
    cases Color.ofHex? (.int 1) hex <;> rfl
  rw [direct]
  cases c <;> exact gives_pure rfl

theorem agrees_renderPlain (path : Text) :
    Agrees store (renderPlainBy get path)
      (renderPlainBy (fun key => pure (store.get key)) path) := by
  refine (agrees_get path).bind fun v => ?_
  cases v <;> exact agrees_pure _

theorem agrees_renderSetting (path : Text) :
    Agrees store (renderSetting path) (store.renderSetting path) := by
  unfold renderSetting Store.renderSetting renderSettingBy
  cases accessor? path with
  | none => exact agrees_renderPlain path
  | some parts =>
    obtain ⟨base, accessor⟩ := parts
    refine (agrees_get base).bind fun v => ?_
    cases v with
    | str hex =>
      by_cases h : isColorText hex
      · simp only [h, if_true]
        exact agrees_formatColor hex accessor
      · simp only [h]
        exact agrees_renderPlain path
    | _ => exact agrees_renderPlain path

theorem agrees_renderScheme (path : Text) :
    Agrees store (renderSchemeBy store (color (.int 1)) path)
      (renderSchemeBy store (fun hex => pure (Color.ofHex? (.int 1) hex)) path) := by
  unfold renderSchemeBy
  split
  · next id fields _ =>
    dsimp only
    generalize (Value.map id fields).atKeysLeniently (Text.splitAtChar '.' path) = v
    cases v with
    | str s =>
      by_cases h : isColorText s
      · simp only [h, if_true]
        exact agrees_formatColor s _
      · simp only [h]
        exact agrees_pure _
    | _ => exact agrees_pure _
  · exact agrees_pure _

theorem agrees_renderSchemeSetting (path : Text) :
    Agrees store (renderSchemeSetting path) (store.renderSchemeSetting path) := by
  intro s hs
  have rendered := agrees_renderScheme path s hs
  rw [← hs.sameStore] at rendered ⊢
  exact rendered

theorem agrees_firstSchemeId? : Agrees store firstSchemeId? (pure store.firstSchemeId?) :=
  fun _ hs => ⟨congrArg Store.firstSchemeId? hs.sameStore, hs⟩

/-! ## Questions and answers -/

/-- A question to a session. -/
inductive Query where
  | setting (path : Text)
  /-- a setting as a stylesheet shows it -/
  | rendering (path : Text)
  /-- a setting of the first color scheme as a stylesheet shows it -/
  | schemeRendering (path : Text)
  | firstScheme
  /-- a hex color with an opacity -/
  | color (alpha : Number) (hex : Text)

/-- The answer to a question. -/
inductive Reply where
  | value (v : Value)
  /-- a text, unless a number in it has too many digits -/
  | text (s : Evaluation Text)
  | scheme (id : Option Text)
  | color (c : Option Color)

namespace Query

/-- A color is asked for with an opacity that has a value. -/
def Valued : Query → Prop
  | color alpha _ => alpha.Valued
  | _ => True

instance : (q : Query) → Decidable q.Valued
  | color alpha _ => inferInstanceAs (Decidable alpha.Valued)
  | setting _ | rendering _ | schemeRendering _ | firstScheme => inferInstanceAs (Decidable True)

/-- Asking a session. -/
def ask : Query → Lookup Reply
  | setting path => .value <$> get path
  | rendering path => .text <$> renderSetting path
  | schemeRendering path => .text <$> renderSchemeSetting path
  | firstScheme => .scheme <$> firstSchemeId?
  | color alpha hex => .color <$> Session.color alpha hex

/-- What the store says to a question. -/
def reply (store : Store) : Query → Reply
  | setting path => .value (store.get path)
  | rendering path => .text (store.renderSetting path)
  | schemeRendering path => .text (store.renderSchemeSetting path)
  | firstScheme => .scheme store.firstSchemeId?
  | color alpha hex => .color (Color.ofHex? alpha hex)

end Query

/-- The answers are the same, colors up to the form of their opacity. -/
def Reply.Same : Reply → Reply → Prop
  | color c, color c' => Option.Rel Color.Same c c'
  | r, r' => r = r'

theorem gives_ask {q : Query} (h : q.Valued) :
    Gives store (Reply.Same · (q.reply store)) q.ask := by
  have exactly {α : Type} {action : Lookup α} {v : α} {f : α → Reply}
      (h : Agrees store action (pure v)) (hf : (f v).Same (f v)) :
      Gives store (Reply.Same · (f v)) (f <$> action) :=
    Gives.bind h fun u hu => gives_pure (by obtain rfl : u = v := hu; exact hf)
  cases q with
  | setting path => exact exactly (agrees_get path) rfl
  | rendering path => exact exactly (agrees_renderSetting path) rfl
  | schemeRendering path => exact exactly (agrees_renderSchemeSetting path) rfl
  | firstScheme => exact exactly agrees_firstSchemeId? rfl
  | color alpha hex =>
    refine (gives_color h hex).bind fun c ⟨a, value, hc⟩ => gives_pure ?_
    rw [hc]
    exact Color.same_ofHex? value hex

/-- The answers of a session to some questions, one after the other. -/
def answers (s : Session) : List Query → List Reply
  | [] => []
  | q :: qs => (q.ask s).1 :: answers (q.ask s).2 qs

theorem ask_new (store : Store) (q : Query) : (q.ask { store }).1 = q.reply store := by
  have new := faithful_new store
  cases q with
  | setting path => exact congrArg Reply.value (agrees_get path _ new).1
  | rendering path => exact congrArg Reply.text (agrees_renderSetting path _ new).1
  | schemeRendering path => exact congrArg Reply.text (agrees_renderSchemeSetting path _ new).1
  | firstScheme => rfl
  | color alpha hex => rfl

/-- What a session remembers does not show. -/
theorem answers_same (hs : Faithful store s) {qs : List Query} (h : ∀ q ∈ qs, q.Valued) :
    List.Forall₂ Reply.Same (answers s qs) (qs.map (Query.reply store)) := by
  induction qs generalizing s with
  | nil => exact .nil
  | cons q qs ih =>
    rw [List.forall_mem_cons] at h
    obtain ⟨same, after⟩ := gives_ask h.1 s hs
    exact .cons same (ih after h.2)

/-- **The memory of a session is invisible.** In any run of questions each answer is the one that a
new session over the same settings gives, where colors are the same if their channels are equal and
their opacities have equal values. -/
theorem answers_fresh (store : Store) (qs : List Query) (h : ∀ q ∈ qs, q.Valued) :
    List.Forall₂ Reply.Same (answers { store } qs) (qs.map fun q => (q.ask { store }).1) := by
  have fresh : (qs.map fun q => (q.ask { store }).1) = qs.map (Query.reply store) :=
    List.map_congr_left fun q _ => ask_new store q
  rw [fresh]
  exact answers_same (faithful_new store) h

theorem answers_fresh_accent :
    let store : Store := { current := [("accent", .str "#336699")] }
    let qs : List Query :=
      [.color (.float 1) "#336699", .rendering "accent.rgba", .color (.int 1) "#336699"]
    (∀ q ∈ qs, q.Valued) ∧
      List.Forall₂ Reply.Same (answers { store } qs) (qs.map fun q => (q.ask { store }).1) := by
  intro store qs
  have valued : ∀ q ∈ qs, q.Valued := by decide +kernel
  exact ⟨valued, answers_fresh store qs valued⟩

/-- The last color comes back with the opacity that the first question had. -/
example :
    (answers { store := {} } [.color (.float 1) "#369", .color (.int 1) "#369"])[1]? =
      some (.color (some ⟨51, 102, 153, .float 1⟩)) := by
  rfl

end Session
end ThemeProps
