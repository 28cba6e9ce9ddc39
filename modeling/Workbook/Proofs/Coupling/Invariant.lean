/-
Couplings of a store with itself.

What formulas and scripts do on their own changes little that lasts: they make new
containers, blocks and evaluations, modify containers that are not frozen, and freeze
some.  `Store.Ordinary` says so, and an invariant that ordinary changes keep gives a
coupling in which everything is paired with itself.
-/
import Workbook.Proofs.Coupling

open List (Forall₂)

namespace Workbook

/-! ## Ordinary changes -/

/-- The container, frozen. -/
def Container.sealed {α : Type} (c : Container α) : Container α :=
  { c with frozen := true }

/-- Frozen containers are as they were: their contents, versions and all. -/
structure Store.FrozenKept (s s' : Store) : Prop where
  arrays : ∀ (place : Nat) (c : Container (Array Native)), s.arrays[place]? = some c →
    c.frozen = true → s'.arrays[place]? = some c
  objects : ∀ (place : Nat) (c : Container Fields), s.objects[place]? = some c →
    c.frozen = true → s'.objects[place]? = some c

/-- What becomes of a store through formulas and scripts as long as they enter no session:
lazy entries, sessions and modules stay, and so do frozen containers and the identities that
were given out. -/
structure Store.Ordinary (s s' : Store) : Prop extends Store.FrozenKept s s' where
  thunks : s'.thunks = s.thunks
  sessions : s'.sessions = s.sessions
  modules : s'.modules = s.modules
  fresh : s.fresh ≤ s'.fresh

namespace Store

theorem FrozenKept.refl (s : Store) : s.FrozenKept s :=
  ⟨fun _ _ h _ => h, fun _ _ h _ => h⟩

theorem FrozenKept.trans {s t u : Store} (h : s.FrozenKept t) (h' : t.FrozenKept u) :
    s.FrozenKept u :=
  ⟨fun place c hc hf => h'.arrays place c (h.arrays place c hc hf) hf,
    fun place c hc hf => h'.objects place c (h.objects place c hc hf) hf⟩

theorem Ordinary.refl (s : Store) : s.Ordinary s :=
  ⟨.refl s, rfl, rfl, rfl, Nat.le_refl _⟩

theorem Ordinary.trans {s t u : Store} (h : s.Ordinary t) (h' : t.Ordinary u) : s.Ordinary u :=
  ⟨h.toFrozenKept.trans h'.toFrozenKept, h'.thunks.trans h.thunks, h'.sessions.trans h.sessions,
    h'.modules.trans h.modules, Nat.le_trans h.fresh h'.fresh⟩

/-- Changes of blocks, evaluations, executions, the console and the next identity are
ordinary. -/
theorem ordinary_of_eq {s s' : Store} (arrays : s'.arrays = s.arrays)
    (objects : s'.objects = s.objects) (thunks : s'.thunks = s.thunks)
    (sessions : s'.sessions = s.sessions) (modules : s'.modules = s.modules)
    (fresh : s.fresh ≤ s'.fresh) : s.Ordinary s' :=
  ⟨⟨fun _ _ h _ => arrays ▸ h, fun _ _ h _ => objects ▸ h⟩, thunks, sessions, modules, fresh⟩

/-- What is in an array stays there when the array grows. -/
theorem push_getElem? {α : Type} {as : Array α} {place : Nat} {a b : α}
    (h : as[place]? = some a) : (as.push b)[place]? = some a := by
  have hlt : place < as.size := (Array.getElem?_eq_some_iff.1 h).1
  rw [Array.getElem?_push, if_neg (Nat.ne_of_lt hlt), h]

theorem ordinary_newArray (s : Store) (c : Container (Array Native)) :
    s.Ordinary { s with arrays := s.arrays.push c } :=
  ⟨⟨fun _ _ h _ => push_getElem? h, fun _ _ h _ => h⟩, rfl, rfl, rfl, Nat.le_refl _⟩

theorem ordinary_newObject (s : Store) (c : Container Fields) :
    s.Ordinary { s with objects := s.objects.push c } :=
  ⟨⟨fun _ _ h _ => h, fun _ _ h _ => push_getElem? h⟩, rfl, rfl, rfl, Nat.le_refl _⟩

/-- A container that is not frozen may be modified in any way. -/
theorem ordinary_modifyArray {s : Store} {place : Nat} (h : s.arrayFrozen place = false)
    (f : Container (Array Native) → Container (Array Native)) :
    s.Ordinary (s.modifyArray place f) := by
  refine ⟨⟨fun other c hc hf => ?_, fun _ _ h _ => h⟩, rfl, rfl, rfl, Nat.le_refl _⟩
  have hne : place ≠ other := by
    rintro rfl
    simp [arrayFrozen, hc, hf] at h
  simp [modifyArray, Array.getElem?_modify, hne, hc]

theorem ordinary_modifyObject {s : Store} {place : Nat} (h : s.objectFrozen place = false)
    (f : Container Fields → Container Fields) : s.Ordinary (s.modifyObject place f) := by
  refine ⟨⟨fun _ _ h _ => h, fun other c hc hf => ?_⟩, rfl, rfl, rfl, Nat.le_refl _⟩
  have hne : place ≠ other := by
    rintro rfl
    simp [objectFrozen, hc, hf] at h
  simp [modifyObject, Array.getElem?_modify, hne, hc]

/-- Freezing an array that is there and not frozen yet. -/
theorem freezeOne_array {s : Store} {place : Nat} {c : Container (Array Native)}
    (h : s.arrays[place]? = some c) (hc : c.frozen = false) :
    s.freezeOne (.array place) = (s.modifyArray place .sealed, c.content.toList) := by
  simp only [freezeOne, h, hc]
  rfl

theorem freezeOne_object {s : Store} {place : Nat} {c : Container Fields}
    (h : s.objects[place]? = some c) (hc : c.frozen = false) :
    s.freezeOne (.object place) = (s.modifyObject place .sealed, c.content.map (·.2)) := by
  simp only [freezeOne, h, hc]
  rfl

/-- Freezing anything else does nothing. -/
theorem freezeOne_array_of_frozen {s : Store} {place : Nat}
    (h : ∀ c, s.arrays[place]? = some c → c.frozen = true) :
    s.freezeOne (.array place) = (s, []) := by
  unfold freezeOne
  cases hp : s.arrays[place]? with
  | none => simp only [hp]
  | some c => simp only [hp, h c hp, if_true]

theorem freezeOne_object_of_frozen {s : Store} {place : Nat}
    (h : ∀ c, s.objects[place]? = some c → c.frozen = true) :
    s.freezeOne (.object place) = (s, []) := by
  unfold freezeOne
  cases hp : s.objects[place]? with
  | none => simp only [hp]
  | some c => simp only [hp, h c hp, if_true]

/-- Freezing one value does nothing, or freezes an array or object that was not frozen, whose
contents are still to come. -/
theorem freezeOne_shape (s : Store) (v : Native) :
    s.freezeOne v = (s, []) ∨
      (∃ place c, v = .array place ∧ s.arrays[place]? = some c ∧ c.frozen = false ∧
        s.freezeOne v = (s.modifyArray place .sealed, c.content.toList)) ∨
      ∃ place c, v = .object place ∧ s.objects[place]? = some c ∧ c.frozen = false ∧
        s.freezeOne v = (s.modifyObject place .sealed, c.content.map (·.2)) := by
  cases v with
  | array place =>
    by_cases h : ∀ c, s.arrays[place]? = some c → c.frozen = true
    · exact .inl (freezeOne_array_of_frozen h)
    · push Not at h
      obtain ⟨c, hc, hf⟩ := h
      have hf : c.frozen = false := by simpa using hf
      exact .inr (.inl ⟨place, c, rfl, hc, hf, freezeOne_array hc hf⟩)
  | object place =>
    by_cases h : ∀ c, s.objects[place]? = some c → c.frozen = true
    · exact .inl (freezeOne_object_of_frozen h)
    · push Not at h
      obtain ⟨c, hc, hf⟩ := h
      have hf : c.frozen = false := by simpa using hf
      exact .inr (.inr ⟨place, c, rfl, hc, hf, freezeOne_object hc hf⟩)
  | _ => exact .inl rfl

/-- What every freezing of one value does to a store, freezing several with all that is in them
does. -/
theorem freezeAll_of_freezeOne {R : Store → Store → Prop} (refl : ∀ s, R s s)
    (trans : ∀ {s t u}, R s t → R t u → R s u) (one : ∀ s v, R s (s.freezeOne v).1) (fuel : Nat)
    (s : Store) (vs : List Native) : R s (freezeAll fuel s vs) := by
  induction fuel generalizing s vs with
  | zero => exact refl s
  | succ fuel ih =>
    unfold freezeAll
    induction vs generalizing s with
    | nil => exact refl s
    | cons v vs ihv =>
      rw [List.foldl_cons]
      exact trans (trans (one s v) (ih _ _)) (ihv _)

/-- Freezing one value leaves what is frozen already as it is. -/
theorem ordinary_freezeOne (s : Store) (v : Native) : s.Ordinary (s.freezeOne v).1 := by
  obtain h | ⟨place, c, -, hc, hf, h⟩ | ⟨place, c, -, hc, hf, h⟩ := s.freezeOne_shape v
  · rw [h]
    exact .refl s
  · rw [h]
    exact ordinary_modifyArray (by simpa [arrayFrozen, hc] using hf) _
  · rw [h]
    exact ordinary_modifyObject (by simpa [objectFrozen, hc] using hf) _

theorem ordinary_freeze (s : Store) (v : Native) : s.Ordinary (s.freeze v) :=
  freezeAll_of_freezeOne .refl .trans ordinary_freezeOne _ s [v]

end Store

/-! ## Equal from alike -/

theorem Native.eq_of_forall {vs ws : List Native} (h : Forall₂ (Native.Alike .same) vs ws) :
    vs = ws := by
  rw [← List.forall₂_eq_eq_eq]
  exact h.imp fun _ _ => Native.eq_of_alike

theorem Native.forall_self (vs : List Native) : Forall₂ (Native.Alike .same) vs vs :=
  List.forall₂_same.2 fun v _ => alike_self v

/-- Keyed values that are alike are equal if alike values are. -/
theorem Keyed.eq_of_forall {α : Type} {R : α → α → Prop} (hR : ∀ a b, R a b → a = b)
    {es fs : List (String × α)} (h : Forall₂ (Keyed.Alike R) es fs) : es = fs := by
  rw [← List.forall₂_eq_eq_eq]
  refine h.imp fun _ _ he => ?_
  cases he with
  | mk key hv => rw [hR _ _ hv]

theorem ExceptAlike.eq_of_alike {ε α : Type} {R : α → α → Prop} (hR : ∀ a b, R a b → a = b)
    {x y : Except ε α} : ExceptAlike R x y → x = y
  | .ok h => congrArg Except.ok (hR _ _ h)
  | .error _ => rfl

theorem Scope.eq_of_alike {α : Type} {R : α → α → Prop} (hR : ∀ a b, R a b → a = b)
    {sc sc' : Scope α} : Scope.Alike .same R sc sc' → sc = sc'
  | .fixed h => congrArg Scope.fixed (Keyed.eq_of_forall (fun _ _ => ExceptAlike.eq_of_alike hR) h)
  | .folder key h => congrArg (Scope.folder · key) h

theorem Container.eq_of_alike {α : Type} {R : α → α → Prop} (hR : ∀ a b, R a b → a = b)
    {c d : Container α} (h : Container.Alike R c d) : c = d := by
  obtain ⟨content, version, frozen⟩ := c
  obtain ⟨content', version', frozen'⟩ := d
  obtain ⟨h₁, h₂, h₃⟩ := h
  rw [Container.mk.injEq]
  exact ⟨hR _ _ h₁, h₂, h₃⟩

/-- Functions that take alike containers to alike containers are equal. -/
theorem Container.funext_of_alike {α : Type} {R : α → α → Prop} (hR : ∀ a b, R a b → a = b)
    (refl : ∀ a, R a a) {f g : Container α → Container α}
    (h : ∀ c d, Container.Alike R c d → Container.Alike R (f c) (g d)) : f = g :=
  funext fun c => eq_of_alike hR (h c c ⟨refl c.content, rfl, rfl⟩)

theorem Variable.eq_of_alike {v w : Variable} (h : Variable.Alike .same v w) : v = w := by
  obtain ⟨value, constant⟩ := v
  obtain ⟨value', constant'⟩ := w
  obtain ⟨h₁, h₂⟩ := h
  rw [Variable.mk.injEq]
  exact ⟨Native.eq_of_alike h₁, h₂⟩

theorem Session.alike_self (s : Session) : Session.Alike .same s s :=
  ⟨rfl, Value.locals_self _, rfl, rfl, Value.alike_self _, Value.alike_self _⟩

theorem Motion.eq_of_alike {m m' : Motion} : Motion.Alike .same m m' → m = m'
  | .shift hx hy => congrArg₂ Motion.shift (Value.eq_of_alike hx) (Value.eq_of_alike hy)
  | .turn _ _ => rfl

theorem Motion.alike_self : ∀ m : Motion, Motion.Alike .same m m
  | .shift x y => .shift x.alike_self y.alike_self
  | .turn sine cosine => .turn sine cosine

/-! ## Requests -/

/-- Whether a statement is asked for. -/
def Request.isStatement : {α : Type} → Request α → Bool
  | _, .statement .. => true
  | _, _ => false

namespace Simulation

theorem flow_eq {f g : Flow} : FlowAlike .same f g → f = g
  | .normal => rfl
  | .returned h => congrArg Flow.returned (Native.eq_of_alike h)
  | .broke => rfl
  | .continued => rfl

theorem flow_self : ∀ f : Flow, FlowAlike .same f f
  | .normal => .normal
  | .returned v => .returned v.alike_self
  | .broke => .broke
  | .continued => .continued

section

variable {S : Simulation} {e₁ e₂ : Engine}

/-- Alike things are the same where everything is paired with itself, so engines that answer alike
give every request the same answer. -/
theorem Answers.agree (he : S.Answers e₁ e₂) (same : ∀ w, S.pairing w = .same)
    (evaluate : ∀ w place key, S.Rel w (e₁.ask (.evaluate place key))
      (e₂.ask (.evaluate place key)) fun _ => Eq)
    (w : S.World) {α : Type} (r : Request α) (hr : r.isStatement = false) :
    S.Rel w (e₁.ask r) (e₂.ask r) fun _ => Eq := by
  have hself {R : Pairing → Prop} (h : R .same) : R (S.pairing w) := (same w).symm ▸ h
  have value {x y : Run Value} (h : S.Rel w x y S.value) : S.Rel w x y fun _ => Eq :=
    h.imp fun w' _ _ _ hab => Value.eq_of_alike (same w' ▸ hab)
  have native {x y : Run Native} (h : S.Rel w x y S.native) : S.Rel w x y fun _ => Eq :=
    h.imp fun w' _ _ _ hab => Native.eq_of_alike (same w' ▸ hab)
  have hv (v : Value) : S.value w v v := hself (R := fun p => Value.Alike p v v) v.alike_self
  cases r with
  | force t => exact value (he.force (hself (R := fun p => p.thunks t t) rfl))
  | text v nested => exact he.text nested (hv v)
  | json v => exact he.json (hv v)
  | native v => exact native (he.native (hv v))
  | equal a b => exact he.equal (hv a) (hv b)
  | move m v => exact value (he.move (hself (R := fun p => Motion.Alike p m m) m.alike_self) (hv v))
  | formula ev ls e =>
    exact value (he.formula e (hself (R := fun p => p.evaluations ev ev) rfl)
      (hself (R := fun p => Forall₂ (Keyed.Alike (Value.Alike p)) ls ls) (Value.locals_self ls)))
  | callTyped f vs =>
    exact value (he.callTyped (hself (R := fun p => TypedFunction.Alike p f f) f.alike_self)
      (hself (R := fun p => Forall₂ (Value.Alike p) vs vs) (Value.forall_self vs)))
  | callNative f vs =>
    exact native (he.callNative (hself (R := fun p => NativeFunction.Alike p f f) f.alike_self)
      (hself (R := fun p => Forall₂ (Native.Alike p) vs vs) (Native.forall_self vs)))
  | invoke run block f name vs =>
    exact native (he.invoke f name (hself (R := fun p => p.executions run run) rfl)
      (hself (R := fun p => p.blocks block block) rfl)
      (hself (R := fun p => Forall₂ (Native.Alike p) vs vs) (Native.forall_self vs)))
  | statement => cases hr
  | expression run block e =>
    exact native (he.expression e (hself (R := fun p => p.executions run run) rfl)
      (hself (R := fun p => p.blocks block block) rfl))
  | evaluate place key => exact evaluate w place key
  | folderValue place key =>
    exact value (he.folderValue key (hself (R := fun p => p.sessions place place) rfl))

theorem Responds.agree (he : S.Responds e₁ e₂) (same : ∀ w, S.pairing w = .same)
    (evaluate : ∀ w place key, S.Rel w (e₁.ask (.evaluate place key))
      (e₂.ask (.evaluate place key)) fun _ => Eq)
    (w : S.World) {α : Type} (r : Request α) : S.Rel w (e₁.ask r) (e₂.ask r) fun _ => Eq := by
  cases hr : r.isStatement with
  | false => exact he.toAnswers.agree same evaluate w r hr
  | true =>
    cases r with
    | statement run block st =>
      have h := he.statement (w := w) st (a := run) (b := run) (c := block) (d := block)
      rw [same w] at h
      exact (h rfl rfl).imp fun w' _ _ _ hab => flow_eq (same w' ▸ hab)
    | _ => cases hr

/-- Engines that give the same answers answer alike requests alike where everything is paired with
itself. -/
theorem answers_of_agree (same : ∀ w, S.pairing w = .same)
    (h : ∀ (w : S.World) {α : Type} (r : Request α), r.isStatement = false →
      S.Rel w (e₁.ask r) (e₂.ask r) fun _ => Eq) : S.Answers e₁ e₂ := by
  have hsame {w : S.World} {R : Pairing → Prop} (hR : R (S.pairing w)) : R .same := same w ▸ hR
  have hself {w : S.World} {R : Pairing → Prop} (hR : R .same) : R (S.pairing w) :=
    (same w).symm ▸ hR
  have valueEq {w : S.World} {v v' : Value} (hv : S.value w v v') : v = v' :=
    Value.eq_of_alike (hsame (R := fun p => Value.Alike p v v') hv)
  have value {w : S.World} {q r : Request Value} (hqr : q = r) (hq : q.isStatement = false) :
      S.Rel w (e₁.ask q) (e₂.ask r) S.value :=
    hqr ▸ (h w q hq).imp fun w' _ a _ hab =>
      hab ▸ hself (R := fun p => Value.Alike p a a) a.alike_self
  have native {w : S.World} {q r : Request Native} (hqr : q = r) (hq : q.isStatement = false) :
      S.Rel w (e₁.ask q) (e₂.ask r) S.native :=
    hqr ▸ (h w q hq).imp fun w' _ a _ hab =>
      hab ▸ hself (R := fun p => Native.Alike p a a) a.alike_self
  have result {w : S.World} (place : Nat) (key : String) :
      S.Rel w (e₁.ask (.evaluate place key)) (e₂.ask (.evaluate place key))
        (S.optional fun w => Result.Alike (S.pairing w)) :=
    (h w _ rfl).imp fun w' _ a _ hab => hab ▸
      hself (R := fun p => Option.Rel (Result.Alike p) a a) (optional_refl Result.alike_self a)
  exact
    { force := fun {w a b} ht =>
        value (congrArg Request.force (hsame (R := fun p => p.thunks a b) ht)) rfl
      text := fun {w v v'} nested hv => valueEq hv ▸ h w (.text v nested) rfl
      json := fun {w v v'} hv => valueEq hv ▸ h w (.json v) rfl
      native := fun hv => native (congrArg Request.native (valueEq hv)) rfl
      equal := fun {w a a' b b'} ha hb => valueEq ha ▸ valueEq hb ▸ h w (.equal a b) rfl
      move := fun {w m m' v v'} hm hv => value (congrArg₂ Request.move
        (Motion.eq_of_alike (hsame (R := fun p => Motion.Alike p m m') hm)) (valueEq hv)) rfl
      formula := fun {w a b ls ls'} e hev hl => value (congrArg₂ (Request.formula · · e)
        (hsame (R := fun p => p.evaluations a b) hev)
        (Value.eq_of_locals (hsame (R := fun p => Forall₂ (Keyed.Alike (Value.Alike p)) ls ls') hl)))
        rfl
      callTyped := fun {w f g vs vs'} hf hv => value (congrArg₂ Request.callTyped
        (TypedFunction.eq_of_alike (hsame (R := fun p => TypedFunction.Alike p f g) hf))
        (Value.eq_of_forall (hsame (R := fun p => Forall₂ (Value.Alike p) vs vs') hv))) rfl
      callNative := fun {w f g vs vs'} hf hv => native (congrArg₂ Request.callNative
        (NativeFunction.eq_of_alike (hsame (R := fun p => NativeFunction.Alike p f g) hf))
        (Native.eq_of_forall (hsame (R := fun p => Forall₂ (Native.Alike p) vs vs') hv))) rfl
      invoke := fun {w a b c d vs vs'} f name hr hb hv => by
        obtain rfl : a = b := hsame (R := fun p => p.executions a b) hr
        obtain rfl : c = d := hsame (R := fun p => p.blocks c d) hb
        exact native (congrArg (Request.invoke a c f name)
          (Native.eq_of_forall (hsame (R := fun p => Forall₂ (Native.Alike p) vs vs') hv))) rfl
      expression := fun {w a b c d} e hr hb => native (congrArg₂ (Request.expression · · e)
        (hsame (R := fun p => p.executions a b) hr) (hsame (R := fun p => p.blocks c d) hb)) rfl
      typedRead := fun {w a b} name key hab => by
        obtain rfl : a = b := hsame (R := fun p => p.sessions a b) hab
        exact rel_typedRead name key (result a key)
      nativeRead := fun {w a b} name key hab => by
        obtain rfl : a = b := hsame (R := fun p => p.sessions a b) hab
        exact rel_nativeRead name key (result a key)
      folderValue := fun {w a b} key hab => value (congrArg (Request.folderValue · key)
        (hsame (R := fun p => p.sessions a b) hab)) rfl }

theorem responds_of_agree (same : ∀ w, S.pairing w = .same)
    (h : ∀ (w : S.World) {α : Type} (r : Request α), S.Rel w (e₁.ask r) (e₂.ask r) fun _ => Eq) :
    S.Responds e₁ e₂ where
  toAnswers := answers_of_agree same fun w _ r _ => h w r
  statement := fun {w a b c d} st hr hb => by
    rw [same w] at hr hb
    obtain rfl : a = b := hr
    obtain rfl : c = d := hb
    refine (h w (.statement a c st)).imp fun w' _ f _ hfg => hfg ▸ ?_
    show FlowAlike (S.pairing w') f f
    rw [same w']
    exact flow_self f

end

end Simulation

/-! ## The coupling of an invariant -/

/-- The coupling of a store with itself under an invariant that ordinary changes keep. -/
def Coupling.ofInvariant {World : Type} (le : World → World → Prop) (refl : ∀ w, le w w)
    (trans : ∀ {u v w}, le u v → le v w → le u w) (I : World → Store → Prop)
    (ordinary : ∀ {w s s'}, I w s → s.Ordinary s' → I w s') : Coupling where
  World := World
  le := le
  le_refl := refl
  le_trans := trans
  pairing _ := .same
  within _ := .refl _
  Inv w s t := s = t ∧ I w s
  alike := by
    rintro w s _ ⟨rfl, -⟩
    exact s.alike_self
  freshId := by
    rintro w s _ ⟨rfl, hi⟩
    exact ⟨w, refl w, ⟨rfl, ordinary hi (Store.ordinary_of_eq rfl rfl rfl rfl rfl (Nat.le_succ _))⟩, rfl⟩
  newArray := by
    rintro w s _ xs ys ⟨rfl, hi⟩ h
    obtain rfl : xs = ys := Array.toList_inj.1 (Native.eq_of_forall h)
    exact ⟨w, refl w, ⟨rfl, ordinary hi (s.ordinary_newArray _)⟩, rfl⟩
  newObject := by
    rintro w s _ fs gs ⟨rfl, hi⟩ h
    obtain rfl : fs = gs := Keyed.eq_of_forall (fun _ _ => Native.eq_of_alike) h
    exact ⟨w, refl w, ⟨rfl, ordinary hi (s.ordinary_newObject _)⟩, rfl⟩
  arrayFrozen := by
    rintro w s _ a _ ⟨rfl, -⟩ rfl
    rfl
  objectFrozen := by
    rintro w s _ a _ ⟨rfl, -⟩ rfl
    rfl
  modifyArray := by
    rintro w s _ a _ f g ⟨rfl, hi⟩ rfl hz h -
    obtain rfl : f = g := Container.funext_of_alike
      (fun _ _ h => Array.toList_inj.1 (Native.eq_of_forall h)) (fun _ => Native.forall_self _) h
    exact ⟨rfl, ordinary hi (Store.ordinary_modifyArray hz f)⟩
  modifyObject := by
    rintro w s _ a _ f g ⟨rfl, hi⟩ rfl hz h -
    obtain rfl : f = g := Container.funext_of_alike
      (fun _ _ => Keyed.eq_of_forall fun _ _ => Native.eq_of_alike) Store.fields_alike_self h
    exact ⟨rfl, ordinary hi (Store.ordinary_modifyObject hz f)⟩
  freeze := by
    rintro w s _ v v' ⟨rfl, hi⟩ h
    obtain rfl := Native.eq_of_alike h
    exact ⟨w, refl w, rfl, ordinary hi (s.ordinary_freeze v)⟩
  newBlock := by
    rintro w s _ a b ⟨rfl, hi⟩ h
    obtain rfl : a = b := optional_eq (fun _ _ h => h) h
    exact ⟨w, refl w, ⟨rfl, ordinary hi (Store.ordinary_of_eq rfl rfl rfl rfl rfl (Nat.le_refl _))⟩, rfl⟩
  setVariable := by
    rintro w s _ a _ v v' name ⟨rfl, hi⟩ rfl h
    obtain rfl := Variable.eq_of_alike h
    exact ⟨rfl, ordinary hi (Store.ordinary_of_eq rfl rfl rfl rfl rfl (Nat.le_refl _))⟩
  remember := by
    rintro w s _ a _ v v' name ⟨rfl, hi⟩ rfl h
    obtain rfl := Native.eq_of_alike h
    exact ⟨rfl, ordinary hi (Store.ordinary_of_eq rfl rfl rfl rfl rfl (Nat.le_refl _))⟩
  log := by
    rintro w s _ line ⟨rfl, hi⟩
    exact ⟨rfl, ordinary hi (Store.ordinary_of_eq rfl rfl rfl rfl rfl (Nat.le_refl _))⟩
  newEvaluation := by
    rintro w s _ sc sc' maxDepth ⟨rfl, hi⟩ h
    obtain rfl := Scope.eq_of_alike (fun _ _ => Value.eq_of_alike) h
    exact ⟨w, refl w, ⟨rfl, ordinary hi (Store.ordinary_of_eq rfl rfl rfl rfl rfl (Nat.le_refl _))⟩, rfl⟩
  newExecution := by
    rintro w s _ sc sc' maxDepth ⟨rfl, hi⟩ h
    obtain rfl := Scope.eq_of_alike (fun _ _ => Native.eq_of_alike) h
    exact ⟨w, refl w, ⟨rfl, ordinary hi (Store.ordinary_of_eq rfl rfl rfl rfl rfl (Nat.le_refl _))⟩, rfl⟩
  busy := by
    rintro w s _ a _ ⟨rfl, -⟩ rfl
    rfl
  scriptBusy := by
    rintro w s _ a _ ⟨rfl, -⟩ rfl
    rfl
  countCalls := by
    rintro w s _ a _ f ⟨rfl, hi⟩ rfl
    exact ⟨rfl, ordinary hi (Store.ordinary_of_eq rfl rfl rfl rfl rfl (Nat.le_refl _))⟩
  countScriptCalls := by
    rintro w s _ a _ f ⟨rfl, hi⟩ rfl
    exact ⟨rfl, ordinary hi (Store.ordinary_of_eq rfl rfl rfl rfl rfl (Nat.le_refl _))⟩
  session? := by
    rintro w s _ a _ ⟨rfl, -⟩ rfl
    exact optional_refl Session.alike_self _

end Workbook
