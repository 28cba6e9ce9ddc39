/-
Two runs that correspond step by step.

A `Simulation` says when two runs correspond in a world.  A world fixes which places
stand for one another; it grows as the runs make new things.  The structure asks for the
rules of sequencing and for one rule for each thing that programs do to the store, and
nothing else, so every property of runs that satisfies these rules holds of whatever
the interpreters of formulas and scripts do.  A statement about a single run is the case
of a run that corresponds to itself.

Three things that scripts and calls do have their rules apart, in `Thorough`: variables are
set, calls are counted, and failures are changed on their way out.  A property that speaks
about one of these does not go through it everywhere, and shows for itself where it does.

`Rel w x y R` is read: in world `w` the runs `x` and `y` correspond, and their values are
related by `R` in the world in which they end.

The requests that lead back into a session, forcing lazy entries, evaluating expressions
and importing, have no rule here.  How they correspond is what each property is about,
and `Responds` says of two engines that they answer all requests alike.
-/
import Workbook.Proofs.Pairing.Store

open List (Forall₂)

namespace Workbook

/-! ## What programs do to the store -/

namespace Native

/-- What assigning to a property does to the items of an array. -/
def itemsWrite (s : Store) (key : String) (value : Native) :
    Except Cause (Array Native → Array Native) :=
  if key = "length" then
    match arrayLength? (value.toNumber s) with
    | some n => .ok (resize n)
    | none => .error (.runtime "invalid array length")
  else
    match position? key with
    | some i =>
      if i < maxArrayLength then .ok (setItem i value)
      else .error (.runtime "invalid array length")
    | none => .error (.typeMismatch ("cannot set property '" ++ key ++ "' on an array"))

end Native

namespace Store

/-- What is last in an array is changed there. -/
theorem modify_push {α : Type} (as : Array α) (a : α) (f : α → α) :
    (as.push a).modify as.size f = as.push (f a) := by
  apply Array.ext_getElem?
  intro j
  rw [Array.getElem?_modify, Array.getElem?_push, Array.getElem?_push]
  by_cases hj : as.size = j
  · rw [if_pos hj, if_pos hj.symm, if_pos hj.symm]
    rfl
  · rw [if_neg hj, if_neg (Ne.symm hj), if_neg (Ne.symm hj)]

end Store

namespace Run

/-- Modifies an array unless it is frozen, in a way that may be refused once the
modification has been counted. -/
def rewriteItems (place : Nat) (f : Store → Except Cause (Array Native → Array Native)) :
    Run Unit := do
  touchArray place
  match f (← get) with
  | .ok g => changeItems place g
  | .error c => fail c

theorem modifyItems_eq (place : Nat) (f : Array Native → Array Native) :
    modifyItems place f = rewriteItems place fun _ => .ok f :=
  rfl

/-- Reading the store and forgetting it does nothing. -/
theorem get_bind_const {α : Type} (x : Run α) : (get >>= fun _ => x) = x :=
  rfl

/-- What follows a run that ended goes on in the store that it left. -/
theorem bind_run {α β : Type} {x : Run α} {k : α → Run β} {s s' : Store} {a : α}
    (h : x s = .ok a s') : (x >>= k) s = k a s' := by
  show EStateM.bind x k s = k a s'
  unfold EStateM.bind
  rw [h]

/-- What follows a look at the store goes on with the store. -/
theorem get_bind {α : Type} (k : Store → Run α) (s : Store) :
    ((get : Run Store) >>= k) s = k s s :=
  rfl

/-- What follows a run that ended with an error is left out. -/
theorem bind_error {α β : Type} {x : Run α} {k : α → Run β} {s s' : Store} {e : Stop}
    (h : x s = .error e s') : (x >>= k) s = .error e s' := by
  show EStateM.bind x k s = .error e s'
  unfold EStateM.bind
  rw [h]

theorem setArrayProperty_eq (place : Nat) (key : String) (value : Native) :
    setArrayProperty place key value = rewriteItems place (Native.itemsWrite · key value) := by
  unfold setArrayProperty rewriteItems
  refine bind_congr fun _ => ?_
  unfold Native.itemsWrite
  split
  · unfold numberOf
    rw [bind_assoc]
    refine bind_congr fun s => ?_
    rw [pure_bind]
    simp only
    cases Native.arrayLength? (value.toNumber s) <;> rfl
  · rw [get_bind_const]
    cases Native.position? key with
    | none => rfl
    | some i =>
      simp only
      split <;> rfl

/-- Gives a variable to a name in a block. -/
def setVariable (block : Nat) (name : String) (v : Variable) : Run Unit :=
  modify (·.setVariable block name v)

/-- Writes a line to the console. -/
def log (severity : Script.Severity) (line : String) : Run Unit :=
  modify fun s => { s with console := s.console.push (severity, line) }

/-- A new evaluation of a formula. -/
def newEvaluation (scope : Scope Value) (maxDepth : Nat) : Run Nat :=
  modifyGet fun s =>
    (s.evaluations.size, { s with evaluations := s.evaluations.push ⟨scope, 0, maxDepth⟩ })

/-- A new execution of a script. -/
def newExecution (scope : Scope Native) (maxDepth : Nat) : Run Nat :=
  modifyGet fun s =>
    (s.executions.size, { s with executions := s.executions.push ⟨scope, [], 0, maxDepth⟩ })

end Run

namespace Failure

/-- A change of failures of which callers see nothing. -/
def Unseen (f : Failure → Failure) : Prop :=
  ∀ e, (f e).cause.toFault = e.cause.toFault

theorem unseen_located (line column : Nat) : Unseen (·.located line column) :=
  fun _ => rfl

theorem unseen_left (function : String) : Unseen (·.left function) := by
  intro e
  simp only [left]
  split
  · rfl
  · split <;> rfl

/-- What a caller sees of a failure is what it saw already. -/
theorem unseen_behindCall : Unseen fun e => ofCause (.fault e.cause.toFault) :=
  fun _ => rfl

end Failure

/-! ## Simulations -/

/-- A correspondence of runs that goes through everything programs do. -/
structure Simulation where
  World : Type
  /-- Whether a world has grown into another. -/
  le : World → World → Prop
  le_refl : ∀ w, le w w
  le_trans : ∀ {u v w}, le u v → le v w → le u w
  pairing : World → Pairing
  within : ∀ {w w'}, le w w' → (pairing w).Within (pairing w')
  Rel : World → {α : Type} → Run α → Run α → (World → α → α → Prop) → Prop
  pure : ∀ {w} {α : Type} {R : World → α → α → Prop} {a b : α}, R w a b →
    Rel w (Pure.pure a) (Pure.pure b) R
  bind : ∀ {w} {α β : Type} {R : World → α → α → Prop} {T : World → β → β → Prop} {x y : Run α}
    {k l : α → Run β}, Rel w x y R →
    (∀ w', le w w' → ∀ a b, R w' a b → Rel w' (k a) (l b) T) → Rel w (x >>= k) (y >>= l) T
  /-- Runs that read the store see alike stores. -/
  get : ∀ {w} {α : Type} {R : World → α → α → Prop} {k l : Store → Run α},
    (∀ s t, Store.Alike (pairing w) s t → Rel w (k s) (l t) R) →
    Rel w (MonadState.get >>= k) (MonadState.get >>= l) R
  fail : ∀ {w} {α : Type} {R : World → α → α → Prop} (c : Cause),
    Rel w (Run.fail c) (Run.fail c) R
  exhausted : ∀ {w} {α : Type} {R : World → α → α → Prop}, Rel w Run.exhausted Run.exhausted R
  /-- Which bounds of one loop may differ in the two runs, and how. -/
  Fuel : Nat → Nat → Prop
  fuel_succ : ∀ {m n}, Fuel (m + 1) (n + 1) → Fuel m n
  fuel_left : ∀ {w n} {α : Type} {R : World → α → α → Prop} {y : Run α}, Fuel 0 (n + 1) →
    Rel w Run.exhausted y R
  fuel_right : ∀ {w m} {α : Type} {R : World → α → α → Prop} {x : Run α}, Fuel (m + 1) 0 →
    Rel w x Run.exhausted R
  behindCall : ∀ {w} {α : Type} {R : World → α → α → Prop} {x y : Run α},
    Rel w x y R → Rel w (Run.behindCall x) (Run.behindCall y) R
  freshId : ∀ {w}, Rel w Run.freshId Run.freshId fun w => (pairing w).idents
  newArray : ∀ {w} {xs ys : Array Native}, Forall₂ (Native.Alike (pairing w)) xs.toList ys.toList →
    Rel w (Run.newArray xs) (Run.newArray ys) fun w => Native.Alike (pairing w)
  newObject : ∀ {w} {fs gs : Fields}, Forall₂ (Keyed.Alike (Native.Alike (pairing w))) fs gs →
    Rel w (Run.newObject fs) (Run.newObject gs) fun w => Native.Alike (pairing w)
  rewriteItems : ∀ {w a b} {f g : Store → Except Cause (Array Native → Array Native)},
    (pairing w).arrays a b →
    (∀ s t, Store.Alike (pairing w) s t → ExceptAlike
      (fun f g => ∀ xs ys : Array Native, Forall₂ (Native.Alike (pairing w)) xs.toList ys.toList →
        Forall₂ (Native.Alike (pairing w)) (f xs).toList (g ys).toList) (f s) (g t)) →
    Rel w (Run.rewriteItems a f) (Run.rewriteItems b g) fun _ _ _ => True
  modifyFields : ∀ {w a b} {f g : Fields → Fields}, (pairing w).objects a b →
    (∀ fs gs, Forall₂ (Keyed.Alike (Native.Alike (pairing w))) fs gs →
      Forall₂ (Keyed.Alike (Native.Alike (pairing w))) (f fs) (g gs)) →
    Rel w (Run.modifyFields a f) (Run.modifyFields b g) fun _ _ _ => True
  freeze : ∀ {w v v'}, Native.Alike (pairing w) v v' →
    Rel w (Run.freeze v) (Run.freeze v') fun _ _ _ => True
  newBlock : ∀ {w a b}, Option.Rel (pairing w).blocks a b →
    Rel w (Run.newBlock a) (Run.newBlock b) fun w => (pairing w).blocks
  remember : ∀ {w a b v v'} (name : String), (pairing w).executions a b →
    Native.Alike (pairing w) v v' →
    Rel w (Run.remember a name v) (Run.remember b name v') fun _ _ _ => True
  log : ∀ {w} (severity : Script.Severity) (line : String),
    Rel w (Run.log severity line) (Run.log severity line) fun _ _ _ => True
  newEvaluation : ∀ {w sc sc'} (maxDepth : Nat),
    Scope.Alike (pairing w) (Value.Alike (pairing w)) sc sc' →
    Rel w (Run.newEvaluation sc maxDepth) (Run.newEvaluation sc' maxDepth)
      fun w => (pairing w).evaluations
  newExecution : ∀ {w sc sc'} (maxDepth : Nat),
    Scope.Alike (pairing w) (Native.Alike (pairing w)) sc sc' →
    Rel w (Run.newExecution sc maxDepth) (Run.newExecution sc' maxDepth)
      fun w => (pairing w).executions
  session? : ∀ {w a b}, (pairing w).sessions a b →
    Rel w (Run.session? a) (Run.session? b) fun w => Option.Rel (Session.Alike (pairing w))

/-- Failures may be changed on their way, as long as callers see nothing of it. -/
structure Simulation.PassesFailures (S : Simulation) : Prop where
  mapFailure : ∀ {w} {α : Type} {R : S.World → α → α → Prop} {x y : Run α} {f : Failure → Failure},
    Failure.Unseen f → S.Rel w x y R → S.Rel w (Run.mapFailure f x) (Run.mapFailure f y) R

/-- Variables of paired blocks may be set. -/
structure Simulation.SetsVariables (S : Simulation) : Prop where
  setVariable : ∀ {w a b v v'} (name : String), (S.pairing w).blocks a b →
    Variable.Alike (S.pairing w) v v' →
    S.Rel w (Run.setVariable a name v) (Run.setVariable b name v') fun _ _ _ => True

/-- Statements may do what they do to variables and to failures. -/
structure Simulation.Scripting (S : Simulation) : Prop
    extends S.PassesFailures, S.SetsVariables

/-- A simulation that also goes through what properties of variables, of calls and of the places
of failures speak about. -/
structure Simulation.Thorough (S : Simulation) : Prop extends S.Scripting where
  /-- Calls that belong to paired evaluations are within their limits together. -/
  callWithin : ∀ {w a b x y}, (S.pairing w).evaluations a b →
    (∀ w', S.le w w' → S.Rel w' x y fun w => Value.Alike (S.pairing w)) →
    S.Rel w (Engine.callWithin a x) (Engine.callWithin b y) fun w => Value.Alike (S.pairing w)
  callDuring : ∀ {w a b x y}, (S.pairing w).executions a b →
    (∀ w', S.le w w' → S.Rel w' x y fun w => Native.Alike (S.pairing w)) →
    S.Rel w (Engine.callDuring a x) (Engine.callDuring b y) fun w => Native.Alike (S.pairing w)

namespace Simulation

variable {S : Simulation} {w : S.World}

/-! ## How values are related -/

/-- Alike values of formulas. -/
abbrev value (S : Simulation) (w : S.World) : Value → Value → Prop :=
  Value.Alike (S.pairing w)

/-- Alike lists of values. -/
abbrev values (S : Simulation) (w : S.World) : List Value → List Value → Prop :=
  Forall₂ (Value.Alike (S.pairing w))

/-- Alike values under the same names. -/
abbrev locals (S : Simulation) (w : S.World) :
    List (String × Value) → List (String × Value) → Prop :=
  Forall₂ (Keyed.Alike (Value.Alike (S.pairing w)))

/-- Alike slots under the same keys. -/
abbrev entries (S : Simulation) (w : S.World) : Entries → Entries → Prop :=
  Forall₂ (Keyed.Alike (Slot.Alike (S.pairing w)))

/-- Alike native values. -/
abbrev native (S : Simulation) (w : S.World) : Native → Native → Prop :=
  Native.Alike (S.pairing w)

/-- Alike lists of native values. -/
abbrev natives (S : Simulation) (w : S.World) : List Native → List Native → Prop :=
  Forall₂ (Native.Alike (S.pairing w))

/-- Alike fields. -/
abbrev fields (S : Simulation) (w : S.World) : Fields → Fields → Prop :=
  Forall₂ (Keyed.Alike (Native.Alike (S.pairing w)))

/-- The same value. -/
abbrev equal (S : Simulation) {α : Type} (_ : S.World) (a b : α) : Prop :=
  a = b

/-- Nothing is said about the values. -/
abbrev anything (S : Simulation) {α : Type} (_ : S.World) (_ _ : α) : Prop :=
  True

/-- Both values or neither. -/
abbrev optional (S : Simulation) {α : Type} (R : S.World → α → α → Prop) (w : S.World) :
    Option α → Option α → Prop :=
  Option.Rel (R w)

/-! ## Rules that follow -/

section Rules

variable {α β : Type} {R : S.World → α → α → Prop} {T : S.World → β → β → Prop} {x y : Run α}

theorem Rel.bind {k l : α → Run β} (h : S.Rel w x y R)
    (hk : ∀ w', S.le w w' → ∀ a b, R w' a b → S.Rel w' (k a) (l b) T) :
    S.Rel w (x >>= k) (y >>= l) T :=
  S.bind h hk

/-- Less may be said about the values. -/
theorem Rel.imp {R' : S.World → α → α → Prop} (h : S.Rel w x y R)
    (hR : ∀ w', S.le w w' → ∀ a b, R w' a b → R' w' a b) : S.Rel w x y R' := by
  rw [← bind_pure x, ← bind_pure y]
  exact h.bind fun w' hw a b hab => S.pure (hR w' hw a b hab)

theorem Rel.map {f g : α → β} (h : S.Rel w x y R)
    (hf : ∀ w', S.le w w' → ∀ a b, R w' a b → T w' (f a) (g b)) :
    S.Rel w (f <$> x) (g <$> y) T := by
  rw [map_eq_pure_bind, map_eq_pure_bind]
  exact h.bind fun w' hw a b hab => S.pure (hf w' hw a b hab)

theorem rel_fault (f : Fault) : S.Rel w (Run.fault f) (Run.fault f) R :=
  S.fail _

theorem rel_mismatch {what what' : String} (h : what = what') :
    S.Rel w (Run.mismatch what) (Run.mismatch what') R := by
  rw [h]
  exact S.fail _

theorem rel_ofExcept {a b : Except Cause α} (h : ExceptAlike (R w) a b) :
    S.Rel w (Run.ofExcept a) (Run.ofExcept b) R := by
  cases h with
  | ok h => exact S.pure h
  | error e => exact S.fail e

theorem rel_ofFaulty {a b : Except Fault α} (h : ExceptAlike (R w) a b) :
    S.Rel w (Run.ofFaulty a) (Run.ofFaulty b) R := by
  cases h with
  | ok h => exact S.pure h
  | error e => exact rel_fault e

theorem Rel.behindCall (h : S.Rel w x y R) : S.Rel w (Run.behindCall x) (Run.behindCall y) R :=
  S.behindCall h

/-- Containers and identities are paired one to one wherever two runs correspond. -/
theorem rel_oneToOne (h : (S.pairing w).OneToOne → S.Rel w x y R) : S.Rel w x y R := by
  rw [← Run.get_bind_const x, ← Run.get_bind_const y]
  exact S.get fun _ _ hs => h hs.oneToOne

/-- A run for each item, in order. -/
theorem rel_mapM {γ δ : Type} {A : S.World → γ → δ → Prop} {f : γ → Run β} {g : δ → Run β}
    (mono : ∀ {w w'}, S.le w w' → ∀ {a b}, A w a b → A w' a b)
    (monoT : ∀ {w w'}, S.le w w' → ∀ {a b}, T w a b → T w' a b)
    (hf : ∀ w', S.le w w' → ∀ a b, A w' a b → S.Rel w' (f a) (g b) T)
    {as : List γ} {bs : List δ} (h : Forall₂ (A w) as bs) :
    S.Rel w (as.mapM f) (bs.mapM g) fun w => Forall₂ (T w) := by
  induction as generalizing bs w with
  | nil =>
    cases h
    rw [List.mapM_nil, List.mapM_nil]
    exact S.pure .nil
  | cons a as ih =>
    cases h with
    | cons ha hs =>
      rw [List.mapM_cons, List.mapM_cons]
      refine (hf w (S.le_refl w) _ _ ha).bind fun w₁ h₁ c d hc => ?_
      refine (ih (fun w' hw => hf w' (S.le_trans h₁ hw)) (hs.imp fun _ _ => mono h₁)).bind
        fun w₂ h₂ cs ds hcs => ?_
      exact S.pure (.cons (monoT h₂ hc) hcs)

end Rules

/-! ## Growing worlds -/

section Growth

variable {w' : S.World} (h : S.le w w')
include h

theorem value_mono {v v' : Value} (hv : S.value w v v') : S.value w' v v' :=
  hv.mono (S.within h)

theorem values_mono {vs vs' : List Value} (hv : S.values w vs vs') : S.values w' vs vs' :=
  Value.forall_mono hv (S.within h)

theorem locals_mono {ls ls' : List (String × Value)} (hl : S.locals w ls ls') :
    S.locals w' ls ls' :=
  Value.locals_mono hl (S.within h)

theorem entries_mono {es es' : Entries} (he : S.entries w es es') : S.entries w' es es' :=
  Slot.forall_mono he (S.within h)

theorem native_mono {v v' : Native} (hv : S.native w v v') : S.native w' v v' :=
  hv.mono (S.within h)

theorem natives_mono {vs vs' : List Native} (hv : S.natives w vs vs') : S.natives w' vs vs' :=
  Native.forall_mono hv (S.within h)

theorem fields_mono {fs fs' : Fields} (hf : S.fields w fs fs') : S.fields w' fs fs' :=
  Native.fields_mono hf (S.within h)

end Growth

/-! ## Making and reading -/

theorem rel_newTyped {c d : TypedCode} (h : TypedCode.Alike (S.pairing w) c d) :
    S.Rel w (Run.newTyped c) (Run.newTyped d) S.value :=
  S.bind S.freshId fun _ hw _ _ hi => S.pure (.function (.typed (.mk hi (h.mono (S.within hw)))))

theorem rel_newNative {c d : NativeCode} (h : NativeCode.Alike (S.pairing w) c d) :
    S.Rel w (Run.newNative c) (Run.newNative d) S.native :=
  S.bind S.freshId fun _ hw _ _ hi => S.pure (.function (.mk hi (h.mono (S.within hw))))

theorem rel_items {a b : Nat} (h : (S.pairing w).arrays a b) :
    S.Rel w (Run.items a) (Run.items b) fun w xs ys => S.natives w xs.toList ys.toList :=
  S.get fun _ _ hs => S.pure (hs.items h)

theorem rel_textOf {v v' : Native} (h : S.native w v v') :
    S.Rel w (Run.textOf v) (Run.textOf v') S.equal :=
  S.get fun _ _ hs => S.pure (hs.text h)

theorem rel_numberOf {v v' : Native} (h : S.native w v v') :
    S.Rel w (Run.numberOf v) (Run.numberOf v') S.equal :=
  S.get fun _ _ hs => S.pure (hs.number h)

theorem rel_toValue {v v' : Native} (h : S.native w v v') :
    S.Rel w (Run.toValue v) (Run.toValue v') S.value :=
  S.get fun _ _ hs => rel_ofFaulty (hs.value h)

theorem rel_property {v v' : Native} (h : S.native w v v') (key : String) :
    S.Rel w (Run.property v key) (Run.property v' key) S.native :=
  S.get fun _ _ hs => rel_ofExcept (Native.property_alike hs h key)

theorem rel_binary (op : Script.BinaryOp) {a a' b b' : Native} (ha : S.native w a a')
    (hb : S.native w b b') : S.Rel w (Run.binary op a b) (Run.binary op a' b') S.native :=
  S.get fun _ _ hs => rel_ofExcept (Native.binary_alike hs op ha hb)

/-! ## Modifying -/

theorem rel_modifyItems {a b : Nat} {f g : Array Native → Array Native}
    (h : (S.pairing w).arrays a b)
    (hf : ∀ xs ys : Array Native, S.natives w xs.toList ys.toList →
      S.natives w (f xs).toList (g ys).toList) :
    S.Rel w (Run.modifyItems a f) (Run.modifyItems b g) S.anything := by
  rw [Run.modifyItems_eq, Run.modifyItems_eq]
  exact S.rewriteItems h fun _ _ _ => .ok hf

theorem itemsWrite_alike {p : Pairing} {s t : Store} (hs : Store.Alike p s t) (key : String)
    {v v' : Native} (hv : Native.Alike p v v') : ExceptAlike
      (fun f g => ∀ xs ys : Array Native, Forall₂ (Native.Alike p) xs.toList ys.toList →
        Forall₂ (Native.Alike p) (f xs).toList (g ys).toList)
      (Native.itemsWrite s key v) (Native.itemsWrite t key v') := by
  unfold Native.itemsWrite
  rw [hs.number hv]
  split
  · split
    · exact .ok fun _ _ => Native.resize_alike _
    · exact .error _
  · split
    · exact .ite (.ok fun _ _ => Native.setItem_alike _ hv) (.error _)
    · exact .error _

theorem rel_setProperty {v v' u u' : Native} (hv : S.native w v v') (key : String)
    (hu : S.native w u u') :
    S.Rel w (Run.setProperty v key u) (Run.setProperty v' key u') S.anything := by
  cases hv with
  | object ho => exact S.modifyFields ho fun _ _ hf => Keyed.put_alike hf key hu
  | array ha =>
    show S.Rel w (Run.setArrayProperty _ key u) (Run.setArrayProperty _ key u') _
    rw [Run.setArrayProperty_eq, Run.setArrayProperty_eq]
    exact S.rewriteItems ha fun _ _ hs => itemsWrite_alike hs key hu
  | _ => exact rel_mismatch rfl

theorem rel_deleteProperty {v v' : Native} (hv : S.native w v v') (key : String) :
    S.Rel w (Run.deleteProperty v key) (Run.deleteProperty v' key) S.anything := by
  have ht := rel_textOf hv
  cases hv with
  | object ho => exact S.modifyFields ho fun _ _ hf => Keyed.remove_alike hf key
  | array ha =>
    unfold Run.deleteProperty
    cases Native.position? key with
    | none => exact S.pure trivial
    | some i =>
      refine rel_modifyItems ha fun xs ys h => ?_
      rw [Array.toList_setIfInBounds, Array.toList_setIfInBounds]
      exact Native.set_alike h i .undefined
  | null => exact ht.bind fun _ _ _ _ h => rel_mismatch (by rw [h])
  | undefined => exact ht.bind fun _ _ _ _ h => rel_mismatch (by rw [h])
  | _ => exact S.pure trivial

/-! ## Variables -/

section

variable (hS : S.SetsVariables)
include hS

theorem SetsVariables.define {a b : Nat} (h : (S.pairing w).blocks a b) (name : String)
    {v v' : Native} (hv : S.native w v v') :
    S.Rel w (Run.define a name v) (Run.define b name v') S.anything :=
  hS.setVariable name h ⟨hv, rfl⟩

theorem SetsVariables.declare {a b : Nat} (h : (S.pairing w).blocks a b) (name : String)
    (how : Script.Declarator) {v v' : Native} (hv : S.native w v v') :
    S.Rel w (Run.declare a name how v) (Run.declare b name how v') S.anything := by
  refine S.get fun s t hs => ?_
  simp only [hs.declared h name]
  split
  · exact (S.fail (R := S.anything) _).bind fun w' hw _ _ _ =>
      hS.setVariable name ((S.within hw).blocks h) ⟨native_mono hw hv, rfl⟩
  · exact hS.setVariable name h ⟨hv, rfl⟩

theorem SetsVariables.assign {a b : Nat} (h : (S.pairing w).blocks a b) (name : String)
    {v v' : Native} (hv : S.native w v v') :
    S.Rel w (Run.assign a name v) (Run.assign b name v') S.anything := by
  refine S.get fun s t hs => ?_
  have hr := hs.resolve h name
  generalize s.resolve? a name = x at hr ⊢
  generalize t.resolve? b name = y at hr ⊢
  cases hr with
  | none => exact S.fail _
  | some hr =>
    obtain ⟨hb, hc⟩ := hr
    simp only [hc.constant]
    split
    · exact (S.fail (R := S.anything) _).bind fun w' hw _ _ _ =>
        hS.setVariable name ((S.within hw).blocks hb) ⟨native_mono hw hv, rfl⟩
    · exact hS.setVariable name hb ⟨hv, rfl⟩

end

/-! ## New values from JSON -/

mutual

theorem rel_nativeOfJson {w : S.World} :
    ∀ j : Json, S.Rel w (Run.nativeOfJson j) (Run.nativeOfJson j) S.native
  | .null => S.pure .null
  | .bool b => S.pure (.boolean b)
  | .integer n => S.pure (.number _)
  | .float x => S.pure (.number x)
  | .string s => S.pure (.string s)
  | .array items => by
    unfold Run.nativeOfJson
    exact (rel_nativeItemsOfJson items).bind fun _ _ _ _ h => S.newArray (by simpa using h)
  | .object entries => by
    unfold Run.nativeOfJson
    exact (rel_nativeFieldsOfJson entries).bind fun _ _ _ _ h => S.newObject h

theorem rel_nativeItemsOfJson {w : S.World} :
    ∀ js : List Json, S.Rel w (Run.nativeItemsOfJson js) (Run.nativeItemsOfJson js) S.natives
  | [] => S.pure .nil
  | j :: rest => by
    unfold Run.nativeItemsOfJson
    exact (rel_nativeOfJson j).bind fun _ _ _ _ hv => (rel_nativeItemsOfJson rest).bind
      fun _ hw _ _ hs => S.pure (.cons (native_mono hw hv) hs)

theorem rel_nativeFieldsOfJson {w : S.World} : ∀ es : List (String × Json),
    S.Rel w (Run.nativeFieldsOfJson es) (Run.nativeFieldsOfJson es) S.fields
  | [] => S.pure .nil
  | (k, j) :: rest => by
    unfold Run.nativeFieldsOfJson
    exact (rel_nativeOfJson j).bind fun _ _ _ _ hv => (rel_nativeFieldsOfJson rest).bind
      fun _ hw _ _ hs => S.pure (.cons (.mk k (native_mono hw hv)) hs)

end

/-! ## Engines -/

/-- Two ways in which a statement ends. -/
inductive FlowAlike (p : Pairing) : Flow → Flow → Prop
  | normal : FlowAlike p .normal .normal
  | returned {v w : Native} (h : Native.Alike p v w) : FlowAlike p (.returned v) (.returned w)
  | broke : FlowAlike p .broke .broke
  | continued : FlowAlike p .continued .continued

/-- Alike ends of statements. -/
abbrev flow (S : Simulation) (w : S.World) : Flow → Flow → Prop :=
  FlowAlike (S.pairing w)

/-- Two engines whose answers correspond where scripts call functions and evaluate expressions. -/
structure Calls (S : Simulation) (e₁ e₂ : Engine) : Prop where
  callNative : ∀ {w f g vs vs'}, NativeFunction.Alike (S.pairing w) f g → S.natives w vs vs' →
    S.Rel w (e₁.ask (.callNative f vs)) (e₂.ask (.callNative g vs')) S.native
  invoke : ∀ {w a b c d vs vs'} (f : Script.Function) (name : String),
    (S.pairing w).executions a b → (S.pairing w).blocks c d → S.natives w vs vs' →
    S.Rel w (e₁.ask (.invoke a c f name vs)) (e₂.ask (.invoke b d f name vs')) S.native
  expression : ∀ {w a b c d} (e : Script.Expr), (S.pairing w).executions a b →
    (S.pairing w).blocks c d →
    S.Rel w (e₁.ask (.expression a c e)) (e₂.ask (.expression b d e)) S.native

/-- Two engines whose answers correspond wherever the expressions of scripts need them. -/
structure Supplies (S : Simulation) (e₁ e₂ : Engine) : Prop extends Calls S e₁ e₂ where
  folderName : ∀ {w a b}, (S.pairing w).sessions a b → ∀ folder name : String,
    S.Rel w (e₁.folderName a folder name) (e₂.folderName b folder name) (S.optional S.native)

/-- Two engines whose answers to alike requests correspond, statements apart. -/
structure Answers (S : Simulation) (e₁ e₂ : Engine) : Prop extends Calls S e₁ e₂ where
  force : ∀ {w a b}, (S.pairing w).thunks a b →
    S.Rel w (e₁.ask (.force a)) (e₂.ask (.force b)) S.value
  text : ∀ {w v v'} (nested : Bool), S.value w v v' →
    S.Rel w (e₁.ask (.text v nested)) (e₂.ask (.text v' nested)) S.equal
  json : ∀ {w v v'}, S.value w v v' → S.Rel w (e₁.ask (.json v)) (e₂.ask (.json v')) S.equal
  native : ∀ {w v v'}, S.value w v v' →
    S.Rel w (e₁.ask (.native v)) (e₂.ask (.native v')) S.native
  equal : ∀ {w a a' b b'}, S.value w a a' → S.value w b b' →
    S.Rel w (e₁.ask (.equal a b)) (e₂.ask (.equal a' b')) S.equal
  move : ∀ {w m m' v v'}, Motion.Alike (S.pairing w) m m' → S.value w v v' →
    S.Rel w (e₁.ask (.move m v)) (e₂.ask (.move m' v')) S.value
  formula : ∀ {w a b ls ls'} (e : Formula.Expr), (S.pairing w).evaluations a b →
    S.locals w ls ls' →
    S.Rel w (e₁.ask (.formula a ls e)) (e₂.ask (.formula b ls' e)) S.value
  callTyped : ∀ {w f g vs vs'}, TypedFunction.Alike (S.pairing w) f g → S.values w vs vs' →
    S.Rel w (e₁.ask (.callTyped f vs)) (e₂.ask (.callTyped g vs')) S.value
  /-- Reading an expression under a name. -/
  typedRead : ∀ {w a b} (name key : String), (S.pairing w).sessions a b →
    S.Rel w (e₁.typedBinding a name (.place (.expression key)))
      (e₂.typedBinding b name (.place (.expression key))) S.value
  nativeRead : ∀ {w a b} (name key : String), (S.pairing w).sessions a b →
    S.Rel w (e₁.nativeBinding a name (.place (.expression key)))
      (e₂.nativeBinding b name (.place (.expression key))) S.native
  folderValue : ∀ {w a b} (key : String), (S.pairing w).sessions a b →
    S.Rel w (e₁.ask (.folderValue a key)) (e₂.ask (.folderValue b key)) S.value

/-- Two engines whose answers to all alike requests correspond. -/
structure Responds (S : Simulation) (e₁ e₂ : Engine) : Prop extends Answers S e₁ e₂ where
  statement : ∀ {w a b c d} (st : Script.Stmt), (S.pairing w).executions a b →
    (S.pairing w).blocks c d →
    S.Rel w (e₁.ask (.statement a c st)) (e₂.ask (.statement b d st)) S.flow

end Simulation
end Workbook
