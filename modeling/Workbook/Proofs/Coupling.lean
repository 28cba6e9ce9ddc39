/-
Simulations from invariants of two stores.

A `Coupling` is an invariant of pairs of stores, indexed by worlds, that each single
change a program makes to both stores keeps, if need be in a larger world.  Its
simulation relates two runs that, started in related stores, fail with the same failure
or end with related values, in related stores again; a run that is exhausted has no
result, and what corresponds to it is for the coupling to say.

The invariant speaks about stores only, so sequencing, failing and counting calls are
settled here once for all couplings.
-/
import Workbook.Proofs.Simulation.Engine

open List (Forall₂)

namespace Workbook

/-! ## Changes of a store -/

/-- Two containers with related contents, both as often modified and both frozen or
neither. -/
structure Container.Alike {α β : Type} (R : α → β → Prop) (c : Container α) (d : Container β) :
    Prop where
  content : R c.content d.content
  version : c.version = d.version
  frozen : c.frozen = d.frozen

namespace Container

variable {α : Type}

/-- The container after one more modification. -/
def counted (c : Container α) : Container α :=
  { c with version := c.version + 1 }

/-- The container with changed contents. -/
def mapped (f : α → α) (c : Container α) : Container α :=
  { c with content := f c.content }

end Container

namespace Store

/-- Whether an array is frozen. -/
def arrayFrozen (s : Store) (place : Nat) : Bool :=
  (s.arrays[place]?).any (·.frozen)

/-- Whether an object is frozen. -/
def objectFrozen (s : Store) (place : Nat) : Bool :=
  (s.objects[place]?).any (·.frozen)

def modifyArray (s : Store) (place : Nat)
    (f : Container (Array Native) → Container (Array Native)) : Store :=
  { s with arrays := s.arrays.modify place f }

def modifyObject (s : Store) (place : Nat) (f : Container Fields → Container Fields) : Store :=
  { s with objects := s.objects.modify place f }

/-- Counts calls of an evaluation. -/
def countCalls (s : Store) (place : Nat) (f : Nat → Nat) : Store :=
  { s with evaluations := s.evaluations.modify place fun e => { e with depth := f e.depth } }

/-- Counts calls of an execution. -/
def countScriptCalls (s : Store) (place : Nat) (f : Nat → Nat) : Store :=
  { s with executions := s.executions.modify place fun e => { e with depth := f e.depth } }

/-- Changes a session. -/
def changeSession (s : Store) (place : Nat) (f : Session → Session) : Store :=
  { s with sessions := s.sessions.modify place f }

/-- Fills a lazy entry. -/
def settle (s : Store) (thunk : Nat) (v : Value) : Store :=
  { s with thunks := s.thunks.set! thunk (.done v) }

/-- Makes a lazy entry. -/
def addThunk (s : Store) (work : Work) : Store :=
  { s with thunks := s.thunks.push (.pending work) }

/-- Starts a session. -/
def addSession (s : Store) (session : Session) : Store :=
  { s with sessions := s.sessions.push session }

/-- Changes the modules of sessions. -/
def changeModules (s : Store) (place : Nat) (f : Modules → Modules) : Store :=
  { s with modules := s.modules.modify place f }

/-- Whether an evaluation has as many active calls as it may. -/
def busy (s : Store) (place : Nat) : Bool :=
  (s.evaluations[place]?).any fun e => e.maxDepth ≤ e.depth

/-- Whether an execution has as many active calls as it may. -/
def scriptBusy (s : Store) (place : Nat) : Bool :=
  (s.executions[place]?).any fun e => e.maxDepth ≤ e.depth

end Store

/-! ## Excuses -/

/-- What a run may come to where the run that corresponds to it is exhausted. -/
structure Excuse where
  /-- Whether it may come to a value. -/
  values : Prop
  /-- The failures that it may come to. -/
  failures : Failure → Prop
  of_values : values → ∀ e, failures e
  unseen : ∀ {f : Failure → Failure} {e : Failure}, Failure.Unseen f → failures e → failures (f e)

namespace Excuse

/-- It may come to anything. -/
def anything : Excuse :=
  ⟨True, fun _ => True, fun _ _ => trivial, fun _ _ => trivial⟩

/-- It must be exhausted too. -/
def nothing : Excuse :=
  ⟨False, fun _ => False, fun h _ => h, fun _ h => h⟩

end Excuse

/-! ## Couplings -/

/-- A relation of stores that all changes made by programs keep. -/
structure Coupling where
  /-- What the second run may come to where the first one is exhausted. -/
  left : Excuse := .anything
  /-- What the first run may come to where the second one is exhausted. -/
  right : Excuse := .anything
  /-- How the stores are related in which both runs are exhausted. -/
  Stuck : Store → Store → Prop := fun _ _ => True
  World : Type
  le : World → World → Prop
  le_refl : ∀ w, le w w
  le_trans : ∀ {u v w}, le u v → le v w → le u w
  pairing : World → Pairing
  within : ∀ {w w'}, le w w' → (pairing w).Within (pairing w')
  Inv : World → Store → Store → Prop
  alike : ∀ {w s t}, Inv w s t → Store.Alike (pairing w) s t
  freshId : ∀ {w s t}, Inv w s t → ∃ w', le w w' ∧
    Inv w' { s with fresh := s.fresh + 1 } { t with fresh := t.fresh + 1 } ∧
    (pairing w').idents s.fresh t.fresh
  newArray : ∀ {w s t} {xs ys : Array Native}, Inv w s t →
    Forall₂ (Native.Alike (pairing w)) xs.toList ys.toList → ∃ w', le w w' ∧
    Inv w' { s with arrays := s.arrays.push (.ofContent xs) }
      { t with arrays := t.arrays.push (.ofContent ys) } ∧
    (pairing w').arrays s.arrays.size t.arrays.size
  newObject : ∀ {w s t} {fs gs : Fields}, Inv w s t →
    Forall₂ (Keyed.Alike (Native.Alike (pairing w))) fs gs → ∃ w', le w w' ∧
    Inv w' { s with objects := s.objects.push (.ofContent fs) }
      { t with objects := t.objects.push (.ofContent gs) } ∧
    (pairing w').objects s.objects.size t.objects.size
  arrayFrozen : ∀ {w s t a b}, Inv w s t → (pairing w).arrays a b →
    s.arrayFrozen a = t.arrayFrozen b
  objectFrozen : ∀ {w s t a b}, Inv w s t → (pairing w).objects a b →
    s.objectFrozen a = t.objectFrozen b
  modifyArray : ∀ {w s t a b} {f g : Container (Array Native) → Container (Array Native)},
    Inv w s t → (pairing w).arrays a b → s.arrayFrozen a = false →
    (∀ c d, Container.Alike
        (fun xs ys => Forall₂ (Native.Alike (pairing w)) xs.toList ys.toList) c d →
      Container.Alike
        (fun xs ys => Forall₂ (Native.Alike (pairing w)) xs.toList ys.toList) (f c) (g d)) →
    (∀ c, (f c).frozen = c.frozen) →
    Inv w (s.modifyArray a f) (t.modifyArray b g)
  modifyObject : ∀ {w s t a b} {f g : Container Fields → Container Fields},
    Inv w s t → (pairing w).objects a b → s.objectFrozen a = false →
    (∀ c d, Container.Alike (Forall₂ (Keyed.Alike (Native.Alike (pairing w)))) c d →
      Container.Alike (Forall₂ (Keyed.Alike (Native.Alike (pairing w)))) (f c) (g d)) →
    (∀ c, (f c).frozen = c.frozen) →
    Inv w (s.modifyObject a f) (t.modifyObject b g)
  freeze : ∀ {w s t v v'}, Inv w s t → Native.Alike (pairing w) v v' → ∃ w', le w w' ∧
    Inv w' (s.freeze v) (t.freeze v')
  newBlock : ∀ {w s t a b}, Inv w s t → Option.Rel (pairing w).blocks a b → ∃ w', le w w' ∧
    Inv w' { s with blocks := s.blocks.push ⟨[], a⟩ } { t with blocks := t.blocks.push ⟨[], b⟩ } ∧
    (pairing w').blocks s.blocks.size t.blocks.size
  setVariable : ∀ {w s t a b v v'} (name : String), Inv w s t → (pairing w).blocks a b →
    Variable.Alike (pairing w) v v' → Inv w (s.setVariable a name v) (t.setVariable b name v')
  remember : ∀ {w s t a b v v'} (name : String), Inv w s t → (pairing w).executions a b →
    Native.Alike (pairing w) v v' →
    Inv w
      { s with executions := s.executions.modify a fun e => { e with known := (name, v) :: e.known } }
      { t with executions := t.executions.modify b fun e => { e with known := (name, v') :: e.known } }
  log : ∀ {w s t} (line : Script.Severity × String), Inv w s t →
    Inv w { s with console := s.console.push line } { t with console := t.console.push line }
  newEvaluation : ∀ {w s t sc sc'} (maxDepth : Nat), Inv w s t →
    Scope.Alike (pairing w) (Value.Alike (pairing w)) sc sc' → ∃ w', le w w' ∧
    Inv w' { s with evaluations := s.evaluations.push ⟨sc, 0, maxDepth⟩ }
      { t with evaluations := t.evaluations.push ⟨sc', 0, maxDepth⟩ } ∧
    (pairing w').evaluations s.evaluations.size t.evaluations.size
  newExecution : ∀ {w s t sc sc'} (maxDepth : Nat), Inv w s t →
    Scope.Alike (pairing w) (Native.Alike (pairing w)) sc sc' → ∃ w', le w w' ∧
    Inv w' { s with executions := s.executions.push ⟨sc, [], 0, maxDepth⟩ }
      { t with executions := t.executions.push ⟨sc', [], 0, maxDepth⟩ } ∧
    (pairing w').executions s.executions.size t.executions.size
  busy : ∀ {w s t a b}, Inv w s t → (pairing w).evaluations a b → s.busy a = t.busy b
  scriptBusy : ∀ {w s t a b}, Inv w s t → (pairing w).executions a b →
    s.scriptBusy a = t.scriptBusy b
  countCalls : ∀ {w s t a b} (f : Nat → Nat), Inv w s t → (pairing w).evaluations a b →
    Inv w (s.countCalls a f) (t.countCalls b f)
  countScriptCalls : ∀ {w s t a b} (f : Nat → Nat), Inv w s t → (pairing w).executions a b →
    Inv w (s.countScriptCalls a f) (t.countScriptCalls b f)
  session? : ∀ {w s t a b}, Inv w s t → (pairing w).sessions a b →
    Option.Rel (Session.Alike (pairing w)) ((s.sessions[a]?).filter (·.alive))
      ((t.sessions[b]?).filter (·.alive))
  stuck : ∀ {w s t}, Inv w s t → Stuck s t := by exact fun _ => trivial
  stuck_of_values : left.values ∨ right.values → ∀ s t, Stuck s t := by
    exact fun _ _ _ => trivial
  stuck_countCalls : ∀ {w s t a b} (f : Nat → Nat), (pairing w).evaluations a b → Stuck s t →
    Stuck (s.countCalls a f) (t.countCalls b f) := by exact fun _ _ _ => trivial
  stuck_countScriptCalls : ∀ {w s t a b} (f : Nat → Nat), (pairing w).executions a b → Stuck s t →
    Stuck (s.countScriptCalls a f) (t.countScriptCalls b f) := by exact fun _ _ _ => trivial

namespace Coupling

variable {C : Coupling} {w : C.World}

/-- Two ends of runs that correspond. -/
def Ends (C : Coupling) (w : C.World) {α : Type} (R : C.World → α → α → Prop) :
    EStateM.Result Stop Store α → EStateM.Result Stop Store α → Prop
  | .ok a s, .ok b t => ∃ w', C.le w w' ∧ C.Inv w' s t ∧ R w' a b
  | .error (.failed f) s, .error (.failed g) t => f = g ∧ ∃ w', C.le w w' ∧ C.Inv w' s t
  | .error .exhausted s, .error .exhausted t => C.Stuck s t
  | .error .exhausted _, .ok _ _ => C.left.values
  | .error .exhausted _, .error (.failed g) _ => C.left.failures g
  | .ok _ _, .error .exhausted _ => C.right.values
  | .error (.failed f) _, .error .exhausted _ => C.right.failures f
  | _, _ => False

/-- Two runs that correspond from related stores on. -/
structure Rel (C : Coupling) (w : C.World) {α : Type} (x y : Run α)
    (R : C.World → α → α → Prop) : Prop where
  ends : ∀ s t, C.Inv w s t → C.Ends w R (x s) (y t)

section

variable {α β : Type} {R : C.World → α → α → Prop} {T : C.World → β → β → Prop} {x y : Run α}

/-- Where the second run may come to a value, it may come to anything. -/
theorem Ends.exhausted_left (h : C.left.values) {r : EStateM.Result Stop Store α} (s : Store) :
    C.Ends w R (.error .exhausted s) r := by
  cases r with
  | ok b t => exact h
  | error e t =>
    cases e with
    | failed f => exact C.left.of_values h f
    | exhausted => exact C.stuck_of_values (.inl h) s t

theorem Ends.exhausted_right (h : C.right.values) {r : EStateM.Result Stop Store α} (t : Store) :
    C.Ends w R r (.error .exhausted t) := by
  cases r with
  | ok b s => exact h
  | error e s =>
    cases e with
    | failed f => exact C.right.of_values h f
    | exhausted => exact C.stuck_of_values (.inr h) s t

/-- What has come to correspond in a later world corresponds from an earlier one. -/
theorem Ends.earlier {w' : C.World} (h : C.le w w') {r r' : EStateM.Result Stop Store α}
    (hr : C.Ends w' R r r') : C.Ends w R r r' := by
  match r, r', hr with
  | .ok a s, .ok b t, ⟨w'', hw, hi, hR⟩ => exact ⟨w'', C.le_trans h hw, hi, hR⟩
  | .error (.failed f) s, .error (.failed g) t, ⟨hfg, w'', hw, hi⟩ =>
    exact ⟨hfg, w'', C.le_trans h hw, hi⟩
  | .error .exhausted s, .error .exhausted t, hs => exact hs
  | .error .exhausted s, .ok b t, hv => exact hv
  | .error .exhausted s, .error (.failed g) t, hf => exact hf
  | .ok a s, .error .exhausted t, hv => exact hv
  | .error (.failed f) s, .error .exhausted t, hf => exact hf

theorem rel_pure {a b : α} (h : R w a b) : C.Rel w (pure a) (pure b) R :=
  ⟨fun _ _ hi => ⟨w, C.le_refl w, hi, h⟩⟩

theorem rel_fail (c : Cause) : C.Rel w (Run.fail c) (Run.fail c) R :=
  ⟨fun _ _ hi => ⟨rfl, w, C.le_refl w, hi⟩⟩

/-- Runs in sequence: the second two start where the first two ended. -/
theorem rel_bind {k l : α → Run β} (h : C.Rel w x y R)
    (hk : ∀ w', C.le w w' → ∀ a b, R w' a b → C.Rel w' (k a) (l b) T) :
    C.Rel w (x >>= k) (y >>= l) T := by
  refine ⟨fun s t hi => ?_⟩
  have hx := h.ends s t hi
  show C.Ends w T (EStateM.bind x k s) (EStateM.bind y l t)
  unfold EStateM.bind
  generalize x s = r at hx ⊢
  generalize y t = r' at hx ⊢
  match r, r', hx with
  | .ok a s', .ok b t', ⟨w', hw, hi', hR⟩ => exact ((hk w' hw a b hR).ends s' t' hi').earlier hw
  | .error (.failed f) s', .error (.failed g) t', ⟨hfg, w', hw, hi'⟩ => exact ⟨hfg, w', hw, hi'⟩
  | .error .exhausted s', .error .exhausted t', hs => exact hs
  | .error .exhausted s', .ok b t', hv => exact Ends.exhausted_left hv s'
  | .error .exhausted s', .error (.failed g) t', hf => exact hf
  | .ok a s', .error .exhausted t', hv => exact Ends.exhausted_right hv t'
  | .error (.failed f) s', .error .exhausted t', hf => exact hf

theorem rel_get {k l : Store → Run α}
    (h : ∀ s t, Store.Alike (C.pairing w) s t → C.Rel w (k s) (l t) R) :
    C.Rel w (get >>= k) (get >>= l) R :=
  ⟨fun s t hi => (h s t (C.alike hi)).ends s t hi⟩

theorem rel_mapFailure {f : Failure → Failure} (hf : Failure.Unseen f) (h : C.Rel w x y R) :
    C.Rel w (Run.mapFailure f x) (Run.mapFailure f y) R := by
  refine ⟨fun s t hi => ?_⟩
  have hx := h.ends s t hi
  unfold Run.mapFailure
  generalize x s = r at hx ⊢
  generalize y t = r' at hx ⊢
  match r, r', hx with
  | .ok a s', .ok b t', h => exact h
  | .error (.failed g) s', .error (.failed g') t', ⟨hg, h⟩ => exact ⟨congrArg f hg, h⟩
  | .error .exhausted s', .error .exhausted t', hs => exact hs
  | .error .exhausted s', .ok b t', hv => exact hv
  | .error .exhausted s', .error (.failed g) t', hg => exact C.left.unseen hf hg
  | .ok a s', .error .exhausted t', hv => exact hv
  | .error (.failed g) s', .error .exhausted t', hg => exact C.right.unseen hf hg

/-- Failures are caught in both runs or in neither, if whatever may come of failures may come
of values too. -/
theorem rel_outcome (left : ∀ e, C.left.failures e → C.left.values)
    (right : ∀ e, C.right.failures e → C.right.values) (h : C.Rel w x y R) :
    C.Rel w (Run.outcome x) (Run.outcome y) fun w => ExceptAlike (R w) := by
  refine ⟨fun s t hi => ?_⟩
  have hx := h.ends s t hi
  unfold Run.outcome
  generalize x s = r at hx ⊢
  generalize y t = r' at hx ⊢
  match r, r', hx with
  | .ok a s', .ok b t', ⟨w', hw, hi', hR⟩ => exact ⟨w', hw, hi', .ok hR⟩
  | .error (.failed g) s', .error (.failed g') t', ⟨hg, w', hw, hi'⟩ =>
    exact ⟨w', hw, hi', hg ▸ .error g⟩
  | .error .exhausted s', .error .exhausted t', hs => exact hs
  | .error .exhausted s', .ok b t', hv => exact hv
  | .error .exhausted s', .error (.failed g) t', hg => exact left g hg
  | .ok a s', .error .exhausted t', hv => exact hv
  | .error (.failed g) s', .error .exhausted t', hg => exact right g hg

/-- Runs followed by the same change of both stores, however they end. -/
theorem rel_ensuring {f g : Store → Store}
    (hf : ∀ w', C.le w w' → ∀ s t, C.Inv w' s t → C.Inv w' (f s) (g t))
    (hstuck : ∀ s t, C.Stuck s t → C.Stuck (f s) (g t)) (h : C.Rel w x y R) :
    C.Rel w (Run.ensuring x (modify f)) (Run.ensuring y (modify g)) R := by
  refine ⟨fun s t hi => ?_⟩
  have hx := h.ends s t hi
  unfold Run.ensuring
  generalize x s = r at hx ⊢
  generalize y t = r' at hx ⊢
  match r, r', hx with
  | .ok a s', .ok b t', ⟨w', hw, hi', hR⟩ => exact ⟨w', hw, hf w' hw _ _ hi', hR⟩
  | .error (.failed g) s', .error (.failed g') t', ⟨hg, w', hw, hi'⟩ =>
    exact ⟨hg, w', hw, hf w' hw _ _ hi'⟩
  | .error .exhausted s', .error .exhausted t', hs => exact hstuck _ _ hs
  | .error .exhausted s', .ok b t', hv => exact hv
  | .error .exhausted s', .error (.failed g) t', hg => exact hg
  | .ok a s', .error .exhausted t', hv => exact hv
  | .error (.failed g) s', .error .exhausted t', hg => exact hg

end

/-- A change of both stores that keeps the invariant. -/
theorem rel_modify {f g : Store → Store} (h : ∀ s t, C.Inv w s t → C.Inv w (f s) (g t)) :
    C.Rel w (modify f : Run PUnit) (modify g) fun _ _ _ => True :=
  ⟨fun s t hi => ⟨w, C.le_refl w, h s t hi, trivial⟩⟩

/-! ## Modifying containers -/

theorem touchArray_run (place : Nat) (s : Store) :
    Run.touchArray place s = if s.arrayFrozen place then Run.fault Run.frozenFault s
      else .ok () (s.modifyArray place .counted) := by
  show (if s.arrayFrozen place then (Run.fault Run.frozenFault >>= fun _ => modify _)
    else modify _ : Run Unit) s = _
  split <;> rfl

theorem touchObject_run (place : Nat) (s : Store) :
    Run.touchObject place s = if s.objectFrozen place then Run.fault Run.frozenFault s
      else .ok () (s.modifyObject place .counted) := by
  show (if s.objectFrozen place then (Run.fault Run.frozenFault >>= fun _ => modify _)
    else modify _ : Run Unit) s = _
  split <;> rfl

/-- A modification of an array, as a change of the store. -/
theorem rewriteItems_run (place : Nat)
    (f : Store → Except Cause (Array Native → Array Native)) (s : Store) :
    Run.rewriteItems place f s =
      if s.arrayFrozen place then Run.fault Run.frozenFault s
      else match f (s.modifyArray place .counted) with
        | .ok g => .ok () ((s.modifyArray place .counted).modifyArray place (.mapped g))
        | .error c => Run.fail c (s.modifyArray place .counted) := by
  show EStateM.bind (Run.touchArray place) _ s = _
  unfold EStateM.bind
  rw [touchArray_run]
  cases s.arrayFrozen place with
  | true => rfl
  | false =>
    show (match f (s.modifyArray place .counted) with
      | .ok g => Run.changeItems place g
      | .error c => Run.fail c : Run Unit) (s.modifyArray place .counted) = _
    cases f (s.modifyArray place .counted) <;> rfl

/-- A modification of an object, as a change of the store. -/
theorem modifyFields_run (place : Nat) (f : Fields → Fields) (s : Store) :
    Run.modifyFields place f s =
      if s.objectFrozen place then Run.fault Run.frozenFault s
      else .ok () ((s.modifyObject place .counted).modifyObject place (.mapped f)) := by
  show EStateM.bind (Run.touchObject place) _ s = _
  unfold EStateM.bind
  rw [touchObject_run]
  cases s.objectFrozen place <;> rfl

/-- A change that is no freezing leaves a container as frozen as it was. -/
theorem arrayFrozen_modifyArray (s : Store) (place : Nat)
    {f : Container (Array Native) → Container (Array Native)}
    (hf : ∀ c, (f c).frozen = c.frozen) :
    (s.modifyArray place f).arrayFrozen place = s.arrayFrozen place := by
  unfold Store.arrayFrozen Store.modifyArray
  simp only [Array.getElem?_modify, if_true]
  cases s.arrays[place]? with
  | none => rfl
  | some c => exact hf c

theorem objectFrozen_modifyObject (s : Store) (place : Nat)
    {f : Container Fields → Container Fields} (hf : ∀ c, (f c).frozen = c.frozen) :
    (s.modifyObject place f).objectFrozen place = s.objectFrozen place := by
  unfold Store.objectFrozen Store.modifyObject
  simp only [Array.getElem?_modify, if_true]
  cases s.objects[place]? with
  | none => rfl
  | some c => exact hf c

/-- A frozen container refuses in both runs or in neither; one that is not frozen is
counted first and changed then. -/
theorem rel_rewriteItems {a b : Nat} {f g : Store → Except Cause (Array Native → Array Native)}
    (hab : (C.pairing w).arrays a b)
    (h : ∀ s t, Store.Alike (C.pairing w) s t → ExceptAlike
      (fun f g => ∀ xs ys : Array Native,
        Forall₂ (Native.Alike (C.pairing w)) xs.toList ys.toList →
        Forall₂ (Native.Alike (C.pairing w)) (f xs).toList (g ys).toList) (f s) (g t)) :
    C.Rel w (Run.rewriteItems a f) (Run.rewriteItems b g) fun _ _ _ => True := by
  refine ⟨fun s t hi => ?_⟩
  rw [rewriteItems_run, rewriteItems_run, ← C.arrayFrozen hi hab]
  cases hz : s.arrayFrozen a with
  | true => exact ⟨rfl, w, C.le_refl w, hi⟩
  | false =>
    have hi₁ : C.Inv w (s.modifyArray a .counted) (t.modifyArray b .counted) :=
      C.modifyArray hi hab hz (fun _ _ hc => ⟨hc.content, congrArg (· + 1) hc.version, hc.frozen⟩)
        fun _ => rfl
    have hz₁ : (s.modifyArray a .counted).arrayFrozen a = false :=
      (arrayFrozen_modifyArray s a (f := .counted) fun _ => rfl).trans hz
    have hfg := h _ _ (C.alike hi₁)
    simp only [Bool.false_eq_true, if_false]
    generalize f (s.modifyArray a .counted) = r at hfg ⊢
    generalize g (t.modifyArray b .counted) = r' at hfg ⊢
    cases hfg with
    | error c => exact ⟨rfl, w, C.le_refl w, hi₁⟩
    | ok hfg =>
      exact ⟨w, C.le_refl w, C.modifyArray hi₁ hab hz₁
        (fun _ _ hc => ⟨hfg _ _ hc.content, hc.version, hc.frozen⟩) fun _ => rfl, trivial⟩

theorem rel_modifyFields {a b : Nat} {f g : Fields → Fields} (hab : (C.pairing w).objects a b)
    (h : ∀ fs gs, Forall₂ (Keyed.Alike (Native.Alike (C.pairing w))) fs gs →
      Forall₂ (Keyed.Alike (Native.Alike (C.pairing w))) (f fs) (g gs)) :
    C.Rel w (Run.modifyFields a f) (Run.modifyFields b g) fun _ _ _ => True := by
  refine ⟨fun s t hi => ?_⟩
  rw [modifyFields_run, modifyFields_run, ← C.objectFrozen hi hab]
  cases hz : s.objectFrozen a with
  | true => exact ⟨rfl, w, C.le_refl w, hi⟩
  | false =>
    have hi₁ : C.Inv w (s.modifyObject a .counted) (t.modifyObject b .counted) :=
      C.modifyObject hi hab hz (fun _ _ hc => ⟨hc.content, congrArg (· + 1) hc.version, hc.frozen⟩)
        fun _ => rfl
    have hz₁ : (s.modifyObject a .counted).objectFrozen a = false :=
      (objectFrozen_modifyObject s a (f := .counted) fun _ => rfl).trans hz
    exact ⟨w, C.le_refl w, C.modifyObject hi₁ hab hz₁
      (fun _ _ hc => ⟨h _ _ hc.content, hc.version, hc.frozen⟩) fun _ => rfl, trivial⟩

/-! ## Counting calls -/

/-- A call that is counted while it runs. -/
theorem rel_call {α : Type} {R : C.World → α → α → Prop} {x y : Run α}
    {busy busy' : Store → Bool} {up up' down down' : Store → Store}
    (hbusy : ∀ s t, C.Inv w s t → busy s = busy' t)
    (hup : ∀ s t, C.Inv w s t → C.Inv w (up s) (up' t))
    (hdown : ∀ w', C.le w w' → ∀ s t, C.Inv w' s t → C.Inv w' (down s) (down' t))
    (hstuck : ∀ s t, C.Stuck s t → C.Stuck (down s) (down' t))
    (h : ∀ w', C.le w w' → C.Rel w' x y R) :
    C.Rel w
      (do
        if busy (← get) then Run.fail .tooManyCalls
        modify up
        Run.ensuring x (modify down))
      (do
        if busy' (← get) then Run.fail .tooManyCalls
        modify up'
        Run.ensuring y (modify down')) R := by
  refine ⟨fun s t hi => ?_⟩
  have hcall : C.Rel w (do modify up; Run.ensuring x (modify down))
      (do modify up'; Run.ensuring y (modify down')) R :=
    rel_bind (rel_modify hup) fun w' hw _ _ _ =>
      rel_ensuring (fun w'' hw' => hdown w'' (C.le_trans hw hw')) hstuck (h w' hw)
  show C.Ends w R
    ((if busy s then Run.fail .tooManyCalls >>= fun _ => _ else _ : Run α) s)
    ((if busy' t then Run.fail .tooManyCalls >>= fun _ => _ else _ : Run α) t)
  rw [hbusy s t hi]
  split
  · exact ⟨rfl, w, C.le_refl w, hi⟩
  · exact hcall.ends s t hi

/-! ## The simulation -/

/-- How much of a loop two runs may go through: as much as one another, or one of them less
if it may be exhausted where the other is not. -/
def Bounds (C : Coupling) (m n : Nat) : Prop :=
  m = n ∨ (C.left.values ∧ m ≤ n) ∨ (C.right.values ∧ n ≤ m)

/-- The simulation of a coupling. -/
def simulation (C : Coupling) : Simulation where
  World := C.World
  le := C.le
  le_refl := C.le_refl
  le_trans := C.le_trans
  pairing := C.pairing
  within := C.within
  Rel w _ x y R := C.Rel w x y R
  pure := rel_pure
  bind := rel_bind
  get := rel_get
  fail := rel_fail
  exhausted := ⟨fun _ _ hi => C.stuck hi⟩
  Fuel := C.Bounds
  fuel_succ h := h.imp Nat.succ.inj <| .imp (.imp_right Nat.le_of_succ_le_succ)
    (.imp_right Nat.le_of_succ_le_succ)
  fuel_left := by
    rintro w n α R y (h | ⟨hv, -⟩ | ⟨-, h⟩)
    · cases h
    · exact ⟨fun _ _ _ => Ends.exhausted_left hv _⟩
    · exact absurd h (Nat.not_succ_le_zero n)
  fuel_right := by
    rintro w m α R x (h | ⟨-, h⟩ | ⟨hv, -⟩)
    · cases h
    · exact absurd h (Nat.not_succ_le_zero m)
    · exact ⟨fun _ _ _ => Ends.exhausted_right hv _⟩
  behindCall h := rel_mapFailure Failure.unseen_behindCall h
  freshId := ⟨fun _ _ hi => C.freshId hi⟩
  newArray h := ⟨fun _ _ hi =>
    have ⟨w', hw, hi', hab⟩ := C.newArray hi h
    ⟨w', hw, hi', .array hab⟩⟩
  newObject h := ⟨fun _ _ hi =>
    have ⟨w', hw, hi', hab⟩ := C.newObject hi h
    ⟨w', hw, hi', .object hab⟩⟩
  rewriteItems := rel_rewriteItems
  modifyFields := rel_modifyFields
  freeze h := ⟨fun _ _ hi =>
    have ⟨w', hw, hi'⟩ := C.freeze hi h
    ⟨w', hw, hi', trivial⟩⟩
  newBlock h := ⟨fun _ _ hi => C.newBlock hi h⟩
  remember name h hv := rel_modify fun _ _ hi => C.remember name hi h hv
  log severity line := rel_modify fun _ _ hi => C.log (severity, line) hi
  newEvaluation maxDepth h := ⟨fun _ _ hi => C.newEvaluation maxDepth hi h⟩
  newExecution maxDepth h := ⟨fun _ _ hi => C.newExecution maxDepth hi h⟩
  session? h := ⟨fun _ _ hi => ⟨_, C.le_refl _, hi, C.session? hi h⟩⟩

/-- The simulation of a coupling goes through everything. -/
theorem thorough (C : Coupling) : C.simulation.Thorough where
  mapFailure := rel_mapFailure
  setVariable name h hv := rel_modify fun _ _ hi => C.setVariable name hi h hv
  callWithin h hx := rel_call (fun _ _ hi => C.busy hi h) (fun _ _ hi => C.countCalls _ hi h)
    (fun _ hw _ _ hi => C.countCalls (· - 1) hi ((C.within hw).evaluations h))
    (fun _ _ => C.stuck_countCalls (· - 1) h) hx
  callDuring h hx := rel_call (fun _ _ hi => C.scriptBusy hi h)
    (fun _ _ hi => C.countScriptCalls _ hi h)
    (fun _ hw _ _ hi => C.countScriptCalls (· - 1) hi ((C.within hw).executions h))
    (fun _ _ => C.stuck_countScriptCalls (· - 1) h) hx

end Coupling
end Workbook
