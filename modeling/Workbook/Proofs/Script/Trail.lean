/-
The calls that a failure of a script lists.

A failure learns on its way out where it was: the innermost list of statements, or the function
whose value is an expression, notes the place, and each function that is left adds itself with the
place that was noted.  `Engine.tracing` is an engine that knows all this beforehand.  It is handed
the calls that are active, each with the place that it has come to, and a failure gets them where
it arises; on the way out nothing is done to it.  `runScript_traced` says that scripts run alike in
both ways.
-/
import Workbook.Proofs.Vigil

namespace Workbook

/-! ## Knowing the calls -/

/-- The failure where it arises in these calls.  One that has its calls keeps them. -/
def Failure.raisedIn (calls : List Frame) (f : Failure) : Failure :=
  if f.stack.isEmpty then { f with stack := calls.take maxFrames } else f

/-- Whether a request is about code of a script. -/
def Request.isScript : {α : Type} → Request α → Bool
  | _, .invoke .. => true
  | _, .statement .. => true
  | _, .expression .. => true
  | _, _ => false

namespace Engine

open Script

/-! ### Statements and functions

Each of these is given the engines for the places in a function, and the name of the function. -/

section

variable (engine : Frame → Engine) (function : String)

/-- Runs statements until one does not end normally, each with the engine for its place. -/
def tracingInOrder (run block : Nat) : List Stmt → Run Flow
  | [] => return .normal
  | st :: rest => do
    match ← (engine ⟨function, st.span.line, st.span.column⟩).ask (.statement run block st) with
    | .normal => tracingInOrder run block rest
    | flow => return flow

/-- Runs the statements of a block. -/
def tracingStatements (run block : Nat) (body : List Stmt) : Run Flow := do
  hoist run block body
  tracingInOrder engine function run block body

/-- The value of the body of a function. -/
def tracingBody (run block : Nat) : Body → Run Native
  | .block body => do
    match ← tracingStatements engine function run block body with
    | .returned v => return v
    | _ => return .undefined
  | .expr e => (engine ⟨function, e.span.line, e.span.column⟩).ask (.expression run block e)

/-- The value of a function for arguments. -/
def tracingInvoke (run block : Nat) (f : Function) (arguments : List Native) : Run Native :=
  callDuring run do
    let inner ← Run.newBlock (some block)
    defineParameters inner arguments 0 f.parameters
    tracingBody engine function run inner f.body

/-- Runs a script as a function. -/
def tracingScript (scope : Scope Native) (maxDepth : Nat) (body : List Stmt) : Run Native := do
  let run ← Run.newExecution scope maxDepth
  let block ← Run.newBlock none
  match ← tracingStatements engine function run block body with
  | .returned v => return v
  | _ => return .null

end

/-- The answer to a request that is made at a place of the innermost call.  A function that is
called is one call more; a block of statements is run in the same call. -/
def tracingAnswer (engine : Frame → List Frame → Engine) (fuel : Nat) (call : Frame)
    (outer : List Frame) : {α : Type} → Request α → Run α
  | _, .invoke run block f name arguments =>
    tracingInvoke (engine · (call :: outer)) name run block f arguments
  | _, .statement run block (.block _ body) => do
    tracingStatements (engine · outer) call.function run (← Run.newBlock (some block)) body
  | _, r => answer (engine call outer) fuel r

/-- The engine that knows the calls that are active.  Only code of scripts is run in it; everything
else has the answers of the engine itself. -/
def tracing : Nat → Frame → List Frame → Engine
  | 0, _, _ => ⟨fun _ => Run.exhausted⟩
  | fuel + 1, call, outer => ⟨fun r =>
    if r.isScript then
      Run.mapFailure (·.raisedIn (call :: outer)) (tracingAnswer (tracing fuel) fuel call outer r)
    else (ofFuel (fuel + 1)).ask r⟩

end Engine

/-! ## Failures on their way out -/

namespace Failure

/-- The calls that a failure breaks off: those that it has left and those that are still to be
left.  The innermost of these is at the place that was noted, if one was. -/
def frames (f : Failure) : List Frame → List Frame
  | [] => f.stack
  | call :: outer =>
    let place := f.place.getD (call.line, call.column)
    f.stack ++ ⟨call.function, place.1, place.2⟩ :: outer

/-- The first failure lists the calls that the second one breaks off. -/
structure Lists (calls : List Frame) (f g : Failure) : Prop where
  cause : f.cause = g.cause
  stack : f.stack = (g.frames calls).take maxFrames
  place : f.place = none
  short : g.stack.length ≤ maxFrames

/-- The first failure lists the calls that the second one breaks off, or it has just arisen. -/
inductive Arises (calls : List Frame) : Failure → Failure → Prop
  | listed {f g : Failure} (h : Lists calls f g) : Arises calls f g
  | fresh (c : Cause) : Arises calls (.ofCause c) (.ofCause c)

variable {f g : Failure} {call : Frame} {calls outer : List Frame}

theorem frames_of_place (hplace : g.place = none) : g.frames calls = g.stack ++ calls := by
  cases calls with
  | nil => exact (List.append_nil _).symm
  | cons call outer =>
    unfold frames
    rw [hplace]
    rfl

/-- A failure that lists calls lists at least the innermost one. -/
theorem Lists.stack_ne_nil (h : Lists (call :: outer) f g) : f.stack ≠ [] := by
  intro hnil
  have hlength := congrArg List.length (h.stack.symm.trans hnil)
  simp [frames, maxFrames] at hlength

theorem Arises.lists (h : Arises calls f g) (hf : f.stack ≠ []) : Lists calls f g := by
  cases h with
  | listed h => exact h
  | fresh c => exact absurd rfl hf

theorem Arises.listed_of_place (h : Arises calls f g) (hplace : g.place.isSome) :
    Lists calls f g := by
  cases h with
  | listed h => exact h
  | fresh c => cases hplace

theorem Arises.cause (h : Arises calls f g) : f.cause = g.cause := by
  cases h with
  | listed h => exact h.cause
  | fresh c => rfl

theorem raisedIn_stack_ne_nil (f : Failure) (call : Frame) (outer : List Frame) :
    (f.raisedIn (call :: outer)).stack ≠ [] := by
  unfold Failure.raisedIn
  split
  · simp [maxFrames]
  · next h => simpa using h

/-- Where a failure has arisen, it is given the calls. -/
theorem Arises.raisedIn (h : Arises (call :: outer) f g) :
    Lists (call :: outer) (f.raisedIn (call :: outer)) g := by
  unfold Failure.raisedIn
  cases h with
  | listed h =>
    rw [if_neg (by simpa using h.stack_ne_nil)]
    exact h
  | fresh c => exact ⟨rfl, rfl, rfl, Nat.zero_le _⟩

/-- The place that is noted is the one that the innermost call has come to. -/
theorem Lists.located {line column : Nat} (h : Lists (⟨call.function, line, column⟩ :: outer) f g) :
    Lists (call :: outer) f (g.located line column) where
  cause := h.cause
  stack := by
    rw [h.stack]
    unfold frames Failure.located
    cases g.place <;> rfl
  place := h.place
  short := h.short

/-- A call that is left is listed with the place that was noted. -/
theorem Lists.left (h : Lists (call :: outer) f g) (hplace : g.place.isSome) :
    Lists outer f (g.left call.function) := by
  obtain ⟨⟨line, column⟩, hplace⟩ := Option.isSome_iff_exists.1 hplace
  have hstack : f.stack = (g.stack ++ ⟨call.function, line, column⟩ :: outer).take maxFrames := by
    rw [h.stack]
    unfold frames
    rw [hplace]
    rfl
  unfold Failure.left
  simp only [hplace]
  split
  · next hfull =>
    refine ⟨h.cause, ?_, h.place, h.short⟩
    rw [hstack, frames_of_place rfl, List.take_append_of_le_length hfull,
      List.take_append_of_le_length hfull]
  · next hfull =>
    refine ⟨h.cause, ?_, h.place, ?_⟩
    · rw [hstack, frames_of_place rfl, List.append_cons]
    · rw [List.length_append]
      exact Nat.lt_of_not_le hfull

theorem left_place (f : Failure) (function : String) : (f.left function).place = none := by
  unfold Failure.left
  split
  · assumption
  · split <;> rfl

/-- A failure that has left all calls is the one that lists them. -/
theorem Lists.eq (h : Lists [] f g) (hplace : g.place = none) : f = g := by
  obtain ⟨cause, stack, place⟩ := f
  obtain ⟨cause', stack', place'⟩ := g
  obtain rfl : cause = cause' := h.cause
  obtain rfl : place = none := h.place
  obtain rfl : place' = none := hplace
  obtain rfl : stack = stack' := h.stack.trans (List.take_of_length_le h.short)
  rfl

end Failure

/-! ## Runs that fail -/

namespace Run

variable {α β : Type}

theorem mapFailure_id (x : Run α) : mapFailure id x = x := by
  funext s
  unfold mapFailure
  cases x s with
  | ok a t => rfl
  | error e t => cases e <;> rfl

theorem failed_of_mapFailure {h : Failure → Failure} {x : Run α} {s t : Store} {f : Failure}
    (hf : mapFailure h x s = .error (.failed f) t) : ∃ g, f = h g := by
  unfold mapFailure at hf
  generalize x s = r at hf
  match r, hf with
  | .error (.failed g) _, hf =>
    cases hf
    exact ⟨g, rfl⟩

/-- Failures of the run have noted a place. -/
def Places (x : Run α) : Prop :=
  ∀ s f t, x s = .error (.failed f) t → f.place.isSome

theorem Places.bind {x : Run α} {k : α → Run β} (hx : x.Places) (hk : ∀ a, (k a).Places) :
    (x >>= k).Places := by
  intro s f t h
  cases hs : x s with
  | ok a s' =>
    rw [bind_run hs] at h
    exact hk a s' f t h
  | error e s' =>
    rw [bind_error hs] at h
    cases h
    exact hx s f t hs

theorem places_pure (a : α) : (pure a : Run α).Places :=
  nofun

theorem places_located (line column : Nat) (x : Run α) :
    (mapFailure (·.located line column) x).Places := by
  intro s f t h
  obtain ⟨g, rfl⟩ := failed_of_mapFailure h
  cases hplace : g.place <;> simp [Failure.located, hplace]

end Run

namespace Engine

variable (e : Engine) (run block : Nat)

theorem places_hoist (sts : List Script.Stmt) : (hoist run block sts).Places := by
  induction sts with
  | nil => exact Run.places_pure ()
  | cons st rest ih =>
    cases st with
    | function f =>
      unfold hoist
      cases f.name with
      | none => exact ih
      | some n =>
        exact Run.Places.bind (fun _ _ _ h => by cases h) fun _ =>
          Run.Places.bind (fun _ _ _ h => by cases h) fun _ => ih
    | _ => exact ih

theorem places_inOrder (sts : List Script.Stmt) : (e.inOrder run block sts).Places := by
  induction sts with
  | nil => exact Run.places_pure _
  | cons st rest ih =>
    refine Run.Places.bind (Run.places_located _ _ _) fun flow => ?_
    cases flow with
    | normal => exact ih
    | _ => exact Run.places_pure _

theorem places_statements (sts : List Script.Stmt) : (e.statements run block sts).Places :=
  Run.Places.bind (places_hoist run block sts) fun _ => e.places_inOrder run block sts

theorem places_bodyValue (body : Script.Body) : (e.bodyValue run block body).Places := by
  cases body with
  | block body =>
    refine Run.Places.bind (e.places_statements run block body) fun flow => ?_
    cases flow <;> exact Run.places_pure _
  | expr x => exact Run.places_located _ _ _

end Engine

/-! ## The vigil over failures -/

namespace Vigil

/-- The first run knows the calls that are active, the second one does not. -/
def tracing (calls : List Frame) : Vigil where
  World := Unit
  le _ _ := True
  le_refl _ := trivial
  le_trans _ _ := trivial
  Inv _ _ := True
  inert _ _ := trivial
  Fails := Failure.Arises calls
  fails_fresh := .fresh
  cause := Failure.Arises.cause
  cut := False

variable {α : Type} {calls outer : List Frame} {call : Frame} {x y : Run α}
  {R : Unit → α → α → Prop}

/-- A run whose failures know nothing of where they were goes with itself. -/
theorem rel_fresh (h : ∀ s f t, x s = .error (.failed f) t → ∃ c, f = .ofCause c)
    (hR : ∀ a, R () a a) : (tracing calls).Rel () x x R := by
  refine ⟨fun s _ => ?_⟩
  generalize hx : x s = r
  match r with
  | .ok a t => exact .ok ((tracing calls).le_refl ()) trivial (hR a)
  | .error (.failed f) t =>
    obtain ⟨c, rfl⟩ := h s f t hx
    exact .failed ((tracing calls).le_refl ()) trivial (.fresh c)
  | .error .exhausted t => exact .exhausted ((tracing calls).le_refl ()) trivial

/-- Failures may be changed if what they list stays right. -/
theorem rel_changed {k l : Failure → Failure} (hx : (tracing calls).Rel () x y R)
    (hF : ∀ s f g t t', x s = .error (.failed f) t → y s = .error (.failed g) t' →
      Failure.Arises calls f g → Failure.Arises outer (k f) (l g)) :
    (tracing outer).Rel () (Run.mapFailure k x) (Run.mapFailure l y) R := by
  refine ⟨fun s _ => ?_⟩
  have hends := hx.ends s trivial
  have hF := hF s
  unfold Run.mapFailure
  generalize x s = r at hends hF ⊢
  generalize y s = r' at hends hF ⊢
  cases hends with
  | ok _ _ h => exact .ok ((tracing outer).le_refl ()) trivial h
  | failed _ _ h => exact .failed ((tracing outer).le_refl ()) trivial (hF _ _ _ _ rfl rfl h)
  | exhausted => exact .exhausted ((tracing outer).le_refl ()) trivial
  | cut h => exact h.elim

/-- A failure that arises in these calls gets them. -/
theorem rel_raised (hx : (tracing (call :: outer)).Rel () x y R) :
    (tracing (call :: outer)).Rel () (Run.mapFailure (·.raisedIn (call :: outer)) x) y R := by
  rw [← Run.mapFailure_id y]
  exact rel_changed hx fun _ _ _ _ _ _ _ h => .listed h.raisedIn

/-- Runs end the same where all calls were left. -/
theorem Ends.eq_of_place {r r' : EStateM.Result Stop Store α}
    (h : (tracing []).Ends () (fun _ => Eq) r r')
    (hplace : ∀ f t, r' = .error (.failed f) t → f.place = none) : r = r' := by
  cases h with
  | ok _ _ h => rw [h]
  | failed _ _ h =>
    cases h with
    | listed h => rw [h.eq (hplace _ _ rfl)]
    | fresh c => rfl
  | exhausted => rfl
  | cut h => exact h.elim

/-- The innermost call is left where all failures have noted a place. -/
theorem rel_left (hx : (tracing (call :: outer)).Rel () x y R) (hy : y.Places) :
    (tracing outer).Rel () x (Run.mapFailure (·.left call.function) y) R := by
  rw [← Run.mapFailure_id x]
  refine rel_changed hx fun s f g t t' _ hg h => ?_
  have hplace := hy s g t' hg
  exact .listed ((h.listed_of_place hplace).left hplace)

end Vigil

/-- The first engine knows the calls that are active: failures that come out of code of scripts list
them.  Everything else is answered as by the second engine. -/
structure Engine.Knows (call : Frame) (outer : List Frame) (e₁ e₂ : Engine) : Prop where
  script : ∀ {α : Type} (r : Request α), r.isScript = true →
    (Vigil.tracing (call :: outer)).Rel () (e₁.ask r) (e₂.ask r) fun _ => Eq
  listed : ∀ {α : Type} (r : Request α), r.isScript = true → ∀ s f t,
    e₁.ask r s = .error (.failed f) t → f.stack ≠ []
  other : ∀ {α : Type} (r : Request α), r.isScript = false → e₁.ask r = e₂.ask r
  callNative : ∀ f arguments s g t,
    e₂.ask (.callNative f arguments) s = .error (.failed g) t → ∃ c, g = .ofCause c

namespace Engine

variable {call : Frame} {outer : List Frame} {e₁ e₂ : Engine}

/-- Names of folders are read without code of the script. -/
theorem Knows.folderName (h : Knows call outer e₁ e₂) (place : Nat) (folder name : String) :
    e₁.folderName place folder name = e₂.folderName place folder name := by
  have hevaluate (key : String) := h.other (.evaluate place key) rfl
  have hfolder (key : String) := h.other (.folderValue place key) rfl
  have hnative (v : Value) := h.other (.native v) rfl
  have htyped (b : Binding) : e₁.typedBinding place name b = e₂.typedBinding place name b := by
    unfold typedBinding
    simp only [hevaluate, hfolder]
  have hbinding (b : Binding) : e₁.nativeBinding place name b = e₂.nativeBinding place name b := by
    unfold nativeBinding
    simp only [htyped, hevaluate, hnative]
  unfold Engine.folderName
  simp only [hbinding]

end Engine

/-! ## Code of scripts -/

namespace Vigil

open Script

variable {call : Frame} {outer : List Frame} {e₁ e₂ : Engine} {α : Type}
  {R : Unit → α → α → Prop}

theorem setsVariables_tracing (calls : List Frame) : (tracing calls).simulation.SetsVariables :=
  setsVariables fun _ _ _ _ => trivial

section

variable (h : e₁.Knows call outer e₂)
include h

theorem rel_script {r : Request α} (hr : r.isScript = true) (hR : ∀ a, R () a a) :
    (tracing (call :: outer)).Rel () (e₁.ask r) (e₂.ask r) R :=
  (h.script r hr).imp fun _ a _ hab => hab ▸ hR a

theorem supplies_of_knows : (tracing (call :: outer)).simulation.Supplies e₁ e₂ where
  callNative := by
    rintro w f g vs vs' hf hv
    obtain rfl := NativeFunction.eq_of_alike hf
    obtain rfl := Native.eq_of_forall hv
    rw [h.other _ rfl]
    exact rel_fresh (h.callNative f vs) Native.alike_self
  invoke := by
    rintro w run _ block _ vs vs' f name rfl rfl hv
    obtain rfl := Native.eq_of_forall hv
    exact rel_script h rfl Native.alike_self
  expression := by
    rintro w run _ block _ e rfl rfl
    exact rel_script h rfl Native.alike_self
  folderName := by
    rintro w place _ rfl folder name
    rw [h.folderName]
    exact rel_fresh (fun _ _ _ hf => (Run.failed_of_mapFailure hf).elim fun _ h => ⟨_, h⟩)
      (optional_refl Native.alike_self)

/-- A statement of a branch or a loop is run at the place of the statement that it belongs to. -/
theorem asks_of_knows (run block : Nat) (sts : List Stmt) :
    (tracing (call :: outer)).simulation.Asks e₁ e₂ () run run block block sts :=
  fun _ _ _ _ => rel_script h rfl Simulation.flow_self

/-- Statements but blocks do the same. -/
theorem rel_statement (fuel run block : Nat) {st : Stmt}
    (hst : ∀ span body, st ≠ .block span body) :
    (tracing (call :: outer)).Rel () (e₁.statement fuel run block st)
      (e₂.statement fuel run block st) fun _ => Eq := by
  have hset := setsVariables_tracing (call :: outer)
  have hparts : (tracing (call :: outer)).simulation.Parts e₁ e₂ () run run block block st
      fun _ => Eq :=
    { declare := fun _ name _ how _ _ hv => hset.declare rfl name how hv
      direct := asks_of_knows h run block _
      newBlock := fun _ => (tracing (call :: outer)).simulation.newBlock (.some rfl)
      blocks := fun hij => hij
      mono := fun _ hij => hij
      declareInner := fun _ hij name _ how _ _ hv => hset.declare hij name how hv
      inner := by
        rintro w' i _ - rfl
        exact asks_of_knows h run i _
      statements := fun _ _ span body heq => absurd heq (hst span body) }
  exact Rel.imp (V := tracing (call :: outer))
    ((supplies_of_knows h).statementOf rfl rfl rfl hparts) fun _ _ _ => Simulation.flow_eq

theorem rel_expression (run block : Nat) (e : Expr) :
    (tracing (call :: outer)).Rel () (e₁.expression run block e) (e₂.expression run block e)
      fun _ => Eq :=
  Rel.imp (V := tracing (call :: outer))
    ((supplies_of_knows h).expressionOf rfl rfl e fun s _ =>
      (setsVariables_tracing _).assigns rfl s)
    fun _ _ _ => Native.eq_of_alike

end

/-! ### Statements and functions -/

section

variable {engine : Frame → Engine} (h : ∀ call, (engine call).Knows call outer e₂)
  (call : Frame) (run block : Nat)
include h

/-- The place is noted that the engine knew. -/
theorem rel_located {r : Request α} (hr : r.isScript = true) (line column : Nat) :
    (tracing (call :: outer)).Rel () ((engine ⟨call.function, line, column⟩).ask r)
      (Run.mapFailure (·.located line column) (e₂.ask r)) fun _ => Eq := by
  have hknows := h ⟨call.function, line, column⟩
  rw [← Run.mapFailure_id ((engine _).ask r)]
  refine rel_changed (hknows.script r hr) fun s f g t t' hf _ ha => .listed ?_
  exact (ha.lists (hknows.listed r hr s f t hf)).located

theorem rel_inOrder (sts : List Stmt) :
    (tracing (call :: outer)).Rel ()
      (Engine.tracingInOrder engine call.function run block sts)
      (e₂.inOrder run block sts) fun _ => Eq := by
  induction sts with
  | nil => exact rel_pure rfl
  | cons st rest ih =>
    refine rel_bind (rel_located h call rfl _ _) ?_
    rintro _ - flow _ rfl
    cases flow with
    | normal => exact ih
    | _ => exact rel_pure rfl

theorem rel_statements (sts : List Stmt) :
    (tracing (call :: outer)).Rel ()
      (Engine.tracingStatements engine call.function run block sts)
      (e₂.statements run block sts) fun _ => Eq := by
  have hhoist := Simulation.rel_hoist (S := (tracing (call :: outer)).simulation.toSimulation)
    (w := ()) (a := run) (c := block) rfl rfl
    ((setsVariables_tracing _).defines rfl (Stmt.hoisted sts))
  exact rel_bind hhoist fun _ _ _ _ _ => rel_inOrder h call run block sts

theorem rel_bodyValue (body : Body) :
    (tracing (call :: outer)).Rel () (Engine.tracingBody engine call.function run block body)
      (e₂.bodyValue run block body) fun _ => Eq := by
  cases body with
  | block body =>
    refine rel_bind (rel_statements h call run block body) ?_
    rintro _ - flow _ rfl
    cases flow <;> exact rel_pure rfl
  | expr e => exact rel_located h call rfl _ _

end

/-- A function is called in the calls that are active, and its body is run in one call more. -/
theorem rel_invoke {engine : Frame → Engine} (h : ∀ call, (engine call).Knows call outer e₂)
    (run block : Nat) (f : Function) (name : String) (arguments : List Native) :
    (tracing outer).Rel () (Engine.tracingInvoke engine name run block f arguments)
      (e₂.invoke run block f name arguments) fun _ => Eq := by
  unfold Engine.tracingInvoke Engine.invoke
  rw [Engine.callDuring_eq, Engine.callDuring_eq]
  refine rel_counted (fun _ _ => trivial) ?_
  have hnew := (tracing outer).simulation.newBlock (w := ()) (a := some block) (b := some block)
    (.some rfl)
  refine rel_bind hnew ?_
  rintro _ - inner _ rfl
  have hparameters := Simulation.rel_defineParameters
    (S := (tracing outer).simulation.toSimulation) (w := ()) (c := inner) (d := inner)
    (Native.forall_self arguments) 0
    ((setsVariables_tracing outer).defines rfl (f.parameters.map Name.text))
  refine rel_bind hparameters fun _ _ _ _ _ => ?_
  exact rel_left (rel_bodyValue h ⟨name, 0, 0⟩ run inner f.body)
    (e₂.places_bodyValue run inner f.body)

end Vigil

namespace Engine

open Script Vigil

/-- The engine that knows the calls does what the engine itself does. -/
theorem knows_tracing (fuel : Nat) (call : Frame) (outer : List Frame) :
    (tracing fuel call outer).Knows call outer (ofFuel fuel) := by
  induction fuel generalizing call outer with
  | zero =>
    exact ⟨fun _ _ => rel_exhausted, fun _ _ _ _ _ => nofun, fun _ _ => rfl, fun _ _ _ _ _ => nofun⟩
  | succ fuel ih =>
    have hscript {α : Type} {r : Request α} (hr : r.isScript = true) :
        (tracing (fuel + 1) call outer).ask r = Run.mapFailure (·.raisedIn (call :: outer))
          (tracingAnswer (tracing fuel) fuel call outer r) := if_pos hr
    have hanswer {α : Type} (r : Request α) (hr : r.isScript = true) :
        (Vigil.tracing (call :: outer)).Rel () (tracingAnswer (tracing fuel) fuel call outer r)
          (answer (ofFuel fuel) fuel r) fun _ => Eq := by
      cases r with
      | invoke run block f name arguments =>
        exact rel_invoke (fun call' => ih call' (call :: outer)) run block f name arguments
      | statement run block st =>
        have hother (hst : ∀ span body, st ≠ .block span body) :=
          rel_statement (ih call outer) fuel run block hst
        cases st with
        | block span body =>
          have hnew := (Vigil.tracing (call :: outer)).simulation.newBlock (w := ())
            (a := some block) (b := some block) (.some rfl)
          refine rel_bind hnew ?_
          rintro _ - inner _ rfl
          exact rel_statements (fun call' => ih call' outer) call run inner body
        | _ => exact hother (by rintro _ _ ⟨⟩)
      | expression run block e => exact rel_expression (ih call outer) run block e
      | _ => cases hr
    refine ⟨fun r hr => ?_, fun r hr s f t hf => ?_, fun r hr => ?_, fun f vs s g t hg => ?_⟩
    · rw [hscript hr]
      exact rel_raised (hanswer r hr)
    · rw [hscript hr] at hf
      obtain ⟨g, rfl⟩ := Run.failed_of_mapFailure hf
      exact g.raisedIn_stack_ne_nil call outer
    · exact if_neg (by simp [hr])
    · obtain ⟨g', rfl⟩ := Run.failed_of_mapFailure hg
      exact ⟨_, rfl⟩

/-- A script runs as it does with an engine that knows the calls that are active.  So a failure of a
script lists them as they were where it arose, up to the limit: the innermost first, each with the
statement in its innermost list, or the expression that is its value, that it had come to, and at
the end the script itself. -/
theorem runScript_traced (fuel : Nat) (scope : Scope Native) (maxDepth : Nat) (name : String)
    (body : List Stmt) :
    (ofFuel fuel).runScript scope maxDepth name body =
      tracingScript (tracing fuel · []) name scope maxDepth body := by
  have hstatements (run block : Nat) : (Vigil.tracing []).Rel ()
      (tracingStatements (tracing fuel · []) name run block body)
      (Run.mapFailure (·.left name) ((ofFuel fuel).statements run block body)) fun _ => Eq :=
    rel_left (rel_statements (knows_tracing fuel · []) ⟨name, 0, 0⟩ run block body)
      ((ofFuel fuel).places_statements run block body)
  have heq (run block : Nat) : tracingStatements (tracing fuel · []) name run block body =
      Run.mapFailure (·.left name) ((ofFuel fuel).statements run block body) := by
    funext s
    refine ((hstatements run block).ends s trivial).eq_of_place fun f t hf => ?_
    obtain ⟨g, rfl⟩ := Run.failed_of_mapFailure hf
    exact g.left_place name
  unfold runScript tracingScript
  simp only [heq]
  rfl

/-- A function that throws, the callback that called it, and the script. -/
example :
    (match Script.compile ⟨"main", "function f(x) \x7b\n  throw x\n\x7d\n[1].map(x => f(x))"⟩ with
      | .ok p =>
        match (ofFuel 12).runScript (.fixed []) 8 "main" p.body .empty with
        | .error (.failed f) _ => f.stack
        | _ => []
      | .error _ => []) = [⟨"f", 2, 3⟩, ⟨"anonymous", 4, 14⟩, ⟨"main", 4, 1⟩] := by
  decide +kernel

end Engine

end Workbook
