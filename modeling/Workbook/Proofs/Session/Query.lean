/-
Asking a session.

`Engine.consult` starts a session and asks it one thing after another: for an expression, for
all expressions, for a folder, or for what is under a key of a folder.  Whatever is asked, and
however the evaluations nest, fail or run into one another, every expression is executed at
most once and has one result from then on; `consult_once` is the statement.  The invariant
behind it is `Ledger.Holds`.
-/
import Workbook.Proofs.Session.Ledger

open List (Forall₂)

namespace Workbook

/-! ## New sessions -/

/-- A session that has not been asked anything. -/
structure Session.Fresh (σ : Session) : Prop where
  alive : σ.alive = true
  results : σ.results = []
  inFlight : σ.inFlight = []
  folderValues : σ.folderValues = []
  imports : σ.imports = []
  stats : σ.stats = ⟨0, 0, 0⟩

/-- The keys of the expressions whose execution has begun, in flight or with a result. -/
def Session.begun (σ : Session) : List String :=
  σ.inFlight ++ σ.results.map (·.1)

/-- The keys of the expressions whose execution the session at a place has begun. -/
def Store.begun (s : Store) (place : Nat) : List String :=
  ((s.sessions[place]?).map Session.begun).getD []

/-- The session that a tree is evaluated in, before it is asked anything. -/
def Session.start (tree : Tree) (settings : Settings) (overrides : List (String × Value))
    (library math : Value) (time : Float) (modules : Nat) : Session where
  alive := true
  tree := tree
  outline := .ofTree tree
  settings := settings
  overrides := overrides
  library := library
  math := math
  time := time
  results := []
  inFlight := []
  folderValues := []
  imports := []
  scripts := .empty settings.cacheCapacity
  modules := modules
  stats := ⟨0, 0, 0⟩

theorem Session.fresh_start (tree : Tree) (settings : Settings)
    (overrides : List (String × Value)) (library math : Value) (time : Float) (modules : Nat) :
    (start tree settings overrides library math time modules).Fresh :=
  ⟨rfl, rfl, rfl, rfl, rfl, rfl⟩

namespace Formula

/-- Functions with the identities from a number on. -/
def functionsFrom (n : Nat) : List (String × TypedCode) → Entries
  | [] => []
  | (k, code) :: rest => (k, .ready (.function (.typed (.mk n code)))) :: functionsFrom (n + 1) rest

def libraryCodes : List (String × TypedCode) :=
  LibraryFunction.all.map fun f => (f.name, .library f)

def mathCodes : List (String × TypedCode) :=
  MathFunction.all.map fun f => (f.name, .math f)

/-- The library whose functions have the identities from a number on. -/
def libraryFrom (n : Nat) : Value :=
  .ofEntries (functionsFrom n libraryCodes)

/-- The mapping of mathematics whose functions have the identities from a number on. -/
def mathFrom (n : Nat) : Value :=
  .ofEntries (constants.map (fun (k, x) => (k, .ready (.float x))) ++ functionsFrom n mathCodes)

theorem newFunctions_run (fs : List (String × TypedCode)) (s : Store) :
    newFunctions fs s = .ok (functionsFrom s.fresh fs) { s with fresh := s.fresh + fs.length } := by
  induction fs generalizing s with
  | nil => rfl
  | cons f rest ih =>
    obtain ⟨k, code⟩ := f
    refine (Run.bind_run (k := fun es => pure ((k, _) :: es)) (ih _)).trans ?_
    rw [List.length_cons, Nat.add_comm rest.length, ← Nat.add_assoc]
    rfl

theorem newLibrary_run (s : Store) :
    newLibrary s = .ok (libraryFrom s.fresh) { s with fresh := s.fresh + libraryCodes.length } :=
  Run.bind_run (newFunctions_run libraryCodes s)

theorem newMath_run (s : Store) :
    newMath s = .ok (mathFrom s.fresh) { s with fresh := s.fresh + mathCodes.length } :=
  Run.bind_run (newFunctions_run mathCodes s)

end Formula

/-- The store with a session more, which uses modules. -/
def Store.opening (s : Store) (tree : Tree) (settings : Settings)
    (overrides : List (String × Value)) (time : Float) (modules : Nat) : Store :=
  { s with
    fresh := s.fresh + Formula.libraryCodes.length + Formula.mathCodes.length
    sessions := s.sessions.push
      (.start tree settings overrides (Formula.libraryFrom s.fresh)
        (Formula.mathFrom (s.fresh + Formula.libraryCodes.length)) time modules) }

/-- The store with a session more that has modules of its own. -/
def Store.opened (s : Store) (tree : Tree) (options : Options) (time : Float) : Store :=
  Store.opening { s with modules := s.modules.push ⟨true, options.registry, [], []⟩ } tree
    options.settings options.overrides time s.modules.size

theorem Store.session_opened (s : Store) (tree : Tree) (options : Options) (time : Float) :
    (s.opened tree options time).sessions[s.sessions.size]? =
      some (.start tree options.settings options.overrides (Formula.libraryFrom s.fresh)
        (Formula.mathFrom (s.fresh + Formula.libraryCodes.length)) time s.modules.size) :=
  Array.getElem?_push_size

namespace Run

variable (tree : Tree) (time : Float) (s : Store)

/-- A new session stands at the next place, and nothing else of the store changes but the
next identity. -/
theorem newSessionWith_run (modules : Nat) (settings : Settings)
    (overrides : List (String × Value)) :
    newSessionWith modules tree settings overrides time s =
      .ok s.sessions.size (s.opening tree settings overrides time modules) := by
  unfold newSessionWith
  rw [bind_run (Formula.newLibrary_run s), bind_run (Formula.newMath_run _)]
  rfl

/-- So does a new session with modules of its own, which are new as well. -/
theorem newSession_run (options : Options) :
    newSession tree options time s = .ok s.sessions.size (s.opened tree options time) := by
  have hmodules : (modifyGet fun s : Store =>
        (s.modules.size, { s with modules := s.modules.push ⟨true, options.registry, [], []⟩ }) :
        Run Nat) s = .ok s.modules.size
          { s with modules := s.modules.push ⟨true, options.registry, [], []⟩ } := rfl
  unfold newSession
  rw [bind_run hmodules]
  exact newSessionWith_run tree time _ _ _ _

end Run

/-! ## Queries -/

/-- What a session may be asked for. -/
inductive Query
  /-- The result of an expression. -/
  | expression (path : String)
  /-- The results of all expressions. -/
  | all
  /-- The value of a folder. -/
  | folder (path : String)
  /-- What is under a key of a folder. -/
  | entry (path key : String)
  deriving DecidableEq, Repr

namespace Engine

variable (engine : Engine)

/-- Asks a session; the result of an expression that was asked for. -/
def query (place : Nat) : Query → Run (Option Result)
  | .expression path => engine.evaluate place (pathKey path)
  | .all => do
    match (← get).sessions[place]? with
    | some s =>
      let _ ← engine.evaluateAll place s.outline
      return none
    | none => return none
  | .folder path => do
    let _ ← engine.folderValue place (pathKey path)
    return none
  | .entry path key => do
    match ← engine.folderValue place (pathKey path) with
    | .mapping es _ =>
      let _ ← engine.readKey? es key
      return none
    | _ => return none

/-- Starts a session and asks it one thing after another. -/
def consult (tree : Tree) (options : Options) (time : Float) (qs : List Query) :
    Run (Nat × List (Option Result)) := do
  let place ← Run.newSession tree options time
  return (place, ← qs.mapM (engine.query place))

namespace Total

variable {engine} (he : engine.Total)
include he

theorem evaluateAll (place : Nat) (o : Outline) : (engine.evaluateAll place o).Total :=
  (Run.total_mapM (fun _ => (he.evaluate _ _).bind fun _ => Run.total_pure _) _).bind fun _ =>
    Run.total_pure _

theorem query (place : Nat) (q : Query) : (engine.query place q).Total := by
  cases q with
  | expression path => exact he.evaluateOf place _
  | all =>
    refine Run.total_get fun s => ?_
    split
    · exact (he.evaluateAll place _).bind fun _ => Run.total_pure _
    · exact Run.total_pure _
  | folder path => exact (he.folderValueOf place _).bind fun _ => Run.total_pure _
  | entry path key =>
    refine (he.folderValueOf place _).bind fun v => ?_
    split
    · refine Run.Total.bind ?_ fun _ => Run.total_pure _
      unfold Engine.readKey?
      split
      · exact (he.read _).map _
      · exact Run.total_pure _
    · exact Run.total_pure _

end Total
end Engine

/-! ## The ledger of a consulted session -/

namespace Custody.Serves

variable {K : Custody} {w : K.World} {e : Engine} (he : K.Serves e)
include he

theorem evaluateAll (place : Nat) (o : Outline) :
    K.Keeps w (e.evaluateAll place o) fun _ _ => True := by
  refine (keeps_mapM (P := fun _ _ _ => True) o.expressions (fun _ h => h) fun w' _ x _ => ?_).bind
    fun _ _ _ _ => keeps_pure trivial
  exact (he.evaluate w' place x.key).bind fun _ _ _ _ => keeps_pure trivial

/-- Asking for anything but an expression. -/
theorem query (place : Nat) {q : Query} (hq : ∀ path, q ≠ .expression path) :
    K.Keeps w (e.query place q) fun _ _ => True := by
  cases q with
  | expression path => exact absurd rfl (hq path)
  | all =>
    refine keeps_get fun s hi => ?_
    split
    · exact (he.evaluateAll place _).bind fun _ _ _ _ => keeps_pure trivial
    · exact keeps_pure trivial
  | folder path => exact (he.folderValueOf place _).bind fun _ _ _ _ => keeps_pure trivial
  | entry path key =>
    refine (he.folderValueOf place _).bind fun w' _ v hv => ?_
    cases v with
    | mapping es origin =>
      cases hv with
      | mapping hes _ =>
        have hread : K.Keeps w' (e.readKey? es key) fun _ _ => True := by
          refine .of_rel (he.answers.readKey? hes key) fun w'' _ x y hxy => ?_
          exact ⟨optional_eq (fun _ _ h => (typed_eq h).1) hxy, trivial⟩
        exact hread.bind fun _ _ _ _ => keeps_pure trivial
    | _ => exact keeps_pure trivial

end Custody.Serves

namespace Ledger

variable {place : Nat} {o : Outline} {w : Ledger}

theorem query_keeps (fuel : Nat) (q : Query) :
    (custody place o).Keeps w ((Engine.ofFuel fuel).query place q) fun w a =>
      w.inFlight = [] → ∀ path, q = .expression path → w.Replies o (pathKey path) a := by
  have he := custody_serves place o fuel
  cases q with
  | expression path =>
    refine (evaluate_keeps he (Engine.total_ofFuel fuel) _).imp fun w' _ a ha hF path' h => ?_
    cases h
    exact ha.2 (hF ▸ List.not_mem_nil)
  | _ => exact Custody.Keeps.imp (he.query place (by simp)) fun _ _ _ _ _ _ h => nomatch h

/-- The ledger of a session that has not been asked anything. -/
def initial (s : Store) : Ledger where
  results := []
  inFlight := []
  works := s.thunks.toList.map fun
    | .pending work => work
    | .done v => .value v
  detections := 0

theorem holds_initial {s : Store} {σ : Session} (hσ : s.sessions[place]? = some σ)
    (fresh : σ.Fresh) : (initial s).Holds place σ.outline s where
  once := List.nodup_nil
  known _ h := absurd h List.not_mem_nil
  thunks := by simp [initial]
  pending t work ht := by simp [Made, initial, ht]
  done t v key ht hm := by simp [Made, initial, ht] at hm
  session :=
    ⟨σ, hσ,
      { alive := fresh.alive
        outline := rfl
        results := fresh.results
        inFlight := fresh.inFlight
        executions := by rw [fresh.stats]; rfl
        detections := by rw [fresh.stats]; rfl
        folders := fun _ _ h => by simp [fresh.folderValues] at h
        imports := fun _ _ h => by simp [fresh.imports] at h }⟩

/-- What holds after a session has been asked several things. -/
theorem queries_run {s s' : Store} (hi : w.Holds place o s) (hF : w.inFlight = []) (fuel : Nat)
    (qs : List Query) {as : List (Option Result)}
    (h : qs.mapM ((Engine.ofFuel fuel).query place) s = .ok as s') :
    ∃ w', w.Le w' ∧ w'.Holds place o s' ∧ Forall₂
      (fun q a => ∀ path, q = .expression path → w'.Replies o (pathKey path) a) qs as := by
  have hrun : (custody place o).Keeps w (qs.mapM ((Engine.ofFuel fuel).query place))
      fun (w : Ledger) as => Forall₂
        (fun q a => w.inFlight = [] → ∀ path, q = .expression path → w.Replies o (pathKey path) a)
        qs as := by
    refine Custody.keeps_mapM qs ?_ fun w' _ q _ => query_keeps fuel q
    intro w w' q a hw ha hF path hq
    have hr := ha (hw.inFlight.trans hF) path hq
    cases a with
    | none => exact hr
    | some r => exact hw.results.subset hr
  obtain ⟨w', hw, hi', has⟩ := (hrun.after (s := s) ⟨rfl, hi⟩).1 as s' h
  exact ⟨w', hw, hi'.2, has.imp fun _ _ ha => ha (hw.inFlight.symm.trans hF)⟩

end Ledger

/-! ## Consulting -/

/-- A run in sequence that ended, in its two parts. -/
theorem Run.bind_eq_ok {α β : Type} {x : Run α} {k : α → Run β} {s s' : Store} {b : β}
    (h : (x >>= k) s = .ok b s') : ∃ a s₁, x s = .ok a s₁ ∧ k a s₁ = .ok b s' := by
  change EStateM.bind x k s = _ at h
  unfold EStateM.bind at h
  cases hx : x s with
  | ok a s₁ =>
    rw [hx] at h
    exact ⟨a, s₁, rfl, h⟩
  | error e s₁ =>
    rw [hx] at h
    cases h

theorem Run.mapM_append_eq_ok {α β : Type} {f : α → Run β} {as as' : List α} {s s' : Store}
    {bs : List β} (h : (as ++ as').mapM f s = .ok bs s') :
    ∃ cs cs' s₁, as.mapM f s = .ok cs s₁ ∧ as'.mapM f s₁ = .ok cs' s' ∧ bs = cs ++ cs' := by
  rw [List.mapM_append] at h
  obtain ⟨cs, s₁, hcs, h⟩ := Run.bind_eq_ok h
  obtain ⟨cs', s₂, hcs', h⟩ := Run.bind_eq_ok h
  cases h
  exact ⟨cs, cs', s₁, hcs, hcs', rfl⟩

/-- Consulting is starting a session and asking it. -/
theorem Engine.consult_run (engine : Engine) (tree : Tree) (options : Options) (time : Float)
    (s : Store) : ∃ s₁ σ, s₁.sessions[s.sessions.size]? = some σ ∧ σ.Fresh ∧
      σ.outline = .ofTree tree ∧ ∀ qs, engine.consult tree options time qs s =
        (do return (s.sessions.size, ← qs.mapM (engine.query s.sessions.size)) : Run _) s₁ := by
  exact ⟨_, _, s.session_opened tree options time, Session.fresh_start .., rfl,
    fun qs => Run.bind_run (Run.newSession_run tree time s options)⟩

/-- The store in which a run ends, in whatever way. -/
def Run.last {α : Type} (x : Run α) (s : Store) : Store :=
  match x s with
  | .ok _ s' => s'
  | .error _ s' => s'

theorem Run.last_ok {α : Type} {x : Run α} {s s' : Store} {a : α} (h : x s = .ok a s') :
    x.last s = s' := by
  unfold last
  rw [h]

theorem Run.last_error {α : Type} {x : Run α} {s s' : Store} {e : Stop}
    (h : x s = .error e s') : x.last s = s' := by
  unfold last
  rw [h]

/-- The store in which a session has been consulted. -/
theorem Engine.last_consult (e : Engine) (tree : Tree) (options : Options) (time : Float)
    (qs : List Query) (s : Store) : (e.consult tree options time qs).last s =
      (do return (s.sessions.size, ← qs.mapM (e.query s.sessions.size)) : Run _).last
        (s.opened tree options time) := by
  unfold Run.last Engine.consult
  rw [Run.bind_run (Run.newSession_run tree time s options)]

/-- From a store, a run does not fail, and ends with what satisfies `P` unless it goes on
until it is exhausted. -/
structure Run.Yields {α : Type} (x : Run α) (s : Store) (P : α → Store → Prop) : Prop where
  value : ∀ a s', x s = .ok a s' → P a s'
  total : ∀ f s', x s ≠ .error (.failed f) s'

/-! ## Executing once -/

theorem Engine.consult_total (fuel : Nat) (tree : Tree) (options : Options) (time : Float)
    (qs : List Query) (s : Store) (f : Failure) (s' : Store) :
    (Engine.ofFuel fuel).consult tree options time qs s ≠ .error (.failed f) s' := by
  obtain ⟨s₀, -, -, -, -, hrun⟩ := (Engine.ofFuel fuel).consult_run tree options time s
  rw [hrun]
  exact ((Run.total_mapM ((Engine.total_ofFuel fuel).query _) qs).bind
    fun _ => Run.total_pure _).ends s₀ f s'

/-- A session that was consulted has a ledger. -/
theorem Engine.consult_holds {fuel : Nat} {tree : Tree} {options : Options} {time : Float}
    {qs : List Query} {s s' : Store} {place : Nat} {answers : List (Option Result)}
    (h : (Engine.ofFuel fuel).consult tree options time qs s = .ok (place, answers) s') :
    ∃ w, Ledger.Holds place (.ofTree tree) w s' ∧ w.inFlight = [] := by
  obtain ⟨s₀, σ₀, hσ₀, fresh, outline, hrun⟩ :=
    (Engine.ofFuel fuel).consult_run tree options time s
  have hi := Ledger.holds_initial hσ₀ fresh
  rw [hrun] at h
  obtain ⟨as, s₁, has, h⟩ := Run.bind_eq_ok h
  cases h
  obtain ⟨w, hle, hw, -⟩ := Ledger.queries_run hi rfl fuel qs has
  exact ⟨w, outline ▸ hw, hle.inFlight.symm⟩

/-- Between queries: nothing is being executed, every execution has led to a result, and no
expression has two. -/
structure Session.Once (σ : Session) : Prop where
  inFlight : σ.inFlight = []
  executions : σ.stats.executions = σ.results.length
  nodup : (σ.results.map (·.1)).Nodup
  known : ∀ key ∈ σ.results.map (·.1), (σ.outline.expression? key).isSome

/-- The session of a ledger while nothing is being executed. -/
theorem Ledger.Holds.once_session {place : Nat} {o : Outline} {w : Ledger} {s : Store}
    (h : w.Holds place o s) (hF : w.inFlight = []) {σ : Session}
    (hσ : s.sessions[place]? = some σ) : σ.Once ∧ w.Agrees place o σ := by
  obtain ⟨σ', hσ', hw⟩ := h.session
  obtain rfl : σ' = σ := Option.some.inj (hσ'.symm.trans hσ)
  have hbegun : w.begun = σ'.results.map (·.1) := by
    unfold Ledger.begun
    rw [hF, List.append_nil, hw.results]
  refine ⟨⟨hw.inFlight.trans hF, ?_, hbegun ▸ h.once, ?_⟩, hw⟩
  · rw [hw.executions, hbegun, List.length_map]
  · rw [← hbegun, hw.outline]
    exact h.known

/-- An answer is what the session keeps under the key. -/
theorem Ledger.Replies.lookup {place : Nat} {o : Outline} {w : Ledger} {s : Store} {σ : Session}
    (h : w.Holds place o s) (hF : w.inFlight = []) (hσ : s.sessions[place]? = some σ)
    {key : String} {a : Option Result} (ha : w.Replies o key a) :
    a = σ.results.lookup key := by
  obtain ⟨once, hw⟩ := h.once_session hF hσ
  cases a with
  | some r => exact (Keyed.lookup_of_mem once.nodup (hw.results ▸ ha)).symm
  | none =>
    refine (Keyed.lookup_of_not_mem fun hk => ?_).symm
    have hsome := once.known key hk
    rw [hw.outline, show o.expression? key = none from ha] at hsome
    cases hsome

/-- The answers to the first queries are the first answers. -/
theorem take_of_forall₂ {α β : Type} {R S : α → β → Prop} {as : List α} {n : Nat}
    {bs bs' : List β} (h : Forall₂ R (as.take n) bs) (h' : Forall₂ S (as.drop n) bs') :
    (bs ++ bs').take n = bs := by
  have hl := h.length_eq
  have hl' := h'.length_eq
  rw [List.length_take] at hl
  rw [List.length_drop] at hl'
  obtain hn | hn := Nat.le_total n as.length
  · rw [← Nat.min_eq_left hn, hl, List.take_left]
  · rw [List.length_eq_zero_iff.1 (by omega : bs'.length = 0), List.append_nil,
      List.take_of_length_le (by omega)]

/-- A session executes every expression at most once.  When it has been asked several things,
each execution has led to the one result that it keeps of an expression.  A query for an
expression was answered with this result, however its path was spelled, and whatever was
kept at any time between the queries is kept still. -/
theorem consult_once (fuel : Nat) (tree : Tree) (options : Options) (time : Float)
    (qs : List Query) (s : Store) :
    ((Engine.ofFuel fuel).consult tree options time qs).Yields s fun (place, answers) s' =>
      ∃ σ, s'.sessions[place]? = some σ ∧ σ.outline = .ofTree tree ∧ σ.Once ∧
        (∀ (i : Nat) (path : String), qs[i]? = some (.expression path) →
          answers[i]? = some (σ.results.lookup (pathKey path))) ∧
        (∀ (i j : Nat) (path path' : String), qs[i]? = some (.expression path) →
          qs[j]? = some (.expression path') →
          (pathParts path).map Text.lower = (pathParts path').map Text.lower →
          answers[i]? = answers[j]?) ∧
        ∀ n, ∃ s₁ σ₁, (Engine.ofFuel fuel).consult tree options time (qs.take n) s =
            .ok (place, answers.take n) s₁ ∧
          s₁.sessions[place]? = some σ₁ ∧ σ₁.Once ∧ σ₁.results <:+ σ.results := by
  obtain ⟨s₀, σ₀, hσ₀, fresh, outline, hrun⟩ :=
    (Engine.ofFuel fuel).consult_run tree options time s
  have hi := Ledger.holds_initial hσ₀ fresh
  rw [outline] at hi
  refine ⟨?_, Engine.consult_total fuel tree options time qs s⟩
  · rintro ⟨place, answers⟩ s' h
    rw [hrun] at h
    obtain ⟨as, s₁, has, h⟩ := Run.bind_eq_ok h
    cases h
    obtain ⟨w, hle, hw, hall⟩ := Ledger.queries_run hi rfl fuel qs has
    have hF : w.inFlight = [] := hle.inFlight.symm
    obtain ⟨σ, hσ, hag⟩ := hw.session
    have hanswer (i : Nat) (path : String) (hq : qs[i]? = some (.expression path)) :
        answers[i]? = some (σ.results.lookup (pathKey path)) := by
      have hi := getElem?_alike hall i
      rw [hq] at hi
      generalize answers[i]? = a at hi ⊢
      cases hi with
      | some ha => exact congrArg some ((ha path rfl).lookup hw hF hσ)
    refine ⟨σ, hσ, hag.outline, (hw.once_session hF hσ).1, hanswer, ?_, fun n => ?_⟩
    · intro i j path path' hp hp' hsame
      rw [hanswer i path hp, hanswer j path' hp']
      unfold pathKey
      rw [hsame]
    · rw [← List.take_append_drop n qs] at has
      obtain ⟨bs, bs', s₂, hbs, hbs', rfl⟩ := Run.mapM_append_eq_ok has
      obtain ⟨w₁, hle₁, hw₁, hall₁⟩ := Ledger.queries_run hi rfl fuel _ hbs
      have hF₁ : w₁.inFlight = [] := hle₁.inFlight.symm
      obtain ⟨w₂, hle₂, hw₂, hall₂⟩ := Ledger.queries_run hw₁ hF₁ fuel _ hbs'
      obtain ⟨σ₁, hσ₁, hag₁⟩ := hw₁.session
      obtain ⟨-, hag₂⟩ := hw₂.once_session (hle₂.inFlight.symm.trans hF₁) hσ
      refine ⟨s₂, σ₁, ?_, hσ₁, (hw₁.once_session hF₁ hσ₁).1, ?_⟩
      · rw [hrun, Run.bind_run hbs, take_of_forall₂ hall₁ hall₂]
        rfl
      · rw [hag₁.results, hag₂.results]
        exact hle₂.results

end Workbook
