/-
What a session has done, and what its caches hold.

A `Ledger` records the results of a session in the order in which they came, the expressions
that are being executed, what each lazy entry was made for, and how many circular references
were found.  `Ledger.Holds` says that a store agrees with it: every execution has led to one
result or is still going on, no expression is recorded twice, and what the session keeps
elsewhere, in lazy entries and imports, are values of recorded results, or failures of
expressions that were read while they were being executed.

A ledger only grows; the list of what is being executed is the same at the end of a run as
at its beginning.
-/
import Workbook.Proofs.Custody.Engine
import Workbook.Proofs.Session.Total

namespace Workbook

/-- The outcome of an expression that is read while it is being executed. -/
def Outline.Expression.circular (x : Outline.Expression) : Outcome :=
  .failed .engine ("circular reference: " ++ x.path)

/-- What is at a place in a list is there in the lists that go on from it. -/
theorem getElem?_of_prefix {α : Type} {l l' : List α} (h : l <+: l') {i : Nat} {a : α}
    (hi : l[i]? = some a) : l'[i]? = some a := by
  obtain ⟨more, rfl⟩ := h
  rw [List.getElem?_append_left (List.getElem?_eq_some_iff.1 hi).1, hi]

structure Ledger where
  results : List (String × Result)
  inFlight : List String
  /-- What lazy entries were made for, by their places. -/
  works : List Work
  /-- How many circular references were found. -/
  detections : Nat

namespace Ledger

/-- The keys of all expressions whose execution has begun. -/
def begun (w : Ledger) : List String :=
  w.results.map (·.1) ++ w.inFlight

/-- Whether a value is what an expression comes to.  There are three ways: the expression
has a result with the value, or it was read while it was being executed, or there is no such
expression. -/
inductive Settles (w : Ledger) (o : Outline) (key : String) : Value → Prop
  | result {r : Result} (h : (key, r) ∈ w.results) : Settles w o key r.outcome.toValue
  | circular {x : Outline.Expression} (hx : o.expression? key = some x) (h : 0 < w.detections) :
      Settles w o key x.circular.toValue
  | absent (h : o.expression? key = none) : Settles w o key .null

/-- Whether a ledger has grown into another. -/
structure Le (w w' : Ledger) : Prop where
  results : w.results <:+ w'.results
  inFlight : w.inFlight = w'.inFlight
  works : w.works <+: w'.works
  detections : w.detections ≤ w'.detections

theorem Le.refl (w : Ledger) : w.Le w :=
  ⟨List.suffix_refl _, rfl, List.prefix_refl _, Nat.le_refl _⟩

theorem Le.trans {u v w : Ledger} (h : u.Le v) (h' : v.Le w) : u.Le w :=
  ⟨h.results.trans h'.results, h.inFlight.trans h'.inFlight, h.works.trans h'.works,
    Nat.le_trans h.detections h'.detections⟩

/-- What was settled stays so if results and detections only grow. -/
theorem Settles.mono {w w' : Ledger} {o : Outline} {key : String} {v : Value}
    (hr : w.results <:+ w'.results) (hd : w.detections ≤ w'.detections) :
    w.Settles o key v → w'.Settles o key v
  | .result h => .result (hr.subset h)
  | .circular hx h => .circular hx (Nat.lt_of_lt_of_le h hd)
  | .absent h => .absent h

/-- What a lazy entry was made for. -/
def Made (w : Ledger) (t : Nat) (work : Work) : Prop :=
  w.works[t]? = some work

theorem Made.mono {w w' : Ledger} {t : Nat} {work : Work} (h : w.works <+: w'.works)
    (hm : w.Made t work) : w'.Made t work :=
  getElem?_of_prefix h hm

/-! ## Agreement with a session and a store -/

/-- A session agrees with a ledger. -/
structure Agrees (place : Nat) (o : Outline) (w : Ledger) (σ : Session) : Prop where
  alive : σ.alive = true
  outline : σ.outline = o
  results : σ.results = w.results
  inFlight : σ.inFlight = w.inFlight
  executions : σ.stats.executions = w.begun.length
  detections : σ.stats.circularDetections = w.detections
  folders : ∀ key v, (key, v) ∈ σ.folderValues →
    ∃ es, v = .ofEntries es ∧ o.Lists place key w.Made es
  imports : ∀ key v, (key, v) ∈ σ.imports → (o.expression? key).isSome → w.Settles o key v

/-- A store agrees with a ledger of the session at a place. -/
structure Holds (place : Nat) (o : Outline) (w : Ledger) (s : Store) : Prop where
  once : w.begun.Nodup
  known : ∀ key ∈ w.begun, (o.expression? key).isSome
  thunks : s.thunks.size = w.works.length
  pending : ∀ t work, s.thunks[t]? = some (.pending work) → w.Made t work
  done : ∀ t v key, s.thunks[t]? = some (.done v) → w.Made t (.expression place key) →
    w.Settles o key v
  session : ∃ σ, s.sessions[place]? = some σ ∧ w.Agrees place o σ

variable {place : Nat} {o : Outline} {w w' : Ledger} {s : Store}

namespace Holds

/-- What other sessions do is not in the ledger. -/
theorem changeOther (h : w.Holds place o s) {other : Nat} (hne : other ≠ place)
    (f : Session → Session) : w.Holds place o (s.changeSession other f) := by
  obtain ⟨σ, hσ, hw⟩ := h.session
  refine ⟨h.once, h.known, h.thunks, h.pending, h.done, σ, ?_, hw⟩
  simp [Store.changeSession, Array.getElem?_modify, hne, hσ]

/-- A change of the session itself, with what becomes of the ledger. -/
theorem changeOwn (h : w.Holds place o s) {f : Session → Session}
    (once : w'.begun.Nodup) (known : ∀ key ∈ w'.begun, (o.expression? key).isSome)
    (works : w'.works = w.works) (results : w.results <:+ w'.results)
    (detections : w.detections ≤ w'.detections)
    (hf : ∀ σ, w.Agrees place o σ → w'.Agrees place o (f σ)) :
    w'.Holds place o (s.changeSession place f) := by
  obtain ⟨σ, hσ, hw⟩ := h.session
  have hmade {t : Nat} {work : Work} : w'.Made t work ↔ w.Made t work := by
    unfold Made
    rw [works]
  refine ⟨once, known, works ▸ h.thunks, fun t work ht => hmade.2 (h.pending t work ht),
    fun t v key ht hm => (h.done t v key ht (hmade.1 hm)).mono results detections, f σ, ?_, hf σ hw⟩
  simp [Store.changeSession, Array.getElem?_modify, hσ]

/-- A change of the session that the ledger does not record. -/
theorem changeUnrecorded (h : w.Holds place o s) {other : Nat} {f : Session → Session}
    (hf : other = place → ∀ σ, w.Agrees place o σ → w.Agrees place o (f σ)) :
    w.Holds place o (s.changeSession other f) := by
  by_cases hp : other = place
  · obtain rfl := hp
    exact h.changeOwn h.once h.known rfl (List.suffix_refl _) (Nat.le_refl _) (hf rfl)
  · exact h.changeOther hp f

theorem ordinary {s' : Store} (h : w.Holds place o s) (hs : s.Ordinary s') :
    w.Holds place o s' := by
  refine ⟨h.once, h.known, ?_, ?_, ?_, ?_⟩
  · rw [hs.thunks]
    exact h.thunks
  · rw [hs.thunks]
    exact h.pending
  · rw [hs.thunks]
    exact h.done
  · rw [hs.sessions]
    exact h.session

end Holds

/-! ## The custody of a ledger -/

/-- The ledger with a lazy entry more. -/
def addWork (w : Ledger) (work : Work) : Ledger :=
  { w with works := w.works ++ [work] }

theorem le_addWork (w : Ledger) (work : Work) : w.Le (w.addWork work) :=
  ⟨List.suffix_refl _, rfl, List.prefix_append _ _, Nat.le_refl _⟩

/-- What a session keeps elsewhere agrees with a ledger that has grown. -/
theorem Agrees.addWork {σ : Session} (h : w.Agrees place o σ) (work : Work) :
    (w.addWork work).Agrees place o σ where
  alive := h.alive
  outline := h.outline
  results := h.results
  inFlight := h.inFlight
  executions := h.executions
  detections := h.detections
  folders key v hv := by
    obtain ⟨es, rfl, hes⟩ := h.folders key v hv
    exact ⟨es, rfl, hes.imp fun _ _ => Made.mono (w.le_addWork work).works⟩
  imports key v hv hk :=
    (h.imports key v hv hk).mono (w.le_addWork work).results (w.le_addWork work).detections

theorem Holds.addThunk (h : w.Holds place o s) (work : Work) :
    (w.addWork work).Holds place o (s.addThunk work) := by
  obtain ⟨σ, hσ, hw⟩ := h.session
  refine ⟨h.once, h.known, ?_, fun t work' ht => ?_, fun t v key ht hm => ?_, σ, hσ, hw.addWork work⟩
  · simp [Store.addThunk, Ledger.addWork, h.thunks]
  · rw [Store.addThunk, Array.getElem?_push] at ht
    split at ht
    · rename_i hsize
      cases ht
      simp [Made, Ledger.addWork, hsize, h.thunks]
    · exact (h.pending t work' ht).mono (w.le_addWork work).works
  · rw [Store.addThunk, Array.getElem?_push] at ht
    split at ht
    · cases ht
    · have hlt : t < w.works.length := h.thunks ▸ (Array.getElem?_eq_some_iff.1 ht).1
      unfold Made Ledger.addWork at hm
      rw [List.getElem?_append_left hlt] at hm
      exact (h.done t v key ht hm).mono (w.le_addWork work).results (w.le_addWork work).detections

theorem Holds.settle (h : w.Holds place o s) {t : Nat} {work : Work} {v : Value}
    (hm : w.Made t work) (hv : ∀ key, work = .expression place key → w.Settles o key v) :
    w.Holds place o (s.settle t v) := by
  refine ⟨h.once, h.known, ?_, fun t' work' ht => ?_, fun t' v' key ht hm' => ?_, h.session⟩
  · simpa [Store.settle] using h.thunks
  · rw [Store.settle, Array.set!_eq_setIfInBounds, Array.getElem?_setIfInBounds] at ht
    split at ht
    · split at ht <;> cases ht
    · exact h.pending t' work' ht
  · rw [Store.settle, Array.set!_eq_setIfInBounds, Array.getElem?_setIfInBounds] at ht
    split at ht
    · rename_i heq
      subst heq
      split at ht
      · cases ht
        unfold Made at hm hm'
        rw [hm] at hm'
        exact hv key (Option.some.inj hm')
      · cases ht
    · exact h.done t' v' key ht hm'

/-- The custody of a ledger. -/
def custody (place : Nat) (o : Outline) : Custody where
  toCoupling := .ofInvariant Le .refl .trans (Holds place o) .ordinary
  same h := h.1
  narrow _ := .refl _
  thunks _ _ := rfl
  sessions _ _ := rfl
  Made := Made
  Settles w other key v := other = place → w.Settles o key v
  Outlined _ other o' := other = place → o' = o
  Fixed _ _ := True
  Inner _ other := other ≠ place
  made_mono h := Made.mono h.works
  outlined_mono _ h := h
  inner_mono _ h := h
  fixed_mono _ _ := trivial
  pending hi := hi.2.pending _ _
  value _ := Value.alike_self _
  done _ _ := Value.alike_self _
  valid _ _ := Session.valid_self _
  outlined := by
    rintro w s _ σ ⟨-, hi⟩ hσ rfl
    obtain ⟨σ', hσ', hw⟩ := hi.session
    rw [hσ] at hσ'
    cases hσ'
    exact hw.outline
  gone := by
    rintro w s _ key ⟨-, hi⟩ ha rfl
    obtain ⟨σ, hσ, hw⟩ := hi.session
    rw [hσ] at ha
    exact absurd hw.alive (by simpa using ha)
  newThunk work _ hi :=
    ⟨_, le_addWork _ work, ⟨rfl, hi.2.addThunk work⟩, by
      simp [Made, addWork, hi.2.thunks]⟩
  settle hi hm _ hv := ⟨rfl, hi.2.settle hm fun key h => hv place key h rfl⟩
  scripts f hi := ⟨rfl, hi.2.changeUnrecorded fun _ σ h => { h with }⟩
  keepFolder := by
    rintro w s other key o' es ⟨-, hi⟩ ho hes
    refine ⟨rfl, hi.changeUnrecorded ?_⟩
    rintro rfl σ h
    obtain rfl := ho rfl
    refine { h with folders := fun key' v hv => ?_ }
    obtain hv | hv := List.mem_cons.1 hv
    · cases hv
      exact ⟨es, rfl, hes⟩
    · exact h.folders key' v hv
  keepImport := by
    rintro w s other o' key v ⟨-, hi⟩ ho - hs
    refine ⟨rfl, hi.changeUnrecorded ?_⟩
    rintro rfl σ h
    obtain rfl := ho rfl
    refine { h with imports := fun key' v' hv hk => ?_ }
    obtain hv | hv := List.mem_cons.1 hv
    · cases hv
      exact hs hk rfl
    · exact h.imports key' v' hv hk
  newSession := by
    rintro w s σ ⟨-, hi⟩ - -
    obtain ⟨σ', hσ', hw⟩ := hi.session
    have hlt := (Array.getElem?_eq_some_iff.1 hσ').1
    exact ⟨w, .refl w, ⟨rfl, { hi with session := ⟨σ', Store.push_getElem? hσ', hw⟩ }⟩,
      (Nat.ne_of_lt hlt).symm⟩
  release := by
    rintro w s other ⟨-, hi⟩ hne
    exact ⟨rfl, hi.changeOther hne _⟩
  changeModules _ hi := ⟨rfl, { hi.2 with }⟩
  fix {w s n} hi _ := ⟨w, .refl w, ⟨rfl, hi.2.ordinary (s.ordinary_freeze n)⟩, trivial⟩

/-- The ledger says nothing of other sessions. -/
theorem custody_lenient {place other : Nat} (o : Outline) (hne : other ≠ place) :
    (custody place o).Lenient other where
  note _ _ hi := ⟨rfl, hi.2.changeOther hne _⟩
  record hi _ _ := ⟨rfl, hi.2.changeOther hne _⟩
  settles _ _ _ h := absurd h hne

end Ledger

/-! ## Evaluating -/

/-- A run between two changes of the store.  In the meantime another world is the case, but
the whole counts as a step from the first one; the run must not fail, for it would skip the
second change. -/
theorem Custody.Keeps.enclosed {K : Custody} {w v : K.World} {α β : Type} {f : Store → Store}
    {x : Run α} {k : α → Run β} {R : K.World → α → Prop} {T : K.World → β → Prop}
    (enter : ∀ s, K.Inv w s s → K.Inv v (f s) (f s)) (hx : K.Keeps v x R) (total : x.Total)
    (leave : ∀ w', K.le v w' → ∀ a, R w' a → ∀ s, K.Inv w' s s →
      ∃ b s', k a s = .ok b s' ∧ ∃ w'', K.le w w'' ∧ K.Inv w'' s' s' ∧ T w'' b) :
    K.Keeps w (do modify f; let a ← x; k a) T := by
  refine ⟨fun s t hi => ?_⟩
  obtain rfl := K.same hi
  have hx := Coupling.Rel.ends hx (f s) (f s) (enter s hi)
  have ht := total.ends (f s)
  show K.Ends w _ (EStateM.bind x k (f s)) (EStateM.bind x k (f s))
  unfold EStateM.bind
  generalize x (f s) = r at hx ht ⊢
  cases r with
  | ok a s' =>
    obtain ⟨w', hw, hi', -, ha⟩ := hx
    obtain ⟨b, s'', hk, w'', hw', hi'', hT⟩ := leave w' hw a ha s' hi'
    simp only [hk]
    exact ⟨w'', hw', hi'', rfl, hT⟩
  | error e s' =>
    cases e with
    | failed g => exact absurd rfl (ht g s')
    | exhausted => exact hx

namespace Ledger

variable {place : Nat} {o : Outline} {w : Ledger}

/-- The ledger while an expression is being executed. -/
def enter (w : Ledger) (key : String) : Ledger :=
  { w with inFlight := key :: w.inFlight }

/-- The ledger with a result more. -/
def record (w : Ledger) (key : String) (r : Result) : Ledger :=
  { w with inFlight := w.inFlight.erase key, results := (key, r) :: w.results }

/-- The ledger with a circular reference more. -/
def detect (w : Ledger) : Ledger :=
  { w with detections := w.detections + 1 }

/-- Whether an answer is the recorded result of an expression; there is none only if there
is no such expression. -/
def Replies (w : Ledger) (o : Outline) (key : String) : Option Result → Prop
  | some r => (key, r) ∈ w.results
  | none => o.expression? key = none

/-- What evaluating answers: what the expression comes to, and its recorded result unless the
expression is being executed. -/
def Answered (o : Outline) (key : String) (w : Ledger) (a : Option Result) : Prop :=
  w.Settles o key ((a.map (·.outcome.toValue)).getD .null) ∧
    (key ∉ w.inFlight → w.Replies o key a)

/-- Two changes of a session, in one. -/
theorem changeSession_twice (s : Store) (f g : Session → Session) :
    (s.changeSession place f).changeSession place g = s.changeSession place (g ∘ f) := by
  unfold Store.changeSession
  congr 1
  apply Array.toList_inj.1
  simp only [Array.toList_modify, List.modify_modify_eq]

/-- The session once an expression is being executed and counted. -/
theorem Holds.enter {s : Store} (h : w.Holds place o s) {key : String} (hnew : key ∉ w.begun)
    (hx : (o.expression? key).isSome) :
    (w.enter key).Holds place o (s.changeSession place fun σ =>
      { σ with
        inFlight := key :: σ.inFlight
        stats := { σ.stats with executions := σ.stats.executions + 1 } }) := by
  have hbegun : (w.enter key).begun.Perm (key :: w.begun) := List.perm_middle
  have hsuffix : w.results <:+ (w.enter key).results := List.suffix_refl _
  refine h.changeOwn ?_ (fun k hk => ?_) rfl hsuffix (Nat.le_refl _) fun σ hw => ?_
  · exact hbegun.nodup_iff.2 (List.nodup_cons.2 ⟨hnew, h.once⟩)
  · obtain rfl | hk := List.mem_cons.1 (hbegun.mem_iff.1 hk)
    · exact hx
    · exact h.known k hk
  · exact
      { hw with
        inFlight := congrArg (key :: ·) hw.inFlight
        executions := by rw [hbegun.length_eq, List.length_cons, ← hw.executions]
        imports := fun k v hv hk => (hw.imports k v hv hk).mono hsuffix (Nat.le_refl _) }

/-- The session once the result of what was being executed is kept. -/
theorem Holds.record {s : Store} (h : w.Holds place o s) {key : String} {F : List String}
    (hF : w.inFlight = key :: F) (r : Result) :
    (w.record key r).Holds place o (s.changeSession place fun σ =>
      { σ with inFlight := σ.inFlight.erase key, results := (key, r) :: σ.results }) := by
  have hbegun : (w.record key r).begun.Perm w.begun := by
    unfold begun Ledger.record
    simp only [hF, List.erase_cons_head, List.map_cons, List.cons_append]
    exact List.perm_middle.symm
  have hsuffix : w.results <:+ (w.record key r).results := List.suffix_cons _ _
  refine h.changeOwn (hbegun.nodup_iff.2 h.once) (fun k hk => h.known k (hbegun.mem_iff.1 hk)) rfl
    hsuffix (Nat.le_refl _) fun σ hw => ?_
  exact
    { hw with
      results := congrArg ((key, r) :: ·) hw.results
      inFlight := congrArg (·.erase key) hw.inFlight
      executions := hw.executions.trans hbegun.length_eq.symm
      imports := fun k v hv hk => (hw.imports k v hv hk).mono hsuffix (Nat.le_refl _) }

/-- The session once a circular reference is counted. -/
theorem Holds.detect {s : Store} (h : w.Holds place o s) :
    w.detect.Holds place o (s.changeSession place fun σ =>
      { σ with stats := { σ.stats with circularDetections := σ.stats.circularDetections + 1 } }) := by
  have hsuffix : w.results <:+ w.detect.results := List.suffix_refl _
  have hmore : w.detections ≤ w.detect.detections := Nat.le_succ _
  exact h.changeOwn h.once h.known rfl hsuffix hmore fun _ hw =>
    { hw with
      detections := congrArg (· + 1) hw.detections
      imports := fun k v hv hk => (hw.imports k v hv hk).mono hsuffix hmore }

/-- What an expression comes to, once its execution has been counted. -/
def compute (e : Engine) (place : Nat) (σ : Session) (x : Outline.Expression) : Run Outcome :=
  match x.language with
  | .formula => e.executeFormula place σ x
  | .script => e.executeScript place σ x

theorem compute_keeps {e : Engine} (he : (custody place o).Serves e) (σ : Session)
    (x : Outline.Expression) :
    (custody place o).Keeps w (compute e place σ x >>= Run.newResult) fun _ _ => True := by
  have hout : (custody place o).Keeps w (compute e place σ x) fun _ _ => True := by
    unfold compute
    split
    · exact (he.executeFormula place σ x).imp fun _ _ _ _ => trivial
    · exact (he.executeScript place σ x).imp fun _ _ _ _ => trivial
  exact hout.bind fun _ _ _ _ =>
    (Custody.keeps_newResult (Outcome.alike_self _)).imp fun _ _ _ _ => trivial

theorem total_compute {e : Engine} (ht : e.Total) (σ : Session) (x : Outline.Expression) :
    (compute e place σ x >>= Run.newResult).Total := by
  refine Run.Total.bind ?_ fun _ => Run.total_newResult _
  unfold compute
  split
  · exact ht.executeFormula place σ x
  · exact Engine.Total.executeScript place σ x

/-- The two changes with which an execution begins, in one. -/
theorem begin_eq {α : Type} (key : String) (x : Run α) :
    (do
      Run.changeSession place fun s => { s with inFlight := key :: s.inFlight }
      Run.count place fun c => { c with executions := c.executions + 1 }
      x) =
    (do
      modify fun s : Store => s.changeSession place fun σ =>
        { σ with
          inFlight := key :: σ.inFlight
          stats := { σ.stats with executions := σ.stats.executions + 1 } }
      x) := by
  funext s
  exact congrArg x (changeSession_twice s _ _)

/-- Executing an expression that was not begun: it is in flight until its result is kept. -/
theorem evaluate_new {e : Engine} (he : (custody place o).Serves e) (ht : e.Total) {key : String}
    (hnew : key ∉ w.begun) (hx : (o.expression? key).isSome) (σ : Session)
    (x : Outline.Expression) :
    (custody place o).Keeps w
      (do
        Run.changeSession place fun s => { s with inFlight := key :: s.inFlight }
        let r ← Run.newResult (← e.execute place σ x)
        Run.changeSession place fun s =>
          { s with inFlight := s.inFlight.erase key, results := (key, r) :: s.results }
        return some r)
      (Answered o key) := by
  have hprogram : (do
        Run.changeSession place fun s => { s with inFlight := key :: s.inFlight }
        let r ← Run.newResult (← e.execute place σ x)
        Run.changeSession place fun s =>
          { s with inFlight := s.inFlight.erase key, results := (key, r) :: s.results }
        return some r : Run (Option Result)) =
      (do
        modify fun s => s.changeSession place fun σ =>
          { σ with
            inFlight := key :: σ.inFlight
            stats := { σ.stats with executions := σ.stats.executions + 1 } }
        let r ← compute e place σ x >>= Run.newResult
        (do
          Run.changeSession place fun s =>
            { s with inFlight := s.inFlight.erase key, results := (key, r) :: s.results }
          return some r)) := by
    have hexecute : e.execute place σ x =
        (do
          Run.count place fun c => { c with executions := c.executions + 1 }
          compute e place σ x) := rfl
    rw [hexecute]
    simp only [bind_assoc]
    exact begin_eq key _
  rw [hprogram]
  refine Custody.Keeps.enclosed (v := w.enter key) (fun s hi => ⟨rfl, hi.2.enter hnew hx⟩)
    (compute_keeps he σ x) (total_compute ht σ x) fun w' hw r _ s hi => ?_
  have hF : w'.inFlight = key :: w.inFlight := hw.inFlight.symm
  refine ⟨some r, _, rfl, w'.record key r, ?_, ⟨rfl, hi.2.record hF r⟩, ?_, fun _ => ?_⟩
  · refine ⟨hw.results.trans (List.suffix_cons _ _), ?_, hw.works, hw.detections⟩
    simp [record, hF]
  · exact .result List.mem_cons_self
  · exact List.mem_cons_self

/-- Evaluating keeps the ledger. -/
theorem evaluate_keeps {e : Engine} (he : (custody place o).Serves e) (ht : e.Total)
    (key : String) : (custody place o).Keeps w (e.evaluate place key) (Answered o key) := by
  refine Custody.keeps_get fun s hi => ?_
  obtain ⟨σ, hσ, hw⟩ := hi.2.session
  simp only [hσ, hw.outline, hw.results, hw.inFlight]
  cases hx : o.expression? key with
  | none =>
    exact Custody.keeps_pure ⟨.absent hx, fun _ => hx⟩
  | some x =>
    cases hr : w.results.lookup key with
    | some r =>
      refine Custody.Keeps.bind (R := fun w' _ => w' = w) ?_ fun w' _ _ h => ?_
      · refine Custody.keeps_modifyGet fun s hi => ⟨w, .refl w, ⟨rfl, ?_⟩, rfl⟩
        exact hi.2.changeUnrecorded fun _ _ hw => { hw with }
      · obtain rfl := h
        have hr := Keyed.mem_of_lookup hr
        exact Custody.keeps_pure ⟨.result hr, fun _ => hr⟩
    | none =>
      simp only
      by_cases hc : w.inFlight.contains key = true
      · rw [if_pos hc, map_eq_pure_bind]
        refine Custody.Keeps.bind
          (R := fun (w' : Ledger) _ => 0 < w'.detections ∧ w'.inFlight = w.inFlight) ?_
          fun w₁ _ _ h => ?_
        · refine Custody.keeps_modifyGet fun s hi => ⟨w.detect, ?_, ⟨rfl, hi.2.detect⟩, ?_⟩
          · exact ⟨List.suffix_refl _, rfl, List.prefix_refl _, Nat.le_succ _⟩
          · exact ⟨Nat.succ_pos _, rfl⟩
        · refine (Custody.keeps_newResult (Outcome.alike_self _)).bind fun w₂ h₂ r hr => ?_
          obtain ⟨hr, -⟩ := hr
          have hin : w₂.inFlight = w.inFlight := h₂.inFlight.symm.trans h.2
          refine Custody.keeps_pure ⟨?_, fun hnot => absurd ?_ hnot⟩
          · have hs := Settles.circular hx (Nat.lt_of_lt_of_le h.1 h₂.detections)
            unfold Outline.Expression.circular at hs
            rw [← hr] at hs
            exact hs
          · rw [hin]
            exact List.contains_iff_mem.1 hc
      · rw [if_neg hc]
        have hnew : key ∉ w.begun := by
          intro hk
          obtain hk | hk := List.mem_append.1 hk
          · obtain ⟨y, hy, rfl⟩ := List.mem_map.1 hk
            have := List.lookup_eq_none_iff.1 hr y hy
            simp at this
          · exact hc (List.contains_iff_mem.2 hk)
        exact evaluate_new he ht hnew (hx ▸ rfl) σ x

/-- Every engine keeps the ledger. -/
theorem custody_serves (place : Nat) (o : Outline) (fuel : Nat) :
    (custody place o).Serves (Engine.ofFuel fuel) := by
  refine (custody place o).serves (fun n he w other key => ?_) fuel
  by_cases hp : other = place
  · obtain rfl := hp
    exact (evaluate_keeps he (Engine.total_ofFuel n) key).imp fun _ _ _ ha =>
      ⟨fun r _ => r.alike_self, fun _ => ha.1⟩
  · exact (custody_lenient o hp).evaluate he key

end Ledger
end Workbook
