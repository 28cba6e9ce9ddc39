/-
What happens while a mapping is read.

Calls on a mapping leave a trace of events: computations of lazy values begin and end, one inside of
another if a computation reads the mapping, and entries have been read.  The traces say what calls
do without any fuel; `traces_iff` shows that they are what the engine does.
-/
import Workbook.Proofs.Mapping

namespace Workbook

/-- The session that a computation needs to be there. -/
def Work.session? : Work → Option Nat
  | .value _ => none
  | .expression session _ | .folder session _ => some session

/-- Whether a session is there. -/
def Store.lives (s : Store) (session : Nat) : Bool :=
  (s.sessions[session]?).any (·.alive)

namespace Mapping

/-- What is seen of calls.  Entries are named by the forms of their keys. -/
inductive Event
  /-- An entry whose value is known is asked for. -/
  | finds (form : String)
  /-- An entry is asked for, and its computation begins. -/
  | begins (form : String) (thunk : Nat)
  | ends (thunk : Nat)
  /-- An entry has been read. -/
  | reads (form : String) (v : Value)
  | sets (form : String)

section Reading

variable (bodies : Work → Program) (entries : Entries)

mutual

/-- An entry is read.  The first value of a lazy entry stays, even if it was not this computation
that came to it first. -/
inductive Reads : Store → String → Slot → Value → List Event → Store → Prop
  | ready {s : Store} {form : String} {v : Value} :
      Reads s form (.ready v) v [.finds form, .reads form v] s
  | missing {s : Store} {form : String} {thunk : Nat} (h : s.thunks[thunk]? = none) :
      Reads s form (.lazy thunk) .null [.finds form, .reads form .null] s
  | done {s : Store} {form : String} {thunk : Nat} {v : Value}
      (h : s.thunks[thunk]? = some (.done v)) :
      Reads s form (.lazy thunk) v [.finds form, .reads form v] s
  | first {s s' : Store} {form : String} {thunk : Nat} {w : Work} {v : Value} {l : List Event}
      (h : s.thunks[thunk]? = some (.pending w)) (run : Performs s w v l s')
      (still : ∀ u, s'.thunks[thunk]? ≠ some (.done u)) :
      Reads s form (.lazy thunk) v
        (.begins form thunk :: l ++ [.ends thunk, .reads form v]) (s'.settle thunk v)
  | late {s s' : Store} {form : String} {thunk : Nat} {w : Work} {u v : Value} {l : List Event}
      (h : s.thunks[thunk]? = some (.pending w)) (run : Performs s w v l s')
      (already : s'.thunks[thunk]? = some (.done u)) :
      Reads s form (.lazy thunk) u
        (.begins form thunk :: l ++ [.ends thunk, .reads form u]) s'

/-- What was put off is computed.  Without its session it is null. -/
inductive Performs : Store → Work → Value → List Event → Store → Prop
  | value {s : Store} {v : Value} : Performs s (.value v) v [] s
  | gone {s : Store} {w : Work} {session : Nat} (h : w.session? = some session)
      (gone : s.lives session = false) : Performs s w .null [] s
  | run {s s' : Store} {w : Work} {session : Nat} {v : Value} {l : List Event}
      (h : w.session? = some session) (lives : s.lives session = true)
      (run : Runs s (bodies w) v l s') : Performs s w v l s'

/-- A program runs. -/
inductive Runs : Store → Program → Value → List Event → Store → Prop
  | done {s : Store} {v : Value} : Runs s (.done v) v [] s
  | act {s s' : Store} {f : Store → Store} {onward : ∀ s : Store, s.Onward (f s)}
      {next : Store → Program} {v : Value} {l : List Event}
      (run : Runs (f s) (next (f s)) v l s') : Runs s (.act f onward next) v l s'
  | ask {s s' s'' : Store} {q : Query} {next : Answer → Program} {a : Answer} {v : Value}
      {l l' : List Event} (answer : Answers s q a l s') (run : Runs s' (next a) v l' s'') :
      Runs s (.ask q next) v (l ++ l') s''

/-- A call that reads is answered. -/
inductive Answers : Store → Query → Answer → List Event → Store → Prop
  | absent {s : Store} {key : String} (h : entries.find? key = none) :
      Answers s (.get key) (.value none) [] s
  | get {s s' : Store} {key : String} {slot : Slot} {v : Value} {l : List Event}
      (h : entries.find? key = some slot) (read : Reads s (Text.lower key) slot v l s') :
      Answers s (.get key) (.value (some v)) l s'
  | has {s : Store} {key : String} : Answers s (.has key) (.flag (entries.has key)) [] s
  | keys {s : Store} : Answers s .keys (.keys entries.keys) [] s
  | iter {s s' : Store} {first count : Nat} {es : List (String × Value)} {l : List Event}
      (all : ReadsAll s ((entries.drop first).take count) es l s') :
      Answers s (.iter first count) (.entries es) l s'
  | len {s : Store} : Answers s .len (.count entries.length) [] s

/-- Entries are read one after another. -/
inductive ReadsAll : Store → Entries → List (String × Value) → List Event → Store → Prop
  | nil {s : Store} : ReadsAll s [] [] [] s
  | cons {s s' s'' : Store} {key : String} {slot : Slot} {rest : Entries} {v : Value}
      {es : List (String × Value)} {l l' : List Event}
      (read : Reads s (Text.lower key) slot v l s') (later : ReadsAll s' rest es l' s'') :
      ReadsAll s ((key, slot) :: rest) ((key, v) :: es) (l ++ l') s''

end

end Reading

/-! ## Traces of calls -/

/-- A call is answered: the answer, the events, and the entries after it. -/
inductive Steps (bodies : Work → Program) :
    Entries → Store → Call → Answer → List Event → Entries → Store → Prop
  | insert {entries : Entries} {s : Store} {key : String} {v : Value} :
      Steps bodies entries s (.insert key v) (.flag !(entries.has key)) []
        (entries.insert key (.ready v)) s
  | insertLazy {entries : Entries} {s : Store} {key : String} {w : Work} :
      Steps bodies entries s (.insertLazy key w) (.flag !(entries.has key)) []
        (entries.insert key (.lazy s.thunks.size)) (s.addThunk w)
  | set {entries : Entries} {s : Store} {key : String} {v : Value} :
      Steps bodies entries s (.set key v) .nothing [.sets (Text.lower key)]
        (entries.set key (.ready v)) s
  | ask {entries : Entries} {s s' : Store} {q : Query} {a : Answer} {l : List Event}
      (answer : Answers bodies entries s q a l s') : Steps bodies entries s (.ask q) a l entries s'

/-- Calls are answered one after another. -/
inductive Traces (bodies : Work → Program) :
    Entries → Store → List Call → List Answer → List Event → Entries → Store → Prop
  | nil {entries : Entries} {s : Store} : Traces bodies entries s [] [] [] entries s
  | cons {entries entries' entries'' : Entries} {s s' s'' : Store} {call : Call}
      {calls : List Call} {a : Answer} {as : List Answer} {l l' : List Event}
      (step : Steps bodies entries s call a l entries' s')
      (later : Traces bodies entries' s' calls as l' entries'' s'') :
      Traces bodies entries s (call :: calls) (a :: as) (l ++ l') entries'' s''

/-! ## Runs have traces -/

section Adequacy

variable {bodies : Work → Program} {entries : Entries} {fuel : Nat}

/-- Whether a session is there is looked up first. -/
theorem lives_ite (session : Nat) (x y : Run Value) (s : Store) :
    (do if ((← get).sessions[session]?).any (·.alive) then x else y : Run Value) s =
      if s.lives session then x s else y s := by
  rw [Run.get_bind]
  unfold Store.lives
  split <;> rfl

theorem perform_gone (engine : Engine) {w : Work} {session : Nat} (h : w.session? = some session)
    {s : Store} (gone : s.lives session = false) : engine.perform w s = .ok .null s := by
  have hgone : ¬ s.lives session = true := Bool.eq_false_iff.1 gone
  cases w with
  | value v => cases h
  | expression _ key | folder _ key =>
    cases h
    exact (lives_ite session _ _ s).trans (if_neg hgone)

/-- What was put off is computed by its program, if its session is there. -/
theorem reader_perform {w : Work} {session : Nat} (h : w.session? = some session) (fuel : Nat)
    {s : Store} (lives : s.lives session = true) :
    (reader bodies entries (fuel + 1)).perform w s =
      (bodies w).run (fun q => q.run (reader bodies entries fuel) entries) s := by
  cases w with
  | value v => cases h
  | folder _ key =>
    cases h
    exact (lives_ite session _ _ s).trans (if_pos lives)
  | expression _ key =>
    cases h
    refine ((lives_ite session _ _ s).trans (if_pos lives)).trans ?_
    -- the value goes through a result on its way
    have hask : (reader bodies entries (fuel + 1)).ask (.evaluate session key) =
        ((bodies (.expression session key)).run fun q =>
          q.run (reader bodies entries fuel) entries) >>= fun v =>
            pure (some ⟨0, .value .undefined v⟩) :=
      rfl
    rw [hask, bind_assoc]
    exact congrFun (bind_pure _) s

theorem reader_exhausted {w : Work} {session : Nat} (h : w.session? = some session)
    {s : Store} (lives : s.lives session = true) :
    (reader bodies entries 0).perform w s = .error .exhausted s := by
  cases w with
  | value v => cases h
  | expression _ key | folder _ key =>
    cases h
    exact (lives_ite session _ _ s).trans (if_pos lives)

/-- Every read of a slot has a trace. -/
def Traced (bodies : Work → Program) (entries : Entries) (engine : Engine) : Prop :=
  ∀ form slot s v s', engine.read slot s = .ok v s' →
    ∃ l, Reads bodies entries s form slot v l s'

theorem readsAll_of_run {engine : Engine} (reads : Traced bodies entries engine) {es : Entries}
    {s s' : Store} {vs : List (String × Value)} (h : engine.readAll es s = .ok vs s') :
    ∃ l, ReadsAll bodies entries s es vs l s' := by
  induction es generalizing s vs with
  | nil =>
    cases h
    exact ⟨[], .nil⟩
  | cons e es ih =>
    unfold Engine.readAll at h
    obtain ⟨v, s₁, hv, h⟩ := Run.bind_eq_ok h
    obtain ⟨vs, s₂, hvs, h⟩ := Run.bind_eq_ok h
    cases h
    obtain ⟨l, hl⟩ := reads (Text.lower e.1) _ _ _ _ hv
    obtain ⟨l', hl'⟩ := ih hvs
    exact ⟨_, .cons hl hl'⟩

theorem answers_of_run {engine : Engine} (reads : Traced bodies entries engine) {q : Query}
    {s s' : Store} {a : Answer} (h : q.run engine entries s = .ok a s') :
    ∃ l, Answers bodies entries s q a l s' := by
  cases q with
  | get key =>
    obtain ⟨v, s₁, hv, h⟩ := Run.bind_eq_ok h
    cases h
    unfold Engine.readKey? at hv
    cases hslot : entries.find? key with
    | none =>
      rw [hslot] at hv
      cases hv
      exact ⟨[], .absent hslot⟩
    | some slot =>
      rw [hslot] at hv
      have hv : (engine.read slot >>= fun v => pure (some v) : Run (Option Value)) s =
        .ok v s' := hv
      obtain ⟨u, s₂, hu, hv⟩ := Run.bind_eq_ok hv
      cases hv
      obtain ⟨l, hl⟩ := reads (Text.lower key) _ _ _ _ hu
      exact ⟨_, .get hslot hl⟩
  | has key =>
    cases h
    exact ⟨[], .has⟩
  | keys =>
    cases h
    exact ⟨[], .keys⟩
  | iter first count =>
    obtain ⟨vs, s₁, hvs, h⟩ := Run.bind_eq_ok h
    cases h
    obtain ⟨l, hl⟩ := readsAll_of_run reads hvs
    exact ⟨l, .iter hl⟩
  | len =>
    cases h
    exact ⟨[], .len⟩

theorem runs_of_run {engine : Engine} (reads : Traced bodies entries engine) {p : Program}
    {s s' : Store} {v : Value} (h : p.run (fun q => q.run engine entries) s = .ok v s') :
    ∃ l, Runs bodies entries s p v l s' := by
  induction p generalizing s with
  | done u =>
    cases h
    exact ⟨[], .done⟩
  | act f onward next ih =>
    obtain ⟨l, hl⟩ := ih (f s) h
    exact ⟨l, .act hl⟩
  | ask q next ih =>
    obtain ⟨a, s₁, ha, h⟩ := Run.bind_eq_ok h
    obtain ⟨l, hl⟩ := answers_of_run reads ha
    obtain ⟨l', hl'⟩ := ih a h
    exact ⟨_, .ask hl hl'⟩

theorem reads_of_force {engine : Engine} {form : String} {thunk : Nat} {s s' : Store} {v : Value}
    (performs : ∀ w s v s', engine.perform w s = .ok v s' →
      ∃ l, Performs bodies entries s w v l s')
    (h : engine.force thunk s = .ok v s') :
    ∃ l, Reads bodies entries s form (.lazy thunk) v l s' := by
  obtain ⟨hmissing, rfl, rfl⟩ | ⟨hdone, rfl⟩ | ⟨w, u, s₁, hpending, hrun, hafter⟩ :=
    Engine.force_cases h
  · exact ⟨_, .missing hmissing⟩
  · exact ⟨_, .done hdone⟩
  · obtain ⟨l, hl⟩ := performs _ _ _ _ hrun
    obtain ⟨already, rfl⟩ | ⟨still, rfl, rfl⟩ := hafter
    · exact ⟨_, .late hpending hl already⟩
    · exact ⟨_, .first hpending hl still⟩

/-- What a computation does is known from what reading does where it nests less deeply. -/
theorem performs_of_run {w : Work} {s s' : Store} {v : Value}
    (reads : ∀ n, fuel = n + 1 → Traced bodies entries (reader bodies entries n))
    (h : (reader bodies entries fuel).perform w s = .ok v s') :
    ∃ l, Performs bodies entries s w v l s' := by
  cases hsession : w.session? with
  | none =>
    cases w with
    | value u =>
      cases h
      exact ⟨[], .value⟩
    | expression | folder => cases hsession
  | some session =>
    cases lives : s.lives session with
    | false =>
      rw [perform_gone _ hsession lives] at h
      cases h
      exact ⟨[], .gone hsession lives⟩
    | true =>
      cases fuel with
      | zero =>
        rw [reader_exhausted hsession lives] at h
        cases h
      | succ n =>
        rw [reader_perform hsession n lives] at h
        obtain ⟨l, hl⟩ := runs_of_run (reads n rfl) h
        exact ⟨l, .run hsession lives hl⟩

theorem reader_traced (bodies : Work → Program) (entries : Entries) (fuel : Nat) :
    Traced bodies entries (reader bodies entries fuel) := by
  induction fuel using Nat.strongRecOn with
  | ind fuel ih =>
    intro form slot s v s' h
    cases slot with
    | ready u =>
      cases h
      exact ⟨_, .ready⟩
    | lazy thunk =>
      cases fuel with
      | zero => cases h
      | succ n =>
        refine reads_of_force (fun w s v s' h => performs_of_run (fun m hm => ?_) h) h
        exact ih m (by omega)

/-! ## Traces are of runs -/

/-- Runs of which all that may nest deeply enough end the same way. -/
def Settles {α : Type} (x : Nat → Run α) (s : Store) (a : α) (s' : Store) : Prop :=
  ∃ bound, ∀ n, bound ≤ n → x n s = .ok a s'

namespace Settles

variable {α β : Type} {x : Nat → Run α} {s s' s'' : Store} {a : α} {b : β}

theorem always (h : ∀ n, x n s = .ok a s') : Settles x s a s' :=
  ⟨0, fun n _ => h n⟩

theorem bind {k : Nat → α → Run β} (h : Settles x s a s')
    (h' : Settles (fun n => k n a) s' b s'') : Settles (fun n => x n >>= k n) s b s'' := by
  obtain ⟨bound, hx⟩ := h
  obtain ⟨bound', hk⟩ := h'
  refine ⟨max bound bound', fun n hn => ?_⟩
  show (x n >>= k n) s = .ok b s''
  rw [Run.bind_run (hx n (by omega))]
  exact hk n (by omega)

/-- A run that nests one more level. -/
theorem succ {y : Nat → Run β} (h : Settles x s a s')
    (hy : ∀ n, x n s = .ok a s' → y (n + 1) s = .ok b s'') : Settles y s b s'' := by
  obtain ⟨bound, hx⟩ := h
  refine ⟨bound + 1, fun n hn => ?_⟩
  obtain ⟨n, rfl⟩ : ∃ m, n = m + 1 := ⟨n - 1, by omega⟩
  exact hy n (hx n (by omega))

end Settles

/-- A call whose answer has a trace is answered so, if requests may nest deeply enough. -/
theorem Answers.settles {q : Query} {s s' : Store} {a : Answer} {l : List Event}
    (h : Answers bodies entries s q a l s') :
    Settles (fun n => q.run (reader bodies entries n) entries) s a s' := by
  refine h.rec
    (motive_1 := fun s _ slot v _ s' _ =>
      Settles (fun n => (reader bodies entries n).read slot) s v s')
    (motive_2 := fun s w v _ s' _ =>
      Settles (fun n => (reader bodies entries n).perform w) s v s')
    (motive_3 := fun s p v _ s' _ =>
      Settles (fun n => p.run fun q => q.run (reader bodies entries n) entries) s v s')
    (motive_4 := fun s q a _ s' _ =>
      Settles (fun n => q.run (reader bodies entries n) entries) s a s')
    (motive_5 := fun s es vs _ s' _ =>
      Settles (fun n => (reader bodies entries n).readAll es) s vs s')
    ?ready ?missing ?done ?first ?late ?value ?gone ?run ?finished ?act ?ask ?absent ?get ?has
    ?keys ?iter ?len ?nil ?cons
  case ready =>
    intro s form v
    exact .always fun _ => rfl
  case missing =>
    intro s form thunk h
    exact (Settles.always (x := fun _ => pure ()) fun _ => rfl).succ fun _ _ => Engine.force_missing h
  case done =>
    intro s form thunk v h
    exact (Settles.always (x := fun _ => pure ()) fun _ => rfl).succ fun _ _ => Engine.force_done h
  case first =>
    intro s s' form thunk w v l h _ still ih
    exact ih.succ fun _ run => Engine.force_first h run still
  case late =>
    intro s s' form thunk w u v l h _ already ih
    exact ih.succ fun _ run => Engine.force_late h run already
  case value =>
    intro s v
    exact .always fun _ => rfl
  case gone =>
    intro s w session h gone
    exact .always fun _ => perform_gone _ h gone
  case run =>
    intro s s' w session v l h lives _ ih
    exact ih.succ fun n run => (reader_perform h n lives).trans run
  case finished =>
    intro s v
    exact .always fun _ => rfl
  case act =>
    intro s s' f onward next v l _ ih
    exact ih
  case ask =>
    intro s s' s'' q next a v l l' _ _ ih ih'
    exact ih.bind ih'
  case absent =>
    intro s key h
    refine .always fun n => ?_
    show ((reader bodies entries n).readKey? entries key >>= _) s = _
    unfold Engine.readKey?
    rw [h]
    rfl
  case get =>
    intro s s' key slot v l h _ ih
    obtain ⟨bound, hread⟩ := ih
    refine ⟨bound, fun n hn => ?_⟩
    have hkey : (reader bodies entries n).readKey? entries key s = .ok (some v) s' := by
      unfold Engine.readKey?
      rw [h]
      show ((reader bodies entries n).read slot >>= fun v =>
        pure (some v) : Run (Option Value)) s = _
      rw [Run.bind_run (hread n hn)]
      rfl
    show ((reader bodies entries n).readKey? entries key >>= _) s = _
    rw [Run.bind_run hkey]
    rfl
  case has =>
    intro s key
    exact .always fun _ => rfl
  case keys =>
    intro s
    exact .always fun _ => rfl
  case iter =>
    intro s s' first count es l _ ih
    exact ih.bind (.always fun _ => rfl)
  case len =>
    intro s
    exact .always fun _ => rfl
  case nil =>
    intro s
    exact .always fun _ => rfl
  case cons =>
    intro s s' s'' key slot rest v es l l' _ _ ih ih'
    exact ih.bind (ih'.bind (.always fun _ => rfl))

/-! ## Traces and runs -/

theorem isSome_insert? (entries : Entries) (key : String) (slot : Slot) :
    (entries.insert? key slot).isSome = !(entries.has key) := by
  unfold Entries.insert?
  cases entries.has key <;> rfl

theorem Call.steps_of_run {call : Call} {entries' : Entries} {s s' : Store} {a : Answer}
    (h : call.run bodies fuel entries s = .ok (a, entries') s') :
    ∃ l, Steps bodies entries s call a l entries' s' := by
  cases call with
  | insert key v =>
    cases h
    rw [isSome_insert?]
    exact ⟨_, .insert⟩
  | insertLazy key w =>
    cases h
    rw [isSome_insert?]
    exact ⟨_, .insertLazy⟩
  | set key v =>
    cases h
    exact ⟨_, .set⟩
  | ask q =>
    obtain ⟨a, s₁, ha, h⟩ := Run.bind_eq_ok h
    cases h
    obtain ⟨l, hl⟩ := answers_of_run (reader_traced bodies entries fuel) ha
    exact ⟨l, .ask hl⟩

theorem Steps.settles {call : Call} {entries' : Entries} {s s' : Store} {a : Answer}
    {l : List Event} (h : Steps bodies entries s call a l entries' s') :
    Settles (fun n => call.run bodies n entries) s (a, entries') s' := by
  cases h with
  | insert =>
    rw [← isSome_insert?]
    exact .always fun _ => rfl
  | insertLazy =>
    rw [← isSome_insert?]
    exact .always fun _ => rfl
  | set => exact .always fun _ => rfl
  | ask answer => exact answer.settles.bind (.always fun _ => rfl)

theorem traces_of_run {calls : List Call} {entries' : Entries} {s s' : Store} {as : List Answer}
    (h : run bodies fuel calls entries s = .ok (as, entries') s') :
    ∃ l, Traces bodies entries s calls as l entries' s' := by
  induction calls generalizing entries s as with
  | nil =>
    cases h
    exact ⟨[], .nil⟩
  | cons call calls ih =>
    obtain ⟨r, s₁, hr, h⟩ := Run.bind_eq_ok h
    obtain ⟨rs, s₂, hrs, h⟩ := Run.bind_eq_ok h
    cases h
    obtain ⟨l, hl⟩ := Call.steps_of_run hr
    obtain ⟨l', hl'⟩ := ih hrs
    exact ⟨_, .cons hl hl'⟩

theorem Traces.settles {calls : List Call} {entries' : Entries} {s s' : Store} {as : List Answer}
    {l : List Event} (h : Traces bodies entries s calls as l entries' s') :
    Settles (fun n => run bodies n calls entries) s (as, entries') s' := by
  induction h with
  | nil => exact .always fun _ => rfl
  | cons step _ ih => exact step.settles.bind (ih.bind (.always fun _ => rfl))

/-- The traces are those of the runs that end. -/
theorem traces_iff {calls : List Call} {entries' : Entries} {s s' : Store} {as : List Answer} :
    (∃ fuel, run bodies fuel calls entries s = .ok (as, entries') s') ↔
      ∃ l, Traces bodies entries s calls as l entries' s' := by
  constructor
  · rintro ⟨fuel, h⟩
    exact traces_of_run h
  · rintro ⟨l, h⟩
    obtain ⟨bound, hbound⟩ := h.settles
    exact ⟨bound, hbound bound (Nat.le_refl _)⟩

end Adequacy

end Mapping
end Workbook
