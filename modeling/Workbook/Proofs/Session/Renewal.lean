/-
A session that is moved to another time is a new session.

`Store.Lodges` says what is left of a session through its past: what it was made of, scripts that
are compiled right, and modules whose sessions came later.  Moving the session to a time leaves
no more than that (`Store.Renewed`), and so does starting one.  Two stores that hold a renewed
session are twins, whatever else is in them, so the sessions answer every sequence of queries
alike; `setTime_renews` is the statement.
-/
import Mathlib
import Workbook.Proofs.Outline.Crawl
import Workbook.Proofs.Session.Query
import Workbook.Proofs.Session.Twin

open List (Forall₂)

namespace Workbook

/-! ## Answers -/

/-- What a session answers. -/
inductive Answer
  | result (r : Option Result)
  | results (rs : List (String × Result))
  | value (v : Value)
  | entry (v : Option Value)

/-- Two answers that differ in paired places and identities only. -/
inductive Answer.Alike (p : Pairing) : Answer → Answer → Prop
  | result {r r' : Option Result} (h : Option.Rel (Result.Alike p) r r') :
      Answer.Alike p (.result r) (.result r')
  | results {rs rs' : List (String × Result)} (h : Forall₂ (Keyed.Alike (Result.Alike p)) rs rs') :
      Answer.Alike p (.results rs) (.results rs')
  | value {v v' : Value} (h : Value.Alike p v v') : Answer.Alike p (.value v) (.value v')
  | entry {v v' : Option Value} (h : Option.Rel (Value.Alike p) v v') :
      Answer.Alike p (.entry v) (.entry v')

theorem Answer.Alike.mono {p q : Pairing} (hpq : p.Within q) (a b : Answer) :
    Answer.Alike p a b → Answer.Alike q a b
  | .result h => .result (optional_imp (fun _ _ hr => hr.mono hpq) h)
  | .results h => .results (h.imp (Keyed.Alike.imp fun _ _ hr => hr.mono hpq))
  | .value h => .value (h.mono hpq)
  | .entry h => .entry (optional_imp (fun _ _ hv => hv.mono hpq) h)

namespace Engine

variable (engine : Engine)

/-- Asks a session; all of its answer. -/
def reply (place : Nat) : Query → Run Answer
  | .expression path => .result <$> engine.evaluate place (pathKey path)
  | .all => do
    match (← get).sessions[place]? with
    | some s => .results <$> engine.evaluateAll place s.outline
    | none => return .results []
  | .folder path => .value <$> engine.folderValue place (pathKey path)
  | .entry path key => do
    match ← engine.folderValue place (pathKey path) with
    | .mapping es _ => .entry <$> engine.readKey? es key
    | _ => return .entry none

theorem Total.reply {e : Engine} (he : e.Total) (place : Nat) (q : Query) :
    (e.reply place q).Total := by
  cases q with
  | expression path => exact (he.evaluateOf place _).map _
  | all =>
    refine Run.total_get fun s => ?_
    split
    · exact (he.evaluateAll place _).map _
    · exact Run.total_pure _
  | folder path => exact (he.folderValueOf place _).map _
  | entry path key =>
    refine (he.folderValueOf place _).bind fun v => ?_
    split
    · refine Run.Total.map ?_ _
      unfold Engine.readKey?
      split
      · exact (he.read _).map _
      · exact Run.total_pure _
    · exact Run.total_pure _

end Engine

/-! ## The past -/

namespace Lasting

variable {L : Lasting}

theorem Keeps.map {α β : Type} {x : Run α} (h : L.Keeps x) (f : α → β) : L.Keeps (f <$> x) := by
  rw [← bind_pure_comp]
  exact h.bind fun _ => keeps_pure _

theorem keeps_mapM {α β : Type} {f : α → Run β} (hf : ∀ a, L.Keeps (f a)) (as : List α) :
    L.Keeps (as.mapM f) := by
  induction as with
  | nil => exact keeps_pure []
  | cons a as ih =>
    rw [List.mapM_cons]
    exact (hf a).bind fun _ => ih.bind fun _ => keeps_pure _

/-- Whatever a session is asked, what lasts is kept. -/
theorem keeps_reply (L : Lasting) (fuel place : Nat) (q : Query) :
    L.Keeps ((Engine.ofFuel fuel).reply place q) := by
  have hfolder (key : String) : L.Keeps ((Engine.ofFuel fuel).folderValue place key) :=
    Engine.keeps_ofFuel L (fuel + 1) (.folderValue place key)
  cases q with
  | expression path =>
    exact (Engine.keeps_ofFuel L (fuel + 1) (.evaluate place (pathKey path))).map _
  | all =>
    refine keeps_get fun s => ?_
    split
    · refine Keeps.map (Keeps.bind (keeps_mapM (fun e => ?_) _) fun _ => keeps_pure _) _
      exact (Engine.keeps_ofFuel L fuel _).bind fun _ => keeps_pure _
    · exact keeps_pure _
  | folder path => exact (hfolder _).map _
  | entry path key =>
    refine (hfolder _).bind fun v => ?_
    split
    · refine Keeps.map ?_ _
      unfold Engine.readKey?
      split
      · refine Keeps.map ?_ _
        unfold Engine.read
        split
        · exact keeps_pure _
        · exact Engine.keeps_ofFuel L fuel _
      · exact keeps_pure _
    · exact keeps_pure _

end Lasting

/-- What may happen between the start of a session and now: it answers queries, anything else is
asked, such as a call of a function that it gave out, and it is moved to other times. -/
inductive Session.Past (place : Nat) (s : Store) : Store → Prop
  | start : Past place s s
  | query {t u : Store} (before : Past place s t) (fuel : Nat) (q : Query)
      (h : ((Engine.ofFuel fuel).reply place q).EndsIn t u) : Past place s u
  | request {t u : Store} (before : Past place s t) (fuel : Nat) {α : Type} (r : Request α)
      (h : ((Engine.ofFuel fuel).ask r).EndsIn t u) : Past place s u
  | move {t u : Store} (before : Past place s t) (time : Float)
      (h : (Run.setTime place time).EndsIn t u) : Past place s u

namespace Store

variable {s s' t : Store} {tree : Tree} {options : Options} {time : Float}

/-- The session that a store starts next. -/
def nextSession (s : Store) (tree : Tree) (options : Options) (time : Float) : Session :=
  .start tree options.settings options.overrides (Formula.libraryFrom s.fresh)
    (Formula.mathFrom (s.fresh + Formula.libraryCodes.length)) time s.modules.size

/-- A later store in which the session that was started next is what it was, at some time. -/
structure Lodges (s : Store) (tree : Tree) (options : Options) (s' : Store) : Prop where
  size : s.sessions.size < s'.sessions.size
  fresh : s.fresh + Formula.libraryCodes.length + Formula.mathCodes.length ≤ s'.fresh
  session : ∃ time σ, s'.sessions[s.sessions.size]? = some σ ∧
    (s.nextSession tree options time).Stays σ
  modules : ∃ m, s'.modules[s.modules.size]? = some m ∧
    Modules.Stays (s.sessions.size + 1) ⟨true, options.registry, [], []⟩ m

/-- A later store in which the session is as it was started, except for what it has compiled and
counted. -/
structure Renewed (s : Store) (tree : Tree) (options : Options) (time : Float) (s' : Store) :
    Prop where
  size : s.sessions.size < s'.sessions.size
  fresh : s.fresh + Formula.libraryCodes.length + Formula.mathCodes.length ≤ s'.fresh
  session : ∃ (c : Script.Cache) (stats : Stats), c.Valid ∧ s'.sessions[s.sessions.size]? =
    some { s.nextSession tree options time with scripts := c, stats := stats }
  modules : s'.modules[s.modules.size]? = some ⟨true, options.registry, [], []⟩

theorem renewed_opened (s : Store) (tree : Tree) (options : Options) (time : Float) :
    s.Renewed tree options time (s.opened tree options time) where
  size := by simp [opened, opening]
  fresh := Nat.le_refl _
  session := ⟨_, _, Script.Cache.valid_empty _, s.session_opened tree options time⟩
  modules := Array.getElem?_push_size

theorem Renewed.lodges (h : s.Renewed tree options time s') : s.Lodges tree options s' where
  size := h.size
  fresh := h.fresh
  session := by
    obtain ⟨c, stats, hc, hσ⟩ := h.session
    exact ⟨time, _, hσ, rfl, fun _ => hc⟩
  modules := ⟨_, h.modules, .refl _ _⟩

theorem Lodges.stands (h : s.Lodges tree options t) (ht : t.Stands s') :
    s.Lodges tree options s' where
  size := Nat.lt_of_lt_of_le h.size ht.size
  fresh := Nat.le_trans h.fresh ht.fresh
  session := by
    obtain ⟨time, σ, hσ, hstays⟩ := h.session
    obtain ⟨σ', hσ', hstays'⟩ := ht.sessions hσ
    exact ⟨time, σ', hσ', hstays.trans hstays'⟩
  modules := by
    obtain ⟨m, hm, hstays⟩ := h.modules
    obtain ⟨m', hm', hstays'⟩ := ht.modules hm
    exact ⟨m', hm', hstays.trans hstays' h.size⟩

/-! ## Moving -/

/-- Letting go of sessions leaves another one alone. -/
theorem release_run (place : Nat) (es : List (String × Nat)) (s : Store)
    (hes : ∀ e ∈ es, e.2 ≠ place) : ∃ s', (es.forM fun e => Run.release e.2) s = .ok () s' ∧
      s'.sessions[place]? = s.sessions[place]? ∧ s'.sessions.size = s.sessions.size ∧
      s'.modules = s.modules ∧ s'.fresh = s.fresh := by
  induction es generalizing s with
  | nil => exact ⟨s, rfl, rfl, rfl, rfl, rfl⟩
  | cons e es ih =>
    obtain ⟨s', hrun, hplace, hsize, hmodules, hfresh⟩ :=
      ih (s.changeSession e.2 fun σ => { σ with alive := false })
        fun e' he' => hes e' (List.mem_cons_of_mem _ he')
    refine ⟨s', hrun, hplace.trans ?_, hsize.trans Array.size_modify, hmodules, hfresh⟩
    rw [changeSession, Array.getElem?_modify, if_neg (hes e List.mem_cons_self)]

/-- A session that stays what it was is as it was started once all that it has computed is
forgotten. -/
theorem renewed_of_stays {σ₀ σ : Session} (h : σ₀.Stays σ) (time : Float) :
    { σ with time, results := [], folderValues := [], imports := [] } =
      { σ₀ with
        time, results := [], folderValues := [], imports := []
        scripts := σ.scripts, stats := σ.stats } := by
  have hframe := h.frame
  simp only [Session.frame, Session.bare, Session.mk.injEq] at hframe ⊢
  grind

theorem unloaded_of_stays {n : Nat} {m₀ m : Modules} (h : m₀.Stays n m) :
    { m with loaded := [] } = { m₀ with loaded := [] } := by
  rw [Modules.mk.injEq]
  exact ⟨h.alive, h.registry, rfl, h.loading⟩

/-- A session that is moved is renewed. -/
theorem Lodges.setTime (h : s.Lodges tree options s') (time : Float) :
    ∃ t, Run.setTime s.sessions.size time s' = .ok () t ∧ s.Renewed tree options time t := by
  obtain ⟨time₀, σ, hσ, hstays⟩ := h.session
  obtain ⟨m, hm, hmstays⟩ := h.modules
  let moved : Session := { σ with time, results := [], folderValues := [], imports := [] }
  let s₁ := s'.changeSession s.sessions.size fun σ =>
    { σ with time, results := [], folderValues := [], imports := [] }
  have hmodules : σ.modules = s.modules.size :=
    show σ.frame.modules = s.modules.size by rw [hstays.frame]; rfl
  have hσ₁ : s₁.sessions[s.sessions.size]? = some moved := by
    simp [s₁, changeSession, Array.getElem?_modify, hσ, moved]
  obtain ⟨s₂, hrun, hplace, hsize, hmods, hfresh⟩ :=
    release_run s.sessions.size m.loaded s₁ fun e he => by
      obtain he | he := hmstays.loaded e he
      · cases he
      · omega
  refine ⟨s₂.changeModules s.modules.size fun m => { m with loaded := [] }, ?_, ?_⟩
  · have hrest : Run.releaseModules s.modules.size s₁ =
        .ok () (s₂.changeModules s.modules.size fun m => { m with loaded := [] }) := by
      unfold Run.releaseModules
      rw [Run.get_bind, show s₁.modules[s.modules.size]? = _ from hm]
      exact Run.bind_run hrun
    have hmoved : Run.changeSession s.sessions.size (fun σ =>
        { σ with time, results := [], folderValues := [], imports := [] }) s' = .ok () s₁ :=
      rfl
    unfold Run.setTime
    rw [Run.bind_run hmoved, Run.get_bind, hσ₁]
    show Run.releaseModules σ.modules s₁ = _
    rw [hmodules, hrest]
  · exact
      { size := by
          show s.sessions.size < s₂.sessions.size
          rw [hsize]
          exact Nat.lt_of_lt_of_eq h.size Array.size_modify.symm
        fresh := by
          show _ ≤ s₂.fresh
          rw [hfresh]
          exact h.fresh
        session := by
          refine ⟨σ.scripts, σ.stats, hstays.scripts (Script.Cache.valid_empty _), ?_⟩
          exact hplace.trans (hσ₁.trans (congrArg some (renewed_of_stays hstays time)))
        modules := by
          rw [changeModules, Array.getElem?_modify, if_pos rfl, hmods]
          show (s'.modules[s.modules.size]?).map _ = _
          rw [hm, Option.map_some, unloaded_of_stays hmstays] }

/-- Whatever is in its past, a session is what it was, at some time. -/
theorem Lodges.past (h : s.Lodges tree options t) (past : Session.Past s.sessions.size t s') :
    s.Lodges tree options s' := by
  induction past with
  | start => exact h
  | query _ fuel q hq ih => exact ih.stands ((Lasting.keeps_reply standing fuel _ q).ends hq)
  | request _ fuel r hr ih => exact ih.stands ((Engine.keeps_ofFuel standing fuel r).ends hr)
  | move _ time ht ih =>
    obtain ⟨u, hu, hrenewed⟩ := ih.setTime time
    cases ht with
    | value ht =>
      rw [hu] at ht
      cases ht
      exact hrenewed.lodges
    | failure ht =>
      rw [hu] at ht
      cases ht

end Store

/-! ## Renewed sessions are twins -/

/-- Nothing is paired but identities below a number, with themselves. -/
def Pairing.below (n : Nat) : Pairing where
  arrays _ _ := False
  objects _ _ := False
  blocks _ _ := False
  thunks _ _ := False
  evaluations _ _ := False
  executions _ _ := False
  sessions _ _ := False
  idents a b := a = b ∧ a < n

/-- A value that refers to no place of a store, with identities below a number. -/
def Value.Plain (n : Nat) (v : Value) : Prop :=
  Value.Alike (.below n) v v

namespace Formula

variable {p : Pairing}

theorem functionsFrom_alike {fs : List (String × TypedCode)}
    (hfs : ∀ f ∈ fs, TypedCode.Alike p f.2 f.2) {m n : Nat}
    (h : ∀ i < fs.length, p.idents (m + i) (n + i)) :
    Forall₂ (Keyed.Alike (Slot.Alike p)) (functionsFrom m fs) (functionsFrom n fs) := by
  induction fs generalizing m n with
  | nil => exact .nil
  | cons f rest ih =>
    obtain ⟨k, code⟩ := f
    have hcode := hfs _ List.mem_cons_self
    refine .cons (.mk k (.ready (.function (.typed (.mk (h 0 (Nat.zero_lt_succ _)) hcode))))) ?_
    refine ih (fun f hf => hfs f (List.mem_cons_of_mem _ hf)) fun i hi => ?_
    have hi := h (i + 1) (Nat.succ_lt_succ hi)
    rwa [← Nat.add_assoc, ← Nat.add_assoc, Nat.add_right_comm m, Nat.add_right_comm n] at hi

theorem libraryFrom_alike {m n : Nat} (h : ∀ i < libraryCodes.length, p.idents (m + i) (n + i)) :
    Value.Alike p (libraryFrom m) (libraryFrom n) := by
  refine Value.ofEntries_alike (functionsFrom_alike (fun f hf => ?_) h)
  obtain ⟨x, -, rfl⟩ := List.mem_map.1 hf
  exact .library x

theorem mathFrom_alike {m n : Nat} (h : ∀ i < mathCodes.length, p.idents (m + i) (n + i)) :
    Value.Alike p (mathFrom m) (mathFrom n) := by
  refine Value.ofEntries_alike (List.rel_append ?_ (functionsFrom_alike (fun f hf => ?_) h))
  · refine List.forall₂_same.2 fun e he => ?_
    obtain ⟨c, -, rfl⟩ := List.mem_map.1 he
    exact .mk _ (.ready (.float _))
  · obtain ⟨x, -, rfl⟩ := List.mem_map.1 hf
    exact .math x

end Formula

namespace Twins

variable {s t s' t' : Store} {n : Nat} {tree : Tree} {options : Options} {time : Float}

/-- The sessions that two stores start next are paired, with their modules and functions. -/
def ofRenewed (n : Nat) (s t : Store) : Twins where
  pairing :=
    { Pairing.below n with
      sessions := fun a b => a = s.sessions.size ∧ b = t.sessions.size
      idents := fun a b => (a = b ∧ a < n) ∨
        ∃ i < Formula.libraryCodes.length + Formula.mathCodes.length,
          a = s.fresh + i ∧ b = t.fresh + i }
  modules a b := a = s.modules.size ∧ b = t.modules.size

theorem below_within : (Pairing.below n).Within (ofRenewed n s t).pairing where
  arrays := False.elim
  objects := False.elim
  blocks := False.elim
  thunks := False.elim
  evaluations := False.elim
  executions := False.elim
  sessions := False.elim
  idents := .inl

/-- Nothing fits everywhere. -/
theorem fits_nothing (m n : Nat) : Fits (fun _ _ => False) m n :=
  ⟨fun h => h.elim, fun h => h.elim⟩

/-- So does one place with another one. -/
theorem fits_one {a b m n : Nat} (ha : a < m) (hb : b < n) :
    Fits (fun x y => x = a ∧ y = b) m n where
  unique := by
    rintro _ _ _ _ ⟨rfl, rfl⟩ ⟨rfl, rfl⟩
    exact Iff.intro (fun _ => rfl) fun _ => rfl
  lt := by
    rintro _ _ ⟨rfl, rfl⟩
    exact ⟨ha, hb⟩

/-- And identities that were given out in two rows, beside older ones. -/
theorem fits_idents (hs : n ≤ s.fresh) (ht : n ≤ t.fresh)
    (hs' : s.fresh + Formula.libraryCodes.length + Formula.mathCodes.length ≤ s'.fresh)
    (ht' : t.fresh + Formula.libraryCodes.length + Formula.mathCodes.length ≤ t'.fresh) :
    Fits (ofRenewed n s t).pairing.idents s'.fresh t'.fresh where
  unique := by
    rintro a b c d (⟨rfl, ha⟩ | ⟨i, hi, rfl, rfl⟩) (⟨rfl, hc⟩ | ⟨j, hj, rfl, rfl⟩) <;> omega
  lt := by
    rintro a b (⟨rfl, ha⟩ | ⟨_, hi, rfl, rfl⟩) <;> omega

/-- Sessions that were started alike and have only compiled and counted correspond. -/
theorem tied_nextSession (plain : ∀ o ∈ options.overrides, o.2.Plain n) {c c' : Script.Cache}
    (hc : c.Valid) (hc' : c'.Valid) (stats stats' : Stats) :
    Session.Tied (ofRenewed n s t).pairing (ofRenewed n s t).ties
      { s.nextSession tree options time with scripts := c, stats := stats }
      { t.nextSession tree options time with scripts := c', stats := stats' } where
  place := rfl
  overrides := List.forall₂_same.2 fun o ho => .mk o.1 ((plain o ho).mono below_within)
  timeVariable := rfl
  time := rfl
  library := Formula.libraryFrom_alike fun i hi =>
    .inr ⟨i, Nat.lt_add_right _ hi, rfl, rfl⟩
  math := Formula.mathFrom_alike fun _ hi =>
    .inr ⟨_, Nat.add_lt_add_left hi _, Nat.add_assoc .., Nat.add_assoc ..⟩
  alive := rfl
  tree := rfl
  outline := rfl
  settings := rfl
  results := .nil
  inFlight := rfl
  folderValues := .nil
  imports := .nil
  scripts := ⟨hc, hc'⟩
  modules := ⟨rfl, rfl⟩
  stats := trivial

/-- Stores in which sessions over one workbook are renewed are twins. -/
theorem holds_ofRenewed (plain : ∀ o ∈ options.overrides, o.2.Plain n) (hs : n ≤ s.fresh)
    (ht : n ≤ t.fresh) (h : s.Renewed tree options time s') (h' : t.Renewed tree options time t') :
    (ofRenewed n s t).Holds s' t' := by
  have hidents := fits_idents hs ht h.fresh h'.fresh
  obtain ⟨c, stats, hc, hσ⟩ := h.session
  obtain ⟨c', stats', hc', hσ'⟩ := h'.session
  have hmodules := (Array.getElem?_eq_some_iff.1 h.modules).1
  have hmodules' := (Array.getElem?_eq_some_iff.1 h'.modules).1
  exact
    { places :=
        { arrays := False.elim
          objects := False.elim
          blocks := False.elim
          evaluations := False.elim
          executions := False.elim
          ordered := False.elim
          uniqueEvaluations := (fits_nothing 0 0).unique
          uniqueExecutions := (fits_nothing 0 0).unique
          oneToOne := ⟨(fits_nothing 0 0).unique, (fits_nothing 0 0).unique, hidents.unique⟩ }
      tied :=
        { thunks := False.elim
          sessions := by
            rintro a b ⟨rfl, rfl⟩
            rw [hσ, hσ']
            exact .some (tied_nextSession plain hc hc' stats stats')
          modules := by
            rintro a b ⟨rfl, rfl⟩
            rw [h.modules, h'.modules]
            exact .some ⟨rfl, rfl, .nil, rfl⟩ }
      arrays := fits_nothing _ _
      objects := fits_nothing _ _
      blocks := fits_nothing _ _
      thunks := fits_nothing _ _
      evaluations := fits_nothing _ _
      executions := fits_nothing _ _
      sessions := fits_one h.size h'.size
      modules := fits_one hmodules hmodules'
      idents := hidents }

end Twins

/-! ## Answering alike -/

theorem filterMap_alike {α β : Type} {R : α → β → Prop} {xs : List (Option α)}
    {ys : List (Option β)} (h : Forall₂ (Option.Rel R) xs ys) :
    Forall₂ R (xs.filterMap id) (ys.filterMap id) := by
  induction h with
  | nil => exact .nil
  | cons hx _ ih =>
    cases hx with
    | none => exact ih
    | some hx => exact .cons hx ih

namespace SessionSimulation

variable {S : SessionSimulation} {w : S.World}

theorem Serves.evaluateAll {e₁ e₂ : Engine} (he : S.Serves e₁ e₂) {a b : Nat}
    (hab : (S.pairing w).sessions a b) (o : Outline) :
    S.Rel w (e₁.evaluateAll a o) (e₂.evaluateAll b o)
      fun w => Forall₂ (Keyed.Alike (Result.Alike (S.pairing w))) := by
  refine S.bind (Simulation.rel_mapM (A := fun _ => Eq)
    (T := fun w => Option.Rel (Keyed.Alike (Result.Alike (S.pairing w)))) (fun _ _ _ h => h)
    (fun hw _ _ h => optional_imp (Keyed.Alike.imp fun _ _ hr => hr.mono (S.within hw)) h)
    (fun w' hw x _ hx => ?_) (List.forall₂_same.2 fun _ _ => rfl))
    fun _ _ _ _ hrs => S.pure (filterMap_alike hrs)
  obtain rfl := hx
  refine S.bind (he.evaluate x.key ((S.within hw).sessions hab))
    fun _ _ _ _ hr => S.pure (optional_map hr fun _ _ hr => .mk x.path hr)

/-- Sessions that are paired answer alike. -/
theorem rel_reply (serves : ∀ fuel, S.Serves (Engine.ofFuel fuel) (Engine.ofFuel fuel))
    (fuel : Nat) {a b : Nat} (hab : (S.pairing w).sessions a b) (q : Query) :
    S.Rel w ((Engine.ofFuel fuel).reply a q) ((Engine.ofFuel fuel).reply b q)
      fun w => Answer.Alike (S.pairing w) := by
  have he := serves fuel
  have hnext := serves (fuel + 1)
  cases q with
  | expression path =>
    exact Simulation.Rel.map (hnext.evaluate (pathKey path) hab) fun _ _ _ _ hr => .result hr
  | all =>
    refine S.look fun s t hst => ?_
    have hσ := hst.sessions hab
    generalize s.sessions[a]? = x at hσ ⊢
    generalize t.sessions[b]? = y at hσ ⊢
    cases hσ with
    | none => exact S.pure (.results .nil)
    | @some σ σ' hσ =>
      simp only [hσ.outline]
      exact Simulation.Rel.map (he.evaluateAll hab _) fun _ _ _ _ hrs => .results hrs
  | folder path =>
    exact Simulation.Rel.map (hnext.answers.folderValue (pathKey path) hab)
      fun _ _ _ _ hv => .value hv
  | entry path key =>
    refine S.bind (hnext.answers.folderValue (pathKey path) hab) fun w₁ h₁ v v' hv => ?_
    cases hv with
    | mapping entries _ =>
      exact Simulation.Rel.map (he.answers.readKey? entries key) fun _ _ _ _ hv => .entry hv
    | _ => exact S.pure (.entry .none)

end SessionSimulation

namespace Twins

theorem rel_replies {w : Twins} (fuel : Nat) {a b : Nat} (hab : w.pairing.sessions a b)
    (qs : List Query) :
    w.Rel (qs.mapM ((Engine.ofFuel fuel).reply a)) (qs.mapM ((Engine.ofFuel fuel).reply b))
      fun w => Forall₂ (Answer.Alike w.pairing) := by
  refine Simulation.rel_mapM (S := coupling.simulation) (A := fun _ => Eq) (fun _ _ _ h => h)
    (fun hw _ _ h => h.mono hw.pairing) (fun w' hw q _ hq => ?_) (List.forall₂_same.2 fun _ _ => rfl)
  obtain rfl := hq
  exact SessionSimulation.rel_reply serves fuel (hw.pairing.sessions hab) q

end Twins

/-- Two ends of runs that answer: alike, with stores that can be told apart by no more than what
is paired one to one, unless both runs were given too little fuel. -/
inductive Answer.Agree :
    EStateM.Result Stop Store (List Answer) → EStateM.Result Stop Store (List Answer) → Prop
  | answered {as bs : List Answer} {s t : Store} (w : Twins) (h : w.Holds s t)
      (answers : Forall₂ (Answer.Alike w.pairing) as bs) : Answer.Agree (.ok as s) (.ok bs t)
  | exhausted {s t : Store} : Answer.Agree (.error .exhausted s) (.error .exhausted t)

/-- Sessions that are paired in twins answer every sequence of queries alike. -/
theorem Twins.Holds.agree {w : Twins} {s t : Store} (h : w.Holds s t) {a b : Nat}
    (hab : w.pairing.sessions a b) (fuel : Nat) (qs : List Query) :
    Answer.Agree (qs.mapM ((Engine.ofFuel fuel).reply a) s)
      (qs.mapM ((Engine.ofFuel fuel).reply b) t) := by
  have hends := (Twins.rel_replies fuel hab qs).ends s t h
  have htotal := (Run.total_mapM ((Engine.total_ofFuel fuel).reply b) qs).ends t
  generalize qs.mapM ((Engine.ofFuel fuel).reply a) s = r at hends ⊢
  generalize qs.mapM ((Engine.ofFuel fuel).reply b) t = r' at hends htotal ⊢
  match r, r', hends with
  | .ok as s', .ok bs t', ⟨w', _, hi, has⟩ => exact .answered w' hi has
  | .error (.failed f) s', .error (.failed g) t', _ => exact absurd rfl (htotal g t')
  | .error .exhausted s', .error .exhausted t', _ => exact .exhausted
  | .error .exhausted s', .ok bs t', hv => exact hv.elim
  | .error .exhausted s', .error (.failed g) t', hf => exact hf.elim
  | .ok as s', .error .exhausted t', hv => exact hv.elim
  | .error (.failed f) s', .error .exhausted t', hf => exact hf.elim

/-- A session that is moved to a time, after whatever has happened to it, answers every sequence
of queries as a session does that is started at that time in any store. -/
theorem setTime_renews {n : Nat} {s t : Store} (tree : Tree) (options : Options)
    (start time : Float) (plain : ∀ o ∈ options.overrides, o.2.Plain n) (hs : n ≤ s.fresh)
    (ht : n ≤ t.fresh) : ∃ place s₀ other t₀,
      Run.newSession tree options start s = .ok place s₀ ∧
      Run.newSession tree options time t = .ok other t₀ ∧
      ∀ s₁, Session.Past place s₀ s₁ → ∃ s₂, Run.setTime place time s₁ = .ok () s₂ ∧
        ∀ (fuel : Nat) (qs : List Query),
          Answer.Agree (qs.mapM ((Engine.ofFuel fuel).reply place) s₂)
            (qs.mapM ((Engine.ofFuel fuel).reply other) t₀) := by
  refine ⟨_, _, _, _, Run.newSession_run tree start s options,
    Run.newSession_run tree time t options, fun s₁ past => ?_⟩
  have hlodges := (Store.renewed_opened s tree options start).lodges.past past
  obtain ⟨s₂, hrun, hrenewed⟩ := hlodges.setTime time
  have hholds := Twins.holds_ofRenewed plain hs ht hrenewed (t.renewed_opened tree options time)
  exact ⟨s₂, hrun, hholds.agree ⟨rfl, rfl⟩⟩

/-- A workbook with the time, and a list of it and of a byte string from outside. -/
def clock : Tree :=
  ⟨[("", some [⟨.expression, "p", 1, some .formula⟩, ⟨.expression, "q", 1, some .formula⟩])],
    [("p", some "[q, x]"), ("q", some "t")], 2⟩

def clockOptions : Options :=
  ⟨.standard, [("x", .bytes ⟨0, []⟩)], []⟩

/-- A store in which the identity of the byte string was given out. -/
def issued : Store :=
  { Store.empty with fresh := 1 }

theorem ofTree_clock : Outline.ofTree clock =
    ⟨[Outline.root], [⟨"p", "p", ["p"], .formula, 1, ""⟩, ⟨"q", "q", ["q"], .formula, 1, ""⟩]⟩ :=
  (Outline.ofTree_of_expressions rfl (by decide) rfl).trans rfl

theorem pathKey_clock : pathKey "p" = "p" :=
  pathKey_of_name (by decide) (by decide)

theorem clock_run :
    (match (Engine.ofFuel 12).reply 0 (.expression "p") (issued.opened clock clockOptions 0) with
      | .ok _ _ => true
      | _ => false) = true := by
  unfold Engine.reply Store.opened Store.opening Session.start
  rw [ofTree_clock]
  simp only [pathKey_clock]
  decide +kernel

/-- The session has kept the list when it is moved. -/
theorem clock_renews : (∀ o ∈ clockOptions.overrides, o.2.Plain 1) ∧ 1 ≤ issued.fresh ∧
    ∃ s₀ a s₁ s₂ t₀, Run.newSession clock clockOptions 0 issued = .ok 0 s₀ ∧
      Run.newSession clock clockOptions 1 issued = .ok 0 t₀ ∧
      (Engine.ofFuel 12).reply 0 (.expression "p") s₀ = .ok a s₁ ∧
      Run.setTime 0 1 s₁ = .ok () s₂ ∧ ∀ (fuel : Nat) (qs : List Query),
        Answer.Agree (qs.mapM ((Engine.ofFuel fuel).reply 0) s₂)
          (qs.mapM ((Engine.ofFuel fuel).reply 0) t₀) := by
  have plain : ∀ o ∈ clockOptions.overrides, o.2.Plain 1 := by
    intro o ho
    obtain rfl := List.mem_singleton.1 ho
    exact .bytes (.mk [] ⟨rfl, Nat.zero_lt_one⟩)
  obtain ⟨place, s₀, other, t₀, hs₀, ht₀, renews⟩ :=
    setTime_renews (s := issued) (t := issued) clock clockOptions 0 1 plain (Nat.le_refl 1)
      (Nat.le_refl 1)
  rw [Run.newSession_run] at hs₀ ht₀
  cases hs₀
  cases ht₀
  have hrun := clock_run
  split at hrun
  case h_2 => cases hrun
  case h_1 a s₁ ha =>
    obtain ⟨s₂, hmove, hagree⟩ := renews s₁ (.query .start 12 (.expression "p") (.value ha))
    exact ⟨plain, Nat.le_refl 1, _, a, s₁, s₂, _, Run.newSession_run .., Run.newSession_run .., ha,
      hmove, hagree⟩

end Workbook
