/-
Stores that go the same way.

Two stores may hold different things besides those that are paired.  `Twins.Holds` says that
what is paired matches, that it is paired one to one, and that it is there; then whatever is
made next can be paired too.  So runs that start from twins correspond all the way, and one
is exhausted exactly if the other is.  Sessions correspond in everything but in what they have
compiled, of which it is enough that it is right, and in what they have counted.
-/
import Workbook.Proofs.Coupling.Depth
import Workbook.Proofs.Session.Standing

open List (Forall₂)

namespace Workbook

/-! ## Pairs of places -/

/-- Places that are paired one to one, of so many that there are. -/
structure Fits (r : Nat → Nat → Prop) (m n : Nat) : Prop where
  unique : Pairing.Unique r
  lt : ∀ {a b}, r a b → a < m ∧ b < n

/-- A relation of places with the next places added. -/
def Next (r : Nat → Nat → Prop) (m n : Nat) (a b : Nat) : Prop :=
  r a b ∨ (a = m ∧ b = n)

theorem next_last (r : Nat → Nat → Prop) (m n : Nat) : Next r m n m n :=
  .inr ⟨rfl, rfl⟩

namespace Fits

variable {r : Nat → Nat → Prop} {m n : Nat} (h : Fits r m n)
include h

theorem grows : Grows r (Next r m n) m n where
  old := .inl
  both := by
    rintro a b (hab | ⟨rfl, rfl⟩)
    · have hlt := h.lt hab
      omega
    · exact Iff.intro (fun _ => rfl) fun _ => rfl
  only hab ha := hab.resolve_right fun hlast => ha hlast.1

theorem next : Fits (Next r m n) (m + 1) (n + 1) where
  unique := by
    rintro a b c d hab (hcd | ⟨rfl, rfl⟩)
    · obtain hab | ⟨rfl, rfl⟩ := hab
      · exact h.unique hab hcd
      · have hlt := h.lt hcd
        omega
    · exact h.grows.both hab
  lt := by
    rintro a b (hab | ⟨rfl, rfl⟩)
    · have hlt := h.lt hab
      omega
    · exact ⟨Nat.lt_succ_self _, Nat.lt_succ_self _⟩

/-- The next places are above all others. -/
theorem ordered_next (ho : ∀ {a b c d : Nat}, r a b → r c d → (a < c ↔ b < d)) {a b c d : Nat}
    (hab : Next r m n a b) (hcd : Next r m n c d) : a < c ↔ b < d := by
  obtain hab | ⟨rfl, rfl⟩ := hab
  · obtain hcd | ⟨rfl, rfl⟩ := hcd
    · exact ho hab hcd
    · have hlt := h.lt hab
      omega
  · obtain hcd | ⟨rfl, rfl⟩ := hcd
    · have hlt := h.lt hcd
      omega
    · omega

theorem push {α β : Type} {xs : Array α} {ys : Array β} (hm : xs.size = m) (hn : ys.size = n)
    (x : α) (y : β) : Fits (Next r m n) (xs.push x).size (ys.push y).size := by
  rw [Array.size_push, Array.size_push, hm, hn]
  exact h.next

theorem modify {α β : Type} {xs : Array α} {ys : Array β} (hm : xs.size = m) (hn : ys.size = n)
    {a b : Nat} {f : α → α} {g : β → β} : Fits r (xs.modify a f).size (ys.modify b g).size := by
  rw [Array.size_modify, Array.size_modify, hm, hn]
  exact h

end Fits

/-! ## More pairs of more places -/

section Mono

variable {p q : Pairing} {T U : Ties} {s t : Store} (hpq : p.Within q)
include hpq

theorem Work.Alike.mono (x y : Work) : Work.Alike p x y → Work.Alike q x y
  | .value h => .value (h.mono hpq)
  | .expression key h => .expression key (hpq.sessions h)
  | .folder key h => .folder key (hpq.sessions h)

theorem Thunk.Alike.mono (x y : Thunk) : Thunk.Alike p x y → Thunk.Alike q x y
  | .pending h => .pending (h.mono hpq)
  | .done h => .done (h.mono hpq)

theorem Modules.Alike.mono (m m' : Modules) (h : m.Alike p m') : m.Alike q m' :=
  ⟨h.alive, h.registry, h.loaded.imp (Keyed.Alike.imp fun _ _ => hpq.sessions), h.loading⟩

/-- More pairs of other places than those in question. -/
theorem Store.Matches.widen (h : s.Matches p t) (arrays : q.arrays = p.arrays)
    (objects : q.objects = p.objects) (blocks : q.blocks = p.blocks)
    (evaluations : q.evaluations = p.evaluations) (executions : q.executions = p.executions)
    (idents : Pairing.Unique q.idents) : s.Matches q t where
  arrays hab := optional_imp (Pairing.array_mono hpq) (h.arrays (arrays ▸ hab))
  objects hab := optional_imp (Pairing.object_mono hpq) (h.objects (objects ▸ hab))
  blocks hab := optional_imp (Block.Alike.mono hpq) (h.blocks (blocks ▸ hab))
  evaluations hab := optional_imp (Evaluation.Alike.mono hpq) (h.evaluations (evaluations ▸ hab))
  executions hab := optional_imp (Execution.Matches.mono hpq) (h.executions (executions ▸ hab))
  ordered hab hcd := h.ordered (blocks ▸ hab) (blocks ▸ hcd)
  uniqueEvaluations := evaluations ▸ h.uniqueEvaluations
  uniqueExecutions := executions ▸ h.uniqueExecutions
  oneToOne := ⟨arrays ▸ h.oneToOne.arrays, objects ▸ h.oneToOne.objects, idents⟩

theorem Store.Tied.widen (hTU : T.Within U) (h : s.Tied p T t) (thunks : q.thunks = p.thunks)
    (sessions : q.sessions = p.sessions) (modules : U.modules = T.modules) : s.Tied q U t where
  thunks hab := optional_imp (Thunk.Alike.mono hpq) (h.thunks (thunks ▸ hab))
  sessions hab := optional_imp (fun _ _ hσ => hσ.mono hpq hTU) (h.sessions (sessions ▸ hab))
  modules hab := optional_imp (Modules.Alike.mono hpq) (h.modules (modules ▸ hab))

end Mono

/-! ## Twins -/

/-- What is paired of two stores. -/
structure Twins where
  pairing : Pairing
  modules : Nat → Nat → Prop

namespace Twins

/-- Sessions may have compiled and counted different things. -/
def ties (w : Twins) : Ties where
  settings := Eq
  modules := w.modules
  caches c c' := c.Valid ∧ c'.Valid
  stats _ _ := True

/-- More is paired. -/
structure Le (w w' : Twins) : Prop where
  pairing : w.pairing.Within w'.pairing
  modules : ∀ {a b}, w.modules a b → w'.modules a b

theorem Le.refl (w : Twins) : w.Le w :=
  ⟨.refl _, id⟩

theorem Le.trans {u v w : Twins} (h : u.Le v) (h' : v.Le w) : u.Le w :=
  ⟨h.pairing.trans h'.pairing, h'.modules ∘ h.modules⟩

theorem Le.ties {w w' : Twins} (h : w.Le w') : w.ties.Within w'.ties :=
  ⟨id, h.modules, id, id⟩

/-- What is paired matches, is paired one to one, and is there. -/
structure Holds (w : Twins) (s t : Store) : Prop where
  places : s.Matches w.pairing t
  tied : s.Tied w.pairing w.ties t
  arrays : Fits w.pairing.arrays s.arrays.size t.arrays.size
  objects : Fits w.pairing.objects s.objects.size t.objects.size
  blocks : Fits w.pairing.blocks s.blocks.size t.blocks.size
  thunks : Fits w.pairing.thunks s.thunks.size t.thunks.size
  evaluations : Fits w.pairing.evaluations s.evaluations.size t.evaluations.size
  executions : Fits w.pairing.executions s.executions.size t.executions.size
  sessions : Fits w.pairing.sessions s.sessions.size t.sessions.size
  modules : Fits w.modules s.modules.size t.modules.size
  idents : Fits w.pairing.idents s.fresh t.fresh

/-! ### What is made next -/

/-- The pairs of two stores after a pairing has grown. -/
def grow (w : Twins) (q : Pairing) : Twins :=
  { w with pairing := q }

variable {w : Twins} {s t : Store}

theorem le_grow {q : Pairing} (h : w.pairing.Within q) : w.Le (w.grow q) :=
  ⟨h, id⟩

namespace Holds

variable (h : w.Holds s t)
include h

theorem freshId : ∃ w', w.Le w' ∧
    w'.Holds { s with fresh := s.fresh + 1 } { t with fresh := t.fresh + 1 } ∧
    w'.pairing.idents s.fresh t.fresh := by
  have hq : w.pairing.Within { w.pairing with idents := Next w.pairing.idents s.fresh t.fresh } :=
    { Pairing.Within.refl w.pairing with idents := .inl }
  have hplaces := h.places.widen hq rfl rfl rfl rfl rfl h.idents.next.unique
  refine ⟨w.grow _, le_grow hq, { h with
    places := { hplaces with }
    tied := { h.tied.widen hq (.refl _) rfl rfl rfl with }
    idents := h.idents.next }, next_last _ _ _⟩

theorem newArray {xs ys : Array Native} (hxs : Forall₂ (Native.Alike w.pairing) xs.toList ys.toList) :
    ∃ w', w.Le w' ∧
      w'.Holds { s with arrays := s.arrays.push (.ofContent xs) }
        { t with arrays := t.arrays.push (.ofContent ys) } ∧
      w'.pairing.arrays s.arrays.size t.arrays.size := by
  have hg := h.arrays.grows
  have hq : w.pairing.Within
      { w.pairing with arrays := Next w.pairing.arrays s.arrays.size t.arrays.size } :=
    { Pairing.Within.refl w.pairing with arrays := hg.old }
  refine ⟨w.grow _, le_grow hq, { h with
    places := h.places.addArray hg h.arrays.next.unique ⟨Native.forall_mono hxs hq, rfl, rfl⟩
    tied := { h.tied.widen hq (.refl _) rfl rfl rfl with }
    arrays := h.arrays.push rfl rfl _ _ }, next_last _ _ _⟩

theorem newObject {fs gs : Fields} (hfs : Forall₂ (Keyed.Alike (Native.Alike w.pairing)) fs gs) :
    ∃ w', w.Le w' ∧
      w'.Holds { s with objects := s.objects.push (.ofContent fs) }
        { t with objects := t.objects.push (.ofContent gs) } ∧
      w'.pairing.objects s.objects.size t.objects.size := by
  have hg := h.objects.grows
  have hq : w.pairing.Within
      { w.pairing with objects := Next w.pairing.objects s.objects.size t.objects.size } :=
    { Pairing.Within.refl w.pairing with objects := hg.old }
  refine ⟨w.grow _, le_grow hq, { h with
    places := h.places.addObject hg h.objects.next.unique ⟨Native.fields_mono hfs hq, rfl, rfl⟩
    tied := { h.tied.widen hq (.refl _) rfl rfl rfl with }
    objects := h.objects.push rfl rfl _ _ }, next_last _ _ _⟩

theorem newBlock {a b : Option Nat} (hab : Option.Rel w.pairing.blocks a b) : ∃ w', w.Le w' ∧
    w'.Holds { s with blocks := s.blocks.push ⟨[], a⟩ } { t with blocks := t.blocks.push ⟨[], b⟩ } ∧
    w'.pairing.blocks s.blocks.size t.blocks.size := by
  have hg := h.blocks.grows
  have hq : w.pairing.Within
      { w.pairing with blocks := Next w.pairing.blocks s.blocks.size t.blocks.size } :=
    { Pairing.Within.refl w.pairing with blocks := hg.old }
  refine ⟨w.grow _, le_grow hq, { h with
    places := h.places.addBlock hg (h.blocks.ordered_next h.places.ordered)
      ⟨.nil, optional_imp (fun _ _ => hg.old) hab⟩
    tied := { h.tied.widen hq (.refl _) rfl rfl rfl with }
    blocks := h.blocks.push rfl rfl _ _ }, next_last _ _ _⟩

theorem newEvaluation {sc sc' : Scope Value} (maxDepth : Nat)
    (hsc : Scope.Alike w.pairing (Value.Alike w.pairing) sc sc') : ∃ w', w.Le w' ∧
    w'.Holds { s with evaluations := s.evaluations.push ⟨sc, 0, maxDepth⟩ }
      { t with evaluations := t.evaluations.push ⟨sc', 0, maxDepth⟩ } ∧
    w'.pairing.evaluations s.evaluations.size t.evaluations.size := by
  have hg := h.evaluations.grows
  have hq : w.pairing.Within { w.pairing with
      evaluations := Next w.pairing.evaluations s.evaluations.size t.evaluations.size } :=
    { Pairing.Within.refl w.pairing with evaluations := hg.old }
  refine ⟨w.grow _, le_grow hq, { h with
    places := h.places.addEvaluation hg h.evaluations.next.unique
      ⟨hsc.mono (fun _ _ hv => hv.mono hq) hq, rfl, rfl⟩
    tied := { h.tied.widen hq (.refl _) rfl rfl rfl with }
    evaluations := h.evaluations.push rfl rfl _ _ }, next_last _ _ _⟩

theorem newExecution {sc sc' : Scope Native} (maxDepth : Nat)
    (hsc : Scope.Alike w.pairing (Native.Alike w.pairing) sc sc') : ∃ w', w.Le w' ∧
    w'.Holds { s with executions := s.executions.push ⟨sc, [], 0, maxDepth⟩ }
      { t with executions := t.executions.push ⟨sc', [], 0, maxDepth⟩ } ∧
    w'.pairing.executions s.executions.size t.executions.size := by
  have hg := h.executions.grows
  have hq : w.pairing.Within { w.pairing with
      executions := Next w.pairing.executions s.executions.size t.executions.size } :=
    { Pairing.Within.refl w.pairing with executions := hg.old }
  refine ⟨w.grow _, le_grow hq, { h with
    places := h.places.addExecution hg h.executions.next.unique
      ⟨⟨hsc.mono (fun _ _ hv => hv.mono hq) hq, .nil⟩, rfl, rfl⟩
    tied := { h.tied.widen hq (.refl _) rfl rfl rfl with }
    executions := h.executions.push rfl rfl _ _ }, next_last _ _ _⟩

theorem newThunk {x y : Work} (hxy : Work.Alike w.pairing x y) : ∃ w', w.Le w' ∧
    w'.Holds (s.addThunk x) (t.addThunk y) ∧ w'.pairing.thunks s.thunks.size t.thunks.size := by
  have hg := h.thunks.grows
  have hq : w.pairing.Within
      { w.pairing with thunks := Next w.pairing.thunks s.thunks.size t.thunks.size } :=
    { Pairing.Within.refl w.pairing with thunks := hg.old }
  refine ⟨w.grow _, le_grow hq, { h with
    places := { h.places.widen hq rfl rfl rfl rfl rfl h.idents.unique with }
    tied :=
      { thunks := fun hab => Store.Matches.rel_push (hg.both hab)
          (fun ha => optional_imp (Thunk.Alike.mono hq) (h.tied.thunks (hg.only hab ha)))
          (.pending (hxy.mono hq))
        sessions := fun hab => optional_imp (fun _ _ hσ => hσ.mono hq (.refl _)) (h.tied.sessions hab)
        modules := fun hab => optional_imp (Modules.Alike.mono hq) (h.tied.modules hab) }
    thunks := h.thunks.push rfl rfl _ _ }, next_last _ _ _⟩

theorem addSession {σ σ' : Session} (hσ : σ.Tied w.pairing w.ties σ') : ∃ w', w.Le w' ∧
    w'.Holds (s.addSession σ) (t.addSession σ') ∧
    w'.pairing.sessions s.sessions.size t.sessions.size := by
  have hg := h.sessions.grows
  have hq : w.pairing.Within
      { w.pairing with sessions := Next w.pairing.sessions s.sessions.size t.sessions.size } :=
    { Pairing.Within.refl w.pairing with sessions := hg.old }
  refine ⟨w.grow _, le_grow hq, { h with
    places := { h.places.widen hq rfl rfl rfl rfl rfl h.idents.unique with }
    tied :=
      { thunks := fun hab => optional_imp (Thunk.Alike.mono hq) (h.tied.thunks hab)
        sessions := fun hab => Store.Matches.rel_push (hg.both hab)
          (fun ha => optional_imp (fun _ _ hσ => hσ.mono hq (.refl _))
            (h.tied.sessions (hg.only hab ha)))
          (hσ.mono hq (.refl _))
        modules := fun hab => optional_imp (Modules.Alike.mono hq) (h.tied.modules hab) }
    sessions := h.sessions.push rfl rfl _ _ }, next_last _ _ _⟩

/-! ### What is changed -/

theorem settle {a b : Nat} (hab : w.pairing.thunks a b) {v v' : Value}
    (hv : Value.Alike w.pairing v v') : w.Holds (s.settle a v) (t.settle b v') := by
  refine { h with
    places := { h.places with }
    tied := { h.tied with thunks := fun {c d} hcd => ?_ }
    thunks := by simpa [Store.settle] using h.thunks }
  have hold := h.tied.thunks hcd
  have hiff := h.thunks.unique hab hcd
  have hlt := h.thunks.lt hab
  unfold Store.settle
  rw [Array.set!_eq_setIfInBounds, Array.set!_eq_setIfInBounds, Array.getElem?_setIfInBounds,
    Array.getElem?_setIfInBounds]
  by_cases hc : a = c
  · rw [if_pos hc, if_pos (hiff.1 hc), if_pos hlt.1, if_pos hlt.2]
    exact .some (.done hv)
  · rw [if_neg hc, if_neg (mt hiff.2 hc)]
    exact hold

theorem changeSession {a b : Nat} (hab : w.pairing.sessions a b) {f g : Session → Session}
    (hfg : ∀ σ σ', σ.Tied w.pairing w.ties σ' → (f σ).Tied w.pairing w.ties (g σ')) :
    w.Holds (s.changeSession a f) (t.changeSession b g) :=
  { h with
    places := { h.places with }
    tied := { h.tied with
      sessions := fun hcd =>
        Store.Matches.rel_modify (h.sessions.unique hab hcd) (h.tied.sessions hcd) hfg }
    sessions := h.sessions.modify rfl rfl }

theorem changeModules {a b : Nat} (hab : w.modules a b) {f g : Modules → Modules}
    (hfg : ∀ m m' : Modules, m.Alike w.pairing m' → (f m).Alike w.pairing (g m')) :
    w.Holds (s.changeModules a f) (t.changeModules b g) :=
  { h with
    places := { h.places with }
    tied := { h.tied with
      modules := fun hcd =>
        Store.Matches.rel_modify (h.modules.unique hab hcd) (h.tied.modules hcd) hfg }
    modules := h.modules.modify rfl rfl }

theorem modifyArray {a b : Nat} {f g : Container (Array Native) → Container (Array Native)}
    (hab : w.pairing.arrays a b)
    (hfg : ∀ c d, w.pairing.array c d → w.pairing.array (f c) (g d)) :
    w.Holds (s.modifyArray a f) (t.modifyArray b g) :=
  { h with
    places := h.places.modifyArray hab hfg
    tied := { h.tied with }
    arrays := h.arrays.modify rfl rfl }

theorem modifyObject {a b : Nat} {f g : Container Fields → Container Fields}
    (hab : w.pairing.objects a b)
    (hfg : ∀ c d, w.pairing.object c d → w.pairing.object (f c) (g d)) :
    w.Holds (s.modifyObject a f) (t.modifyObject b g) :=
  { h with
    places := h.places.modifyObject hab hfg
    tied := { h.tied with }
    objects := h.objects.modify rfl rfl }

theorem freeze {v v' : Native} (hv : Native.Alike w.pairing v v') :
    w.Holds (s.freeze v) (t.freeze v') := by
  have hplaces := h.places.freeze hv
  obtain ⟨arrays, objects, hs, hsa, hso⟩ := s.freeze_run v
  obtain ⟨arrays', objects', ht, hta, hto⟩ := t.freeze_run v'
  rw [hs, ht] at hplaces ⊢
  exact { h with
    places := hplaces
    tied := { h.tied with }
    arrays := by rw [hsa, hta]; exact h.arrays
    objects := by rw [hso, hto]; exact h.objects }

theorem setVariable {a b : Nat} (hab : w.pairing.blocks a b) (name : String) {v v' : Variable}
    (hv : Variable.Alike w.pairing v v') :
    w.Holds (s.setVariable a name v) (t.setVariable b name v') :=
  { h with
    places := h.places.setVariable hab name hv
    tied := { h.tied with }
    blocks := h.blocks.modify rfl rfl }

theorem remember {a b : Nat} (hab : w.pairing.executions a b) (name : String) {v v' : Native}
    (hv : Native.Alike w.pairing v v') :
    w.Holds
      { s with executions := s.executions.modify a fun e => { e with known := (name, v) :: e.known } }
      { t with executions := t.executions.modify b fun e => { e with known := (name, v') :: e.known } } :=
  { h with
    places := h.places.remember hab name hv
    tied := { h.tied with }
    executions := h.executions.modify rfl rfl }

theorem countCalls {a b : Nat} (hab : w.pairing.evaluations a b) (f : Nat → Nat) :
    w.Holds (s.countCalls a f) (t.countCalls b f) :=
  { h with
    places := h.places.countCalls hab f
    tied := { h.tied with }
    evaluations := h.evaluations.modify rfl rfl }

theorem countScriptCalls {a b : Nat} (hab : w.pairing.executions a b) (f : Nat → Nat) :
    w.Holds (s.countScriptCalls a f) (t.countScriptCalls b f) :=
  { h with
    places := h.places.countScriptCalls hab f
    tied := { h.tied with }
    executions := h.executions.modify rfl rfl }

end Holds

/-! ### The coupling -/

/-- The coupling of twins. -/
def coupling : Coupling where
  left := .nothing
  right := .nothing
  World := Twins
  le := Le
  le_refl := .refl
  le_trans := .trans
  pairing := pairing
  within h := h.pairing
  Inv := Holds
  alike h := h.places.reads
  freshId h := h.freshId
  newArray h hxs := h.newArray hxs
  newObject h hfs := h.newObject hfs
  arrayFrozen h hab := h.places.arrayFrozen hab
  objectFrozen h hab := h.places.objectFrozen hab
  modifyArray h hab _ hfg _ := h.modifyArray hab hfg
  modifyObject h hab _ hfg _ := h.modifyObject hab hfg
  freeze h hv := ⟨_, .refl _, h.freeze hv⟩
  newBlock h hab := h.newBlock hab
  setVariable name h hab hv := h.setVariable hab name hv
  remember name h hab hv := h.remember hab name hv
  log _ h := { h with places := { h.places with }, tied := { h.tied with } }
  newEvaluation maxDepth h hsc := h.newEvaluation maxDepth hsc
  newExecution maxDepth h hsc := h.newExecution maxDepth hsc
  busy h hab := h.places.busy hab
  scriptBusy h hab := h.places.scriptBusy hab
  countCalls f h hab := h.countCalls hab f
  countScriptCalls f h hab := h.countScriptCalls hab f
  session? h hab := optional_imp (fun _ _ hσ => hσ.toAlike)
    (SessionSimulation.filter_alike (fun _ _ hσ => hσ.alive) (h.tied.sessions hab))

/-- Two runs that correspond from twins on. -/
abbrev Rel (w : Twins) {α : Type} (x y : Run α) (R : Twins → α → α → Prop) : Prop :=
  coupling.Rel w x y R

/-! ### Sessions -/

section

variable {α : Type} {R : Twins → α → α → Prop}

/-- Changes of both stores. -/
theorem rel_modifyGet {f g : Store → α × Store}
    (h : ∀ s t, w.Holds s t →
      ∃ w', w.Le w' ∧ w'.Holds (f s).2 (g t).2 ∧ R w' (f s).1 (g t).1) :
    w.Rel (modifyGet f) (modifyGet g) R :=
  ⟨fun s t hi => h s t hi⟩

theorem rel_changeSession {a b : Nat} (hab : w.pairing.sessions a b) {f g : Session → Session}
    (hfg : ∀ σ σ', σ.Tied w.pairing w.ties σ' → (f σ).Tied w.pairing w.ties (g σ')) :
    w.Rel (Run.changeSession a f) (Run.changeSession b g) fun _ _ _ => True :=
  Coupling.rel_modify fun _ _ h => h.changeSession hab hfg

theorem rel_changeModules {a b : Nat} (hab : w.modules a b) {f g : Modules → Modules}
    (hfg : ∀ m m' : Modules, m.Alike w.pairing m' → (f m).Alike w.pairing (g m')) :
    w.Rel (Run.changeModules a f) (Run.changeModules b g) fun _ _ _ => True :=
  Coupling.rel_modify fun _ _ h => h.changeModules hab hfg

end

/-- Scripts are compiled to what they were compiled to earlier, if they were. -/
theorem compiled_run (place : Nat) {σ : Session} (hσ : σ.scripts.Valid) (source : Source) :
    ∃ f : Script.Cache → Script.Cache, (∀ c, c.Valid → (f c).Valid) ∧
      ∀ s, Engine.compiled place σ source s = .ok (Script.compile source)
        (s.changeSession place fun σ => { σ with scripts := f σ.scripts }) := by
  unfold Engine.compiled
  cases hfind : σ.scripts.find? source.text with
  | some p =>
    refine ⟨id, fun _ => id, fun s => ?_⟩
    rw [hσ.compile_eq hfind]
    exact congrArg (EStateM.Result.ok (Except.ok p)) (s.changeSession_id place).symm
  | none =>
    cases hp : Script.compile source with
    | error ps =>
      exact ⟨id, fun _ => id, fun s =>
        congrArg (EStateM.Result.ok (Except.error ps)) (s.changeSession_id place).symm⟩
    | ok p => exact ⟨(·.insert source.text p), fun _ hc => hc.insert hp, fun _ => rfl⟩

theorem rel_compiled {a b : Nat} (hab : w.pairing.sessions a b) {σ σ' : Session}
    (hσ : σ.Tied w.pairing w.ties σ') (source : Source) :
    w.Rel (Engine.compiled a σ source) (Engine.compiled b σ' source) fun _ x y => x = y := by
  obtain ⟨f, hf, hrun⟩ := compiled_run a hσ.scripts.1 source
  obtain ⟨g, hg, hrun'⟩ := compiled_run b hσ.scripts.2 source
  refine ⟨fun s t hi => ?_⟩
  rw [hrun, hrun']
  exact ⟨w, .refl w, hi.changeSession hab fun _ _ hτ =>
    { hτ with scripts := ⟨hf _ hτ.scripts.1, hg _ hτ.scripts.2⟩ }, rfl⟩

/-- The simulation of twins. -/
def simulation : SessionSimulation where
  toSimulation := coupling.simulation
  ties := ties
  ties_within h := h.ties
  born w := w.pairing.sessions
  born_mono h hab := h.pairing.sessions hab
  born_sessions h := h
  settings := by
    rintro w o _ rfl
    exact ⟨rfl, rfl⟩
  empty _ := ⟨Script.Cache.valid_empty _, Script.Cache.valid_empty _⟩
  unused := trivial
  count _ _ := trivial
  look h := ⟨fun s t hi => (h s t hi.tied).ends s t hi⟩
  newThunk hxy := rel_modifyGet fun _ _ h =>
    have ⟨w', hw, hi, hab⟩ := h.newThunk hxy
    ⟨w', hw, hi, .lazy hab⟩
  settle hab hv := Coupling.rel_modify fun _ _ h => h.settle hab hv
  changeSession hab hfg _ _ := rel_changeSession hab hfg
  addSession hσ _ _ := rel_modifyGet fun _ _ h => h.addSession hσ
  release hab := rel_changeSession hab fun _ _ hσ => { hσ with alive := rfl }
  keepModule specifier hab hcd := rel_changeModules hab fun _ _ hm =>
    { hm with loaded := Keyed.put_alike hm.loaded specifier hcd }
  compiled source hab hσ := rel_compiled hab hσ source

theorem catches : simulation.Catches :=
  fun hx => Coupling.rel_outcome (fun _ h => h) (fun _ h => h) hx

theorem executes : simulation.Executes := by
  intro w a b x y key hab _ hxy
  refine Coupling.rel_bind (rel_changeSession hab fun _ _ hσ =>
    { hσ with inFlight := congrArg (key :: ·) hσ.inFlight }) fun w₁ h₁ _ _ _ => ?_
  refine Coupling.rel_bind (hxy w₁ h₁.pairing h₁.ties) fun w₂ h₂ o o' ho => ?_
  refine Coupling.rel_bind (SessionSimulation.rel_newResult (S := simulation) ho)
    fun w₃ h₃ r r' hr => ?_
  have hab₃ := (h₁.trans (h₂.trans h₃)).pairing.sessions hab
  refine Coupling.rel_bind (rel_changeSession hab₃ fun _ _ hσ =>
    { hσ with
      inFlight := congrArg (·.erase key) hσ.inFlight
      results := .cons (.mk key hr) hσ.results }) fun w₄ h₄ _ _ _ => ?_
  exact Coupling.rel_pure (.some (Result.Alike.mono hr h₄.pairing))

theorem loads : simulation.Loads := by
  intro w a b x y specifier hab _ hxy
  refine Coupling.rel_bind (rel_changeModules hab fun _ _ hm =>
    { hm with loading := congrArg (specifier :: ·) hm.loading }) fun w₁ h₁ _ _ _ => ?_
  refine Coupling.rel_bind (hxy w₁ h₁.pairing) fun w₂ h₂ v v' hv => ?_
  refine Coupling.rel_bind (rel_changeModules ((h₁.trans h₂).modules hab) fun _ _ hm =>
    { hm with loading := congrArg (·.erase specifier) hm.loading }) fun w₃ h₃ _ _ _ => ?_
  exact Coupling.rel_pure (hv.mono h₃.pairing)

/-- Every engine answers alike requests alike in twins. -/
theorem serves (fuel : Nat) : simulation.Serves (Engine.ofFuel fuel) (Engine.ofFuel fuel) :=
  SessionSimulation.serves coupling.thorough catches executes loads (.inl rfl)

end Twins
end Workbook
