/-
An expression that is written anew.

Two workbooks may have the same folders and expressions, and the same texts but for one.  A
`Revision` says that a session over the first of them stands at a place of a store, and what its
store would be over the second one.  Two runs, the second of which starts in the revised store,
are compared up to the point where the execution of that expression begins: `Rel` says that they
end alike unless the first one gets there.  The first run cannot undo that, so the rules for
sequences go through although nothing is known of the second run from there on.
-/
import Workbook.Proofs.Accord
import Workbook.Proofs.Coupling.Depth
import Workbook.Proofs.Session.Query

open List (Forall₂)

namespace Workbook

/-! ## Workbooks that agree but for one text -/

/-- Two expressions that are the same, except that those of one key may differ in their
languages. -/
structure Outline.Expression.AgreesBut (key : String) (x y : Outline.Expression) : Prop where
  same : y = { x with language := y.language }
  other : x.key ≠ key → y = x

/-- Two outlines with the same folders, and with the same expressions except for the language of
one. -/
structure Outline.AgreesBut (key : String) (o o' : Outline) : Prop where
  folders : o'.folders = o.folders
  expressions : Forall₂ (Expression.AgreesBut key) o.expressions o'.expressions

/-- Two workbooks with the same folders and expressions, which differ in nothing but the text or
the language of one expression. -/
structure Tree.AgreesBut (key : String) (t t' : Tree) : Prop where
  outline : (Outline.ofTree t).AgreesBut key (.ofTree t')
  text : ∀ x ∈ (Outline.ofTree t).expressions, x.key ≠ key → t'.text x.segments = t.text x.segments

namespace Outline.Expression.AgreesBut

variable {key : String} {x y : Outline.Expression} (h : x.AgreesBut key y)
include h

theorem key_eq : y.key = x.key := by rw [h.same]

theorem name_eq : y.name = x.name := by rw [h.same]

theorem path_eq : y.path = x.path := by
  rw [h.same]
  rfl

theorem parent_eq : y.parent = x.parent := by rw [h.same]

end Outline.Expression.AgreesBut

/-- Filtering by what related items agree in. -/
theorem filter_forall₂ {α β : Type} {R : α → β → Prop} {p : α → Bool} {q : β → Bool}
    (hpq : ∀ a b, R a b → p a = q b) {as : List α} {bs : List β} (h : Forall₂ R as bs) :
    Forall₂ R (as.filter p) (bs.filter q) := by
  induction h with
  | nil => exact .nil
  | cons hab _ ih =>
    rw [List.filter_cons, List.filter_cons, hpq _ _ hab]
    split
    · exact .cons hab ih
    · exact ih

namespace Outline.AgreesBut

variable {key : String} {o o' : Outline}

theorem refl (key : String) (o : Outline) : o.AgreesBut key o :=
  ⟨rfl, List.forall₂_same.2 fun _ _ => ⟨rfl, fun _ => rfl⟩⟩

variable (h : o.AgreesBut key o')
include h

theorem folder? (k : String) : o'.folder? k = o.folder? k := by
  unfold Outline.folder?
  rw [h.folders]

theorem childFolders (k : String) : o'.childFolders k = o.childFolders k := by
  unfold Outline.childFolders
  rw [h.folders]

theorem expression? (k : String) :
    Option.Rel (Expression.AgreesBut key) (o.expression? k) (o'.expression? k) := by
  have hxs := h.expressions
  unfold Outline.expression?
  generalize o.expressions = xs at hxs ⊢
  generalize o'.expressions = ys at hxs ⊢
  induction hxs with
  | nil => exact .none
  | cons hx _ ih =>
    rw [List.find?_cons, List.find?_cons, hx.key_eq]
    split
    · exact .some hx
    · exact ih

theorem isSome_expression? (k : String) :
    (o'.expression? k).isSome = (o.expression? k).isSome :=
  (optional_isSome (h.expression? k)).symm

/-- Under every other key there is the very same expression. -/
theorem expression?_of_ne {k : String} (hk : k ≠ key) : o'.expression? k = o.expression? k := by
  have hrel := h.expression? k
  have hkey : ∀ x, o.expression? k = some x → x.key = k := fun x hx => by
    simpa using List.find?_some hx
  generalize o.expression? k = a at hrel hkey ⊢
  generalize o'.expression? k = b at hrel ⊢
  cases hrel with
  | none => rfl
  | @some x y hxy => rw [hxy.other (hkey x rfl ▸ hk)]

theorem childExpressions (k : String) :
    Forall₂ (Expression.AgreesBut key) (o.childExpressions k) (o'.childExpressions k) :=
  filter_forall₂ (fun _ _ hx => by rw [hx.parent_eq]) h.expressions

theorem enclosing (fuel : Nat) (folder : String) :
    o'.enclosing fuel folder = o.enclosing fuel folder := by
  induction fuel generalizing folder with
  | zero => rfl
  | succ fuel ih =>
    unfold Outline.enclosing
    rw [h.folder?]
    cases (o.folder? folder).bind Folder.parent with
    | none => rfl
    | some outer => exact congrArg (folder :: ·) (ih outer)

theorem placeIn? (folder name : String) : o'.placeIn? folder name = o.placeIn? folder name := by
  unfold Outline.placeIn?
  simp only [h.isSome_expression?, h.folder?]

/-- A name means the same. -/
theorem place? : o'.place? = o.place? := by
  funext folder name
  unfold Outline.place?
  rw [h.folders, h.enclosing]
  simp only [h.placeIn?]

end Outline.AgreesBut

/-! ## Where runs end -/

/-- The session over another workbook, which has another outline. -/
def Session.over (t : Tree) (o : Outline) (σ : Session) : Session :=
  { σ with tree := t, outline := o }

/-- An end of a run, in another store. -/
def Run.moved {α : Type} (f : Store → Store) :
    EStateM.Result Stop Store α → EStateM.Result Stop Store α
  | .ok a s => .ok a (f s)
  | .error e s => .error e (f s)

namespace Run

variable {α : Type} {x : Run α}

/-- A run that neither reads nor changes any session. -/
def Quiet (x : Run α) : Prop :=
  ∀ (s : Store) (ss : Array Session),
    x { s with sessions := ss } = moved (fun t => { t with sessions := ss }) (x s)

theorem Quiet.sessions (h : Quiet x) (s : Store) : (x.last s).sessions = s.sessions := by
  have hs : x s = moved (fun t => { t with sessions := s.sessions }) (x s) := h s s.sessions
  unfold last
  generalize x s = r at hs
  cases r with
  | ok a t =>
    have hs := (EStateM.Result.ok.inj hs).2
    rw [hs]
  | error e t =>
    have hs := (EStateM.Result.error.inj hs).2
    rw [hs]

end Run

/-! ## Revisions -/

/-- A session over the first of two workbooks that agree but for one expression. -/
structure Revision where
  place : Nat
  key : String
  before : Tree
  after : Tree
  agrees : before.AgreesBut key after

namespace Revision

variable (v : Revision)

/-- The session over the second workbook. -/
def session : Session → Session :=
  Session.over v.after (.ofTree v.after)

/-- The store with the session over the second workbook. -/
def store (s : Store) : Store :=
  s.changeSession v.place v.session

/-- The session is there, over the first workbook. -/
def There (s : Store) : Prop :=
  ∃ σ, s.sessions[v.place]? = some σ ∧ σ.tree = v.before ∧ σ.outline = .ofTree v.before

/-- The execution of the expression has begun. -/
def Reached (s : Store) : Prop :=
  v.key ∈ s.begun v.place

/-- What is so of an earlier store is so of a later one. -/
structure Onward (s s' : Store) : Prop where
  there : v.There s → v.There s'
  reached : v.Reached s → v.Reached s'

variable {v}

namespace Onward

variable {s t u : Store}

theorem refl (s : Store) : v.Onward s s :=
  ⟨id, id⟩

theorem trans (h : v.Onward s t) (h' : v.Onward t u) : v.Onward s u :=
  ⟨fun hs => h'.there (h.there hs), fun hs => h'.reached (h.reached hs)⟩

theorem of_sessions (h : t.sessions = s.sessions) : v.Onward s t := by
  refine ⟨?_, ?_⟩
  · unfold There
    rw [h]
    exact id
  · unfold Reached Store.begun
    rw [h]
    exact id

end Onward

/-- A change of sessions that has nothing to do with their workbooks. -/
def Apart (f : Session → Session) : Prop :=
  ∀ (t : Tree) (o : Outline) (σ : Session), f (σ.over t o) = (f σ).over t o

theorem Apart.tree {f : Session → Session} (h : Apart f) (σ : Session) : (f σ).tree = σ.tree :=
  show (f (σ.over σ.tree σ.outline)).tree = σ.tree by rw [h]; rfl

theorem Apart.outline {f : Session → Session} (h : Apart f) (σ : Session) :
    (f σ).outline = σ.outline :=
  show (f (σ.over σ.tree σ.outline)).outline = σ.outline by rw [h]; rfl

theorem onward_changeSession {f : Session → Session} (hf : Apart f)
    (hbegun : ∀ σ, σ.begun ⊆ (f σ).begun) (place : Nat) (s : Store) :
    v.Onward s (s.changeSession place f) := by
  refine ⟨?_, ?_⟩
  · rintro ⟨σ, hσ, htree, houtline⟩
    unfold There Store.changeSession
    rw [Array.getElem?_modify, hσ]
    split
    · exact ⟨f σ, rfl, (hf.tree σ).trans htree, (hf.outline σ).trans houtline⟩
    · exact ⟨σ, rfl, htree, houtline⟩
  · unfold Reached Store.begun Store.changeSession
    rw [Array.getElem?_modify]
    cases s.sessions[v.place]? with
    | none => simp
    | some σ =>
      split
      · exact fun h => hbegun σ h
      · exact id

theorem modify_comm {α : Type} {f g : α → α} (h : ∀ a, f (g a) = g (f a)) (as : Array α)
    (i j : Nat) : (as.modify i f).modify j g = (as.modify j g).modify i f := by
  apply Array.ext_getElem?
  intro k
  simp only [Array.getElem?_modify]
  cases as[k]? with
  | none => simp
  | some a => by_cases hi : i = k <;> by_cases hj : j = k <;> simp [hi, hj, h]

/-- Changes that have nothing to do with workbooks go with the revision. -/
theorem store_changeSession {f : Session → Session} (hf : Apart f) (place : Nat) (s : Store) :
    v.store (s.changeSession place f) = (v.store s).changeSession place f := by
  unfold store Store.changeSession
  simp only
  rw [modify_comm (g := v.session) fun σ => hf v.after (.ofTree v.after) σ]

theorem store_eq (s : Store) :
    v.store s = { s with sessions := s.sessions.modify v.place v.session } :=
  rfl

theorem There.lt {s : Store} (h : v.There s) : v.place < s.sessions.size := by
  obtain ⟨σ, hσ, -⟩ := h
  exact (Array.getElem?_eq_some_iff.1 hσ).1

/-! ## What sessions have in common -/

/-- Two sessions at a place, the second one in the revised store. -/
structure Pairs (v : Revision) (place : Nat) (σ σ' : Session) : Prop where
  same : σ' = σ.over σ'.tree σ'.outline
  outline : σ.outline.AgreesBut v.key σ'.outline
  expression? : ∀ k, ¬ (place = v.place ∧ k = v.key) →
    σ'.outline.expression? k = σ.outline.expression? k
  text : ∀ x ∈ σ.outline.expressions, ¬ (place = v.place ∧ x.key = v.key) →
    σ'.sourceText x = σ.sourceText x

theorem pairs_self (place : Nat) (σ : Session) : v.Pairs place σ σ :=
  ⟨rfl, .refl _ _, fun _ _ => rfl, fun _ _ _ => rfl⟩

theorem pairs_session {σ : Session} (htree : σ.tree = v.before)
    (houtline : σ.outline = .ofTree v.before) : v.Pairs v.place σ (v.session σ) where
  same := rfl
  outline := houtline ▸ v.agrees.outline
  expression? k hk := by
    show (Outline.ofTree v.after).expression? k = _
    rw [houtline]
    exact v.agrees.outline.expression?_of_ne fun h => hk ⟨rfl, h⟩
  text x hx hk := by
    have htext := v.agrees.text x (houtline ▸ hx) fun h => hk ⟨rfl, h⟩
    unfold Session.sourceText
    rw [htree, ← htext]
    rfl

/-- What stands at one place of a store and the revised one. -/
theorem There.pairs {s : Store} (h : v.There s) (place : Nat) :
    Option.Rel (v.Pairs place) s.sessions[place]? (v.store s).sessions[place]? := by
  obtain ⟨σ, hσ, htree, houtline⟩ := h
  unfold store Store.changeSession
  rw [Array.getElem?_modify]
  by_cases hp : v.place = place
  · subst hp
    rw [if_pos rfl, hσ]
    exact .some (pairs_session htree houtline)
  · rw [if_neg hp]
    cases s.sessions[place]? with
    | none => exact .none
    | some τ => exact .some (pairs_self place τ)

namespace Pairs

variable {place : Nat} {σ σ' : Session} (h : v.Pairs place σ σ')
include h

theorem alive : σ.alive = σ'.alive := by
  rw [h.same]
  rfl

theorem results : σ'.results = σ.results := by
  rw [h.same]
  rfl

theorem inFlight : σ'.inFlight = σ.inFlight := by
  rw [h.same]
  rfl

theorem folderValues : σ'.folderValues = σ.folderValues := by
  rw [h.same]
  rfl

theorem imports : σ'.imports = σ.imports := by
  rw [h.same]
  rfl

theorem alike : Session.Alike .same σ σ' where
  place := h.outline.place?.symm
  overrides := by
    rw [h.same]
    exact Value.locals_self _
  timeVariable := by
    rw [h.same]
    rfl
  time := by
    rw [h.same]
    rfl
  library := by
    rw [h.same]
    exact Value.alike_self _
  math := by
    rw [h.same]
    exact Value.alike_self _

end Pairs

/-- Programs cannot tell the stores apart. -/
theorem store_alike (s : Store) (ss : Array Session) :
    Store.Alike .same s { s with sessions := ss } := by
  have h : Store.Matches .same s { s with sessions := ss } :=
    { arrays := by
        rintro a _ rfl
        exact optional_refl (fun c => ⟨Native.forall_self _, rfl, rfl⟩) _
      objects := by
        rintro a _ rfl
        exact optional_refl (fun c => ⟨Store.fields_alike_self _, rfl, rfl⟩) _
      blocks := by
        rintro a _ rfl
        refine optional_refl (fun b => ⟨?_, optional_refl (fun (_ : Nat) => rfl) _⟩) _
        exact Keyed.forall_self Store.variable_alike_self _
      evaluations := by
        rintro a _ rfl
        exact optional_refl
          (fun e => ⟨Store.scope_alike_self Value.alike_self _, rfl, rfl⟩) _
      executions := by
        rintro a _ rfl
        exact optional_refl (fun e =>
          ⟨⟨Store.scope_alike_self Native.alike_self _, Store.fields_alike_self _⟩, rfl, rfl⟩) _
      ordered := by
        rintro a _ c _ rfl rfl
        exact Iff.rfl
      uniqueEvaluations := Pairing.unique_eq
      uniqueExecutions := Pairing.unique_eq
      oneToOne := Pairing.same_oneToOne }
  exact h.reads

/-! ## Two runs -/

/-- Two ends that are alike, the second one in the revised store. -/
def Matches (v : Revision) {α : Type} (R : α → α → Prop) :
    EStateM.Result Stop Store α → EStateM.Result Stop Store α → Prop
  | .ok a s, .ok b t => R a b ∧ t = v.store s
  | .error e s, .error e' t => e' = e ∧ t = v.store s
  | _, _ => False

/-- Two runs that end alike unless the first one begins the execution.  What the first one does
from there on is no longer compared, so it must be said of it alone that it goes on. -/
structure Rel (v : Revision) {α : Type} (x y : Run α) (R : α → α → Prop) : Prop where
  onward : ∀ s, v.There s → v.Onward s (x.last s)
  value : ∀ s a s', v.There s → x s = .ok a s' → ∃ b, R a b
  ends : ∀ s, v.There s → ¬ v.Reached (x.last s) → v.Matches R (x s) (y (v.store s))

/-- A run that is not changed by the revision. -/
abbrev Spares (v : Revision) {α : Type} (x : Run α) : Prop :=
  v.Rel x x Eq

section Rules

variable {α β : Type} {R R' : α → α → Prop} {T : β → β → Prop} {x y : Run α}

/-! ### Sequences -/

theorem rel_pure {a b : α} (h : R a b) : v.Rel (pure a) (pure b) R where
  onward s _ := .refl s
  value s a' s' _ hr := by
    cases hr
    exact ⟨b, h⟩
  ends _ _ _ := ⟨h, rfl⟩

theorem rel_throw (e : Stop) : v.Rel (throw e : Run α) (throw e) R where
  onward s _ := .refl s
  value _ _ _ _ hr := nomatch hr
  ends _ _ _ := ⟨rfl, rfl⟩

theorem rel_fail (c : Cause) : v.Rel (Run.fail c) (Run.fail c) R :=
  rel_throw _

/-- The second run goes on from where the first one has not begun the execution, for otherwise the
whole would have. -/
theorem Rel.bind {k l : α → Run β} (h : v.Rel x y R) (hk : ∀ a b, R a b → v.Rel (k a) (l b) T) :
    v.Rel (x >>= k) (y >>= l) T := by
  have honward := h.onward
  refine ⟨fun s hs => ?_, fun s c s'' hs hr => ?_, fun s hs hn => ?_⟩
  · cases hx : x s with
    | error e s' =>
      rw [Run.last_error (Run.bind_error hx), ← Run.last_error hx]
      exact honward s hs
    | ok a s' =>
      have hs' := honward s hs
      rw [Run.last_ok hx] at hs'
      obtain ⟨b, hab⟩ := h.value s a s' hs hx
      have hlast : (x >>= k).last s = (k a).last s' := by
        unfold Run.last
        rw [Run.bind_run hx]
      rw [hlast]
      exact hs'.trans ((hk a b hab).onward s' (hs'.there hs))
  · obtain ⟨a, s', hx, hka⟩ := Run.bind_eq_ok hr
    have hs' := honward s hs
    rw [Run.last_ok hx] at hs'
    obtain ⟨b, hab⟩ := h.value s a s' hs hx
    exact (hk a b hab).value s' c s'' (hs'.there hs) hka
  · cases hx : x s with
    | error e s' =>
      have hlast := Run.last_error (Run.bind_error (k := k) hx)
      have hxy := h.ends s hs
      rw [Run.last_error hx, hx] at hxy
      rw [hlast] at hn
      rw [Run.bind_error hx]
      cases hy : y (v.store s) with
      | ok b t =>
        rw [hy] at hxy
        exact (hxy hn).elim
      | error e' t =>
        rw [hy] at hxy
        rw [Run.bind_error hy]
        exact hxy hn
    | ok a s' =>
      have hs' := honward s hs
      rw [Run.last_ok hx] at hs'
      obtain ⟨b, hab⟩ := h.value s a s' hs hx
      have hlast : (x >>= k).last s = (k a).last s' := by
        unfold Run.last
        rw [Run.bind_run hx]
      rw [hlast] at hn
      have hreached : ¬ v.Reached s' := fun hr =>
        hn (((hk a b hab).onward s' (hs'.there hs)).reached hr)
      have hxy := h.ends s hs
      rw [Run.last_ok hx, hx] at hxy
      rw [Run.bind_run hx]
      cases hy : y (v.store s) with
      | error e' t =>
        rw [hy] at hxy
        exact (hxy hreached).elim
      | ok b' t =>
        rw [hy] at hxy
        obtain ⟨hab', rfl⟩ := hxy hreached
        rw [Run.bind_run hy]
        exact (hk a b' hab').ends s' (hs'.there hs) hn

theorem Rel.imp (h : v.Rel x y R) (hR : ∀ a b, R a b → R' a b) : v.Rel x y R' := by
  rw [← bind_pure x, ← bind_pure y]
  exact h.bind fun a b hab => rel_pure (hR a b hab)

theorem Spares.bind {k : α → Run β} (h : v.Spares x) (hk : ∀ a, v.Spares (k a)) :
    v.Spares (x >>= k) :=
  Rel.bind h fun a _ hab => hab ▸ hk a

/-- Reading the store. -/
theorem rel_look {k l : Store → Run α} (h : ∀ s, v.There s → v.Rel (k s) (l (v.store s)) R) :
    v.Rel (get >>= k) (get >>= l) R where
  onward s hs := (h s hs).onward s hs
  value s a s' hs hr := (h s hs).value s a s' hs hr
  ends s hs hn := (h s hs).ends s hs hn

/-- A run that begins the execution for sure may correspond to anything. -/
theorem Spares.rel_of_reached (h : v.Spares x) (hx : ∀ s, v.There s → v.Reached (x.last s)) :
    v.Rel x y Eq :=
  ⟨h.onward, h.value, fun s hs hn => absurd (hx s hs) hn⟩

/-! ### Quiet runs -/

/-- A run that has nothing to do with sessions is not changed. -/
theorem rel_quiet (h : x.Quiet) (hR : ∀ s a s', x s = .ok a s' → R a a) : v.Rel x x R where
  onward s _ := .of_sessions (h.sessions s)
  value s a s' _ hr := ⟨a, hR s a s' hr⟩
  ends s _ _ := by
    have hss : ∀ s', x.last s = s' →
        { s' with sessions := s.sessions.modify v.place v.session } = v.store s' := by
      rintro _ rfl
      rw [store_eq, h.sessions s]
    have hq := h s (s.sessions.modify v.place v.session)
    rw [store_eq, hq]
    cases hx : x s with
    | ok a s' => exact ⟨hR s a s' hx, hss s' (Run.last_ok hx)⟩
    | error e s' => exact ⟨rfl, hss s' (Run.last_error hx)⟩

theorem spares_quiet (h : x.Quiet) : v.Spares x :=
  rel_quiet h fun _ _ _ _ => rfl

/-! ### Failures -/

theorem Rel.mapFailure (f : Failure → Failure) (h : v.Rel x y R) :
    v.Rel (Run.mapFailure f x) (Run.mapFailure f y) R := by
  have hlast : ∀ s, (Run.mapFailure f x).last s = x.last s := by
    intro s
    unfold Run.last Run.mapFailure
    cases x s with
    | ok a s' => rfl
    | error e s' => cases e <;> rfl
  refine ⟨fun s hs => hlast s ▸ h.onward s hs, fun s a s' hs hr => ?_, fun s hs hn => ?_⟩
  · refine h.value s a s' hs ?_
    unfold Run.mapFailure at hr
    generalize x s = r at hr ⊢
    cases r with
    | ok b t => exact hr
    | error e t => cases e <;> cases hr
  · have hxy := h.ends s hs (hlast s ▸ hn)
    unfold Run.mapFailure
    generalize x s = r at hxy ⊢
    generalize y (v.store s) = r' at hxy ⊢
    match r, r', hxy with
    | .ok a s', .ok b t, hxy => exact hxy
    | .error (.failed e) s', .error (.failed _) t, ⟨rfl, ht⟩ => exact ⟨rfl, ht⟩
    | .error .exhausted s', .error .exhausted t, ⟨_, ht⟩ => exact ⟨rfl, ht⟩

/-- Failures are caught in both runs. -/
theorem Rel.outcome (h : v.Rel x y R) :
    v.Rel (Run.outcome x) (Run.outcome y) (ExceptAlike R) := by
  have hlast : ∀ s, (Run.outcome x).last s = x.last s := by
    intro s
    unfold Run.last Run.outcome
    cases x s with
    | ok a s' => rfl
    | error e s' => cases e <;> rfl
  refine ⟨fun s hs => hlast s ▸ h.onward s hs, fun s a s' hs hr => ?_, fun s hs hn => ?_⟩
  · have hvalue := h.value s
    unfold Run.outcome at hr
    generalize x s = r at hr hvalue
    match r, hr with
    | .ok b s₁, hr =>
      cases hr
      obtain ⟨c, hc⟩ := hvalue b _ hs rfl
      exact ⟨.ok c, .ok hc⟩
    | .error (.failed e) t, hr =>
      cases hr
      exact ⟨.error e, .error e⟩
    | .error .exhausted t, hr => cases hr
  · have hxy := h.ends s hs (hlast s ▸ hn)
    unfold Run.outcome
    generalize x s = r at hxy ⊢
    generalize y (v.store s) = r' at hxy ⊢
    match r, r', hxy with
    | .ok a s', .ok b t, ⟨hab, ht⟩ => exact ⟨.ok hab, ht⟩
    | .error (.failed e) s', .error (.failed _) t, ⟨rfl, ht⟩ => exact ⟨.error e, ht⟩
    | .error .exhausted s', .error .exhausted t, ⟨_, ht⟩ => exact ⟨rfl, ht⟩

/-- The same change of the store follows both runs, however they end. -/
theorem Rel.ensuring {f : Store → Store} (hf : Run.Quiet (modify f : Run PUnit)) (h : v.Rel x y R) :
    v.Rel (Run.ensuring x (modify f)) (Run.ensuring y (modify f)) R := by
  have hlast : ∀ s, (Run.ensuring x (modify f)).last s = f (x.last s) := by
    intro s
    unfold Run.last Run.ensuring
    cases x s <;> rfl
  have hsessions : ∀ s, (f s).sessions = s.sessions := hf.sessions
  have hstore : ∀ s, f (v.store s) = v.store (f s) := fun s => by
    have hs := (EStateM.Result.ok.inj (hf s (s.sessions.modify v.place v.session))).2
    refine hs.trans ?_
    rw [store_eq, hsessions]
  refine ⟨fun s hs => ?_, fun s a s' hs hr => ?_, fun s hs hn => ?_⟩
  · rw [hlast]
    exact (h.onward s hs).trans (.of_sessions (hsessions _))
  · have hvalue := h.value s
    unfold Run.ensuring at hr
    generalize x s = r at hr hvalue
    cases r with
    | ok b t =>
      cases hr
      exact hvalue a t hs rfl
    | error e t => cases hr
  · have hreached : ¬ v.Reached (x.last s) := fun hr => by
      rw [hlast] at hn
      exact hn ((Onward.of_sessions (hsessions _)).reached hr)
    have hxy := h.ends s hs hreached
    unfold Run.ensuring
    generalize x s = r at hxy ⊢
    generalize y (v.store s) = r' at hxy ⊢
    match r, r', hxy with
    | .ok a s', .ok b t, ⟨hab, ht⟩ => exact ⟨hab, ht ▸ hstore s'⟩
    | .error e s', .error _ t, ⟨rfl, ht⟩ => exact ⟨rfl, ht ▸ hstore s'⟩

/-- A call that is counted while it runs. -/
theorem rel_counted (busy : Store → Bool) (up down : Store → Store)
    (hbusy : ∀ (s : Store) ss, busy { s with sessions := ss } = busy s)
    (hup : Run.Quiet (modify up : Run PUnit)) (hdown : Run.Quiet (modify down : Run PUnit))
    (h : v.Rel x y R) :
    v.Rel
      (do
        if busy (← get) then Run.fail .tooManyCalls
        modify up
        Run.ensuring x (modify down))
      (do
        if busy (← get) then Run.fail .tooManyCalls
        modify up
        Run.ensuring y (modify down)) R := by
  have hcall : v.Rel (do modify up; Run.ensuring x (modify down))
      (do modify up; Run.ensuring y (modify down)) R :=
    Rel.bind (spares_quiet hup) fun _ _ _ => h.ensuring hdown
  refine rel_look fun s hs => ?_
  have hs' : busy (v.store s) = busy s := hbusy s _
  simp only [hs']
  split
  · exact Rel.bind (R := fun _ _ => True) (rel_fail _) fun _ _ _ => hcall
  · exact hcall

end Rules

/-! ## What programs do -/

theorem quiet_modifyGet {α : Type} {f : Store → α × Store}
    (h : ∀ (s : Store) ss, f { s with sessions := ss } =
      ((f s).1, { (f s).2 with sessions := ss })) : (modifyGet f : Run α).Quiet := by
  intro s ss
  show EStateM.Result.ok (f _).1 (f _).2 = _
  rw [h]
  rfl

theorem freezeOne_sessions (s : Store) (ss : Array Session) (v : Native) :
    Store.freezeOne { s with sessions := ss } v =
      ({ (s.freezeOne v).1 with sessions := ss }, (s.freezeOne v).2) := by
  cases v with
  | array place =>
    unfold Store.freezeOne
    simp only
    split
    · split <;> rfl
    · rfl
  | object place =>
    unfold Store.freezeOne
    simp only
    split
    · split <;> rfl
    · rfl
  | _ => rfl

theorem freezeAll_sessions (fuel : Nat) (s : Store) (ss : Array Session) (vs : List Native) :
    Store.freezeAll fuel { s with sessions := ss } vs =
      { Store.freezeAll fuel s vs with sessions := ss } := by
  induction fuel generalizing s vs with
  | zero => rfl
  | succ fuel ih =>
    unfold Store.freezeAll
    induction vs generalizing s with
    | nil => rfl
    | cons x vs ihv =>
      rw [List.foldl_cons, List.foldl_cons, ← ihv]
      simp only [freezeOne_sessions, ih]

theorem quiet_freeze (x : Native) : (Run.freeze x).Quiet :=
  quiet_modifyGet fun s ss => congrArg (Prod.mk _) (freezeAll_sessions _ s ss [x])

/-- Functions that depend on what programs see of a store, and rewrite arrays alike, are one and
the same function of everything but sessions. -/
theorem eq_of_rewrites {f g : Store → Except Cause (Array Native → Array Native)}
    (h : ∀ s t, Store.Alike .same s t → ExceptAlike
      (fun f g => ∀ xs ys : Array Native, Forall₂ (Native.Alike .same) xs.toList ys.toList →
        Forall₂ (Native.Alike .same) (f xs).toList (g ys).toList) (f s) (g t))
    (s : Store) (ss : Array Session) : f s = g { s with sessions := ss } := by
  refine ExceptAlike.eq_of_alike (fun f g hfg => funext fun xs => ?_) (h s _ (store_alike s ss))
  exact Array.toList_inj.1 (Native.eq_of_forall (hfg xs xs (Native.forall_self _)))

theorem quiet_rewriteItems {f : Store → Except Cause (Array Native → Array Native)}
    (hf : ∀ (s : Store) ss, f { s with sessions := ss } = f s) (place : Nat) :
    (Run.rewriteItems place f).Quiet := by
  intro s ss
  rw [Coupling.rewriteItems_run, Coupling.rewriteItems_run]
  show (if s.arrayFrozen place then _ else _) = _
  cases s.arrayFrozen place with
  | true => rfl
  | false =>
    simp only [Bool.false_eq_true, if_false]
    have hcounted := hf (s.modifyArray place .counted) ss
    generalize f (s.modifyArray place .counted) = r at hcounted ⊢
    change f (Store.modifyArray { s with sessions := ss } place .counted) = r at hcounted
    rw [hcounted]
    cases r <;> rfl

theorem quiet_modifyFields (f : Fields → Fields) (place : Nat) :
    (Run.modifyFields place f).Quiet := by
  intro s ss
  rw [Coupling.modifyFields_run, Coupling.modifyFields_run]
  show (if s.objectFrozen place then _ else _) = _
  cases s.objectFrozen place <;> rfl

/-- A revision goes with everything that programs do. -/
def simulation (v : Revision) : Simulation where
  World := Unit
  le _ _ := True
  le_refl _ := trivial
  le_trans _ _ := trivial
  pairing _ := .same
  within _ := .refl _
  Rel _ _ x y R := v.Rel x y (R ())
  pure := rel_pure
  bind h hk := Rel.bind h fun a b hab => hk () trivial a b hab
  get h := rel_look fun s _ => h s (v.store s) (store_alike s _)
  fail := rel_fail
  exhausted := rel_throw _
  Fuel := Eq
  fuel_succ := Nat.succ.inj
  fuel_left h := nomatch h
  fuel_right h := nomatch h
  behindCall h := h.mapFailure _
  freshId := spares_quiet (quiet_modifyGet fun _ _ => rfl)
  newArray h := by
    obtain rfl := Array.toList_inj.1 (Native.eq_of_forall h)
    exact rel_quiet (quiet_modifyGet fun _ _ => rfl) fun _ a _ _ => a.alike_self
  newObject h := by
    obtain rfl := Keyed.eq_of_forall (fun _ _ => Native.eq_of_alike) h
    exact rel_quiet (quiet_modifyGet fun _ _ => rfl) fun _ a _ _ => a.alike_self
  rewriteItems := by
    rintro _ a _ f g rfl h
    obtain rfl : f = g := funext fun s => eq_of_rewrites h s s.sessions
    exact rel_quiet (quiet_rewriteItems (fun s ss => (eq_of_rewrites h s ss).symm) a)
      fun _ _ _ _ => trivial
  modifyFields := by
    rintro _ a _ f g rfl h
    obtain rfl : f = g := funext fun fs =>
      Keyed.eq_of_forall (fun _ _ => Native.eq_of_alike) (h fs fs (Store.fields_alike_self fs))
    exact rel_quiet (quiet_modifyFields f a) fun _ _ _ _ => trivial
  freeze h := by
    obtain rfl := Native.eq_of_alike h
    exact rel_quiet (quiet_freeze _) fun _ _ _ _ => trivial
  newBlock h := by
    obtain rfl := optional_eq (fun _ _ h => h) h
    exact spares_quiet (quiet_modifyGet fun _ _ => rfl)
  remember := by
    rintro _ a _ x _ name rfl h
    obtain rfl := Native.eq_of_alike h
    exact rel_quiet (quiet_modifyGet fun _ _ => rfl) fun _ _ _ _ => trivial
  log _ _ := rel_quiet (quiet_modifyGet fun _ _ => rfl) fun _ _ _ _ => trivial
  newEvaluation maxDepth h := by
    obtain rfl := Scope.eq_of_alike (fun _ _ => Value.eq_of_alike) h
    exact spares_quiet (quiet_modifyGet fun _ _ => rfl)
  newExecution maxDepth h := by
    obtain rfl := Scope.eq_of_alike (fun _ _ => Native.eq_of_alike) h
    exact spares_quiet (quiet_modifyGet fun _ _ => rfl)
  session? := by
    rintro _ a _ rfl
    exact rel_look fun s hs => rel_pure <| optional_imp (fun _ _ (h : v.Pairs a _ _) => h.alike) <|
      SessionSimulation.filter_alike (fun _ _ h => h.alive) (hs.pairs a)

theorem thorough (v : Revision) : v.simulation.Thorough where
  mapFailure _ h := h.mapFailure _
  setVariable := by
    rintro _ a _ x _ name rfl h
    obtain rfl := Variable.eq_of_alike h
    exact rel_quiet (quiet_modifyGet fun _ _ => rfl) fun _ _ _ _ => trivial
  callWithin := by
    rintro _ a _ x y rfl h
    exact rel_counted (·.busy a) (·.countCalls a (· + 1)) (·.countCalls a (· - 1)) (fun _ _ => rfl)
      (quiet_modifyGet fun _ _ => rfl) (quiet_modifyGet fun _ _ => rfl) (h () trivial)
  callDuring := by
    rintro _ a _ x y rfl h
    exact rel_counted (·.scriptBusy a) (·.countScriptCalls a (· + 1))
      (·.countScriptCalls a (· - 1)) (fun _ _ => rfl) (quiet_modifyGet fun _ _ => rfl)
      (quiet_modifyGet fun _ _ => rfl) (h () trivial)

end Revision
end Workbook
