/-
What sessions hold to.

A `Custody` is a coupling of a store with itself that says, besides, what lazy entries are
made for, which values an expression may come to, and what is settled once a value has been
frozen.  It asks for one rule for every change that the engine makes for a session:
filling lazy entries, keeping folders and imports, starting sessions of modules.  Evaluating
an expression has no rule, since what it does to the results is what a property of sessions
is about; `serves` takes that as its one hypothesis and gives everything that an engine
does.

`Keeps w x R` is read: started in a store that holds to the custody in world `w`, the run `x`
ends in one, with a value that satisfies `R` in the world in which it ends.

The entries of a folder put its members off: making the mapping executes nothing, and adds one lazy
entry for each member to the store (`Engine.lazyEntries_run`).  `Outline.Lists` says of the entries of
a mapping that they are those of a folder, and what each of them was made for.
-/
import Workbook.Proofs.Coupling.Invariant

open List (Forall₂)

namespace Workbook

/-! ## The mapping of a folder -/

namespace Entries

/-- Entries for works whose thunks stand from a number on, added to others. -/
def lazyFrom (n : Nat) (out : Entries) : List (String × Work) → Entries
  | [] => out
  | (key, _) :: rest => lazyFrom (n + 1) (insert out key (.lazy n)) rest

theorem lazyFrom_append (n : Nat) (out : Entries) (ws vs : List (String × Work)) :
    lazyFrom n out (ws ++ vs) = lazyFrom (n + ws.length) (lazyFrom n out ws) vs := by
  induction ws generalizing n out with
  | nil => rfl
  | cons w ws ih =>
    rw [List.cons_append, lazyFrom, lazyFrom, ih, List.length_cons]
    congr 1
    omega

/-- What is among entries for works is the entry of a work, unless it was there before. -/
theorem mem_lazyFrom {n : Nat} {out : Entries} {ws : List (String × Work)} {e : String × Slot}
    (h : e ∈ lazyFrom n out ws) : e ∈ out ∨ ∃ i w, ws[i]? = some w ∧ e = (w.1, .lazy (n + i)) := by
  induction ws generalizing n out with
  | nil => exact .inl h
  | cons w ws ih =>
    rcases ih h with hout | ⟨i, v, hv, rfl⟩
    · unfold insert insert? at hout
      split at hout
      · exact .inl hout
      · rcases List.mem_append.1 hout with hout | hnew
        · exact .inl hout
        · exact .inr ⟨0, w, rfl, List.mem_singleton.1 hnew⟩
    · refine .inr ⟨i + 1, v, hv, ?_⟩
      rw [Nat.add_assoc, Nat.add_comm 1 i]

end Entries

/-- The members of a folder that its mapping has, with the work that each of them is. -/
def Outline.members (o : Outline) (place : Nat) (key : String) : List (String × Work) :=
  ((o.childExpressions key).filter fun x => !Engine.sentinels.contains (Text.lower x.name)).map
      (fun x => (x.name, .expression place x.key)) ++
    (o.childFolders key).map fun f => (f.name, .folder place f.key)

/-- The store with works put off. -/
def Store.postponing (s : Store) (works : List (String × Work)) : Store :=
  { s with thunks := s.thunks ++ (works.map fun w => Thunk.pending w.2).toArray }

namespace Store

theorem size_postponing (s : Store) (ws : List (String × Work)) :
    (s.postponing ws).thunks.size = s.thunks.size + ws.length := by
  simp [postponing]

theorem postponing_append (s : Store) (ws vs : List (String × Work)) :
    (s.postponing ws).postponing vs = s.postponing (ws ++ vs) := by
  simp [postponing]

/-- Where works are put off. -/
theorem getElem?_postponing (s : Store) (ws : List (String × Work)) (i : Nat) :
    (s.postponing ws).thunks[s.thunks.size + i]? = (ws[i]?).map fun w => .pending w.2 := by
  rw [postponing, Array.getElem?_append_right (Nat.le_add_right _ _), Nat.add_sub_cancel_left,
    List.getElem?_toArray, List.getElem?_map]

end Store

namespace Engine

theorem foldlM_newThunk {α : Type} (name : α → String) (work : α → Work) (as : List α)
    (out : Entries) (s : Store) :
    (as.foldlM (fun out a => do return Entries.insert out (name a) (← Run.newThunk (work a))) out :
        Run Entries) s =
      .ok (Entries.lazyFrom s.thunks.size out (as.map fun a => (name a, work a)))
        (s.postponing (as.map fun a => (name a, work a))) := by
  induction as generalizing out s with
  | nil => simp [Entries.lazyFrom, Store.postponing]; rfl
  | cons a as ih =>
    rw [List.foldlM_cons]
    have hstep : (do return Entries.insert out (name a) (← Run.newThunk (work a)) : Run Entries) s =
        .ok (Entries.insert out (name a) (.lazy s.thunks.size))
          (s.postponing [(name a, work a)]) := by
      simp [Store.postponing]
      rfl
    rw [Run.bind_run hstep, ih, Store.postponing_append, Store.size_postponing]
    rfl

/-- The entries of a folder put its members off, and nothing is executed for them. -/
theorem lazyEntries_run (place : Nat) (o : Outline) (key : String) (s : Store) :
    lazyEntries place o key s =
      .ok (Entries.lazyFrom s.thunks.size [] (o.members place key))
        (s.postponing (o.members place key)) := by
  unfold lazyEntries Outline.members
  rw [Run.bind_run (foldlM_newThunk (fun x : Outline.Expression => x.name)
    (fun x => .expression place x.key) _ [] s), foldlM_newThunk (fun f : Outline.Folder => f.name)
    (fun f => .folder place f.key), Store.postponing_append, Store.size_postponing,
    Entries.lazyFrom_append]

end Engine

/-- The mapping of a folder whose entries are put off from a number on. -/
def Outline.listing (o : Outline) (place : Nat) (key : String) (n : Nat) : Entries :=
  Entries.lazyFrom n [] (o.members place key)

/-- The entries are those of a folder, put off from a number on, and each is made for the work of its
member. -/
def Outline.Lists (o : Outline) (place : Nat) (key : String) (Made : Nat → Work → Prop)
    (es : Entries) : Prop :=
  ∃ n, es = o.listing place key n ∧
    ∀ (i : Nat) (w : String × Work), (o.members place key)[i]? = some w → Made (n + i) w.2

namespace Outline.Lists

variable {o : Outline} {place : Nat} {key : String} {P Q : Nat → Work → Prop} {es : Entries}

theorem imp (hPQ : ∀ t work, P t work → Q t work) (h : o.Lists place key P es) :
    o.Lists place key Q es := by
  obtain ⟨n, hes, hmade⟩ := h
  exact ⟨n, hes, fun i w hw => hPQ _ _ (hmade i w hw)⟩

/-- Each entry is lazy, and made for the expression or folder of its name. -/
theorem entry (h : o.Lists place key P es) {e : String × Slot} (he : e ∈ es) :
    ∃ t, e.2 = .lazy t ∧
      ((∃ x ∈ o.childExpressions key, x.name = e.1 ∧ P t (.expression place x.key)) ∨
        ∃ f ∈ o.childFolders key, f.name = e.1 ∧ P t (.folder place f.key)) := by
  obtain ⟨n, rfl, hmade⟩ := h
  obtain hnil | ⟨i, w, hw, rfl⟩ := Entries.mem_lazyFrom he
  · exact absurd hnil List.not_mem_nil
  · refine ⟨n + i, rfl, ?_⟩
    have hmem : w ∈ o.members place key := List.mem_of_getElem? hw
    have hmade := hmade i w hw
    obtain hmem | hmem := List.mem_append.1 hmem
    · obtain ⟨x, hx, rfl⟩ := List.mem_map.1 hmem
      exact .inl ⟨x, (List.mem_filter.1 hx).1, rfl, hmade⟩
    · obtain ⟨f, hf, rfl⟩ := List.mem_map.1 hmem
      exact .inr ⟨f, hf, rfl, hmade⟩

end Outline.Lists

/-! ## Runs -/

/-- The store in which a run ends, with a value or a failure. -/
inductive Run.EndsIn {α : Type} (x : Run α) (s : Store) : Store → Prop
  | value {a : α} {s' : Store} (h : x s = .ok a s') : EndsIn x s s'
  | failure {f : Failure} {s' : Store} (h : x s = .error (.failed f) s') : EndsIn x s s'

theorem Keyed.mem_of_lookup {α : Type} {es : List (String × α)} {key : String} {a : α}
    (h : es.lookup key = some a) : (key, a) ∈ es := by
  obtain ⟨l, l', rfl, -⟩ := List.lookup_eq_some_iff.1 h
  exact List.mem_append_right l List.mem_cons_self

theorem Keyed.lookup_of_not_mem {α : Type} {es : List (String × α)} {key : String}
    (h : key ∉ es.map (·.1)) : es.lookup key = none := by
  refine List.lookup_eq_none_iff.2 fun e he => ?_
  have hne : key ≠ e.1 := fun heq => h (heq ▸ List.mem_map_of_mem he)
  simpa using hne

/-- Where no key is twice, a key has the value of its entry. -/
theorem Keyed.lookup_of_mem {α : Type} {es : List (String × α)} (hd : (es.map (·.1)).Nodup)
    {key : String} {a : α} (h : (key, a) ∈ es) : es.lookup key = some a := by
  induction es with
  | nil => cases h
  | cons e rest ih =>
    obtain ⟨hnot, hd⟩ := List.nodup_cons.1 hd
    obtain h | h := List.mem_cons.1 h
    · rw [← h, List.lookup_cons_self]
    · have hne : key ≠ e.1 := by
        rintro rfl
        exact hnot (List.mem_map_of_mem (f := (·.1)) h)
      rw [List.lookup_cons, beq_false_of_ne hne]
      exact ih hd h

/-- Everything that a session has in it is alike itself. -/
structure Session.Valid (p : Pairing) (s : Session) : Prop where
  alike : Session.Alike p s s
  results : ∀ e ∈ s.results, Result.Alike p e.2 e.2
  folderValues : ∀ e ∈ s.folderValues, Value.Alike p e.2 e.2
  imports : ∀ e ∈ s.imports, Value.Alike p e.2 e.2

theorem Session.valid_self (s : Session) : s.Valid .same :=
  ⟨s.alike_self, fun e _ => e.2.alike_self, fun e _ => e.2.alike_self, fun e _ => e.2.alike_self⟩

/-- A session that has just been begun. -/
structure Session.Begun (s : Session) : Prop where
  outline : s.outline = .ofTree s.tree
  results : s.results = []
  folderValues : s.folderValues = []

/-- Entries that are all lazy make a mapping that is alike itself. -/
theorem Outline.Lists.ofEntries {o : Outline} {place : Nat} {key : String}
    {Made : Nat → Work → Prop} {es : Entries} (h : o.Lists place key Made es) {p : Pairing}
    (hp : ∀ t, p.thunks t t) : Value.Alike p (.ofEntries es) (.ofEntries es) := by
  refine .mapping (List.forall₂_same.2 fun (k, slot) hx => ?_) .none
  obtain ⟨t, ht, -⟩ := h.entry hx
  obtain rfl : slot = .lazy t := ht
  exact .mk k (.lazy (hp t))

/-! ## Custodies -/

/-- An invariant of one store that holds whatever a session does, up to evaluating. -/
structure Custody extends Coupling where
  same : ∀ {w s t}, Inv w s t → s = t
  narrow : ∀ w, (pairing w).Within .same
  thunks : ∀ w t, (pairing w).thunks t t
  sessions : ∀ w place, (pairing w).sessions place place
  /-- What a lazy entry was made for. -/
  Made : World → Nat → Work → Prop
  /-- The values that an expression may come to. -/
  Settles : World → Nat → String → Value → Prop
  /-- The outline of a session. -/
  Outlined : World → Nat → Outline → Prop
  /-- What may be said of a value that has been frozen. -/
  Fixed : World → Native → Prop
  /-- The sessions of modules. -/
  Inner : World → Nat → Prop
  made_mono : ∀ {w w' t work}, le w w' → Made w t work → Made w' t work
  outlined_mono : ∀ {w w' place o}, le w w' → Outlined w place o → Outlined w' place o
  inner_mono : ∀ {w w' place}, le w w' → Inner w place → Inner w' place
  fixed_mono : ∀ {w w' n}, le w w' → Fixed w n → Fixed w' n
  pending : ∀ {w s} {t : Nat} {work : Work}, Inv w s s → s.thunks[t]? = some (.pending work) → Made w t work
  value : ∀ {w t v}, Made w t (.value v) → Value.Alike (pairing w) v v
  done : ∀ {w s} {t : Nat} {v : Value}, Inv w s s → s.thunks[t]? = some (.done v) → Value.Alike (pairing w) v v
  valid : ∀ {w s} {place : Nat} {session : Session}, Inv w s s → s.sessions[place]? = some session →
    session.Valid (pairing w)
  outlined : ∀ {w s} {place : Nat} {session : Session}, Inv w s s →
    s.sessions[place]? = some session → Outlined w place session.outline
  gone : ∀ {w s} {place : Nat} (key : String), Inv w s s →
    (s.sessions[place]?).any (·.alive) = false → Settles w place key .null
  newThunk : ∀ {w s} (work : Work), (∀ v, work ≠ .value v) → Inv w s s →
    ∃ w', le w w' ∧ Inv w' (s.addThunk work) (s.addThunk work) ∧ Made w' s.thunks.size work
  settle : ∀ {w s t work v}, Inv w s s → Made w t work → Value.Alike (pairing w) v v →
    (∀ place key, work = .expression place key → Settles w place key v) →
    Inv w (s.settle t v) (s.settle t v)
  scripts : ∀ {w s place} (f : Script.Cache → Script.Cache), Inv w s s →
    Inv w (s.changeSession place fun σ => { σ with scripts := f σ.scripts })
      (s.changeSession place fun σ => { σ with scripts := f σ.scripts })
  keepFolder : ∀ {w s place key} {o : Outline} {es : Entries}, Inv w s s → Outlined w place o →
    o.Lists place key (Made w) es →
    Inv w
      (s.changeSession place fun σ => { σ with folderValues := (key, .ofEntries es) :: σ.folderValues })
      (s.changeSession place fun σ => { σ with folderValues := (key, .ofEntries es) :: σ.folderValues })
  keepImport : ∀ {w s place o key v}, Inv w s s → Outlined w place o →
    Value.Alike (pairing w) v v → ((o.expression? key).isSome → Settles w place key v) →
    Inv w (s.changeSession place fun σ => { σ with imports := (key, v) :: σ.imports })
      (s.changeSession place fun σ => { σ with imports := (key, v) :: σ.imports })
  newSession : ∀ {w s} {session : Session}, Inv w s s → session.Valid (pairing w) →
    session.Begun → ∃ w', le w w' ∧ Inv w' (s.addSession session) (s.addSession session) ∧
      Inner w' s.sessions.size
  release : ∀ {w s place}, Inv w s s → Inner w place →
    Inv w (s.changeSession place fun σ => { σ with alive := false })
      (s.changeSession place fun σ => { σ with alive := false })
  changeModules : ∀ {w s place} (f : Modules → Modules), Inv w s s →
    Inv w (s.changeModules place f) (s.changeModules place f)
  fix : ∀ {w s n}, Inv w s s → Native.Alike (pairing w) n n →
    ∃ w', le w w' ∧ Inv w' (s.freeze n) (s.freeze n) ∧ Fixed w' n

namespace Custody

variable {K : Custody} {w : K.World}

/-- A value of formulas that is alike itself. -/
abbrev typed (K : Custody) (w : K.World) (v : Value) : Prop :=
  Value.Alike (K.pairing w) v v

/-- A native value that is alike itself. -/
abbrev native (K : Custody) (w : K.World) (v : Native) : Prop :=
  Native.Alike (K.pairing w) v v

/-- A run that keeps the invariant, with what its value satisfies. -/
def Keeps (K : Custody) (w : K.World) {α : Type} (x : Run α) (R : K.World → α → Prop) : Prop :=
  K.Rel w x x fun w a b => a = b ∧ R w a

/-! ## Rules -/

section Rules

variable {α β : Type} {R : K.World → α → Prop} {T : K.World → β → Prop} {x : Run α}

theorem keeps_pure {a : α} (h : R w a) : K.Keeps w (pure a) R :=
  Coupling.rel_pure ⟨rfl, h⟩

theorem keeps_fail (c : Cause) : K.Keeps w (Run.fail c) R :=
  Coupling.rel_fail c

theorem Keeps.bind {k : α → Run β} (h : K.Keeps w x R)
    (hk : ∀ w', K.le w w' → ∀ a, R w' a → K.Keeps w' (k a) T) : K.Keeps w (x >>= k) T := by
  refine Coupling.rel_bind h fun w' hw a b hab => ?_
  obtain ⟨rfl, ha⟩ := hab
  exact hk w' hw a ha

theorem Keeps.imp {R' : K.World → α → Prop} (h : K.Keeps w x R)
    (hR : ∀ w', K.le w w' → ∀ a, R w' a → R' w' a) : K.Keeps w x R' := by
  rw [← bind_pure x]
  exact h.bind fun w' hw a ha => keeps_pure (hR w' hw a ha)

/-- The store in which a run that keeps an invariant ends, unless it is exhausted. -/
theorem Keeps.after (h : K.Keeps w x R) {s : Store} (hi : K.Inv w s s) :
    (∀ a s', x s = .ok a s' → ∃ w', K.le w w' ∧ K.Inv w' s' s' ∧ R w' a) ∧
      ∀ f s', x s = .error (.failed f) s' → ∃ w', K.le w w' ∧ K.Inv w' s' s' := by
  have hx := Coupling.Rel.ends h s s hi
  refine ⟨fun a s' hr => ?_, fun f s' hr => ?_⟩
  · rw [hr] at hx
    obtain ⟨w', hw, hi', -, hR⟩ := hx
    exact ⟨w', hw, hi', hR⟩
  · rw [hr] at hx
    exact hx.2

theorem Keeps.endsIn (h : K.Keeps w x R) {s s' : Store} (hi : K.Inv w s s)
    (hx : x.EndsIn s s') : ∃ w', K.le w w' ∧ K.Inv w' s' s' := by
  cases hx with
  | value hx =>
    obtain ⟨w', hw, hi', -⟩ := (h.after hi).1 _ _ hx
    exact ⟨w', hw, hi'⟩
  | failure hx => exact (h.after hi).2 _ _ hx

/-- What corresponds to itself keeps the invariant. -/
theorem Keeps.of_rel {P : K.World → α → α → Prop} (h : K.Rel w x x P)
    (hP : ∀ w', K.le w w' → ∀ a b, P w' a b → a = b ∧ R w' a) : K.Keeps w x R :=
  Simulation.Rel.imp (S := K.simulation) h hP

theorem Keeps.rel {P : K.World → α → α → Prop} (h : K.Keeps w x R)
    (hP : ∀ w', K.le w w' → ∀ a, R w' a → P w' a a) : K.Rel w x x P := by
  refine Simulation.Rel.imp (S := K.simulation) h ?_
  rintro w' hw a _ ⟨rfl, ha⟩
  exact hP w' hw a ha

theorem keeps_get {k : Store → Run α} (h : ∀ s, K.Inv w s s → K.Keeps w (k s) R) :
    K.Keeps w (get >>= k) R := by
  refine ⟨fun s t hi => ?_⟩
  obtain rfl := K.same hi
  exact (h s hi).ends s s hi

theorem keeps_modifyGet {f : Store → α × Store}
    (h : ∀ s, K.Inv w s s → ∃ w', K.le w w' ∧ K.Inv w' (f s).2 (f s).2 ∧ R w' (f s).1) :
    K.Keeps w (modifyGet f) R := by
  refine ⟨fun s t hi => ?_⟩
  obtain rfl := K.same hi
  obtain ⟨w', hw, hi', hR⟩ := h s hi
  exact ⟨w', hw, hi', rfl, hR⟩

theorem keeps_modify {f : Store → Store} (h : ∀ s, K.Inv w s s → K.Inv w (f s) (f s)) :
    K.Keeps w (modify f : Run PUnit) fun _ _ => True :=
  keeps_modifyGet fun s hi => ⟨w, K.le_refl w, h s hi, trivial⟩

theorem keeps_changeSession {place : Nat} {f : Session → Session}
    (h : ∀ s, K.Inv w s s → K.Inv w (s.changeSession place f) (s.changeSession place f)) :
    K.Keeps w (Run.changeSession place f) fun _ _ => True :=
  keeps_modify h

/-- A failure that is caught keeps the invariant too. -/
theorem Keeps.outcome (h : K.Keeps w x R) :
    K.Keeps w (Run.outcome x) fun w r => ∀ a, r = .ok a → R w a := by
  refine ⟨fun s t hi => ?_⟩
  obtain rfl := K.same hi
  have hx := Coupling.Rel.ends h s s hi
  unfold Run.outcome
  generalize x s = r at hx ⊢
  match r, hx with
  | .ok a s', ⟨w', hw, hi', _, hR⟩ =>
    refine ⟨w', hw, hi', rfl, ?_⟩
    rintro _ ⟨⟩
    exact hR
  | .error (.failed f) s', ⟨_, w', hw, hi'⟩ => exact ⟨w', hw, hi', rfl, fun _ h => nomatch h⟩
  | .error .exhausted s', hs => exact hs

theorem keeps_ofFaulty {y : Except Fault α} (h : ∀ a, y = .ok a → R w a) :
    K.Keeps w (Run.ofFaulty y) R := by
  cases y with
  | ok a => exact keeps_pure (h a rfl)
  | error f => exact keeps_fail _

theorem keeps_foldlM {γ : Type} {f : β → γ → Run β} (cs : List γ) {b : β}
    (hf : ∀ w', K.le w w' → ∀ b, ∀ c ∈ cs, T w' b → K.Keeps w' (f b c) T) (h : T w b) :
    K.Keeps w (cs.foldlM f b) T := by
  induction cs generalizing b w with
  | nil => exact keeps_pure h
  | cons c cs ih =>
    rw [List.foldlM_cons]
    exact (hf w (K.le_refl w) b c List.mem_cons_self h).bind fun w' hw b' hb' =>
      ih (fun w'' hw' b c hc => hf w'' (K.le_trans hw hw') b c (List.mem_cons_of_mem _ hc)) hb'

theorem keeps_mapM {γ : Type} {f : γ → Run β} {P : K.World → γ → β → Prop} (cs : List γ)
    (mono : ∀ {w w' c b}, K.le w w' → P w c b → P w' c b)
    (hf : ∀ w', K.le w w' → ∀ c ∈ cs, K.Keeps w' (f c) fun w b => P w c b) :
    K.Keeps w (cs.mapM f) fun w bs => Forall₂ (P w) cs bs := by
  induction cs generalizing w with
  | nil => exact keeps_pure .nil
  | cons c cs ih =>
    rw [List.mapM_cons]
    refine (hf w (K.le_refl w) c List.mem_cons_self).bind fun w₁ h₁ b hb => ?_
    refine (ih fun w' hw c hc =>
      hf w' (K.le_trans h₁ hw) c (List.mem_cons_of_mem _ hc)).bind fun w₂ h₂ bs hbs => ?_
    exact keeps_pure (.cons (mono h₂ hb) hbs)

end Rules

theorem typed_eq {v v' : Value} (h : Value.Alike (K.pairing w) v v') : v = v' ∧ K.typed w v := by
  obtain rfl := Value.eq_of_alike (h.mono (K.narrow w))
  exact ⟨rfl, h⟩

theorem native_eq {v v' : Native} (h : Native.Alike (K.pairing w) v v') :
    v = v' ∧ K.native w v := by
  obtain rfl := Native.eq_of_alike (h.mono (K.narrow w))
  exact ⟨rfl, h⟩

/-! ## Engines -/

/-- What the result of an expression is. -/
def Evaluated (K : Custody) (place : Nat) (key : String) (w : K.World) (o : Option Result) : Prop :=
  (∀ r, o = some r → Result.Alike (K.pairing w) r r) ∧
    K.Settles w place key ((o.map (·.outcome.toValue)).getD .null)

/-- What executing an expression comes to; a value is frozen then. -/
def Computed (K : Custody) (w : K.World) (o : Outcome) : Prop :=
  Outcome.Alike (K.pairing w) o o ∧ ∀ n v, o = .value n v → K.Fixed w n

theorem Computed.mono {w' : K.World} (hw : K.le w w') {o : Outcome} (h : K.Computed w o) :
    K.Computed w' o :=
  ⟨h.1.mono (K.within hw), fun n v ho => K.fixed_mono hw (h.2 n v ho)⟩

theorem computed_failure (first : Detail) (more : List Detail) :
    K.Computed w (.failure first more) :=
  ⟨.failure first more, fun _ _ h => nomatch h⟩

theorem computed_unreadableFormula (s : Source) (ps : Problems) :
    K.Computed w (.unreadableFormula s ps) := by
  unfold Outcome.unreadableFormula
  split <;> exact computed_failure _ _

theorem computed_unreadableScript (ps : Problems) : K.Computed w (.unreadableScript ps) := by
  unfold Outcome.unreadableScript
  split <;> exact computed_failure _ _

/-- An engine whose answers keep the invariant. -/
structure Serves (K : Custody) (e : Engine) : Prop where
  answers : K.simulation.Responds e e
  evaluate : ∀ (w : K.World) (place : Nat) (key : String),
    K.Keeps w (e.ask (.evaluate place key)) (K.Evaluated place key)

namespace Serves

variable {e : Engine} (he : K.Serves e)
include he

theorem native {v : Value} (h : K.typed w v) : K.Keeps w (e.ask (.native v)) K.native :=
  .of_rel (he.answers.native h) fun _ _ _ _ => native_eq

theorem folderValue (place : Nat) (key : String) :
    K.Keeps w (e.ask (.folderValue place key)) K.typed :=
  .of_rel (he.answers.folderValue key (K.sessions w place)) fun _ _ _ _ => typed_eq

end Serves
end Custody
end Workbook
