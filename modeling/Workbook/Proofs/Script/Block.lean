/-
The blocks of running scripts.

Requests for statements are watched: while one is being answered, its block gains what the statement
declares, and all others gain nothing.  `blocks_are_kept` says so of every answer that is given on
the way, at whatever depth, and what becomes of assignments to names that no block declares.
-/
import Workbook.Proofs.Parser.Account
import Workbook.Proofs.Script.Scope

open List (Forall₂)

namespace Workbook

/-! ## The vigil over blocks -/

/-- The names that may come to be in a block, for those blocks of which it is known. -/
abbrev Labels := Nat → Option (List String)

/-- What holds of a store while activities go on. -/
structure Framed (pin : Option Pin) (outer : List Activity) (w : Labels) (t : Store) : Prop where
  kept : ∀ a ∈ outer, a.store.Widens a.request.gains t
  labelled : ∀ place l, w place = some l → ∃ b, t.blocks[place]? = some b ∧ b.names ⊆ l
  pinned : t.Pinned pin

/-- A block made for the innermost activity, which none of the activities had before. -/
structure Owned (pin : Option Pin) (outer : List Activity) (w : Labels) (place : Nat)
    (names : List String) : Prop where
  label : w place = some names
  fresh : ∀ a ∈ outer, a.store.blocks[place]? = none
  unpinned : ∀ q ∈ pin, q.place ≠ place

section

variable {pin : Option Pin} {outer : List Activity} {w w' : Labels} {s t : Store} {place : Nat}
  {name : String} {l : List String}

theorem Block.names_set_subset {b : Block} (v : Variable) (hb : b.names ⊆ l) (hname : name ∈ l) :
    (b.set name v).names ⊆ l := by
  cases hl : b.bindings.lookup name with
  | some u =>
    have hkeys : (b.set name v).names = b.names :=
      Keyed.keys_put_of_some v (Option.isSome_iff_exists.2 ⟨u, hl⟩)
    exact hkeys ▸ hb
  | none =>
    have hkeys : (b.set name v).names = b.names ++ [name] := Keyed.keys_put_of_none v hl
    exact hkeys ▸ List.append_subset.2 ⟨hb, by simpa using hname⟩

theorem Framed.inert (h : Framed pin outer w s) (ht : s.Inert t) : Framed pin outer w t where
  kept a ha := (h.kept a ha).inert ht
  labelled place l hl := by
    obtain ⟨b, hb, hn⟩ := h.labelled place l hl
    exact ⟨b, ht.blocks place b hb, hn⟩
  pinned := h.pinned.inert ht

/-- A variable is set: in blocks that are there already as they may change, within the labels, and
not the one that stays. -/
theorem Framed.set {v : Variable} (h : Framed pin outer w t)
    (hgrows : ∀ b, t.blocks[place]? = some b → ∀ a ∈ outer, a.store.blocks[place]? = none ∨
      b.Grows (a.request.gains place) (b.set name v))
    (hnames : ∀ b l, t.blocks[place]? = some b → w place = some l → b.names ⊆ l →
      (b.set name v).names ⊆ l)
    (hpin : ∀ q ∈ pin, q.place = place → q.name ≠ name) :
    Framed pin outer w (t.setVariable place name v) where
  kept a ha other b hb := by
    obtain ⟨b', hb', hg⟩ := h.kept a ha other b hb
    rw [Store.blocks_setVariable]
    split
    · next heq =>
      subst heq
      rw [hb']
      refine ⟨_, rfl, hg.trans ((hgrows b' hb' a ha).resolve_left fun hnone => ?_)⟩
      rw [hb] at hnone
      cases hnone
    · exact ⟨b', hb', hg⟩
  labelled other l hl := by
    obtain ⟨b, hb, hn⟩ := h.labelled other l hl
    rw [Store.blocks_setVariable]
    split
    · next heq =>
      subst heq
      rw [hb]
      exact ⟨_, rfl, hnames b l hb hl hn⟩
    · exact ⟨b, hb, hn⟩
  pinned q hq := by
    obtain ⟨b, hb, hl⟩ := h.pinned q hq
    rw [Store.blocks_setVariable]
    split
    · next heq =>
      rw [hb]
      exact ⟨_, rfl, (Keyed.lookup_put_of_ne (hpin q hq heq.symm) v _).trans hl⟩
    · exact ⟨b, hb, hl⟩

theorem Owned.mono (h : Owned pin outer w place l) (hw : ∀ p l, w p = some l → w' p = some l) :
    Owned pin outer w' place l :=
  ⟨hw place l h.label, h.fresh, h.unpinned⟩

end

namespace Vigil

/-- The vigil over blocks. -/
def framing (pin : Option Pin) (outer : List Activity) : Vigil where
  World := Labels
  le w w' := ∀ place l, w place = some l → w' place = some l
  le_refl _ _ _ h := h
  le_trans h h' place l hl := h' place l (h place l hl)
  Inv := Framed pin outer
  inert h ht := h.inert ht
  Fails := Eq
  fails_fresh := Failure.fresh_refl
  cause := Failure.cause_congr
  cut := pin.isSome = true

variable {pin : Option Pin} {outer : List Activity} {w : Labels} {place : Nat} {name : String}
  {l : List String}

theorem passesFailures_framing : (framing pin outer).simulation.PassesFailures :=
  passesFailures fun _ _ => Iff.rfl

/-- What goes together while a request is being answered goes together around it. -/
theorem ends_of_cons {a : Activity} {α : Type} {R : Labels → α → α → Prop}
    {r r' : EStateM.Result Stop Store α} (h : (framing pin (a :: outer)).Ends w R r r') :
    (framing pin outer).Ends w R r r' := by
  have tail {w' : Labels} {t : Store} (hi : Framed pin (a :: outer) w' t) : Framed pin outer w' t :=
    ⟨fun b hb => hi.kept b (.tail _ hb), hi.labelled, hi.pinned⟩
  cases h with
  | ok le inv h => exact .ok (V := framing pin outer) le (tail inv) h
  | failed le inv h => exact .failed (V := framing pin outer) le (tail inv) h
  | exhausted le inv => exact .exhausted (V := framing pin outer) le (tail inv)
  | cut h => exact .cut (V := framing pin outer) h

/-! ### Setting variables -/

/-- A new block gets its names. -/
theorem framed_newBlock {s : Store} (hi : Framed pin outer w s) (parent : Option Nat)
    (l : List String) : ∃ w', (framing pin outer).le w w' ∧
      Framed pin outer w' { s with blocks := s.blocks.push ⟨[], parent⟩ } ∧
      Owned pin outer w' s.blocks.size l := by
  have hnone : s.blocks[s.blocks.size]? = none := Array.getElem?_eq_none (Nat.le_refl _)
  have hpush := hi.inert (s.inert_newBlock parent)
  refine ⟨Function.update w s.blocks.size (some l), fun p l' hp => ?_,
    ⟨hpush.kept, fun p l' hp => ?_, hpush.pinned⟩, Function.update_self ..,
    fun a ha => (hi.kept a ha).absent hnone, fun q hq heq => ?_⟩
  · have hne : p ≠ s.blocks.size := by
      rintro rfl
      obtain ⟨b, hb, -⟩ := hi.labelled _ l' hp
      rw [hnone] at hb
      cases hb
    rw [Function.update_of_ne hne, hp]
  · by_cases hps : p = s.blocks.size
    · subst hps
      rw [Function.update_self] at hp
      exact ⟨⟨[], parent⟩, Array.getElem?_push_size, Option.some.inj hp ▸ List.nil_subset _⟩
    · rw [Function.update_of_ne hps] at hp
      exact hpush.labelled p l' hp
  · obtain ⟨b, hb, -⟩ := hi.pinned q hq
    rw [heq, hnone] at hb
    cases hb

theorem rel_newBlock (parent : Option Nat) (l : List String) :
    (framing pin outer).Rel w (Run.newBlock parent) (Run.newBlock parent)
      fun w i j => i = j ∧ Owned pin outer w i l := by
  refine ⟨fun s (hi : Framed pin outer w s) => ?_⟩
  obtain ⟨w', hle, hi', ho⟩ := framed_newBlock hi parent l
  exact .ok (V := framing pin outer) hle hi' ⟨rfl, ho⟩

/-- Names of the body are defined in a new block, whatever they meant before. -/
theorem defines (h : Owned pin outer w place l) {names : List String} (hn : names ⊆ l) :
    (framing pin outer).simulation.Defines w place place names := by
  intro w' hw name hname v v' hv
  obtain rfl := Native.eq_of_alike hv
  refine ⟨fun t hi => .ok ((framing pin outer).le_refl w') ?_ trivial⟩
  refine Framed.set hi (fun _ _ a ha => .inl (h.fresh a ha)) (fun b l' _ hl' hb => ?_)
    fun q hq heq => absurd heq (h.unpinned q hq)
  obtain rfl : l = l' := Option.some.inj ((hw place l h.label).symm.trans hl')
  exact Block.names_set_subset _ hb (hn hname)

/-- A name is declared in a block that may gain it. -/
theorem rel_declare (hgains : ∀ a ∈ outer, a.store.blocks[place]? = none ∨
      name ∈ a.request.gains place) (hlabel : w place = some l) (hname : name ∈ l)
    (how : Script.Declarator) (v : Native) :
    (framing pin outer).Rel w (Run.declare place name how v) (Run.declare place name how v)
      fun _ _ _ => True := by
  refine ⟨fun s (hi : Framed pin outer w s) => ?_⟩
  rw [Run.declare_run]
  split
  · exact .failed ((framing pin outer).le_refl w) hi rfl
  · next habsent =>
    have hnone {b : Block} (hb : s.blocks[place]? = some b) : b.bindings.lookup name = none := by
      rw [hb] at habsent
      exact Option.not_isSome_iff_eq_none.1 habsent
    refine .ok ((framing pin outer).le_refl w) ?_ trivial
    refine Framed.set hi (fun b hb a ha => (hgains a ha).imp_right fun hg =>
      Block.grows_new _ (hnone hb) hg) (fun b l' _ hl' hb => ?_) fun q hq heq hq' => ?_
    · obtain rfl : l = l' := Option.some.inj (hlabel.symm.trans hl')
      exact Block.names_set_subset _ hb hname
    · obtain ⟨b, hb, hl⟩ := hi.pinned q hq
      rw [hq', hnone (heq ▸ hb)] at hl
      cases hl

/-- What an expression assigns to itself is no variable that stays, if it reassigns none. -/
theorem assigns {α : Type} {r : Request α} {s : Store} (hr : r.assigned? = some (place, name))
    (hstay : ¬ Activity.Reassigns pin ⟨r, s⟩) :
    (framing pin (⟨r, s⟩ :: outer)).simulation.Assigns w place place name := by
  intro w' _ v v' hv
  obtain rfl := Native.eq_of_alike hv
  refine ⟨fun t (hi : Framed pin (⟨r, s⟩ :: outer) w' t) => ?_⟩
  have hle (p : Nat) (l : List String) (h : w' p = some l) : w' p = some l := h
  rw [Run.assign_run]
  cases hres : t.resolve? place name with
  | none => exact .failed (V := framing pin (⟨r, s⟩ :: outer)) hle hi rfl
  | some x =>
    obtain ⟨owner, u⟩ := x
    obtain ⟨b, hb, hl⟩ := Store.lookup_of_resolve? hres
    simp only
    cases hc : u.constant with
    | true => exact .failed (V := framing pin (⟨r, s⟩ :: outer)) hle hi rfl
    | false =>
      simp only [Bool.false_eq_true, if_false]
      refine .ok (V := framing pin (⟨r, s⟩ :: outer)) hle ?_ trivial
      refine Framed.set hi (fun b' hb' a ha => ?_) (fun b' l hb' _ hn => ?_)
        fun q hq heq hname => ?_
      · obtain rfl : b = b' := Option.some.inj (hb.symm.trans hb')
        exact .inr (Block.grows_set hl hc rfl)
      · obtain rfl : b = b' := Option.some.inj (hb.symm.trans hb')
        have hkeys : (b.set name ⟨v, false⟩).names = b.names :=
          Keyed.keys_put_of_some _ (Option.isSome_iff_exists.2 ⟨u, hl⟩)
        exact hkeys ▸ hn
      · -- The name meant the same block when the expression was asked for.
        refine hstay ⟨q, hq, place, hname ▸ hr, ?_⟩
        by_cases hplace : place < s.blocks.size
        · have hkept := hi.kept ⟨r, s⟩ List.mem_cons_self
          rw [Request.gains_of_assigned hr] at hkept
          have hsame := hkept.resolve? hplace name
          rw [hres] at hsame
          exact .inl (by rw [hname, ← hsame, heq]; rfl)
        · exact .inr (Nat.le_of_not_lt hplace)

/-! ### Engines -/

/-- A statement may be asked for in its place, where the block may gain what it declares. -/
structure Placed (root : Option Activity.Root) (outer : List Activity) (w : Labels)
    (run place : Nat) (st : Script.Stmt) : Prop where
  gains : ∀ a ∈ outer, a.store.blocks[place]? = none ∨ st.declares ⊆ a.request.gains place
  label : ∃ l, w place = some l ∧ st.declares ⊆ l
  stands : Activity.Inside outer run place st ∨ ∃ names sts,
    Activity.Makes root outer place names sts ∧ st ∈ sts ∧ w place = some names

/-- Requests for statements are made in their places. -/
def May (root : Option Activity.Root) (outer : List Activity) {α : Type} (w : Labels)
    (r : Request α) : Prop :=
  ∀ run block st, r.statement? = some (run, block, st) → Placed root outer w run block st

/-- Two engines go together on all requests that are made in their places. -/
abbrev Scopes (pin : Option Pin) (root : Option Activity.Root) (outer : List Activity)
    (e₁ e₂ : Engine) : Prop :=
  (framing pin outer).Agree (May root outer) e₁ e₂

section

variable {root : Option Activity.Root} {e₁ e₂ : Engine} (he : Scopes pin root outer e₁ e₂)
include he

theorem Scopes.reaches : (framing pin outer).simulation.Reaches e₁ e₂ := by
  refine Agree.reaches he fun w α r hr run block st hst => ?_
  cases r with
  | statement => cases hr
  | _ => cases hst

/-- The statements of a body are asked for in the block that was made for it. -/
theorem Scopes.asks (ho : Owned pin outer w place l) {sts part : List Script.Stmt}
    (hm : Activity.Makes root outer place l sts) (hpart : part ⊆ sts)
    (hl : ∀ st ∈ part, st.declares ⊆ l) (run : Nat) :
    (framing pin outer).simulation.Asks e₁ e₂ w run run place place part := by
  intro w' hw st hst
  have hlabel := hw place l ho.label
  refine Rel.imp (V := framing pin outer) (he w' (.statement run place st) ?_)
    fun _ f _ hf => hf ▸ Simulation.flow_self f
  rintro _ _ _ ⟨⟩
  exact ⟨fun a ha => .inl (ho.fresh a ha), ⟨l, hlabel, hl st hst⟩,
    .inr ⟨l, sts, hm, hpart hst, hlabel⟩⟩

/-- A list of statements goes together in the block that was made for it. -/
theorem Scopes.statements (ho : Owned pin outer w place l) {sts : List Script.Stmt}
    (hm : Activity.Makes root outer place l sts) (hl : Script.Stmt.names sts ⊆ l) (run : Nat) :
    (framing pin outer).Rel w (e₁.statements run place sts) (e₂.statements run place sts)
      fun _ => Simulation.FlowAlike .same :=
  Simulation.rel_statements passesFailures_framing rfl rfl
    (defines ho fun _ hn => hl (List.mem_append_left _ hn))
    (he.asks ho hm (List.Subset.refl _) (fun _ hst _ hn => hl (Script.Stmt.declares_names hst hn))
      run)

/-- A script goes together where its block is made. -/
theorem Scopes.runScript {s : Store} (hi : Framed pin outer w s) {body : List Script.Stmt}
    (hm : Activity.Makes root outer s.blocks.size (Script.Stmt.names body) body)
    (scope : Scope Native) (maxDepth : Nat) (name : String) :
    (framing pin outer).Ends w (fun _ => Native.Alike .same)
      (e₁.runScript scope maxDepth name body s) (e₂.runScript scope maxDepth name body s) := by
  have hnew := hi.inert (s.inert_newExecution scope maxDepth)
  obtain ⟨w', hle, hi', ho⟩ := framed_newBlock hnew none (Script.Stmt.names body)
  have hbody := he.statements ho hm (List.Subset.refl _) s.executions.size
  have hvalue := Simulation.rel_scriptValue (S := (framing pin outer).simulation.toSimulation)
    (passesFailures_framing.mapFailure (Failure.unseen_left name) hbody)
  exact (hvalue.ends _ hi').earlier hle

end

/-! ### Answers -/

section

variable {root : Option Activity.Root} {a : Activity} {e₁ e₂ : Engine}
  (he : Scopes pin root (a :: outer) e₁ e₂)
include he

/-- A function is called in a block that is made for the call. -/
theorem Scopes.called {run block : Nat} {f : Script.Function} {arguments : List Native}
    (hm : a.request.Makes f.names f.body.statements) :
    (framing pin (a :: outer)).Rel w (e₁.called run block f name arguments)
      (e₂.called run block f name arguments) fun _ => Native.Alike .same := by
  refine rel_bind (rel_newBlock (some block) f.names) fun w₁ _ i _ ⟨hi, ho⟩ => ?_
  subst hi
  have hparameters := Simulation.rel_defineParameters
    (S := (framing pin (a :: outer)).simulation.toSimulation) (w := w₁)
    (Native.forall_self arguments) 0 (defines ho (List.subset_append_left _ _))
  refine rel_bind hparameters fun w₂ h₂ _ _ _ => ?_
  refine passesFailures_framing.mapFailure (Failure.unseen_left name) ?_
  refine he.reaches.answers.supplies.bodyValue passesFailures_framing rfl rfl fun sts hsts => ?_
  have hsts : f.body.statements = sts := by rw [hsts]; rfl
  refine he.statements (ho.mono h₂) ⟨ho.fresh a List.mem_cons_self, hsts ▸ hm⟩ ?_ run
  exact hsts ▸ List.subset_append_right _ _

/-- A statement does what it declares in its block, and the rest in blocks that it makes. -/
theorem Scopes.parts {run block : Nat} {st : Script.Stmt}
    (ha : a.request.statement? = some (run, block, st)) (hp : Placed root outer w run block st) :
    (framing pin (a :: outer)).simulation.Parts e₁ e₂ w run run block block st
      fun w i j => i = j ∧ Owned pin (a :: outer) w i st.innerNames := by
  have hgains := Request.gains_of_statement ha
  have hmakes : a.request.Makes st.innerNames st.inner := by
    obtain ⟨r, s⟩ := a
    cases r with
    | statement =>
      cases ha
      exact .inner ..
    | _ => cases ha
  have hall {names : List String} (hn : names ⊆ st.declares) (b : Activity) (hb : b ∈ a :: outer) :
      b.store.blocks[block]? = none ∨ names ⊆ b.request.gains block := by
    obtain rfl | hb := List.mem_cons.1 hb
    · exact .inr (hgains ▸ hn)
    · exact (hp.gains b hb).imp_right fun h _ hname => h (hn hname)
  obtain ⟨l, hl, hdeclares⟩ := hp.label
  exact {
    declare := by
      rintro w' hw name hname how v v' hv
      obtain rfl := Native.eq_of_alike hv
      have hname := st.declared_subset hname
      exact rel_declare (fun b hb => (hall (List.Subset.refl _) b hb).imp_right fun h => h hname)
        (hw block l hl) (hdeclares hname) how v
    direct := by
      intro w' hw part hpart
      refine Rel.imp (V := framing pin (a :: outer)) (he w' (.statement run block part) ?_)
        fun _ f _ hf => hf ▸ Simulation.flow_self f
      rintro _ _ _ ⟨⟩
      have hsub := Script.Stmt.declares_direct hpart
      exact ⟨hall hsub, ⟨l, hw block l hl, fun _ hn => hdeclares (hsub hn)⟩,
        .inl ⟨a, rfl, st, ha, hpart⟩⟩
    newBlock := fun _ => rel_newBlock (some block) st.innerNames
    blocks := fun h => h.1
    mono := fun hw h => ⟨h.1, h.2.mono hw⟩
    declareInner := by
      rintro w' i _ - ⟨rfl, ho⟩ name hname how v v' hv
      obtain rfl := Native.eq_of_alike hv
      exact rel_declare (fun b hb => .inl (ho.fresh b hb)) ho.label (st.iterated_subset hname) how v
    inner := by
      rintro w' i _ - ⟨rfl, ho⟩
      exact he.asks ho ⟨ho.fresh a List.mem_cons_self, hmakes⟩ (List.Subset.refl _)
        (fun _ hst => Script.Stmt.declares_inner hst) run
    statements := by
      rintro w' i _ - ⟨rfl, ho⟩ span body rfl
      exact he.statements ho ⟨ho.fresh a List.mem_cons_self, hmakes⟩ (List.Subset.refl _) run }

end

/-- Requests are answered alike by engines that go together while they are being answered. -/
theorem Scopes.answer {root : Option Activity.Root} {α : Type} {r : Request α} {s : Store}
    {e₁ e₂ : Engine} (he : Scopes pin root (⟨r, s⟩ :: outer) e₁ e₂) (ht : e₂.Total) (fuel : Nat)
    (hmay : May root outer w r) (hstay : ¬ Activity.Reassigns pin ⟨r, s⟩) :
    (framing pin (⟨r, s⟩ :: outer)).Rel w (Engine.answer e₁ fuel r) (Engine.answer e₂ fuel r)
      fun _ => Eq := by
  have hr := he.reaches
  have hcount {w : Labels} {t : Store} (c : Context) (f : Nat → Nat)
      (h : Framed pin (⟨r, s⟩ :: outer) w t) : Framed pin (⟨r, s⟩ :: outer) w (t.count f c) := by
    cases c with
    | evaluation => exact ⟨h.kept, h.labelled, h.pinned⟩
    | execution => exact ⟨h.kept, h.labelled, h.pinned⟩
  refine agree_answer hr fuel r ?_
  cases r with
  | callTyped f vs =>
    refine hr.answers.callTypedCode (fun folder h hv => hr.importValue loads ht h folder hv)
      f.code.alike_self (fun _ _ _ _ _ => ?_) (Value.forall_self vs)
    rintro w' ev _ ls ls' ws ws' parameters body rfl hl hv
    unfold Engine.callLambda
    rw [Engine.callWithin_eq, Engine.callWithin_eq]
    exact rel_counted (V := framing pin _) (hcount _)
      (hr.answers.formula body rfl (Simulation.bindParameters_alike parameters hv hl))
  | invoke run block f name vs =>
    show (framing pin _).Rel w (e₁.invoke run block f name vs) (e₂.invoke run block f name vs) _
    rw [Engine.invoke_eq, Engine.invoke_eq, Engine.callDuring_eq, Engine.callDuring_eq]
    exact rel_counted (V := framing pin _) (hcount _) (he.called (.call ..))
  | statement run block st =>
    exact hr.answers.supplies.statementOf rfl rfl rfl (he.parts rfl (hmay _ _ _ rfl))
  | expression run block e =>
    refine hr.answers.supplies.expressionOf rfl rfl e fun name hname => assigns ?_ hstay
    exact congrArg (Option.map (block, ·)) hname
  | evaluate session key =>
    have hs : (framing pin (⟨.evaluate session key, s⟩ :: outer)).simulation.Serves e₁ e₂ := by
      refine ⟨hr, fun {w' sc sc'} hsc maxDepth name body => ⟨fun t hi => ?_⟩⟩
      obtain rfl := Scope.eq_of_alike (fun _ _ => Native.eq_of_alike) hsc
      refine he.runScript hi ⟨?_, .script session key body⟩ sc maxDepth name
      exact (Framed.kept hi _ List.mem_cons_self).absent (Array.getElem?_eq_none (Nat.le_refl _))
    exact hs.evaluateOf (catches fun _ _ h => h) executes ht rfl key
  | _ => trivial

end Vigil

namespace Engine

variable {pin : Option Pin} {root : Option Activity.Root} {guard : List Activity → Run Unit}

/-- Under a guard that passes all stores in which blocks are as they may be, and breaks off where
the variable that is to stay is assigned to, an engine gives the same answers as without. -/
theorem scopes_guarded
    (hpass : ∀ a outer t, t.Scoped root (a :: outer) → t.Pinned pin → ¬ a.Reassigns pin →
      guard (a :: outer) t = .ok () t)
    (hstop : ∀ a outer t, a.Reassigns pin → ∃ t', guard (a :: outer) t = .error .exhausted t')
    (hcut : pin.isSome = true → ∀ active t, guard active t = .ok () t ∨
      ∃ t', guard active t = .error .exhausted t')
    (fuel : Nat) {outer : List Activity} (hlinked : Activity.Linked root outer) :
    Vigil.Scopes pin root outer (guarded guard fuel outer) (ofFuel fuel) := by
  induction fuel generalizing outer with
  | zero => exact fun w _ _ _ => Vigil.rel_exhausted
  | succ fuel ih =>
    intro w α r hmay
    refine ⟨fun s (hi : Framed pin outer w s) => ?_⟩
    by_cases hre : Activity.Reassigns pin ⟨r, s⟩
    · obtain ⟨t', ht'⟩ := hstop _ outer s hre
      obtain ⟨q, hq, -⟩ := hre
      have hend : (guarded guard (fuel + 1) outer).ask r s = .error .exhausted t' := by
        show (get >>= fun s => guard (⟨r, s⟩ :: outer) >>= fun _ => _ : Run α) s = _
        rw [Run.get_bind, Run.bind_error ht']
      rw [hend]
      exact .cut (V := Vigil.framing pin outer) (Option.isSome_iff_exists.2 ⟨q, hq⟩)
    · have hi' : Framed pin (⟨r, s⟩ :: outer) w s :=
        ⟨List.forall_mem_cons.2 ⟨s.widens_self _, hi.kept⟩, hi.labelled, hi.pinned⟩
      have hlinked' : Activity.Linked root (⟨r, s⟩ :: outer) := by
        refine ⟨hlinked, fun run block st hst => (hmay run block st hst).stands.imp_right ?_⟩
        rintro ⟨names, sts, hm, hmem, hlabel⟩
        exact ⟨names, sts, hm, hmem, hi.labelled block names hlabel⟩
      refine Vigil.ends_of_cons (Vigil.ends_guarded hi'
        (fun w' t _ (ht : Framed pin _ w' t) => hpass _ _ t ⟨ht.kept, hlinked'⟩ ht.pinned hre)
        (fun h t => hcut h _ t) ?_)
      exact ((ih hlinked').answer (total_ofFuel fuel) fuel hmay hre).ends s hi'

end Engine

/-! ## What blocks keep -/

namespace Vigil

/-- An engine goes together with itself while something is done that is no statement. -/
theorem scopes_self (fuel : Nat) (a : Activity) (ha : a.request.statement? = none) :
    ∃ e, Scopes none none [a] e (Engine.ofFuel fuel) :=
  ⟨Engine.guarded (fun _ => pure ()) fuel [a],
    Engine.scopes_guarded (fun _ _ _ _ _ _ => rfl) (fun _ _ _ ⟨_, hq, _⟩ => nomatch hq)
      (fun h : (none : Option Pin).isSome = true => absurd h Bool.false_ne_true) fuel
      ⟨trivial, fun _ _ _ h => absurd (ha.symm.trans h) nofun⟩⟩

/-- Before anything is known of the blocks. -/
theorem framed_start {a : Activity} : Framed none [a] (fun _ => none) a.store where
  kept b hb := by
    obtain rfl := List.mem_singleton.1 hb
    exact b.store.widens_self _
  labelled _ _ h := nomatch h
  pinned _ h := nomatch h

/-- Where something is done that is no statement, the blocks that are there gain no names. -/
theorem Ends.widens {a : Activity} {α : Type} {R : Labels → α → α → Prop} {x y : Run α} {t : Store}
    (ha : a.request.gains = fun _ => []) (h : (framing none [a]).Ends w R (x a.store) (y a.store))
    (hy : y.EndsIn a.store t) : a.store.Widens (fun _ => []) t := by
  obtain ⟨w', -, hi⟩ := h.endsIn Bool.false_ne_true hy
  exact ha ▸ Framed.kept hi a List.mem_cons_self

end Vigil

namespace Request

theorem statement?_eq_none {α : Type} {r : Request α} (h : r.isStatement = false) :
    r.statement? = none := by
  cases r with
  | statement => cases h
  | _ => rfl

theorem gains_eq_nil {α : Type} {r : Request α} (h : r.isStatement = false) :
    r.gains = fun _ => [] := by
  cases r with
  | statement => cases h
  | _ => rfl

end Request

namespace Engine

/-- Nothing that is asked but a statement adds names to blocks. -/
theorem ask_widens (fuel : Nat) {α : Type} {r : Request α} (hr : r.isStatement = false)
    {s t : Store} (h : ((ofFuel fuel).ask r).EndsIn s t) : s.Widens (fun _ => []) t := by
  have hst := Request.statement?_eq_none hr
  obtain ⟨e, he⟩ := Vigil.scopes_self fuel ⟨r, s⟩ hst
  have hrel := he (fun _ => none) r fun _ _ _ h => absurd (hst.symm.trans h) nofun
  exact (hrel.ends s Vigil.framed_start).widens (Request.gains_eq_nil hr) h

/-- Nor does a script to those that were there before. -/
theorem runScript_widens (fuel : Nat) {scope : Scope Native} {maxDepth : Nat} {name : String}
    {body : List Script.Stmt} {s t : Store}
    (h : ((ofFuel fuel).runScript scope maxDepth name body).EndsIn s t) :
    s.Widens (fun _ => []) t := by
  obtain ⟨e, he⟩ := Vigil.scopes_self fuel ⟨.evaluate 0 "", s⟩ rfl
  have hm : Activity.Makes none [⟨.evaluate 0 "", s⟩] s.blocks.size (Script.Stmt.names body) body :=
    ⟨Array.getElem?_eq_none (Nat.le_refl _), .script 0 "" body⟩
  exact (he.runScript Vigil.framed_start hm scope maxDepth name).widens rfl h

/-! ## Names that no block declares -/

/-- The value that an assignment to a name comes to. -/
def assigned (e : Engine) (run block : Nat) (op : Script.AssignOp) (name : String)
    (right : Script.Expr) : Run Native :=
  match op.binary? with
  | none => e.boundValue run block name right
  | some op => do
    let old ← e.nameInScript run block name
    Run.binary op old (← e.ask (.expression run block right))

/-- The number that a name means and the one that an increment or decrement makes of it. -/
def updated (e : Engine) (run block : Nat) (increment : Bool) (name : String) :
    Run (Native × Native) := do
  let v ← e.nameInScript run block name
  let (old, one) := v.counted (← get)
  return (old, ← Run.binary (if increment then .add else .sub) old one)

/-- What adds no names to blocks is followed by a failure where a name is assigned to that no block
declares. -/
theorem assign_undeclared {α : Type} {x : Run α} {k : α → Native} {l : α → Native} {block : Nat}
    {name : String} {s : Store} (hblock : block < s.blocks.size)
    (hs : s.resolve? block name = none)
    (hx : ∀ t, x.EndsIn s t → s.Widens (fun _ => []) t) :
    (do let a ← x; Run.assign block name (k a); return l a : Run Native) s =
      (do let _ ← x; Run.fail (.readOnly name) : Run Native) s := by
  cases hrun : x s with
  | error e t => rw [Run.bind_error hrun, Run.bind_error hrun]
  | ok a t =>
    have hnone : t.resolve? block name = none := by
      have hsame := (hx t (.value hrun)).resolve? hblock name
      rw [hs] at hsame
      exact Option.map_eq_none_iff.1 hsame
    have hassign : Run.assign block name (k a) t = Run.fail (.readOnly name) t := by
      rw [Run.assign_run, hnone]
    rw [Run.bind_run hrun, Run.bind_run hrun]
    exact Run.bind_error hassign

variable (fuel : Nat) {run block : Nat} {name : String} {s : Store}

/-- An assignment to a name that no block declares does what finds the value, and fails. -/
theorem assignment_undeclared (hblock : block < s.blocks.size) (hs : s.resolve? block name = none)
    (span span' : Span) (op : Script.AssignOp) (right : Script.Expr) :
    (ofFuel fuel).expression run block (.assign span op (.name span' name) right) s =
      (do let _ ← (ofFuel fuel).assigned run block op name right
          Run.fail (.readOnly name) : Run Native) s := by
  obtain ⟨e, he⟩ := Vigil.scopes_self fuel ⟨.expression run block right, s⟩ rfl
  have ha := he.reaches.answers.supplies
  have hassigned : (Vigil.framing none [⟨.expression run block right, s⟩]).Rel (fun _ => none)
      (e.assigned run block op name right) ((ofFuel fuel).assigned run block op name right)
      fun _ => Native.Alike .same := by
    unfold assigned
    split
    · exact ha.boundValue rfl rfl name right
    · refine Vigil.rel_bind (ha.nameInScript rfl rfl name) fun w₁ _ v v' hv => ?_
      refine Vigil.rel_bind (ha.expression right rfl rfl) fun w₂ _ u u' hu => ?_
      exact Simulation.rel_binary (S := (Vigil.framing none _).simulation.toSimulation) _ hv hu
  have hshape : (ofFuel fuel).expression run block (.assign span op (.name span' name) right) =
      (do let v ← (ofFuel fuel).assigned run block op name right
          Run.assign block name v
          return v) := by
    show (ofFuel fuel).assignment _ run block op (.name span' name) right = _
    unfold assignment assigned target
    cases op.binary? with
    | none => rfl
    | some op =>
      simp only [pure_bind, bind_assoc]
      rfl
  rw [hshape]
  exact assign_undeclared hblock hs fun t ht => (hassigned.ends s Vigil.framed_start).widens rfl ht

/-- So does an increment or decrement. -/
theorem update_undeclared (hblock : block < s.blocks.size) (hs : s.resolve? block name = none)
    (span span' : Span) (increment first : Bool) :
    (ofFuel fuel).expression run block (.update span increment first (.name span' name)) s =
      (do let _ ← (ofFuel fuel).updated run block increment name
          Run.fail (.readOnly name) : Run Native) s := by
  obtain ⟨e, he⟩ := Vigil.scopes_self fuel ⟨.expression run block (.name span' name), s⟩ rfl
  have hupdated : (Vigil.framing none [⟨.expression run block (.name span' name), s⟩]).Rel
      (fun _ => none) (e.updated run block increment name)
      ((ofFuel fuel).updated run block increment name) fun _ _ _ => True := by
    have hsupplies := he.reaches.answers.supplies
    refine Vigil.rel_bind (hsupplies.nameInScript rfl rfl name) fun w₁ _ v v' hv => ?_
    obtain rfl := Native.eq_of_alike hv
    refine Vigil.rel_get fun t _ => ?_
    refine Vigil.rel_bind (Simulation.rel_binary
      (S := (Vigil.framing none _).simulation.toSimulation) _ (Native.alike_self _)
      (Native.alike_self _)) fun _ _ _ _ _ => Vigil.rel_pure trivial
  have hshape :
      (ofFuel fuel).expression run block (.update span increment first (.name span' name)) =
      (do let x ← (ofFuel fuel).updated run block increment name
          Run.assign block name x.2
          return if first then x.2 else x.1) := by
    show (ofFuel fuel).update _ run block increment first (.name span' name) = _
    unfold update updated target
    simp only [pure_bind, bind_assoc]
    rfl
  rw [hshape]
  exact assign_undeclared hblock hs fun t ht => (hupdated.ends s Vigil.framed_start).widens rfl ht

/-- Nothing is done to delete such a name. -/
theorem delete_undeclared (e : Engine) (hs : s.resolve? block name = none) (span span' : Span) :
    e.expression run block (.unary span .delete (.name span' name)) s =
      Run.fail (.readOnly name) s := by
  have hvalue : s.valueOf? block name = none := by rw [Store.valueOf?, hs]; rfl
  show (get >>= fun s => if (s.valueOf? block name).isSome then _ else _ : Run Native) s = _
  rw [Run.get_bind, hvalue]
  rfl

/-! ## Where calls begin -/

/-- Parameters are all that a new block has when they are defined. -/
theorem defineParameters_run (arguments : List Native) (parent : Option Nat) (s : Store)
    (names : List String) (ps : List Name) (i : Nat) (b : Block) (hb : b.names ⊆ names)
    (hparent : b.parent = parent) (hps : ps.map Name.text ⊆ names) :
    ∃ b' : Block, b'.parent = parent ∧ b'.names ⊆ names ∧
      defineParameters s.blocks.size arguments i ps { s with blocks := s.blocks.push b } =
        .ok () { s with blocks := s.blocks.push b' } := by
  induction ps generalizing i b with
  | nil => exact ⟨b, hparent, hb, rfl⟩
  | cons p rest ih =>
    have hset (v : Variable) : ({ s with blocks := s.blocks.push b } : Store).setVariable
        s.blocks.size p.text v = { s with blocks := s.blocks.push (b.set p.text v) } := by
      unfold Store.setVariable
      rw [Store.modify_push]
    rw [List.map_cons, List.cons_subset] at hps
    obtain ⟨b', h₁, h₂, h₃⟩ := ih (i + 1) (b.set p.text ⟨Script.argument arguments i, false⟩)
      (Block.names_set_subset _ hb hps.1) hparent hps.2
    refine ⟨b', h₁, h₂, ?_⟩
    show defineParameters s.blocks.size arguments (i + 1) rest
      (({ s with blocks := s.blocks.push b } : Store).setVariable s.blocks.size p.text _) = _
    rw [hset, h₃]

/-- A call runs its body in a new block that has the parameters only. -/
theorem called_run (e : Engine) (run block : Nat) (f : Script.Function) (name : String)
    (arguments : List Native) (s : Store) :
    ∃ b : Block, b.parent = some block ∧ b.names ⊆ f.parameters.map Name.text ∧
      e.called run block f name arguments s =
        Run.mapFailure (·.left name) (e.bodyValue run s.blocks.size f.body)
          { s with blocks := s.blocks.push b } := by
  obtain ⟨b, hparent, hnames, hrun⟩ := defineParameters_run arguments (some block) s
    (f.parameters.map Name.text) f.parameters 0 ⟨[], some block⟩ (List.nil_subset _) rfl
    (List.Subset.refl _)
  refine ⟨b, hparent, hnames, ?_⟩
  show (defineParameters s.blocks.size arguments 0 f.parameters >>= fun _ => _ : Run Native)
    { s with blocks := s.blocks.push ⟨[], some block⟩ } = _
  rw [Run.bind_run hrun]

/-- A name that a block has is not declared there once more. -/
theorem declare_twice {place : Nat} {name : String} {b : Block} {s : Store}
    (hb : s.blocks[place]? = some b) (hname : name ∈ b.names) (how : Script.Declarator)
    (v : Native) :
    Run.declare place name how v s =
      Run.fail (.runtime ("'" ++ name ++ "' has already been declared")) s := by
  have hsome : (b.bindings.lookup name).isSome := by
    rw [Option.isSome_iff_ne_none]
    exact fun hnone => Keyed.not_mem_of_lookup hnone hname
  rw [Run.declare_run, hb, Option.any_some, if_pos hsome]

/-! ## The theorem -/

/-- What blocks keep.  While anything is being done, the blocks that were there when it began have
gained nothing but what the statement declares that is being run in them, no name twice, and their
constants have their values; and every statement that is run is a part of the one around it, in the
same block, or one of the statements of the call, loop, block or script that its block was made for,
whose names are all that the block has.  This is so before and after every answer that is given on
the way, at whatever depth: a guard that passes the stores of which it holds, and may do anything
elsewhere, makes no difference.  A call begins in a block that has its parameters only.  A name is
not declared twice in a block.  To assign to a name that no block around declares is to do what
finds the value, and to fail; to delete it is to fail at once. -/
theorem blocks_are_kept (fuel : Nat) (s : Store) (root : Option Activity.Root)
    {guard : List Activity → Run Unit}
    (hguard : ∀ a outer t, t.Scoped root (a :: outer) → guard (a :: outer) t = .ok () t) :
    (∀ (α : Type) (r : Request α), r.isStatement = false →
      (guarded guard fuel []).ask r s = (ofFuel fuel).ask r s ∧
      ∀ t, ((ofFuel fuel).ask r).EndsIn s t → s.Widens (fun _ => []) t) ∧
    (∀ (scope : Scope Native) (maxDepth : Nat) (name : String) (body : List Script.Stmt),
      (root = some ⟨s.blocks.size, Script.Stmt.names body, body⟩ →
        (guarded guard fuel []).runScript scope maxDepth name body s =
          (ofFuel fuel).runScript scope maxDepth name body s) ∧
      ∀ t, ((ofFuel fuel).runScript scope maxDepth name body).EndsIn s t →
        s.Widens (fun _ => []) t) ∧
    (∀ (e : Engine) (run block : Nat) (f : Script.Function) (name : String)
      (arguments : List Native) (t : Store), ∃ b : Block, b.parent = some block ∧
        b.names ⊆ f.parameters.map Name.text ∧
        e.called run block f name arguments t =
          Run.mapFailure (·.left name) (e.bodyValue run t.blocks.size f.body)
            { t with blocks := t.blocks.push b }) ∧
    (∀ (place : Nat) (name : String) (b : Block) (t : Store) (how : Script.Declarator) (v : Native),
      t.blocks[place]? = some b → name ∈ b.names → Run.declare place name how v t =
        Run.fail (.runtime ("'" ++ name ++ "' has already been declared")) t) ∧
    ∀ (run block : Nat) (name : String) (t : Store) (span span' : Span), block < t.blocks.size →
      t.resolve? block name = none →
      (∀ (op : Script.AssignOp) (right : Script.Expr),
        (ofFuel (fuel + 1)).ask (.expression run block (.assign span op (.name span' name) right)) t =
          (do let _ ← (ofFuel fuel).assigned run block op name right
              Run.fail (.readOnly name) : Run Native) t) ∧
      (∀ increment first : Bool,
        (ofFuel (fuel + 1)).ask
            (.expression run block (.update span increment first (.name span' name))) t =
          (do let _ ← (ofFuel fuel).updated run block increment name
              Run.fail (.readOnly name) : Run Native) t) ∧
      (ofFuel (fuel + 1)).ask (.expression run block (.unary span .delete (.name span' name))) t =
        Run.fail (.readOnly name) t := by
  have hscopes : Vigil.Scopes none root [] (guarded guard fuel []) (ofFuel fuel) :=
    scopes_guarded (fun a outer t ht _ _ => hguard a outer t ht)
      (fun _ _ _ ⟨_, hq, _⟩ => nomatch hq)
      (fun h : (none : Option Pin).isSome = true => absurd h Bool.false_ne_true) fuel trivial
  have hs : Framed none [] (fun _ => none) s := ⟨nofun, nofun, nofun⟩
  refine ⟨fun α r hr => ⟨?_, fun t ht => ask_widens fuel hr ht⟩,
    fun scope maxDepth name body => ⟨fun hroot => ?_, fun t ht => runScript_widens fuel ht⟩,
    called_run, fun place name b t how v hb hname => declare_twice hb hname how v,
    fun run block name t span span' hblock ht =>
      ⟨fun op right => ?_, fun increment first => ?_, ?_⟩⟩
  · have hmay : Vigil.May root [] (fun _ => none) r := fun _ _ _ h =>
      absurd ((Request.statement?_eq_none hr).symm.trans h) nofun
    exact ((hscopes _ r hmay).ends s hs).eq (fun _ _ h => h) Bool.false_ne_true
  · have hends := hscopes.runScript hs hroot scope maxDepth name
    exact (hends.imp fun _ _ _ => Native.eq_of_alike).eq (fun _ _ h => h) Bool.false_ne_true
  · exact assignment_undeclared fuel hblock ht span span' op right
  · exact update_undeclared fuel hblock ht span span' increment first
  · show (ofFuel fuel).expression run block (.unary span .delete (.name span' name)) t = _
    exact delete_undeclared (ofFuel fuel) ht span span'

end Engine

/-- Breaks off a run in which the block of the innermost statement has gained other names than the
statement declares. -/
def growthGuard : List Activity → Run Unit
  | [] => pure ()
  | a :: _ => fun t =>
    match a.request.statement? with
    | none => .ok () t
    | some (_, place, st) =>
      match a.store.blocks[place]? with
      | none => .ok () t
      | some b =>
        if ∀ n ∈ ((t.blocks[place]?).map Block.names).getD [], n ∈ b.names ++ st.declares then
          .ok () t
        else .error .exhausted t

/-- The script `const a = true; if (a) let b = a; a = b`. -/
def constantScript : List Script.Stmt :=
  [.declaration ⟨0, 15, 1, 1⟩ .constant ⟨"a", ⟨6, 7, 1, 7⟩⟩ (some (.boolean ⟨10, 14, 1, 11⟩ true)),
   .branch ⟨16, 32, 1, 17⟩ (.name ⟨20, 21, 1, 21⟩ "a")
     (.declaration ⟨23, 33, 1, 24⟩ .variable ⟨"b", ⟨27, 28, 1, 28⟩⟩
       (some (.name ⟨31, 32, 1, 32⟩ "a")))
     none,
   .expr (.assign ⟨34, 39, 1, 35⟩ .plain (.name ⟨34, 35, 1, 35⟩ "a") (.name ⟨38, 39, 1, 39⟩ "b"))]

/-- The script in its block. -/
def constantRoot : Option Activity.Root :=
  some ⟨0, ["a", "b"], constantScript⟩

/-- The constant cannot be assigned to, and its block gains what the statements declare. -/
theorem blocks_are_kept_constant :
    (∀ a outer t, t.Scoped constantRoot (a :: outer) →
      growthGuard (a :: outer) t = .ok () t) ∧
    Run.message? ((Engine.guarded growthGuard 9 []).runScript (.fixed []) 8 "main" constantScript)
      .empty = some "assignment to constant 'a'" := by
  have hguard (a : Activity) (outer : List Activity) (t : Store)
      (ht : t.Scoped constantRoot (a :: outer)) :
      growthGuard (a :: outer) t = .ok () t := by
    cases hst : a.request.statement? with
    | none => simp only [growthGuard, hst]
    | some x =>
      obtain ⟨run, place, st⟩ := x
      cases hb : a.store.blocks[place]? with
      | none => simp only [growthGuard, hst, hb]
      | some b =>
        obtain ⟨b', hb', hgrows⟩ := ht.kept a List.mem_cons_self place b hb
        rw [Request.gains_of_statement hst] at hgrows
        obtain ⟨more, hmore, hnames⟩ := hgrows.names
        simp only [growthGuard, hst, hb, hb']
        refine if_pos fun n hn => ?_
        have hn : n ∈ b.names ++ more := hnames ▸ hn
        exact (List.mem_append.1 hn).elim (List.mem_append_left _)
          fun h => List.mem_append_right _ (hmore h)
  refine ⟨hguard, ?_⟩
  have hrun := (Engine.blocks_are_kept 9 .empty constantRoot hguard).2.1
    (.fixed []) 8 "main" constantScript
  unfold Run.message?
  rw [hrun.1 rfl]
  with_unfolding_all rfl

/-- In the script `x += 1` nothing is declared, and what fails is reading `x`. -/
theorem compound_run :
    (match Script.compile ⟨"main", "x += 1"⟩ with
      | .ok p =>
        match (Engine.ofFuel 6).runScript (.fixed []) 8 "main" p.body .empty with
        | .error (.failed f) _ =>
          decide (Script.Stmt.names p.body = [] ∧ f.cause = .undefinedName "x")
        | _ => false
      | .error _ => false) = true := by
  rw [Parser.compile_script, Parser.outcome_ofList]
  with_unfolding_all rfl

/-- A compound assignment to a name that is not declared anywhere does not fail as read-only. -/
theorem compound_assignment_reads_first :
    ∃ p f t, Script.compile ⟨"main", "x += 1"⟩ = .ok p ∧ Script.Stmt.names p.body = [] ∧
      (Engine.ofFuel 6).runScript (.fixed []) 8 "main" p.body .empty = .error (.failed f) t ∧
      f.cause ≠ .readOnly "x" := by
  have hrun := compound_run
  split at hrun
  case h_2 => cases hrun
  case h_1 p hp =>
    split at hrun
    case h_2 => cases hrun
    case h_1 f t ht =>
      obtain ⟨hnames, hcause⟩ := of_decide_eq_true hrun
      exact ⟨p, f, t, hp, hnames, ht, hcause ▸ nofun⟩

end Workbook
