/-
Native forms of values, and the data that they hold.

`Engine.Gives` says that a value has a native form, whatever else has been made in the meantime,
and that the form holds such data.  There is one lemma for each kind of value, from its parts to the
whole.  Lazy entries are read on the way, which changes what has been computed but not what they
yield (`Store.Keeps`).
-/
import Workbook.Proofs.Lazy
import Workbook.Proofs.Walk.Sharing

open List (Forall₂)

namespace Workbook

/-! ## Lazy entries -/

namespace Store

/-- What an entry yields: it is there, has been computed, or was put off with nothing to
compute. -/
inductive Yields (s : Store) : Slot → Value → Prop
  | ready {v : Value} : Yields s (.ready v) v
  | done {thunk : Nat} {v : Value} (h : s.thunks[thunk]? = some (.done v)) :
      Yields s (.lazy thunk) v
  | pending {thunk : Nat} {v : Value} (h : s.thunks[thunk]? = some (.pending (.value v))) :
      Yields s (.lazy thunk) v

/-- A store with the same containers, and maybe more, in which the entries yield what they did. -/
structure Keeps (s s' : Store) : Prop where
  grows : s.Grows s'
  yields : ∀ slot v, s.Yields slot v → s'.Yields slot v

variable {s s' s'' : Store}

theorem Keeps.refl (s : Store) : s.Keeps s :=
  ⟨.refl s, fun _ _ h => h⟩

theorem Keeps.trans (h : s.Keeps s') (h' : s'.Keeps s'') : s.Keeps s'' :=
  ⟨h.grows.trans h'.grows, fun slot v hv => h'.yields slot v (h.yields slot v hv)⟩

theorem Keeps.of_thunks_eq (h : s.Grows s') (same : s'.thunks = s.thunks) : s.Keeps s' := by
  refine ⟨h, fun slot v hv => ?_⟩
  cases hv with
  | ready => exact .ready
  | done hv => exact .done (by rw [same, hv])
  | pending hv => exact .pending (by rw [same, hv])

theorem Keeps.settle {thunk : Nat} {w : Value}
    (pending : s.thunks[thunk]? = some (.pending (.value w))) : s.Keeps (s.settle thunk w) := by
  have hlt := (Array.getElem?_eq_some_iff.1 pending).1
  refine ⟨⟨fun _ _ h => h, fun _ _ h => h⟩, fun slot v hv => ?_⟩
  cases hv with
  | ready => exact .ready
  | @done other v hv =>
    have hne : thunk ≠ other := by
      rintro rfl
      rw [pending] at hv
      cases hv
    exact .done (by rw [getElem?_settle, if_neg hne, hv])
  | @pending other v hv =>
    by_cases ho : thunk = other
    · subst ho
      rw [pending] at hv
      cases hv
      exact .done (by rw [getElem?_settle, if_pos rfl, if_pos hlt])
    · exact .pending (by rw [getElem?_settle, if_neg ho, hv])

end Store

namespace Engine

theorem read_yields {s : Store} {slot : Slot} {v : Value} (h : s.Yields slot v) (fuel : Nat) :
    ∃ s', (ofFuel (fuel + 1)).read slot s = .ok v s' ∧ s.Keeps s' := by
  cases h with
  | ready => exact ⟨s, rfl, .refl s⟩
  | @done thunk v done =>
    have hforce : (ofFuel fuel).force thunk s = .ok v s := force_done done
    exact ⟨s, hforce, .refl s⟩
  | @pending thunk v pending =>
    have hperform : (ofFuel fuel).perform (.value v) s = .ok v s := rfl
    have hforce : (ofFuel fuel).force thunk s = .ok v (s.settle thunk v) :=
      force_first pending hperform (by simp [pending])
    exact ⟨_, hforce, .settle pending⟩

end Engine

/-! ## Native forms that hold data -/

/-- The native form of a scalar is no container. -/
theorem Value.contents_of_scalar {v : Value} {n : Native} (h : v.scalar? = some n) (s : Store) :
    n.contents s = none := by
  cases v with
  | integer k =>
    cases h
    split <;> rfl
  | function f =>
    cases f with
    | native f =>
      cases h
      rfl
    | typed f => cases h
  | list items o => cases h
  | mapping es o => cases h
  | error kind message payload => cases h
  | _ =>
    cases h
    rfl

/-- A native value that holds such data, in containers that are there. -/
def Store.Bears (s : Store) (n : Native) (P : Data → Prop) : Prop :=
  ∃ d ps, s.Unfolds n d ps ∧ (∀ p ∈ ps, s.Contains p) ∧ P d

/-- The same for several values. -/
def Store.BearsAll (s : Store) (ns : List Native) (P : List Data → Prop) : Prop :=
  ∃ ds ps, Gathers s.Unfolds ns ds ps ∧ (∀ p ∈ ps, s.Contains p) ∧ P ds

namespace Store

variable {s s' : Store} {P : Data → Prop} {Q : List Data → Prop}

theorem Bears.grows {n : Native} (hs : s.Grows s') (h : s.Bears n P) : s'.Bears n P := by
  obtain ⟨d, ps, hd, there, hP⟩ := h
  exact ⟨d, ps, hd.grows hs there, fun p hp => hs.contains (there p hp), hP⟩

theorem BearsAll.grows {ns : List Native} (hs : s.Grows s') (h : s.BearsAll ns Q) :
    s'.BearsAll ns Q := by
  obtain ⟨ds, ps, hds, there, hQ⟩ := h
  refine ⟨ds, ps, hds.imp fun n _ d qs hsub hd => ?_, fun p hp => hs.contains (there p hp), hQ⟩
  exact hd.grows hs fun p hp => there p (hsub hp)

theorem BearsAll.nil (h : Q []) : s.BearsAll [] Q :=
  ⟨[], [], .nil, fun _ hp => absurd hp List.not_mem_nil, h⟩

theorem BearsAll.cons {n : Native} {ns : List Native} (h : s.Bears n P) (h' : s.BearsAll ns Q)
    {R : List Data → Prop} (hR : ∀ d ds, P d → Q ds → R (d :: ds)) : s.BearsAll (n :: ns) R := by
  obtain ⟨d, ps, hd, there, hP⟩ := h
  obtain ⟨ds, qs, hds, there', hQ⟩ := h'
  refine ⟨d :: ds, ps ++ qs, .cons hd hds, fun p hp => ?_, hR d ds hP hQ⟩
  obtain hp | hp := List.mem_append.1 hp
  · exact there p hp
  · exact there' p hp

theorem bearsAll_of_forall {ns : List Native} (h : ∀ n ∈ ns, s.Bears n fun _ => True) :
    s.BearsAll ns fun _ => True := by
  induction ns with
  | nil => exact .nil trivial
  | cons n ns ih =>
    have hrest := ih fun m hm => h m (List.mem_cons_of_mem _ hm)
    exact .cons (h n List.mem_cons_self) hrest fun _ _ _ _ => trivial

theorem bears_scalar {n : Native} (plain : n.contents s = none) (h : P (.scalar n)) : s.Bears n P :=
  ⟨.scalar n, [], .scalar plain, fun _ hp => absurd hp List.not_mem_nil, h⟩

/-- A container holds what the values in it hold. -/
theorem bears_container {n : Native} {c : Contents} (there : s.Contains n)
    (contents : n.contents s = some c) (h : s.BearsAll c.values Q)
    (hP : ∀ ds, Q ds → P (.node c.keys ds)) : s.Bears n P := by
  obtain ⟨ds, ps, hds, hthere, hQ⟩ := h
  refine ⟨_, n :: ps, .container contents hds, fun p hp => ?_, hP ds hQ⟩
  obtain rfl | hp := List.mem_cons.1 hp
  · exact there
  · exact hthere p hp

theorem newArray_bears {ns : List Native} (h : s.BearsAll ns Q)
    (hP : ∀ ds, Q ds → P (.node none ds)) :
    ∃ n s', Run.newArray ns.toArray s = .ok n s' ∧ s.Keeps s' ∧ s'.Bears n P := by
  have hgrows := s.grows_newArray (.ofContent ns.toArray)
  refine ⟨_, _, rfl, .of_thunks_eq hgrows rfl, ?_⟩
  refine bears_container (c := ⟨none, ns⟩) (by simp [Contains]) ?_ (h.grows hgrows) hP
  rw [Native.contents_array, items_of_some Array.getElem?_push_size]
  rfl

theorem newObject_bears {fs : Fields} (h : s.BearsAll (fs.map (·.2)) Q)
    (hP : ∀ ds, Q ds → P (.node (some (fs.map (·.1))) ds)) :
    ∃ n s', Run.newObject fs s = .ok n s' ∧ s.Keeps s' ∧ s'.Bears n P := by
  have hgrows := s.grows_newObject (.ofContent fs)
  refine ⟨_, _, rfl, .of_thunks_eq hgrows rfl, ?_⟩
  refine bears_container (c := ⟨some (fs.map (·.1)), fs.map (·.2)⟩) (by simp [Contains]) ?_
    (h.grows hgrows) hP
  rw [Native.contents_object, fields_of_some Array.getElem?_push_size]
  rfl

end Store

namespace Engine

/-- An engine that, once the store `s` has been reached, has a native form for a value, which holds
such data. -/
def Gives (e : Engine) (s : Store) (v : Value) (P : Data → Prop) : Prop :=
  ∀ s₁, s.Keeps s₁ → ∃ n s₂, e.ask (.native v) s₁ = .ok n s₂ ∧ s₁.Keeps s₂ ∧ s₂.Bears n P

variable {α : Type} {P : Data → Prop} {R : α → Data → Prop} {s s₁ : Store} {fuel : Nat}

theorem gives_scalar {v : Value} {n : Native} (h : v.scalar? = some n) (hP : P (.scalar n)) :
    (ofFuel (fuel + 1)).Gives s v P := by
  refine fun s₁ _ => ⟨n, s₁, native_scalar _ h s₁, .refl s₁, ?_⟩
  exact Store.bears_scalar (Value.contents_of_scalar h s₁) hP

theorem items_given {e : Engine} {vs : List Value} {as : List α}
    (h : Forall₂ (fun v a => e.Gives s v (R a)) vs as) (hs₁ : s.Keeps s₁) :
    ∃ ns s₂, vs.mapM (fun v => e.ask (.native v)) s₁ = .ok ns s₂ ∧ s₁.Keeps s₂ ∧
      s₂.BearsAll ns (Forall₂ R as) := by
  induction h generalizing s₁ with
  | nil => exact ⟨[], s₁, rfl, .refl s₁, .nil .nil⟩
  | @cons v a vs as here _ ih =>
    obtain ⟨n, s₂, hn, h₁₂, hbears⟩ := here s₁ hs₁
    obtain ⟨ns, s₃, hns, h₂₃, hall⟩ := ih (hs₁.trans h₁₂)
    refine ⟨n :: ns, s₃, ?_, h₁₂.trans h₂₃, .cons (hbears.grows h₂₃.grows) hall fun _ _ => .cons⟩
    rw [List.mapM_cons, Run.bind_run hn, Run.bind_run hns]
    rfl

theorem entries_given {entries : Entries} {vs : List Value} {as : List α}
    (yielded : Forall₂ (fun e v => s.Yields e.2 v) entries vs)
    (h : Forall₂ (fun v a => (ofFuel (fuel + 1)).Gives s v (R a)) vs as) (hs₁ : s.Keeps s₁) :
    ∃ fs s₂, (ofFuel (fuel + 1)).entriesNative entries s₁ = .ok fs s₂ ∧ s₁.Keeps s₂ ∧
      fs.map (·.1) = entries.keys ∧ s₂.BearsAll (fs.map (·.2)) (Forall₂ R as) := by
  induction yielded generalizing as s₁ with
  | nil =>
    cases h
    exact ⟨[], s₁, rfl, .refl s₁, rfl, .nil .nil⟩
  | @cons e v entries vs hv _ ih =>
    cases h with
    | cons here rest =>
      obtain ⟨s₂, hread, h₁₂⟩ := read_yields (hs₁.yields _ _ hv) fuel
      obtain ⟨n, s₃, hn, h₂₃, hbears⟩ := here s₂ (hs₁.trans h₁₂)
      obtain ⟨fs, s₄, hfs, h₃₄, hkeys, hall⟩ := ih rest (hs₁.trans (h₁₂.trans h₂₃))
      refine ⟨(e.1, n) :: fs, s₄, ?_, h₁₂.trans (h₂₃.trans h₃₄), ?_, ?_⟩
      · unfold entriesNative
        rw [Run.bind_run hread, Run.bind_run hn, Run.bind_run hfs]
        rfl
      · rw [List.map_cons, hkeys]
        rfl
      · exact .cons (hbears.grows h₃₄.grows) hall fun _ _ => .cons

theorem gives_list {items : List Value} {as : List α}
    (h : Forall₂ (fun v a => (ofFuel fuel).Gives s v (R a)) items as)
    (hP : ∀ ds, Forall₂ R as ds → P (.node none ds)) :
    (ofFuel (fuel + 1)).Gives s (.list items none) P := by
  intro s₁ hs₁
  obtain ⟨ns, s₂, hns, h₁₂, hall⟩ := items_given h hs₁
  obtain ⟨n, s₃, hn, h₂₃, hbears⟩ := Store.newArray_bears hall hP
  refine ⟨n, s₃, ?_, h₁₂.trans h₂₃, hbears⟩
  show (items.mapM (fun v => (ofFuel fuel).ask (.native v)) >>= fun ns => Run.newArray ns.toArray)
    s₁ = _
  rw [Run.bind_run hns, hn]

theorem gives_mapping {entries : Entries} {vs : List Value} {as : List α}
    (yielded : Forall₂ (fun e v => s.Yields e.2 v) entries vs)
    (h : Forall₂ (fun v a => (ofFuel (fuel + 1)).Gives s v (R a)) vs as)
    (hP : ∀ ds, Forall₂ R as ds → P (.node (some entries.keys) ds)) :
    (ofFuel (fuel + 2)).Gives s (.mapping entries none) P := by
  intro s₁ hs₁
  obtain ⟨fs, s₂, hfs, h₁₂, hkeys, hall⟩ := entries_given yielded h hs₁
  obtain ⟨n, s₃, hn, h₂₃, hbears⟩ := Store.newObject_bears hall (hkeys ▸ hP)
  refine ⟨n, s₃, ?_, h₁₂.trans h₂₃, hbears⟩
  show ((ofFuel (fuel + 1)).entriesNative entries >>= fun fs => Run.newObject fs) s₁ = _
  rw [Run.bind_run hfs, hn]

theorem gives_function (f : TypedFunction) :
    (ofFuel (fuel + 1)).Gives s (.function (.typed f)) fun _ => True := by
  intro s₁ _
  refine ⟨_, _, rfl, .of_thunks_eq ⟨fun _ _ h => h, fun _ _ h => h⟩ rfl, ?_⟩
  exact Store.bears_scalar rfl trivial

/-- The object that stands for an error. -/
theorem newObject_error {s : Store} {data : Native} (kind message : String)
    (h : s.Bears data fun _ => True) :
    ∃ n s', Run.newObject [("type", .string kind), ("message", .string message), ("data", data)] s =
        .ok n s' ∧ s.Keeps s' ∧ s'.Bears n fun _ => True := by
  have text (t : String) : s.Bears (.string t) fun _ => True := Store.bears_scalar rfl trivial
  refine Store.newObject_bears (Store.bearsAll_of_forall fun n hn => ?_) fun _ _ => trivial
  obtain rfl | rfl | rfl : n = .string kind ∨ n = .string message ∨ n = data := by simpa using hn
  · exact text kind
  · exact text message
  · exact h

theorem gives_message (kind message : String) :
    (ofFuel (fuel + 1)).Gives s (.error kind message none) fun _ => True := by
  intro s₁ _
  have hnull : s₁.Bears .null fun _ => True := Store.bears_scalar rfl trivial
  exact newObject_error kind message hnull

theorem gives_error {payload : Value} (kind message : String)
    (h : (ofFuel fuel).Gives s payload fun _ => True) :
    (ofFuel (fuel + 1)).Gives s (.error kind message (some payload)) fun _ => True := by
  intro s₁ hs₁
  obtain ⟨data, s₂, hdata, h₁₂, hbears⟩ := h s₁ hs₁
  obtain ⟨n, s₃, hn, h₂₃, hbears'⟩ := newObject_error kind message hbears
  refine ⟨n, s₃, ?_, h₁₂.trans h₂₃, hbears'⟩
  show ((ofFuel fuel).ask (.native payload) >>= fun data => Run.newObject
    [("type", .string kind), ("message", .string message), ("data", data)]) s₁ = _
  rw [Run.bind_run hdata, hn]

end Engine

end Workbook
