/-
Stores that match place by place.

`Store.Matches p s t` says that what stands at paired places is alike: containers with their
versions, blocks with their variables, evaluations and executions with their scopes and
active calls.  This is what the single changes of programs keep, and `Matches.alike` says
that it is enough: programs that read matching stores through paired places cannot tell them
apart.
-/
import Workbook.Proofs.Coupling

open List (Forall₂)

namespace Workbook

/-! ## Matching stores -/

/-- Two blocks with alike variables, inside paired blocks or no others. -/
structure Block.Alike (p : Pairing) (b c : Block) : Prop where
  bindings : Forall₂ (Keyed.Alike (Variable.Alike p)) b.bindings c.bindings
  parent : Option.Rel p.blocks b.parent c.parent

/-- Two evaluations with alike scopes and as many active calls. -/
structure Evaluation.Alike (p : Pairing) (e e' : Evaluation) : Prop where
  scope : Scope.Alike p (Value.Alike p) e.scope e'.scope
  depth : e.depth = e'.depth
  maxDepth : e.maxDepth = e'.maxDepth

/-- Two alike executions with as many active calls. -/
structure Execution.Matches (p : Pairing) (e e' : Execution) : Prop extends
    Execution.Alike p e e' where
  depth : e.depth = e'.depth
  maxDepth : e.maxDepth = e'.maxDepth

/-- Alike arrays as they stand in stores. -/
abbrev Pairing.array (p : Pairing) : Container (Array Native) → Container (Array Native) → Prop :=
  Container.Alike fun xs ys => Forall₂ (Native.Alike p) xs.toList ys.toList

/-- Alike objects as they stand in stores. -/
abbrev Pairing.object (p : Pairing) : Container Fields → Container Fields → Prop :=
  Container.Alike (Forall₂ (Keyed.Alike (Native.Alike p)))

section Mono

variable {p q : Pairing} (hpq : p.Within q)
include hpq

theorem Pairing.array_mono (c d : Container (Array Native)) (h : p.array c d) : q.array c d :=
  ⟨Native.forall_mono h.content hpq, h.version, h.frozen⟩

theorem Pairing.object_mono (c d : Container Fields) (h : p.object c d) : q.object c d :=
  ⟨Native.fields_mono h.content hpq, h.version, h.frozen⟩

theorem Variable.Alike.mono (v w : Variable) (h : Variable.Alike p v w) : Variable.Alike q v w :=
  ⟨h.value.mono hpq, h.constant⟩

theorem Block.Alike.mono (b c : Block) (h : Block.Alike p b c) : Block.Alike q b c :=
  ⟨h.bindings.imp (Keyed.Alike.imp (Variable.Alike.mono hpq)),
    optional_imp (fun _ _ => hpq.blocks) h.parent⟩

theorem Evaluation.Alike.mono (e e' : Evaluation) (h : Evaluation.Alike p e e') :
    Evaluation.Alike q e e' :=
  ⟨h.scope.mono (fun _ _ hv => hv.mono hpq) hpq, h.depth, h.maxDepth⟩

theorem Execution.Matches.mono (e e' : Execution) (h : Execution.Matches p e e') :
    Execution.Matches q e e' :=
  ⟨h.toAlike.mono hpq, h.depth, h.maxDepth⟩

end Mono

/-- Two stores in which the same stands at paired places. -/
structure Store.Matches (p : Pairing) (s t : Store) : Prop where
  arrays : ∀ {a b : Nat}, p.arrays a b → Option.Rel p.array s.arrays[a]? t.arrays[b]?
  objects : ∀ {a b : Nat}, p.objects a b → Option.Rel p.object s.objects[a]? t.objects[b]?
  blocks : ∀ {a b : Nat}, p.blocks a b → Option.Rel (Block.Alike p) s.blocks[a]? t.blocks[b]?
  evaluations : ∀ {a b : Nat}, p.evaluations a b →
    Option.Rel (Evaluation.Alike p) s.evaluations[a]? t.evaluations[b]?
  executions : ∀ {a b : Nat}, p.executions a b →
    Option.Rel (Execution.Matches p) s.executions[a]? t.executions[b]?
  /-- A search through blocks goes to lower places only. -/
  ordered : ∀ {a b c d : Nat}, p.blocks a b → p.blocks c d → (a < c ↔ b < d)
  uniqueEvaluations : Pairing.Unique p.evaluations
  uniqueExecutions : Pairing.Unique p.executions
  oneToOne : p.OneToOne

/-- A relation of places that has grown by the next places of two stores, if at all. -/
structure Grows (r r' : Nat → Nat → Prop) (m n : Nat) : Prop where
  old : ∀ {a b}, r a b → r' a b
  both : ∀ {a b}, r' a b → (a = m ↔ b = n)
  only : ∀ {a b}, r' a b → a ≠ m → r a b

namespace Store.Matches

variable {p : Pairing} {s t : Store} (h : Store.Matches p s t)
include h

/-! ## Reading -/

theorem items {a b : Nat} (hab : p.arrays a b) :
    Forall₂ (Native.Alike p) (s.items a).toList (t.items b).toList := by
  have hc := h.arrays hab
  unfold Store.items
  cases hs : s.arrays[a]? <;> cases ht : t.arrays[b]? <;> rw [hs, ht] at hc <;> cases hc
  case none.none => exact .nil
  case some.some hc => exact hc.content

theorem fields {a b : Nat} (hab : p.objects a b) :
    Forall₂ (Keyed.Alike (Native.Alike p)) (s.fields a) (t.fields b) := by
  have hc := h.objects hab
  unfold Store.fields
  cases hs : s.objects[a]? <;> cases ht : t.objects[b]? <;> rw [hs, ht] at hc <;> cases hc
  case none.none => exact .nil
  case some.some hc => exact hc.content

theorem arrayVersion {a b : Nat} (hab : p.arrays a b) :
    (s.arrays[a]?).map Container.version = (t.arrays[b]?).map Container.version := by
  exact optional_eq (fun _ _ => id) (optional_map (h.arrays hab) fun _ _ hc => hc.version)

theorem objectVersion {a b : Nat} (hab : p.objects a b) :
    (s.objects[a]?).map Container.version = (t.objects[b]?).map Container.version := by
  exact optional_eq (fun _ _ => id) (optional_map (h.objects hab) fun _ _ hc => hc.version)

theorem currentArray {o o' : Option Origin} (ho : Option.Rel (Origin.Alike p.arrays) o o') :
    Option.Rel (Native.Alike p) (Engine.currentArray s o) (Engine.currentArray t o') := by
  cases ho with
  | none => exact .none
  | some ho =>
    obtain @⟨version, a, b, hab⟩ := ho
    unfold Engine.currentArray
    simp only [Option.bind_eq_bind, Option.bind_some]
    have hc := h.arrays hab
    generalize s.arrays[a]? = x at hc ⊢
    generalize t.arrays[b]? = y at hc ⊢
    cases hc with
    | none => exact .none
    | some hc =>
      simp only [Option.bind_some]
      rw [hc.version]
      split
      · exact .some (.array hab)
      · exact .none

theorem currentObject {o o' : Option Origin} (ho : Option.Rel (Origin.Alike p.objects) o o') :
    Option.Rel (Native.Alike p) (Engine.currentObject s o) (Engine.currentObject t o') := by
  cases ho with
  | none => exact .none
  | some ho =>
    obtain @⟨version, a, b, hab⟩ := ho
    unfold Engine.currentObject
    simp only [Option.bind_eq_bind, Option.bind_some]
    have hc := h.objects hab
    generalize s.objects[a]? = x at hc ⊢
    generalize t.objects[b]? = y at hc ⊢
    cases hc with
    | none => exact .none
    | some hc =>
      simp only [Option.bind_some]
      rw [hc.version]
      split
      · exact .some (.object hab)
      · exact .none

theorem resolve? {a b : Nat} (hab : p.blocks a b) (name : String) :
    Option.Rel (fun x y => p.blocks x.1 y.1 ∧ Variable.Alike p x.2 y.2)
      (s.resolve? a name) (t.resolve? b name) := by
  induction a using Nat.strongRecOn generalizing b with
  | _ a ih =>
    rw [Store.resolve?.eq_def s, Store.resolve?.eq_def t]
    have hc := h.blocks hab
    generalize s.blocks[a]? = x at hc ⊢
    generalize t.blocks[b]? = y at hc ⊢
    cases hc with
    | none => exact .none
    | @some x y hc =>
      obtain ⟨bindings, outer⟩ := x
      obtain ⟨bindings', outer'⟩ := y
      have hv := Keyed.lookup_alike hc.bindings name
      have houter : Option.Rel p.blocks outer outer' := hc.parent
      simp only at hv ⊢
      generalize bindings.lookup name = v at hv ⊢
      generalize bindings'.lookup name = v' at hv ⊢
      cases hv with
      | some hv => exact .some ⟨hab, hv⟩
      | none =>
        cases houter with
        | none => exact .none
        | @some c d hcd =>
          simp only [← h.ordered hcd hab]
          split
          · exact ih c (by assumption) hcd
          · exact .none

theorem declared {a b : Nat} (hab : p.blocks a b) (name : String) :
    (s.blocks[a]?).any (fun b => (b.bindings.lookup name).isSome) =
      (t.blocks[b]?).any (fun b => (b.bindings.lookup name).isSome) := by
  have hc := h.blocks hab
  generalize s.blocks[a]? = x at hc ⊢
  generalize t.blocks[b]? = y at hc ⊢
  cases hc with
  | none => rfl
  | some hc => exact optional_isSome (Keyed.lookup_alike hc.bindings name)

theorem arrayFrozen {a b : Nat} (hab : p.arrays a b) : s.arrayFrozen a = t.arrayFrozen b := by
  unfold Store.arrayFrozen
  have hc := h.arrays hab
  generalize s.arrays[a]? = x at hc ⊢
  generalize t.arrays[b]? = y at hc ⊢
  cases hc with
  | none => rfl
  | some hc => exact hc.frozen

theorem objectFrozen {a b : Nat} (hab : p.objects a b) : s.objectFrozen a = t.objectFrozen b := by
  unfold Store.objectFrozen
  have hc := h.objects hab
  generalize s.objects[a]? = x at hc ⊢
  generalize t.objects[b]? = y at hc ⊢
  cases hc with
  | none => rfl
  | some hc => exact hc.frozen

theorem busy {a b : Nat} (hab : p.evaluations a b) : s.busy a = t.busy b := by
  unfold Store.busy
  have hc := h.evaluations hab
  generalize s.evaluations[a]? = x at hc ⊢
  generalize t.evaluations[b]? = y at hc ⊢
  cases hc with
  | none => rfl
  | some he =>
    rw [Option.any_some, Option.any_some, he.depth, he.maxDepth]

theorem scriptBusy {a b : Nat} (hab : p.executions a b) : s.scriptBusy a = t.scriptBusy b := by
  unfold Store.scriptBusy
  have hc := h.executions hab
  generalize s.executions[a]? = x at hc ⊢
  generalize t.executions[b]? = y at hc ⊢
  cases hc with
  | none => rfl
  | some he =>
    rw [Option.any_some, Option.any_some, he.depth, he.maxDepth]

/-! ## Conversions -/

omit h in
theorem collect_alike {α β γ δ : Type} {R : α → β → Prop} {T : γ → δ → Prop}
    {f : α → Except Fault γ} {g : β → Except Fault δ} {as : List α} {bs : List β}
    (hab : Forall₂ R as bs) (hf : ∀ a b, R a b → ExceptAlike T (f a) (g b)) :
    ExceptAlike (Forall₂ T) (Native.collect f as) (Native.collect g bs) := by
  induction hab with
  | nil => exact .ok .nil
  | cons hab _ ih => exact (hf _ _ hab).bind fun _ _ hc => ih.bind fun _ _ hcs => .ok (.cons hc hcs)

theorem any_strictEquals {outer outer' : List Native} (ho : Forall₂ (Native.Alike p) outer outer')
    {v w : Native} (hv : Native.Alike p v w) :
    outer.any (Native.strictEquals v) = outer'.any (Native.strictEquals w) := by
  induction ho with
  | nil => rfl
  | cons hx _ ih =>
    rw [List.any_cons, List.any_cons, Native.strictEquals_eq h.oneToOne hv hx, ih]

/-- Values that are converted with as much fuel come out alike. -/
theorem toValueIn (fuel : Nat) {outer outer' : List Native} {v w : Native}
    (ho : Forall₂ (Native.Alike p) outer outer') (hv : Native.Alike p v w) :
    ExceptAlike (Value.Alike p) (v.toValueIn s fuel outer) (w.toValueIn t fuel outer') := by
  induction fuel generalizing outer outer' v w with
  | zero =>
    cases hv with
    | array _ => exact .error _
    | object _ => exact .error _
    | undefined => exact .ok .null
    | null => exact .ok .null
    | boolean b => exact .ok (.boolean b)
    | number x => exact .ok (Native.ofNumber_alike x)
    | big n => exact .ok (Value.ofInt_alike n)
    | string u => exact .ok (.string u)
    | date n => exact .ok (.date n)
    | bytes hb => exact .ok (.bytes hb)
    | function hf => exact .ok (.function (.native hf))
    | marker m => exact .ok (.signal m)
  | succ fuel ih =>
    cases hv with
    | undefined => exact .ok .null
    | null => exact .ok .null
    | boolean b => exact .ok (.boolean b)
    | number x => exact .ok (Native.ofNumber_alike x)
    | big n => exact .ok (Value.ofInt_alike n)
    | string u => exact .ok (.string u)
    | date n => exact .ok (.date n)
    | bytes hb => exact .ok (.bytes hb)
    | function hf => exact .ok (.function (.native hf))
    | marker m => exact .ok (.signal m)
    | array hab =>
      unfold Native.toValueIn
      rw [h.any_strictEquals ho (.array hab), h.arrayVersion hab]
      refine ExceptAlike.ite (.error _) ?_
      refine (collect_alike (h.items hab) fun _ _ hx => ih (.cons (.array hab) ho) hx).bind ?_
      exact fun _ _ hvs => .ok (.list hvs (.some (.mk _ hab)))
    | object hab =>
      unfold Native.toValueIn
      rw [h.any_strictEquals ho (.object hab), h.objectVersion hab]
      refine ExceptAlike.ite (.error _) ?_
      refine (collect_alike (h.fields hab) fun (k, v) (k', v') hx => ?_).bind ?_ 
        (T := Value.Alike p) (R := Forall₂ (Keyed.Alike (Value.Alike p)))
      · cases hx with
        | mk k hx => exact (ih (.cons (.object hab) ho) hx).map fun _ _ hv => .mk k hv
      · exact fun _ _ hes => .ok (.mapping (Entries.ofList_alike hes) (.some (.mk _ hab)))

/-! ## Changing -/

section Change

omit h

/-- Arrays that grow by one each. -/
theorem rel_push {α β : Type} {R : α → β → Prop} {xs : Array α} {ys : Array β} {x : α} {y : β}
    {i j : Nat} (hij : i = xs.size ↔ j = ys.size) (h : i ≠ xs.size → Option.Rel R xs[i]? ys[j]?)
    (hxy : R x y) : Option.Rel R (xs.push x)[i]? (ys.push y)[j]? := by
  rw [Array.getElem?_push, Array.getElem?_push]
  by_cases hi : i = xs.size
  · rw [if_pos hi, if_pos (hij.1 hi)]
    exact .some hxy
  · rw [if_neg hi, if_neg (mt hij.2 hi)]
    exact h hi

/-- Arrays in each of which one place is changed. -/
theorem rel_modify {α β : Type} {R : α → β → Prop} {xs : Array α} {ys : Array β} {f : α → α}
    {g : β → β} {a b i j : Nat} (hij : a = i ↔ b = j) (h : Option.Rel R xs[i]? ys[j]?)
    (hfg : ∀ x y, R x y → R (f x) (g y)) :
    Option.Rel R (xs.modify a f)[i]? (ys.modify b g)[j]? := by
  rw [Array.getElem?_modify, Array.getElem?_modify]
  by_cases hi : a = i
  · rw [if_pos hi, if_pos (hij.1 hi)]
    exact optional_map h hfg
  · rw [if_neg hi, if_neg (mt hij.2 hi)]
    exact h

end Change

/-- Blocks are paired one to one. -/
theorem uniqueBlocks : Pairing.Unique p.blocks := by
  intro a b c d hab hcd
  have h₁ := h.ordered hab hcd
  have h₂ := h.ordered hcd hab
  omega

theorem modifyArray {a b : Nat} {f g : Container (Array Native) → Container (Array Native)}
    (hab : p.arrays a b) (hfg : ∀ c d, p.array c d → p.array (f c) (g d)) :
    Store.Matches p (s.modifyArray a f) (t.modifyArray b g) :=
  { h with
    arrays := fun hcd => rel_modify (h.oneToOne.arrays hab hcd) (h.arrays hcd) hfg }

theorem modifyObject {a b : Nat} {f g : Container Fields → Container Fields}
    (hab : p.objects a b) (hfg : ∀ c d, p.object c d → p.object (f c) (g d)) :
    Store.Matches p (s.modifyObject a f) (t.modifyObject b g) :=
  { h with
    objects := fun hcd => rel_modify (h.oneToOne.objects hab hcd) (h.objects hcd) hfg }

theorem setVariable {a b : Nat} (hab : p.blocks a b) (name : String) {v v' : Variable}
    (hv : Variable.Alike p v v') :
    Store.Matches p (s.setVariable a name v) (t.setVariable b name v') :=
  { h with
    blocks := fun hcd => rel_modify (h.uniqueBlocks hab hcd) (h.blocks hcd) fun _ _ hb =>
      ⟨Keyed.put_alike hb.bindings name hv, hb.parent⟩ }

theorem countCalls {a b : Nat} (hab : p.evaluations a b) (f : Nat → Nat) :
    Store.Matches p (s.countCalls a f) (t.countCalls b f) :=
  { h with
    evaluations := fun hcd => rel_modify (h.uniqueEvaluations hab hcd) (h.evaluations hcd)
      fun _ _ he => ⟨he.scope, congrArg f he.depth, he.maxDepth⟩ }

theorem countScriptCalls {a b : Nat} (hab : p.executions a b) (f : Nat → Nat) :
    Store.Matches p (s.countScriptCalls a f) (t.countScriptCalls b f) :=
  { h with
    executions := fun hcd => rel_modify (h.uniqueExecutions hab hcd) (h.executions hcd)
      fun _ _ he => ⟨⟨he.scope, he.known⟩, congrArg f he.depth, he.maxDepth⟩ }

theorem remember {a b : Nat} (hab : p.executions a b) (name : String) {v v' : Native}
    (hv : Native.Alike p v v') :
    Store.Matches p
      { s with executions := s.executions.modify a fun e => { e with known := (name, v) :: e.known } }
      { t with executions := t.executions.modify b fun e => { e with known := (name, v') :: e.known } } :=
  { h with
    executions := fun hcd => rel_modify (h.uniqueExecutions hab hcd) (h.executions hcd)
      fun _ _ he => ⟨⟨he.scope, .cons (.mk name hv) he.known⟩, he.depth, he.maxDepth⟩ }

/-! ## Growing -/

theorem addArray {r : Nat → Nat → Prop} (hr : Grows p.arrays r s.arrays.size t.arrays.size)
    (unique : Pairing.Unique r) {c d : Container (Array Native)}
    (hcd : Pairing.array { p with arrays := r } c d) :
    Store.Matches { p with arrays := r } { s with arrays := s.arrays.push c }
      { t with arrays := t.arrays.push d } :=
  have hp : p.Within { p with arrays := r } := { Pairing.Within.refl p with arrays := hr.old }
  { arrays := fun hab => rel_push (hr.both hab)
      (fun ha => optional_imp (Pairing.array_mono hp) (h.arrays (hr.only hab ha))) hcd
    objects := fun hab => optional_imp (Pairing.object_mono hp) (h.objects hab)
    blocks := fun hab => optional_imp (Block.Alike.mono hp) (h.blocks hab)
    evaluations := fun hab => optional_imp (Evaluation.Alike.mono hp) (h.evaluations hab)
    executions := fun hab => optional_imp (Execution.Matches.mono hp) (h.executions hab)
    ordered := h.ordered
    uniqueEvaluations := h.uniqueEvaluations
    uniqueExecutions := h.uniqueExecutions
    oneToOne := { h.oneToOne with arrays := unique } }

theorem addObject {r : Nat → Nat → Prop} (hr : Grows p.objects r s.objects.size t.objects.size)
    (unique : Pairing.Unique r) {c d : Container Fields}
    (hcd : Pairing.object { p with objects := r } c d) :
    Store.Matches { p with objects := r } { s with objects := s.objects.push c }
      { t with objects := t.objects.push d } :=
  have hp : p.Within { p with objects := r } := { Pairing.Within.refl p with objects := hr.old }
  { arrays := fun hab => optional_imp (Pairing.array_mono hp) (h.arrays hab)
    objects := fun hab => rel_push (hr.both hab)
      (fun ha => optional_imp (Pairing.object_mono hp) (h.objects (hr.only hab ha))) hcd
    blocks := fun hab => optional_imp (Block.Alike.mono hp) (h.blocks hab)
    evaluations := fun hab => optional_imp (Evaluation.Alike.mono hp) (h.evaluations hab)
    executions := fun hab => optional_imp (Execution.Matches.mono hp) (h.executions hab)
    ordered := h.ordered
    uniqueEvaluations := h.uniqueEvaluations
    uniqueExecutions := h.uniqueExecutions
    oneToOne := { h.oneToOne with objects := unique } }

theorem addBlock {r : Nat → Nat → Prop} (hr : Grows p.blocks r s.blocks.size t.blocks.size)
    (ordered : ∀ {a b c d : Nat}, r a b → r c d → (a < c ↔ b < d)) {b c : Block}
    (hbc : Block.Alike { p with blocks := r } b c) :
    Store.Matches { p with blocks := r } { s with blocks := s.blocks.push b }
      { t with blocks := t.blocks.push c } :=
  have hp : p.Within { p with blocks := r } := { Pairing.Within.refl p with blocks := hr.old }
  { arrays := fun hab => optional_imp (Pairing.array_mono hp) (h.arrays hab)
    objects := fun hab => optional_imp (Pairing.object_mono hp) (h.objects hab)
    blocks := fun hab => rel_push (hr.both hab)
      (fun ha => optional_imp (Block.Alike.mono hp) (h.blocks (hr.only hab ha))) hbc
    evaluations := fun hab => optional_imp (Evaluation.Alike.mono hp) (h.evaluations hab)
    executions := fun hab => optional_imp (Execution.Matches.mono hp) (h.executions hab)
    ordered := ordered
    uniqueEvaluations := h.uniqueEvaluations
    uniqueExecutions := h.uniqueExecutions
    oneToOne := { h.oneToOne with } }

theorem addEvaluation {r : Nat → Nat → Prop}
    (hr : Grows p.evaluations r s.evaluations.size t.evaluations.size)
    (unique : Pairing.Unique r) {e e' : Evaluation}
    (he : Evaluation.Alike { p with evaluations := r } e e') :
    Store.Matches { p with evaluations := r } { s with evaluations := s.evaluations.push e }
      { t with evaluations := t.evaluations.push e' } :=
  have hp : p.Within { p with evaluations := r } :=
    { Pairing.Within.refl p with evaluations := hr.old }
  { arrays := fun hab => optional_imp (Pairing.array_mono hp) (h.arrays hab)
    objects := fun hab => optional_imp (Pairing.object_mono hp) (h.objects hab)
    blocks := fun hab => optional_imp (Block.Alike.mono hp) (h.blocks hab)
    evaluations := fun hab => rel_push (hr.both hab)
      (fun ha => optional_imp (Evaluation.Alike.mono hp) (h.evaluations (hr.only hab ha))) he
    executions := fun hab => optional_imp (Execution.Matches.mono hp) (h.executions hab)
    ordered := h.ordered
    uniqueEvaluations := unique
    uniqueExecutions := h.uniqueExecutions
    oneToOne := { h.oneToOne with } }

theorem addExecution {r : Nat → Nat → Prop}
    (hr : Grows p.executions r s.executions.size t.executions.size)
    (unique : Pairing.Unique r) {e e' : Execution}
    (he : Execution.Matches { p with executions := r } e e') :
    Store.Matches { p with executions := r } { s with executions := s.executions.push e }
      { t with executions := t.executions.push e' } :=
  have hp : p.Within { p with executions := r } :=
    { Pairing.Within.refl p with executions := hr.old }
  { arrays := fun hab => optional_imp (Pairing.array_mono hp) (h.arrays hab)
    objects := fun hab => optional_imp (Pairing.object_mono hp) (h.objects hab)
    blocks := fun hab => optional_imp (Block.Alike.mono hp) (h.blocks hab)
    evaluations := fun hab => optional_imp (Evaluation.Alike.mono hp) (h.evaluations hab)
    executions := fun hab => rel_push (hr.both hab)
      (fun ha => optional_imp (Execution.Matches.mono hp) (h.executions (hr.only hab ha))) he
    ordered := h.ordered
    uniqueEvaluations := h.uniqueEvaluations
    uniqueExecutions := unique
    oneToOne := { h.oneToOne with } }

end Store.Matches
end Workbook
