/-
What results are converted to.

A script's value is converted before it is frozen, and freezing changes nothing that a conversion
reads; nothing that is frozen is changed afterwards.  So the two forms of a script's result belong
together at all times: the native one is converted to the other one (`Founded.toValue`).
-/
import Workbook.Proofs.Session.Origin
import Workbook.Proofs.Snapshot

open List (Forall₂)

namespace Workbook

/-! ## Conversions in two stores -/

/-- What a conversion reads of a container. -/
def Container.data {α : Type} (c : Container α) : α × Nat :=
  (c.content, c.version)

namespace Native

variable {s t : Store}

/-- Values are converted alike in two stores in which all that is found in them is alike. -/
theorem toValueIn_congr {P : Native → Prop}
    (arrays : ∀ place, P (.array place) →
      (t.arrays[place]?).map Container.data = (s.arrays[place]?).map Container.data)
    (objects : ∀ place, P (.object place) →
      (t.objects[place]?).map Container.data = (s.objects[place]?).map Container.data)
    (items : ∀ place c, P (.array place) → s.arrays[place]? = some c → ∀ v ∈ c.content, P v)
    (fields : ∀ place c, P (.object place) → s.objects[place]? = some c → ∀ f ∈ c.content, P f.2)
    (fuel : Nat) (outer : List Native) {n : Native} (hn : P n) :
    n.toValueIn t fuel outer = n.toValueIn s fuel outer := by
  induction fuel generalizing outer n with
  | zero => cases n <;> rfl
  | succ fuel ih =>
    cases n with
    | array place =>
      have hdata := arrays place hn
      have hitems : t.items place = s.items place := by
        have h := congrArg (Option.map Prod.fst) hdata
        rw [Option.map_map, Option.map_map] at h
        unfold Store.items
        generalize t.arrays[place]? = found at h ⊢
        generalize s.arrays[place]? = found' at h ⊢
        cases found with
        | none =>
          obtain rfl := Option.map_eq_none_iff.1 h.symm
          rfl
        | some c =>
          obtain ⟨d, rfl, hcd⟩ := Option.map_eq_some_iff.1 h.symm
          exact hcd.symm
      have hversion : (t.arrays[place]?).map Container.version =
          (s.arrays[place]?).map Container.version := by
        have h := congrArg (Option.map Prod.snd) hdata
        rwa [Option.map_map, Option.map_map] at h
      have hcollect : collect (toValueIn t fuel (array place :: outer)) (s.items place).toList =
          collect (toValueIn s fuel (array place :: outer)) (s.items place).toList := by
        refine collect_congr fun v hv => ih (array place :: outer) ?_
        unfold Store.items at hv
        cases hc : s.arrays[place]? with
        | none =>
          rw [hc] at hv
          simp at hv
        | some c =>
          rw [hc] at hv
          exact items place c hn hc v (Array.mem_toList_iff.1 hv)
      unfold toValueIn
      rw [hitems, hcollect, hversion]
    | object place =>
      have hdata := objects place hn
      have hfields : t.fields place = s.fields place := by
        have h := congrArg (Option.map Prod.fst) hdata
        rw [Option.map_map, Option.map_map] at h
        unfold Store.fields
        generalize t.objects[place]? = found at h ⊢
        generalize s.objects[place]? = found' at h ⊢
        cases found with
        | none =>
          obtain rfl := Option.map_eq_none_iff.1 h.symm
          rfl
        | some c =>
          obtain ⟨d, rfl, hcd⟩ := Option.map_eq_some_iff.1 h.symm
          exact hcd.symm
      have hversion : (t.objects[place]?).map Container.version =
          (s.objects[place]?).map Container.version := by
        have h := congrArg (Option.map Prod.snd) hdata
        rwa [Option.map_map, Option.map_map] at h
      have hcollect : collect (fun f : String × Native =>
            (f.1, ·) <$> toValueIn t fuel (object place :: outer) f.2) (s.fields place) =
          collect (fun f : String × Native =>
            (f.1, ·) <$> toValueIn s fuel (object place :: outer) f.2) (s.fields place) := by
        refine collect_congr fun f hf => congrArg (_ <$> ·) (ih (object place :: outer) ?_)
        unfold Store.fields at hf
        cases hc : s.objects[place]? with
        | none =>
          rw [hc] at hf
          cases hf
        | some c =>
          rw [hc] at hf
          exact fields place c hn hc f hf
      unfold toValueIn
      rw [hfields, hcollect, hversion]
    | _ => rfl

/-- Frozen values are converted to the same as before. -/
theorem toValueIn_kept (tight : s.FrozenAll s.Sealed) (kept : s.FrozenKept t) {n : Native}
    (hn : s.Sealed n) (fuel : Nat) (outer : List Native) :
    n.toValueIn t fuel outer = n.toValueIn s fuel outer := by
  refine toValueIn_congr (P := s.Sealed) ?_ ?_ ?_ ?_ fuel outer hn
  · rintro place ⟨c, hc, hf⟩
    rw [kept.arrays place c hc hf, hc]
  · rintro place ⟨c, hc, hf⟩
    rw [kept.objects place c hc hf, hc]
  · rintro place c ⟨d, hd, hf⟩ hc
    obtain rfl : c = d := Option.some.inj (hc.symm.trans hd)
    exact tight.arrays place c hc hf
  · rintro place c ⟨d, hd, hf⟩ hc
    obtain rfl : c = d := Option.some.inj (hc.symm.trans hd)
    exact tight.objects place c hc hf

/-- Freezing changes nothing that is read of containers. -/
theorem data_freeze (s : Store) (n : Native) :
    (∀ place : Nat, ((s.freeze n).arrays[place]?).map Container.data =
      (s.arrays[place]?).map Container.data) ∧
    ∀ place : Nat, ((s.freeze n).objects[place]?).map Container.data =
      (s.objects[place]?).map Container.data := by
  have hmodify {α : Type} (cs : Array (Container α)) (place other : Nat) :
      ((cs.modify place .sealed)[other]?).map Container.data = (cs[other]?).map Container.data := by
    rw [Array.getElem?_modify]
    split
    · rw [Option.map_map]
      rfl
    · rfl
  refine Store.freezeAll_of_freezeOne (R := fun s t =>
    (∀ place : Nat, (t.arrays[place]?).map Container.data = (s.arrays[place]?).map Container.data) ∧
      ∀ place : Nat, (t.objects[place]?).map Container.data = (s.objects[place]?).map Container.data)
    (fun _ => ⟨fun _ => rfl, fun _ => rfl⟩) ?_ (fun s v => ?_) _ s [n]
  · rintro s t u ⟨ha, ho⟩ ⟨ha', ho'⟩
    exact ⟨fun place => (ha' place).trans (ha place), fun place => (ho' place).trans (ho place)⟩
  · obtain h | ⟨place, c, -, -, -, h⟩ | ⟨place, c, -, -, -, h⟩ := s.freezeOne_shape v
    · rw [h]
      exact ⟨fun _ => rfl, fun _ => rfl⟩
    · rw [h]
      exact ⟨hmodify s.arrays place, fun _ => rfl⟩
    · rw [h]
      exact ⟨fun _ => rfl, hmodify s.objects place⟩

theorem toValueIn_freeze (s : Store) (m n : Native) (fuel : Nat) (outer : List Native) :
    n.toValueIn (s.freeze m) fuel outer = n.toValueIn s fuel outer := by
  obtain ⟨arrays, objects⟩ := data_freeze s m
  exact toValueIn_congr (P := fun _ => True) (fun place _ => arrays place)
    (fun place _ => objects place) (fun _ _ _ _ _ _ => trivial) (fun _ _ _ _ _ _ => trivial) fuel
    outer trivial

/-! ### Fuel -/

/-- What is collected is collected by a function that goes further. -/
theorem collect_mono {α β : Type} {f g : α → Except Fault β} {as : List α} {bs : List β}
    (h : ∀ a ∈ as, ∀ b, f a = .ok b → g a = .ok b) (hf : collect f as = .ok bs) :
    collect g as = .ok bs := by
  have hfg : Forall₂ (fun a b => g a = .ok b) as bs :=
    forall₂_imp_mem (collect_eq_ok hf) fun a ha b _ hab => h a ha b hab
  clear hf h
  induction hfg with
  | nil => rfl
  | cons hab _ ih =>
    rw [collect, hab, ih]
    rfl

/-- What can be converted can be converted with more fuel. -/
theorem toValueIn_mono {fuel fuel' : Nat} (hle : fuel ≤ fuel') {outer : List Native} {n : Native}
    {v : Value} (h : n.toValueIn s fuel outer = .ok v) : n.toValueIn s fuel' outer = .ok v := by
  induction fuel generalizing fuel' outer n v with
  | zero =>
    cases n with
    | array place => cases h
    | object place => cases h
    | _ =>
      unfold toValueIn at h ⊢
      exact h
  | succ fuel ih =>
    obtain ⟨fuel', rfl⟩ : ∃ k, fuel' = k + 1 := ⟨fuel' - 1, by omega⟩
    have hle : fuel ≤ fuel' := by omega
    cases n with
    | array place =>
      unfold toValueIn at h ⊢
      split at h
      · cases h
      · rename_i hout
        cases hcollect : collect (toValueIn s fuel (array place :: outer)) (s.items place).toList with
        | error e =>
          rw [hcollect] at h
          cases h
        | ok items =>
          rw [hcollect] at h
          rw [if_neg hout, collect_mono (fun v _ w hw => ih hle hw) hcollect]
          exact h
    | object place =>
      unfold toValueIn at h ⊢
      split at h
      · cases h
      · rename_i hout
        cases hcollect : collect (fun f : String × Native =>
            (f.1, ·) <$> toValueIn s fuel (object place :: outer) f.2) (s.fields place) with
        | error e =>
          rw [hcollect] at h
          cases h
        | ok es =>
          rw [hcollect] at h
          have hmore : collect (fun f : String × Native =>
              (f.1, ·) <$> toValueIn s fuel' (object place :: outer) f.2) (s.fields place) =
              .ok es := by
            refine collect_mono (fun f _ e he => ?_) hcollect
            cases hf : toValueIn s fuel (object place :: outer) f.2 with
            | error _ =>
              rw [hf] at he
              cases he
            | ok w =>
              rw [hf] at he
              rw [ih hle hf]
              exact he
          rw [if_neg hout, hmore]
          exact h
    | _ => exact h

/-- What can be converted with any fuel is converted. -/
theorem toValue_of_toValueIn {fuel : Nat} {n : Native} {v : Value}
    (h : n.toValueIn s fuel [] = .ok v) : n.toValue s = .ok v := by
  by_cases hfuel : s.containers < fuel
  · rw [toValue_eq hfuel]
    exact h
  · exact toValueIn_mono (by omega) h

end Native

/-! ## Executions -/

namespace Store

variable {s t u : Store} {fuel place : Nat} {key : String} {σ : Session} {x : Outline.Expression}
  {o : Outcome}

/-- After an execution the store is firm, and the value is frozen that it has come to. -/
theorem Executes.after (h : s.Executes fuel place key σ x o u) :
    u.Firm ∧ ∀ n v, o = .value n v → u.Sealed n := by
  have hfirm := firm_begun h.firm place key
  have hkeeps := (firmCustody_lenient place).execute (w := Accord.begun s place key)
    (firmCustody_serves fuel) σ x
  obtain ⟨w, -, hi, -, ho⟩ := (hkeeps.after ⟨rfl, .refl hfirm⟩).1 o u h.run
  exact ⟨hi.2.firm, fun n v hn => (ho n v hn).mono hi.2.kept⟩

/-- How a script comes to a value: it is converted, and then frozen. -/
theorem executeScript_value {e : Engine} {place : Nat} {σ : Session} {x : Outline.Expression}
    {s u : Store} {n : Native} {v : Value} (h : e.executeScript place σ x s = .ok (.value n v) u) :
    ∃ t, n.toValue t = .ok v ∧ u = t.freeze n := by
  unfold Engine.executeScript at h
  obtain ⟨c, s₁, -, h⟩ := Run.bind_eq_ok h
  cases c with
  | error ps =>
    have hvalue := (EStateM.Result.ok.inj h).1
    unfold Outcome.unreadableScript at hvalue
    split at hvalue <;> cases hvalue
  | ok p =>
    obtain ⟨r, s₂, -, h⟩ := Run.bind_eq_ok h
    cases r with
    | error f => cases h
    | ok m =>
      obtain ⟨t, s₃, ht, h⟩ := Run.bind_eq_ok h
      cases ht
      cases hm : m.toValue s₂ with
      | error f =>
        simp only [hm] at h
        cases h
      | ok w =>
        simp only [hm] at h
        cases h
        exact ⟨s₂, hm, rfl⟩

/-- An execution is counted first. -/
theorem Executes.script (h : s.Executes fuel place key σ x o u) (hx : x.language = .script) :
    (Engine.ofFuel fuel).executeScript place σ x (s.counted place key) = .ok o u := by
  have hrun := h.run
  unfold Engine.execute at hrun
  rw [hx] at hrun
  exact hrun

theorem Executes.formula (h : s.Executes fuel place key σ x o u) (hx : x.language = .formula) :
    (Engine.ofFuel fuel).executeFormula place σ x (s.counted place key) = .ok o u := by
  have hrun := h.run
  unfold Engine.execute at hrun
  rw [hx] at hrun
  exact hrun

/-- How a formula comes to a value: its native form is made, and then frozen. -/
theorem executeFormula_value {e : Engine} {place : Nat} {σ : Session} {x : Outline.Expression}
    {s u : Store} {n : Native} {v : Value} (h : e.executeFormula place σ x s = .ok (.value n v) u) :
    ∃ s' t, e.ask (.native v) s' = .ok n t ∧ u = t.freeze n := by
  unfold Engine.executeFormula at h
  cases hcompile : Formula.compile ⟨x.path, σ.sourceText x⟩ with
  | error ps =>
    simp only [hcompile] at h
    have hvalue := (EStateM.Result.ok.inj h).1
    unfold Outcome.unreadableFormula at hvalue
    split at hvalue <;> cases hvalue
  | ok tree =>
    simp only [hcompile] at h
    obtain ⟨r, s₁, -, h⟩ := Run.bind_eq_ok h
    cases r with
    | error f => cases h
    | ok w =>
      obtain ⟨m, s₂, hm, h⟩ := Run.bind_eq_ok h
      cases h
      exact ⟨s₁, s₂, hm, rfl⟩

/-- The native form of a formula's result was made of its value at some time. -/
theorem Founded.made (h : t.Founded) {r : Result} (hx : t.expression? place key = some x)
    (formula : x.language = .formula) (hr : t.result? place key = some r) {n : Native} {v : Value}
    (hn : r.outcome = .value n v) : ∃ fuel s u,
      (Engine.ofFuel fuel).ask (.native v) s = .ok n u ∧ u.Precedes place t := by
  obtain ⟨fuel, s, σ, u, hexecutes, hu⟩ := h.origins hx hr
  have hrun := hexecutes.formula formula
  rw [hn] at hrun
  obtain ⟨s', u', hmade, rfl⟩ := executeFormula_value hrun
  exact ⟨fuel, s', u', hmade, (precedes_ordinary (u'.ordinary_freeze n) place).trans hu⟩

/-- In the native form of a script's result, the other form is found at any time. -/
theorem Founded.toValue (h : t.Founded) {r : Result} (hx : t.expression? place key = some x)
    (hscript : x.language = .script) (hr : t.result? place key = some r) {n : Native} {v : Value}
    (hn : r.outcome = .value n v) : n.toValue t = .ok v := by
  obtain ⟨fuel, s, σ, u, hexecutes, hu⟩ := h.origins hx hr
  obtain ⟨firm, hsealed⟩ := hexecutes.after
  have hrun := hexecutes.script hscript
  rw [hn] at hrun
  obtain ⟨s', hs', rfl⟩ := executeScript_value hrun
  have hconverted : n.toValueIn (s'.freeze n) (s'.containers + 1) [] = .ok v := by
    rw [Native.toValueIn_freeze]
    exact hs'
  have hlater : n.toValueIn t (s'.containers + 1) [] = .ok v := by
    rw [Native.toValueIn_kept firm.tight hu.toFrozenKept (hsealed n v hn)]
    exact hconverted
  exact Native.toValue_of_toValueIn hlater

end Store
end Workbook
