/-
Frozen containers stay as they are.

Whatever a script does, in whatever scope and store it runs, an array or object that was
frozen before has the same contents and the same version afterwards: every way to modify a
container goes through `Run.touchArray` or `Run.touchObject`, which refuse.  Sessions add
nothing to this, for what they change is not in containers.
-/
import Workbook.Proofs.Session.Firm

namespace Workbook

/-- The custody of a store's frozen containers. -/
def Store.frozenCustody (s₀ : Store) : Custody where
  toCoupling := .ofInvariant (fun _ _ : Unit => True) (fun _ => trivial)
    (fun _ _ => trivial) (fun _ s => s₀.FrozenKept s) fun h h' => h.trans h'.toFrozenKept
  same h := h.1
  narrow _ := .refl _
  thunks _ _ := rfl
  sessions _ _ := rfl
  Made _ _ _ := True
  Settles _ _ _ _ := True
  Outlined _ _ _ := True
  Fixed _ _ := True
  Inner _ _ := True
  made_mono _ _ := trivial
  outlined_mono _ _ := trivial
  inner_mono _ _ := trivial
  fixed_mono _ _ := trivial
  pending _ _ := trivial
  value _ := Value.alike_self _
  done _ _ := Value.alike_self _
  valid _ _ := Session.valid_self _
  outlined _ _ := trivial
  gone _ _ _ := trivial
  newThunk _ _ hi := ⟨(), trivial, ⟨rfl, hi.2.arrays, hi.2.objects⟩, trivial⟩
  settle hi _ _ _ := ⟨rfl, hi.2.arrays, hi.2.objects⟩
  scripts _ hi := ⟨rfl, hi.2.arrays, hi.2.objects⟩
  keepFolder hi _ _ := ⟨rfl, hi.2.arrays, hi.2.objects⟩
  keepImport hi _ _ _ := ⟨rfl, hi.2.arrays, hi.2.objects⟩
  newSession hi _ _ := ⟨(), trivial, ⟨rfl, hi.2.arrays, hi.2.objects⟩, trivial⟩
  release hi _ := ⟨rfl, hi.2.arrays, hi.2.objects⟩
  changeModules _ hi := ⟨rfl, hi.2.arrays, hi.2.objects⟩
  fix {_ s n} hi _ := ⟨(), trivial, ⟨rfl, hi.2.trans (s.ordinary_freeze n).toFrozenKept⟩, trivial⟩

namespace Store

theorem frozenCustody_lenient (s₀ : Store) (place : Nat) : s₀.frozenCustody.Lenient place where
  note _ _ hi := ⟨rfl, hi.2.arrays, hi.2.objects⟩
  record hi _ _ := ⟨rfl, hi.2.arrays, hi.2.objects⟩
  settles _ _ _ := trivial

/-- Every engine leaves frozen containers as they are. -/
theorem frozenCustody_serves (s₀ : Store) (fuel : Nat) :
    s₀.frozenCustody.Serves (Engine.ofFuel fuel) :=
  s₀.frozenCustody.serves (fun _ he _ place => (s₀.frozenCustody_lenient place).evaluate he) fuel

/-- Whatever an engine is asked, frozen containers are left as they are. -/
theorem frozenKept_ask (fuel : Nat) {α : Type} {r : Request α} {s s' : Store}
    (h : ((Engine.ofFuel fuel).ask r).EndsIn s s') : s.FrozenKept s' := by
  have he := s.frozenCustody_serves fuel
  have hrun : s.frozenCustody.Keeps () ((Engine.ofFuel fuel).ask r) fun _ _ => True := by
    refine .of_rel (he.answers.agree (fun _ => rfl) (fun w place key => ?_) () r)
      fun _ _ _ _ hab => ⟨hab, trivial⟩
    exact (he.evaluate w place key).rel fun _ _ _ _ => rfl
  obtain ⟨_, -, hi⟩ := hrun.endsIn ⟨rfl, .refl s⟩ h
  exact hi.2

end Store

/-- A script leaves frozen containers as they are, whether it comes to a value or fails. -/
theorem runScript_frozenKept (fuel : Nat) (scope : Scope Native) (maxDepth : Nat) (name : String)
    (body : List Script.Stmt) {s s' : Store}
    (h : ((Engine.ofFuel fuel).runScript scope maxDepth name body).EndsIn s s') :
    s.FrozenKept s' := by
  have hrun : s.frozenCustody.Keeps () ((Engine.ofFuel fuel).runScript scope maxDepth name body)
      fun _ _ => True :=
    .of_rel ((s.frozenCustody_serves fuel).answers.runScript s.frozenCustody.thorough.toScripting
      (Store.scope_alike_self Native.alike_self scope) maxDepth name body)
      fun _ _ _ _ h => ⟨Native.eq_of_alike h, trivial⟩
  obtain ⟨_, -, hi⟩ := hrun.endsIn ⟨rfl, .refl s⟩ h
  exact hi.2

/-! ## Results -/

namespace Store

/-- The custody of firm stores. -/
def firmCustody : Custody where
  toCoupling := firmCoupling
  same h := h.1
  narrow := bound_within_same
  thunks _ _ := rfl
  sessions _ _ := rfl
  Made w _ work := (Thunk.pending work).Valid w.bound
  Settles _ _ _ _ := True
  Outlined _ _ _ := True
  Fixed := Sealed
  Inner _ _ := True
  made_mono hw h := Thunk.Valid.mono (Later.within hw) h
  outlined_mono _ _ := trivial
  inner_mono _ _ := trivial
  fixed_mono hw h := h.mono (Later.toFrozenKept hw)
  pending hi ht := hi.2.thunk ht
  value h := h
  done hi ht := hi.2.thunk ht
  valid hi hσ := hi.2.session hσ
  outlined _ _ := trivial
  gone _ _ _ := trivial
  newThunk {w _} work hwork hi := by
    refine ⟨w, .refl w, ⟨rfl, hi.2.change rfl rfl (hi.2.firm.addThunk hwork)⟩, ?_⟩
    cases work with
    | value v => exact absurd rfl (hwork v)
    | _ => trivial
  settle hi _ hv _ := ⟨rfl, hi.2.change rfl rfl (hi.2.firm.settle (hi.2.bound ▸ hv))⟩
  scripts f hi := ⟨rfl, hi.2.change rfl rfl (hi.2.firm.changeSession
    (fun _ h => ⟨⟨rfl, h.alike.overrides, rfl, rfl, h.alike.library, h.alike.math⟩, h.results,
      h.folderValues, h.imports⟩) fun _ _ he => .inl he)⟩
  keepFolder hi _ hes := by
    refine ⟨rfl, hi.2.change rfl rfl (hi.2.firm.changeSession (fun σ h => ?_) fun _ _ he => .inl he)⟩
    refine ⟨⟨rfl, h.alike.overrides, rfl, rfl, h.alike.library, h.alike.math⟩, h.results, ?_,
      h.imports⟩
    exact List.forall_mem_cons.2 ⟨hes.ofEntries fun _ => rfl, h.folderValues⟩
  keepImport hi _ hv _ := by
    refine ⟨rfl, hi.2.change rfl rfl (hi.2.firm.changeSession (fun σ h => ?_) fun _ _ he => .inl he)⟩
    refine ⟨⟨rfl, h.alike.overrides, rfl, rfl, h.alike.library, h.alike.math⟩, h.results,
      h.folderValues, ?_⟩
    exact List.forall_mem_cons.2 ⟨hi.2.bound ▸ hv, h.imports⟩
  newSession {w _ _} hi hv hb :=
    ⟨w, .refl w, ⟨rfl, hi.2.change rfl rfl (hi.2.firm.addSession (hi.2.bound ▸ hv) hb.results)⟩, trivial⟩
  release hi _ := ⟨rfl, hi.2.change rfl rfl (hi.2.firm.changeSession
    (fun _ h => ⟨⟨rfl, h.alike.overrides, rfl, rfl, h.alike.library, h.alike.math⟩, h.results,
      h.folderValues, h.imports⟩) fun _ _ he => .inl he)⟩
  changeModules _ hi := ⟨rfl, hi.2.change rfl rfl { hi.2.firm with
    places := { hi.2.firm.places with }
    tight := ⟨hi.2.firm.tight.arrays, hi.2.firm.tight.objects⟩ }⟩
  fix {w _ _} hi hn := by
    obtain ⟨firm, hf, sealed⟩ := hi.2.firm.freeze (hi.2.has hn)
    obtain ⟨hw, hs⟩ := hi.2.begin ⟨hf.ordinary.toFrozenKept, Nat.le_of_eq hf.arrays.symm,
      Nat.le_of_eq hf.objects.symm⟩ firm
    exact ⟨_, hw, ⟨rfl, hs⟩, sealed⟩

theorem firmCustody_lenient (place : Nat) : firmCustody.Lenient place where
  note _ _ hi := ⟨rfl, hi.2.change rfl rfl (hi.2.firm.changeSession
    (fun _ h => ⟨⟨rfl, h.alike.overrides, rfl, rfl, h.alike.library, h.alike.math⟩, h.results,
      h.folderValues, h.imports⟩) fun _ _ he => .inl he)⟩
  record {_ _ key r} hi hr hc := by
    refine ⟨rfl, hi.2.change rfl rfl (hi.2.firm.changeSession (fun σ h => ?_) fun σ e he => ?_)⟩
    · refine ⟨⟨rfl, h.alike.overrides, rfl, rfl, h.alike.library, h.alike.math⟩, ?_,
        h.folderValues, h.imports⟩
      exact List.forall_mem_cons.2 ⟨hi.2.bound ▸ hr, h.results⟩
    · obtain rfl | he := List.mem_cons.1 he
      · exact .inr fun n v hn => (hc.2 n v hn).mono hi.2.kept
      · exact .inl he
  settles _ _ _ := trivial

/-- Every engine keeps stores firm. -/
theorem firmCustody_serves (fuel : Nat) : firmCustody.Serves (Engine.ofFuel fuel) :=
  firmCustody.serves (fun _ he _ place => (firmCustody_lenient place).evaluate he) fuel

end Store
end Workbook
