/-
Functions that statements declare.

The functions of a list of statements are defined before any of the statements is run.  A name that
the list declares a function under means the last function of that name from then on, wherever the
runs that follow have come to, until the variable is assigned to; the statements that declare it do
nothing.  So a declaration that does not stand in a list of statements, but is itself a branch or
the body of a loop, defines nothing.
-/
import Workbook.Proofs.Script.Block

open List (Forall₂)

namespace Workbook

namespace Script.Stmt

/-- The function that a list of statements declares under a name, the last one of that name. -/
def function? (name : String) : List Stmt → Option Function
  | [] => none
  | .function f :: rest =>
    (function? name rest).or (if f.name.map Name.text = some name then some f else none)
  | _ :: rest => function? name rest

/-- Every declaration declares its name. -/
theorem function?_isSome {name : String} {sts : List Stmt} {f : Function}
    (h : .function f ∈ sts) (hname : f.name.map Name.text = some name) :
    (function? name sts).isSome := by
  induction sts with
  | nil => cases h
  | cons st rest ih =>
    obtain h | h := List.mem_cons.1 h
    · subst h
      unfold function?
      rw [if_pos hname]
      cases function? name rest <;> rfl
    · have hrest := ih h
      cases st with
      | function g =>
        unfold function?
        obtain ⟨f', hf'⟩ := Option.isSome_iff_exists.1 hrest
        rw [hf']
        rfl
      | _ => exact hrest

end Script.Stmt

/-- The variable of a block for a function that is declared there. -/
def Pin.ofFunction (run place id : Nat) (f : Script.Function) (name : String) : Pin :=
  ⟨place, name, .function (.mk id (.script run place f name))⟩

/-- The store in which a function is defined under a name. -/
def Store.withFunction (s : Store) (run place : Nat) (name : String) (f : Script.Function) : Store :=
  ({ s with fresh := s.fresh + 1 } : Store).setVariable place name
    ⟨(Pin.ofFunction run place s.fresh f name).value, false⟩

theorem Store.blocks_withFunction {s : Store} {place : Nat} {b : Block}
    (hb : s.blocks[place]? = some b) (run : Nat) (name : String) (f : Script.Function) :
    (s.withFunction run place name f).blocks[place]? =
      some (b.set name ⟨(Pin.ofFunction run place s.fresh f name).value, false⟩) := by
  unfold withFunction
  rw [Store.blocks_setVariable, if_pos rfl, hb]
  rfl

namespace Engine

/-- Functions are defined one after another, and the last of a name stays. -/
theorem hoist_run (run place : Nat) (sts : List Script.Stmt) {s : Store} {b : Block}
    (hb : s.blocks[place]? = some b) :
    ∃ t b', hoist run place sts s = .ok () t ∧ t.blocks[place]? = some b' ∧
      (∀ name f, Script.Stmt.function? name sts = some f →
        ∃ id, b'.bindings.lookup name = some ⟨(Pin.ofFunction run place id f name).value, false⟩) ∧
      ∀ name, Script.Stmt.function? name sts = none →
        b'.bindings.lookup name = b.bindings.lookup name := by
  induction sts generalizing s b with
  | nil => exact ⟨s, b, rfl, hb, (fun _ _ h => by cases h), fun _ _ => rfl⟩
  | cons st rest ih =>
    cases st with
    | function f =>
      have hfunction (name : String) : Script.Stmt.function? name (.function f :: rest) =
          (Script.Stmt.function? name rest).or
            (if f.name.map Name.text = some name then some f else none) := rfl
      cases hname : f.name with
      | none =>
        simp only [hname, Option.map_none, reduceCtorEq, if_false, Option.or_none] at hfunction
        obtain ⟨t, b', hrun, hb', hsome, hnone⟩ := ih hb
        refine ⟨t, b', ?_, hb', fun name g hg => hsome name g (hfunction name ▸ hg),
          fun name hg => hnone name (hfunction name ▸ hg)⟩
        unfold hoist
        rw [hname]
        exact hrun
      | some n =>
        simp only [hname, Option.map_some, Option.some.injEq] at hfunction
        obtain ⟨t, b', hrun, hb', hsome, hnone⟩ := ih (Store.blocks_withFunction hb run n.text f)
        refine ⟨t, b', ?_, hb', fun name g hg => ?_, fun name hg => ?_⟩
        · unfold hoist newFunction
          rw [hname]
          exact hrun
        · rw [hfunction] at hg
          -- A later function of the same name replaces this one.
          cases hrest : Script.Stmt.function? name rest with
          | some g' => exact hsome name g (hrest.trans (by rwa [hrest, Option.some_or] at hg))
          | none =>
            rw [hrest, Option.none_or, Option.ite_none_right_eq_some] at hg
            obtain ⟨rfl, hg⟩ := hg
            obtain rfl := Option.some.inj hg
            exact ⟨s.fresh, (hnone _ hrest).trans (Keyed.lookup_put _ _ _)⟩
        · rw [hfunction, Option.or_eq_none_iff, ite_eq_right_iff] at hg
          have hne : name ≠ n.text := fun heq => Option.some_ne_none _ (hg.2 heq.symm)
          exact (hnone name hg.1).trans (Keyed.lookup_put_of_ne hne _ _)
    | _ => exact ih hb

end Engine

/-! ## Until the variable is assigned to -/

/-- A guard that breaks off where the variable is assigned to, passes elsewhere as long as the
variable has its value, and does nothing else than pass or break off. -/
structure Pin.Guards (pin : Pin) (guard : List Activity → Run Unit) : Prop where
  passes : ∀ a outer t, t.Pinned (some pin) → ¬ a.Reassigns (some pin) →
    guard (a :: outer) t = .ok () t
  stops : ∀ a outer t, a.Reassigns (some pin) → ∃ t', guard (a :: outer) t = .error .exhausted t'
  either : ∀ active t, guard active t = .ok () t ∨ ∃ t', guard active t = .error .exhausted t'

namespace Engine

/-- A name that means the variable is read. -/
theorem ask_pinned (fuel run : Nat) {block : Nat} {pin : Pin} {t : Store}
    (h : t.Pinned (some pin)) (hres : (t.resolve? block pin.name).map (·.1) = some pin.place)
    (span : Span) :
    (ofFuel (fuel + 1)).ask (.expression run block (.name span pin.name)) t = .ok pin.value t := by
  obtain ⟨⟨place, v⟩, hres, hplace⟩ := Option.map_eq_some_iff.1 hres
  obtain ⟨b, hb, hl⟩ := Store.lookup_of_resolve? hres
  obtain ⟨b', hb', hl'⟩ := h pin rfl
  have hplace : place = pin.place := hplace
  subst hplace
  obtain rfl : b = b' := Option.some.inj (hb.symm.trans hb')
  obtain rfl : v = ⟨pin.value, false⟩ := Option.some.inj (hl.symm.trans hl')
  have hvalue : t.valueOf? block pin.name = some pin.value := by rw [Store.valueOf?, hres]; rfl
  show (get >>= _ : Run Native) t = _
  rw [Run.get_bind]
  simp only [hvalue]
  rfl

/-- Statements that are run in the block of the variable leave it as it is. -/
theorem inOrder_pinned (fuel run : Nat) (sts : List Script.Stmt) {pin : Pin} {t : Store}
    {guard : List Activity → Run Unit} (hguard : pin.Guards guard) (ht : t.Pinned (some pin)) :
    (∃ t', (guarded guard fuel []).inOrder run pin.place sts t = .error .exhausted t') ∨
    (guarded guard fuel []).inOrder run pin.place sts t =
        (ofFuel fuel).inOrder run pin.place sts t ∧
    ∀ u, ((ofFuel fuel).inOrder run pin.place sts).EndsIn t u → u.Pinned (some pin) := by
  obtain ⟨b, hb, -⟩ := ht pin rfl
  let l := b.names ++ Script.Stmt.names sts
  let root : Activity.Root := ⟨pin.place, l, sts⟩
  have hscopes : Vigil.Scopes (some pin) (some root) [] (guarded guard fuel []) (ofFuel fuel) :=
    scopes_guarded (fun a outer t _ hp hr => hguard.passes a outer t hp hr) hguard.stops
      (fun _ => hguard.either) fuel trivial
  have hasks : (Vigil.framing (some pin) []).simulation.Asks (guarded guard fuel []) (ofFuel fuel)
      (Function.update (fun _ => none) pin.place (some l)) run run pin.place pin.place sts := by
    intro w hw st hst
    have hlabel := hw pin.place l (Function.update_self ..)
    have hmay : Vigil.May (some root) [] w (.statement run pin.place st) := by
      rintro _ _ _ ⟨⟩
      refine ⟨nofun, ⟨l, hlabel, fun _ hn => ?_⟩, .inr ⟨l, sts, rfl, hst, hlabel⟩⟩
      exact List.mem_append_right _ (Script.Stmt.declares_names hst hn)
    exact Vigil.Rel.imp (V := Vigil.framing (some pin) []) (hscopes w _ hmay)
      fun _ f _ hf => hf ▸ Simulation.flow_self f
  have hi : Framed (some pin) [] (Function.update (fun _ => none) pin.place (some l)) t := by
    refine ⟨nofun, fun place l' hl' => ?_, ht⟩
    by_cases hplace : place = pin.place
    · subst hplace
      rw [Function.update_self] at hl'
      exact ⟨b, hb, Option.some.inj hl' ▸ List.subset_append_left _ _⟩
    · rw [Function.update_of_ne hplace] at hl'
      cases hl'
  have hends := (Vigil.Rel.imp (V := Vigil.framing (some pin) [])
    (Simulation.rel_inOrder Vigil.passesFailures_framing hasks)
    fun _ _ _ => Simulation.flow_eq).ends t hi
  obtain heq | ⟨-, hcut⟩ := hends.eq_or_cut fun _ _ h => h
  · by_cases hcut : ∃ t', (guarded guard fuel []).inOrder run pin.place sts t = .error .exhausted t'
    · exact .inl hcut
    · refine .inr ⟨heq, fun u hu => ?_⟩
      obtain ⟨w, -, hi⟩ := (hends.endsIn_or_cut hu).resolve_right fun h => hcut h.2
      exact Framed.pinned hi
  · exact .inl hcut

/-- What the functions of a list of statements come to.  Once they are defined, before any of the
statements is run, the name of each means the last one that the list declares under it; and whatever
statements are run in the block from then on, it does so in the end, wherever it means the variable
of this block, unless the variable was assigned to.  A declaration that is run does nothing, so one
that stands in no list of statements defines nothing. -/
theorem declarations_take_effect (fuel run place : Nat) {body : List Script.Stmt} {s : Store}
    {b : Block} (hb : s.blocks[place]? = some b) {name : String} {f : Script.Function}
    (hf : Script.Stmt.function? name body = some f) :
    (∃ id t, hoist run place body s = .ok () t ∧ t.Pinned (some (.ofFunction run place id f name)) ∧
      ∀ (guard : List Activity → Run Unit), (Pin.ofFunction run place id f name).Guards guard →
        ∀ sts : List Script.Stmt,
          (∃ t', (guarded guard fuel []).inOrder run place sts t = .error .exhausted t') ∨
          (guarded guard fuel []).inOrder run place sts t = (ofFuel fuel).inOrder run place sts t ∧
          ∀ u, ((ofFuel fuel).inOrder run place sts).EndsIn t u →
            ∀ (n run' block : Nat) (span : Span),
              (u.resolve? block name).map (·.1) = some place →
              (ofFuel (n + 1)).ask (.expression run' block (.name span name)) u =
                .ok (.function (.mk id (.script run place f name))) u) ∧
    ∀ (e : Engine) (n : Nat) (g : Script.Function) (t : Store),
      e.statement n run place (.function g) t = .ok .normal t := by
  obtain ⟨t, b', hrun, hb', hsome, -⟩ := hoist_run run place body hb
  obtain ⟨id, hid⟩ := hsome name f hf
  have hpinned : t.Pinned (some (.ofFunction run place id f name)) := by
    rintro q ⟨⟩
    exact ⟨b', hb', hid⟩
  refine ⟨⟨id, t, hrun, hpinned, fun guard hguard sts => ?_⟩, fun _ _ _ _ => rfl⟩
  refine (inOrder_pinned fuel run sts hguard hpinned).imp_right fun ⟨heq, hu⟩ => ⟨heq, ?_⟩
  intro u hends n run' block span hres
  exact ask_pinned n run' (hu u hends) hres span

end Engine

/-- Whether the variable itself is assigned to. -/
def Pin.reassigned (pin : Pin) (a : Activity) : Bool :=
  match a.request.assigned? with
  | none => false
  | some (block, name) => name = pin.name &&
    ((a.store.resolve? block name).map (·.1) = some pin.place || a.store.blocks.size ≤ block)

theorem Pin.reassigned_iff {pin : Pin} {a : Activity} :
    pin.reassigned a = true ↔ a.Reassigns (some pin) := by
  unfold reassigned Activity.Reassigns
  cases a.request.assigned? with
  | none => simp
  | some x =>
    obtain ⟨block, name⟩ := x
    by_cases h : name = pin.name
    · subst h
      simp
    · simp [h]

/-- Breaks off a run in which the variable is assigned to. -/
def Pin.guard (pin : Pin) : List Activity → Run Unit
  | [] => pure ()
  | a :: _ => fun t => if pin.reassigned a then .error .exhausted t else .ok () t

theorem Pin.guards (pin : Pin) : pin.Guards pin.guard where
  passes _ _ _ _ h := if_neg (mt Pin.reassigned_iff.1 h)
  stops _ _ t h := ⟨t, if_pos (Pin.reassigned_iff.2 h)⟩
  either
    | [], _ => .inl rfl
    | a :: _, t => (Decidable.em (pin.reassigned a = true)).symm.imp (if_neg ·) (⟨t, if_pos ·⟩)

/-- The function `f` of `function f() { return true }; f()`. -/
def declaredOnce : Script.Function :=
  .mk (some ⟨"f", ⟨9, 10, 1, 10⟩⟩) []
    (.block [.returns ⟨15, 26, 1, 16⟩ (some (.boolean ⟨22, 26, 1, 23⟩ true))]) ⟨0, 28, 1, 1⟩

/-- The statements of that script. -/
def callingScript : List Script.Stmt :=
  [.function declaredOnce, .expr (.call ⟨30, 33, 1, 31⟩ (.name ⟨30, 31, 1, 31⟩ "f") [])]

/-- A store with an execution and an empty block. -/
def oneBlock : Store :=
  { Store.empty with blocks := #[⟨[], none⟩], executions := #[⟨.fixed [], [], 0, 8⟩] }

/-- The script comes to its end, where `f` still means the variable of its block. -/
theorem calling_run :
    (match Engine.hoist 0 0 callingScript oneBlock with
      | .ok () t =>
        match (Engine.guarded (Pin.ofFunction 0 0 0 declaredOnce "f").guard 9 []).inOrder 0 0
            callingScript t with
        | .ok .normal u => decide ((u.resolve? 0 "f").map (·.1) = some 0)
        | _ => false
      | _ => false) = true := by
  with_unfolding_all rfl

theorem declarations_take_effect_called :
    (Script.Stmt.function? "f" callingScript = some declaredOnce ∧
      oneBlock.blocks[0]? = some ⟨[], none⟩) ∧
    ∃ id t u, Engine.hoist 0 0 callingScript oneBlock = .ok () t ∧
      (Engine.ofFuel 9).inOrder 0 0 callingScript t = .ok .normal u ∧
      (Engine.ofFuel 1).ask (.expression 0 0 (.name ⟨30, 31, 1, 31⟩ "f")) u =
        .ok (.function (.mk id (.script 0 0 declaredOnce "f"))) u := by
  refine ⟨⟨rfl, rfl⟩, ?_⟩
  obtain ⟨⟨id, t, hrun, hpinned, hmain⟩, -⟩ := Engine.declarations_take_effect 9 0 0
    (rfl : oneBlock.blocks[0]? = some ⟨[], none⟩)
    (rfl : Script.Stmt.function? "f" callingScript = some declaredOnce)
  obtain rfl : id = 0 := by
    obtain ⟨b, hb, hl⟩ := hpinned _ rfl
    have hb : (_ : Store).blocks[0]? = some b := hb
    cases hrun
    cases hb
    injection hl with hl
    injection hl with hl
    injection hl with hl
    injection hl with hl
    exact hl.symm
  have hcalling := calling_run
  split at hcalling
  case h_2 => cases hcalling
  case h_1 t' ht' =>
    obtain rfl : t' = t := by
      rw [hrun] at ht'
      injection ht' with _ ht'
      exact ht'.symm
    split at hcalling
    case h_2 => cases hcalling
    case h_1 u hend =>
      obtain ⟨t', hcut⟩ | ⟨heq, hu⟩ := hmain _ (Pin.guards _) callingScript
      · rw [hcut] at hend
        cases hend
      · rw [heq] at hend
        exact ⟨0, t', u, hrun, hend, hu u (.value hend) 0 0 0 _ (of_decide_eq_true hcalling)⟩

/-- The branch of the script declares nothing, and what fails is reading `f`. -/
theorem branch_run :
    (match Script.compile ⟨"main", "if (true) function f() \x7b return 1 \x7d\nreturn f()"⟩ with
      | .ok p =>
        match (Engine.ofFuel 8).runScript (.fixed []) 8 "main" p.body .empty with
        | .error (.failed f) _ => decide (f.cause = .undefinedName "f")
        | _ => false
      | .error _ => false) = true := by
  decide +kernel

/-- A function that is declared in a branch is not there afterwards. -/
theorem branch_declares_nothing :
    ∃ p f t,
      Script.compile ⟨"main", "if (true) function f() \x7b return 1 \x7d\nreturn f()"⟩ = .ok p ∧
      (Engine.ofFuel 8).runScript (.fixed []) 8 "main" p.body .empty = .error (.failed f) t ∧
      f.cause = .undefinedName "f" := by
  have hrun := branch_run
  split at hrun
  case h_2 => cases hrun
  case h_1 p hp =>
    split at hrun
    case h_2 => cases hrun
    case h_1 f t ht => exact ⟨p, f, t, hp, ht, of_decide_eq_true hrun⟩

end Workbook
