/-
Formulas that go into the result of a script.

A formula that names a script, and goes from there to members and items, reads a snapshot of the
script's result.  If it comes to an array or object, that is the very container that is found in the
result by the same path (`Executes.shares`), and scripts that read the formula get it
(`formula_shares_container`).  There is one way to miss it: if the formula is executed for the
script itself, before the script has come to its result, it fails for good.
-/
import Workbook.Proofs.Formula.Literal
import Workbook.Proofs.Path
import Workbook.Proofs.Session.Binding
import Workbook.Proofs.Session.Conversion

namespace Workbook

/-! ## Chains -/

namespace Formula.Expr

/-- A name, and members and items of what it means. -/
inductive Chain (name : String) : Expr → Prop
  | name (span : Span) : Chain name (.name span name)
  | member {e : Expr} (h : Chain name e) (span : Span) (k : Name) : Chain name (.member span e k)
  | index {e : Expr} (h : Chain name e) (span : Span) (key : Expr) : Chain name (.index span e key)

/-- An expression that has a value wherever it is evaluated, and does nothing. -/
def Constant (e : Expr) (v : Value) : Prop :=
  ∀ (fuel evaluation : Nat) (u : Store),
    (Engine.ofFuel fuel).ask (.formula evaluation [] e) u = .ok v u ∨
      ∃ u', (Engine.ofFuel fuel).ask (.formula evaluation [] e) u = .error .exhausted u'

/-- A chain whose indexes are constant spells a path. -/
inductive Spells (name : String) : Expr → List Step → Prop
  | name (span : Span) : Spells name (.name span name) []
  | member {e : Expr} {path : List Step} (h : Spells name e path) (span : Span) (k : Name) :
      Spells name (.member span e k) (path ++ [.key k.text])
  | index {e key : Expr} {path : List Step} {w : Value} {step : Step} (h : Spells name e path)
      (span : Span) (constant : key.Constant w) (names : w.Names step) :
      Spells name (.index span e key) (path ++ [step])

theorem Spells.chain {name : String} {e : Expr} {path : List Step} (h : e.Spells name path) :
    e.Chain name := by
  induction h with
  | name span => exact .name span
  | member _ span k ih => exact .member ih span k
  | index _ span _ _ ih => exact .index ih span _

theorem constant_integer (span : Span) (n : Int64) : (Expr.integer span n).Constant (.integer n) := by
  intro fuel evaluation u
  cases fuel with
  | zero => exact .inr ⟨u, rfl⟩
  | succ fuel => exact .inl rfl

end Formula.Expr

open Formula (Expr)

/-- The path that a chain follows when it is evaluated in a store: an index is a step to what it
comes to there. -/
inductive Engine.Follows (name : String) (evaluation : Nat) (u : Store) :
    Nat → Expr → List Step → Prop
  | name (fuel : Nat) (span : Span) : Follows name evaluation u fuel (.name span name) []
  | member {fuel : Nat} {e : Expr} {path : List Step} (h : Follows name evaluation u fuel e path)
      (span : Span) (k : Name) :
      Follows name evaluation u (fuel + 1) (.member span e k) (path ++ [.key k.text])
  | index {fuel : Nat} {e key : Expr} {path : List Step} {v w : Value} {u₁ u₂ : Store} {step : Step}
      (h : Follows name evaluation u fuel e path) (span : Span)
      (object : (Engine.ofFuel fuel).ask (.formula evaluation [] e) u = .ok v u₁)
      (index : (Engine.ofFuel fuel).ask (.formula evaluation [] key) u₁ = .ok w u₂)
      (names : w.Names step) :
      Follows name evaluation u (fuel + 1) (.index span e key) (path ++ [step])

/-! ## What precedes what -/

namespace Engine

variable {fuel : Nat} {u u' : Store}

theorem precedes_member (v : Value) (name : String)
    (h : ((Engine.ofFuel fuel).member v name).EndsIn u u') (place : Nat) : u.Precedes place u' := by
  refine Run.precedes_of_keeps ?_ ?_ h place
  · exact Course.keeps_of_rel (R := fun _ => Value.Alike .same) fun _ =>
      (retaining_serves fuel).answers.member v.alike_self name
  · exact .of_rel ((u.frozenCustody_serves fuel).answers.member v.alike_self name)
      fun _ _ _ _ h => ⟨Value.eq_of_alike h, trivial⟩

theorem precedes_item (v index : Value)
    (h : ((Engine.ofFuel fuel).item v index).EndsIn u u') (place : Nat) : u.Precedes place u' := by
  refine Run.precedes_of_keeps ?_ ?_ h place
  · exact Course.keeps_of_rel (R := fun _ => Value.Alike .same) fun _ =>
      (retaining_serves fuel).answers.item v.alike_self index.alike_self
  · exact .of_rel ((u.frozenCustody_serves fuel).answers.item v.alike_self index.alike_self)
      fun _ _ _ _ h => ⟨Value.eq_of_alike h, trivial⟩

end Engine

/-- Whatever is offered comes after. -/
theorem Engine.precedes_of_leads {fuel : Nat} {s t : Store} (hs : s.Firm)
    (h : (Engine.ofFuel fuel).Leads s t) (place : Nat) : s.Precedes place t := by
  have he := retaining_serves fuel
  refine Store.Retains.precedes ?_ (Store.firm_of_leads hs h).2 place
  induction h with
  | refl => exact Store.retains_of_sessions rfl
  | step _ offered ends ih =>
    refine ih.trans ?_
    cases offered with
    | newSession tree options time _ =>
      have hkeeps : Store.retaining.Keeps (Run.newSession tree options time) :=
        Course.Keeps.bind (fun s => Course.from_modifyGet (Store.retains_of_sessions rfl)) fun _ =>
          Store.retaining_newSessionWith _ _ _ _ _
      exact hkeeps _ _ ends
    | query place q =>
      exact he.query Store.retaining_executes (total_ofFuel fuel) place q _ _ ends
    | @script scope maxDepth name body _ =>
      have hkeeps : Store.retaining.Keeps
          ((Engine.ofFuel fuel).runScript scope maxDepth name body) :=
        Course.keeps_of_rel (R := fun _ => Native.Alike .same) fun _ =>
          he.answers.runScript Store.retaining.coupling.thorough.toScripting
            (Store.scope_alike_self Native.alike_self scope) maxDepth name body
      exact hkeeps _ _ ends
    | callTyped _ _ => exact retains_ask fuel ends
    | callNative _ _ => exact retains_ask fuel ends

/-! ## Evaluating a chain -/

/-- A result of a session is kept that is a value, frozen and converted. -/
structure Store.Offers (t : Store) (place : Nat) (key : String) (n : Native) (v : Value) : Prop where
  tight : t.FrozenAll t.Sealed
  kept : ∃ r, t.result? place key = some r ∧ r.outcome = .value n v
  mirrors : t.Mirrors n v

namespace Store

variable {t u u' : Store} {evaluation place fuel : Nat} {folder name key : String} {σ : Session}
  {n m : Native} {v w : Value} {x : Outline.Expression} {e : Expr}

/-- What the name is, if anything that may happen precedes the store. -/
theorem Means.value (h : u.Means evaluation place folder name key σ)
    (hx : σ.outline.expression? key = some x) (offers : t.Offers place key n v) {span : Span}
    (hrun : ((Engine.ofFuel fuel).ask (.formula evaluation [] (.name span name))).EndsIn u u')
    (later : u'.Precedes place t) :
    (key ∈ σ.inFlight ∧ ∃ f, (Engine.ofFuel fuel).ask (.formula evaluation [] (.name span name)) u =
        .error (.failed f) u' ∧ Outcome.ofCause f.cause = x.circular) ∨
      (Engine.ofFuel fuel).ask (.formula evaluation [] (.name span name)) u = .ok v u' ∧
        ∃ r, u'.result? place key = some r ∧ r.outcome = .value n v := by
  obtain ⟨r', hr', houtcome⟩ := offers.kept
  obtain ⟨u₁, h₁⟩ | ⟨hmem, f, u₁, h₁, hf⟩ | ⟨r, u₁, hr, h₁⟩ := h.answers hx fuel span
  · cases hrun with
    | value hrun => cases h₁.symm.trans hrun
    | failure hrun => cases h₁.symm.trans hrun
  · cases hrun with
    | value hrun => cases h₁.symm.trans hrun
    | failure hrun =>
      cases h₁.symm.trans hrun
      exact .inl ⟨hmem, f, h₁, hf⟩
  · have hend : u₁ = u' := by
      cases ho : r.outcome with
      | value n' v' =>
        rw [ho] at h₁
        cases hrun with
        | value hrun =>
          cases h₁.symm.trans hrun
          rfl
        | failure hrun => cases h₁.symm.trans hrun
      | failure first more =>
        rw [ho] at h₁
        cases hrun with
        | value hrun => cases h₁.symm.trans hrun
        | failure hrun =>
          cases h₁.symm.trans hrun
          rfl
    subst hend
    obtain rfl : r' = r := Option.some.inj (hr'.symm.trans (later.result? hr))
    rw [houtcome] at h₁
    exact .inr ⟨h₁, r', hr, houtcome⟩

/-- What a chain comes to is no container, or a part of the snapshot that its path leads to. -/
theorem Means.chain (h : u.Means evaluation place folder name key σ)
    (hx : σ.outline.expression? key = some x) (offers : t.Offers place key n v)
    (chain : e.Chain name) (hrun : (Engine.ofFuel fuel).ask (.formula evaluation [] e) u = .ok w u')
    (later : u'.Precedes place t) :
    (∃ r, u'.result? place key = some r ∧ r.outcome = .value n v) ∧
      (w.Flat ∨ ∃ path m, Engine.Follows name evaluation u fuel e path ∧
        t.at? n path = some m ∧ t.Mirrors m w) := by
  induction chain generalizing fuel w u' with
  | name span =>
    obtain ⟨-, f, hf, -⟩ | ⟨hvalue, hr⟩ := h.value hx offers (.value hrun) later
    · cases hf.symm.trans hrun
    · cases hvalue.symm.trans hrun
      exact ⟨hr, .inr ⟨[], n, .name fuel span, at?_nil t n, offers.mirrors⟩⟩
  | @member object _ span k ih =>
    cases fuel with
    | zero => cases hrun
    | succ fuel =>
      obtain ⟨v', u₁, hobject, hmember⟩ := Run.bind_eq_ok
        (show ((Engine.ofFuel fuel).ask (.formula evaluation [] object) >>= fun v =>
          (Engine.ofFuel fuel).member v k.text) u = .ok w u' from hrun)
      have h₁ : u₁.Precedes place u' := Engine.precedes_member v' k.text (.value hmember) place
      obtain ⟨⟨r, hr, hn⟩, hparts⟩ := ih hobject (h₁.trans later)
      refine ⟨⟨r, h₁.result? hr, hn⟩, ?_⟩
      obtain hflat | ⟨path, m, hpath, hm, hmirrors⟩ := hparts
      · refine .inl (Engine.member_flat (fun entries o hv => ?_) hmember)
        rw [hv] at hflat
        exact hflat.elim
      · obtain hflat | ⟨m', hm', hmirrors'⟩ :=
          Engine.mirrors_of_member offers.tight hmirrors hmember
        · exact .inl hflat
        · refine .inr ⟨path ++ [Step.key k.text], m', .member hpath span k, ?_, hmirrors'⟩
          rw [at?_concat, hm]
          exact hm'
  | @index object _ span index ih =>
    cases fuel with
    | zero => cases hrun
    | succ fuel =>
      obtain ⟨v', u₁, hobject, hrest⟩ := Run.bind_eq_ok
        (show ((Engine.ofFuel fuel).ask (.formula evaluation [] object) >>= fun v =>
          (Engine.ofFuel fuel).ask (.formula evaluation [] index) >>= fun w =>
            (Engine.ofFuel fuel).item v w) u = .ok w u' from hrun)
      obtain ⟨w', u₂, hindex, hitem⟩ := Run.bind_eq_ok hrest
      have h₁ : u₁.Precedes place u' := (Engine.precedes_ask fuel (.value hindex) place).trans
        (Engine.precedes_item v' w' (.value hitem) place)
      obtain ⟨⟨r, hr, hn⟩, hparts⟩ := ih hobject (h₁.trans later)
      refine ⟨⟨r, h₁.result? hr, hn⟩, ?_⟩
      obtain hflat | ⟨path, m, hpath, hm, hmirrors⟩ := hparts
      · refine .inl (Engine.item_flat (fun entries o k hv _ => ?_) (fun items o i hv _ => ?_) hitem)
        · rw [hv] at hflat
          exact hflat.elim
        · rw [hv] at hflat
          exact hflat.elim
      · obtain hflat | ⟨step, m', hnames, hm', hmirrors'⟩ :=
          Engine.mirrors_of_item offers.tight hmirrors hitem
        · exact .inl hflat
        · refine .inr ⟨path ++ [step], m', .index hpath span hobject hindex hnames, ?_, hmirrors'⟩
          rw [at?_concat, hm]
          exact hm'

/-- A chain whose path leads somewhere comes to what is there, unless the script is being
executed. -/
theorem Means.spells (h : u.Means evaluation place folder name key σ)
    (hx : σ.outline.expression? key = some x) (offers : t.Offers place key n v) {path : List Step}
    (spells : e.Spells name path) (hm : t.at? n path = some m)
    (hrun : ((Engine.ofFuel fuel).ask (.formula evaluation [] e)).EndsIn u u')
    (later : u'.Precedes place t) :
    (key ∈ σ.inFlight ∧ ∃ f, (Engine.ofFuel fuel).ask (.formula evaluation [] e) u =
        .error (.failed f) u' ∧ Outcome.ofCause f.cause = x.circular) ∨
      ∃ w, (Engine.ofFuel fuel).ask (.formula evaluation [] e) u = .ok w u' ∧ t.Mirrors m w := by
  induction spells generalizing fuel m u' with
  | name span =>
    obtain hcircular | ⟨hvalue, -⟩ := h.value hx offers hrun later
    · exact .inl hcircular
    · cases hm
      exact .inr ⟨v, hvalue, offers.mirrors⟩
  | @member object path _ span k ih =>
    cases fuel with
    | zero =>
      cases hrun with
      | value hrun => cases hrun
      | failure hrun => cases hrun
    | succ fuel =>
      rw [at?_concat] at hm
      obtain ⟨m', hpath, hm⟩ := Option.bind_eq_some_iff.1 hm
      have heq : (Engine.ofFuel (fuel + 1)).ask (.formula evaluation [] (.member span object k)) =
          (Engine.ofFuel fuel).ask (.formula evaluation [] object) >>= fun v =>
            (Engine.ofFuel fuel).member v k.text := rfl
      rw [heq] at hrun ⊢
      obtain ⟨v', u₁, hobject, hmember⟩ | ⟨f, hobject⟩ := Run.endsIn_bind hrun
      · have h₁ : u₁.Precedes place u' := Engine.precedes_member v' k.text hmember place
        obtain ⟨-, f, hf, -⟩ | ⟨w', hw', hmirrors⟩ := ih hpath (.value hobject) (h₁.trans later)
        · cases hf.symm.trans hobject
        · cases hw'.symm.trans hobject
          obtain ⟨w, hw, hmember'⟩ := Engine.member_mirrors offers.tight hmirrors hm
          have hmember' := hmember' (Engine.ofFuel fuel) u₁
          cases hmember with
          | value hmember =>
            cases hmember'.symm.trans hmember
            exact .inr ⟨w, (Run.bind_run hobject).trans hmember', hw⟩
          | failure hmember => cases hmember'.symm.trans hmember
      · obtain ⟨hmem, f', hf', hcircular⟩ | ⟨w', hw', -⟩ := ih hpath (.failure hobject) later
        · exact .inl ⟨hmem, f', Run.bind_error hf', hcircular⟩
        · cases hw'.symm.trans hobject
  | @index object index path w' step _ span constant names ih =>
    cases fuel with
    | zero =>
      cases hrun with
      | value hrun => cases hrun
      | failure hrun => cases hrun
    | succ fuel =>
      rw [at?_concat] at hm
      obtain ⟨m', hpath, hm⟩ := Option.bind_eq_some_iff.1 hm
      have heq : (Engine.ofFuel (fuel + 1)).ask (.formula evaluation [] (.index span object index)) =
          (Engine.ofFuel fuel).ask (.formula evaluation [] object) >>= fun v =>
            (Engine.ofFuel fuel).ask (.formula evaluation [] index) >>= fun w =>
              (Engine.ofFuel fuel).item v w := rfl
      rw [heq] at hrun ⊢
      obtain ⟨v', u₁, hobject, hrest⟩ | ⟨f, hobject⟩ := Run.endsIn_bind hrun
      · obtain hindex | ⟨u₂, hindex⟩ := constant fuel evaluation u₁
        · have hrest' := Run.bind_run hindex (k := fun w => (Engine.ofFuel fuel).item v' w)
          have hitem : ((Engine.ofFuel fuel).item v' w').EndsIn u₁ u' := by
            cases hrest with
            | value hrest => exact .value (hrest'.symm.trans hrest)
            | failure hrest => exact .failure (hrest'.symm.trans hrest)
          have h₁ : u₁.Precedes place u' := Engine.precedes_item v' w' hitem place
          obtain ⟨-, f, hf, -⟩ | ⟨w₁, hw₁, hmirrors⟩ := ih hpath (.value hobject) (h₁.trans later)
          · cases hf.symm.trans hobject
          · cases hw₁.symm.trans hobject
            obtain ⟨w, hw, hitem'⟩ := Engine.item_mirrors offers.tight hmirrors names hm
            have hitem' := hitem' (Engine.ofFuel fuel) u₁
            cases hitem with
            | value hitem =>
              cases hitem'.symm.trans hitem
              exact .inr ⟨w, (Run.bind_run hobject).trans (hrest'.trans hitem'), hw⟩
            | failure hitem => cases hitem'.symm.trans hitem
        · have hrest' := Run.bind_error hindex (k := fun w => (Engine.ofFuel fuel).item v' w)
          cases hrest with
          | value hrest => cases hrest'.symm.trans hrest
          | failure hrest => cases hrest'.symm.trans hrest
      · obtain ⟨hmem, f', hf', hcircular⟩ | ⟨w', hw', -⟩ := ih hpath (.failure hobject) later
        · exact .inl ⟨hmem, f', Run.bind_error hf', hcircular⟩
        · cases hw'.symm.trans hobject

/-! ## Executing a formula -/

/-- How a formula comes to an outcome: it fails, or it has a value, of which the native form is
frozen. -/
theorem executeFormula_cases {engine : Engine} {s : Store} {o : Outcome}
    (compiled : Formula.compile ⟨x.path, σ.sourceText x⟩ = .ok e)
    (h : engine.executeFormula place σ x s = .ok o u) :
    (∃ f, engine.ask (.formula s.evaluations.size [] e)
        (s.evaluating place x.parent σ.settings.maxCallDepth) = .error (.failed f) u ∧
      o = .ofCause f.cause) ∨
    ∃ v s₁ n s₂, engine.ask (.formula s.evaluations.size [] e)
        (s.evaluating place x.parent σ.settings.maxCallDepth) = .ok v s₁ ∧
      engine.ask (.native v) s₁ = .ok n s₂ ∧ o = .value n v ∧ u = s₂.freeze n := by
  have hrun : engine.runFormula (.folder place x.parent) σ.settings.maxCallDepth e s =
      engine.ask (.formula s.evaluations.size [] e)
        (s.evaluating place x.parent σ.settings.maxCallDepth) := rfl
  unfold Engine.executeFormula at h
  simp only [compiled] at h
  obtain ⟨r, s₁, hr, h⟩ := Run.bind_eq_ok h
  unfold Run.outcome at hr
  rw [hrun] at hr
  cases hask : engine.ask (.formula s.evaluations.size [] e)
      (s.evaluating place x.parent σ.settings.maxCallDepth) with
  | ok v s₂ =>
    rw [hask] at hr
    cases hr
    obtain ⟨n, s₃, hn, h⟩ := Run.bind_eq_ok h
    cases h
    exact .inr ⟨v, s₁, n, s₃, rfl, hn, rfl, rfl⟩
  | error err s₂ =>
    rw [hask] at hr
    cases err with
    | exhausted => cases hr
    | failed f =>
      cases hr
      cases h
      exact .inl ⟨f, rfl, rfl⟩

/-- Once a formula has been evaluated, the store is firm. -/
theorem Executes.firm_evaluated {s s₁ : Store} {kf : String} {xf : Outline.Expression} {o : Outcome}
    (h : s.Executes fuel place kf σ xf o u) (hrun : (Engine.ofFuel fuel).ask
      (.formula s.evaluations.size [] e)
      ((s.counted place kf).evaluating place xf.parent σ.settings.maxCallDepth) = .ok w s₁) :
    s₁.Firm := by
  have hbegun := firm_begun h.firm place kf
  have hcounted : (s.counted place kf).Firm :=
    ((firmCustody_lenient place).note id (fun c => { c with executions := c.executions + 1 })
      ⟨rfl, .refl hbegun⟩).2.firm
  have hkeeps : firmCustody.Keeps (s.counted place kf)
      ((Engine.ofFuel fuel).runFormula (.folder place xf.parent) σ.settings.maxCallDepth e)
      firmCustody.typed :=
    .of_rel ((firmCustody_serves fuel).answers.runFormula
      (.folder _ (firmCustody.sessions _ place)) _ _) fun _ _ _ _ h =>
        Custody.typed_eq (K := firmCustody) h
  obtain ⟨_, -, hi, -⟩ := (hkeeps.after ⟨rfl, .refl hcounted⟩).1 w s₁ hrun
  exact hi.2.firm

/-- In the store in which a formula begins to be evaluated, a name means what it means in the
session. -/
theorem Executes.means {s : Store} {kf : String} {xf : Outline.Expression} {o : Outcome}
    (h : s.Executes fuel place kf σ xf o u) (alive : σ.alive = true)
    (names : σ.outline.place? xf.parent name = some (.expression key)) :
    ((s.counted place kf).evaluating place xf.parent σ.settings.maxCallDepth).Means
      s.evaluations.size place xf.parent name key (σ.counted kf) where
  scope := by
    show ((s.evaluations.push ⟨.folder place xf.parent, 0, _⟩)[s.evaluations.size]?).map _ = _
    rw [Array.getElem?_push_size]
    rfl
  session := by
    show (s.counted place kf).sessions[place]? = _
    rw [getElem?_counted, if_pos rfl, h.session]
    rfl
  alive := alive
  place := names

/-- A formula that goes into the result of a script shares what is there.  Where it comes to a
container, that is what its path leads to; where its path leads to a container, it comes to that,
unless the script is being executed. -/
theorem Executes.shares {s : Store} {kf : String} {xf : Outline.Expression} {o : Outcome}
    (h : s.Executes fuel place kf σ xf o u) (language : xf.language = .formula)
    (compiled : Formula.compile ⟨xf.path, σ.sourceText xf⟩ = .ok e) (alive : σ.alive = true)
    (names : σ.outline.place? xf.parent name = some (.expression key))
    (hx : σ.outline.expression? key = some x) (script : x.language = .script)
    (later : u.Precedes place t) (offers : t.Offers place key n v) :
    (∀ m w, o = .value m w → m.IsContainer → e.Chain name → ∃ path,
      Engine.Follows name s.evaluations.size
        ((s.counted place kf).evaluating place xf.parent σ.settings.maxCallDepth) fuel e path ∧
      t.at? n path = some m) ∧
    ∀ path m, e.Spells name path → t.at? n path = some m → m.IsContainer →
      (∃ w, o = .value m w) ∨ key ∈ σ.inFlight ∧ o = x.circular := by
  have hmeans := h.means alive names
  have hrun := h.formula language
  obtain ⟨f, hask, ho⟩ | ⟨v', s₁, n', s₂, hask, hnative, ho, hu⟩ :=
    executeFormula_cases compiled hrun
  · refine ⟨fun m w hvalue => ?_, fun path m spells hm _ => ?_⟩
    · cases ho.symm.trans hvalue
    · obtain ⟨hmem, f', hf', hcircular⟩ | ⟨w, hw, -⟩ :=
        hmeans.spells hx offers spells hm (.failure hask) later
      · cases hf'.symm.trans hask
        have hne : key ≠ kf := by
          rintro rfl
          cases hx.symm.trans h.known
          cases script.symm.trans language
        obtain rfl | hmem := List.mem_cons.1 hmem
        · exact absurd rfl hne
        · exact .inr ⟨hmem, ho.trans hcircular⟩
      · cases hw.symm.trans hask
  · have h₁ : s₁.Precedes place t := by
      have hfreeze : s₂.Precedes place u := hu ▸ precedes_ordinary (s₂.ordinary_freeze n') place
      exact (Engine.precedes_ask fuel (.value hnative) place).trans (hfreeze.trans later)
    have hengine : ∃ engine : Engine, engine.native v' s₁ = .ok n' s₂ := by
      cases fuel with
      | zero => cases hnative
      | succ fuel => exact ⟨_, hnative⟩
    obtain ⟨engine, hnative⟩ := hengine
    -- What was kept of the script when the formula read it is frozen, and so is what is in it.
    have hshared (chain : e.Chain name) {path : List Step} {m : Native}
        (hm : t.at? n path = some m) (hmirrors : t.Mirrors m v') (hcontainer : m.IsContainer) :
        n' = m := by
      have hfirm := h.firm_evaluated hask
      obtain ⟨⟨r, hr, hn⟩, -⟩ := hmeans.chain hx offers chain hask h₁
      obtain ⟨τ, hτ, hr⟩ := Option.bind_eq_some_iff.1 hr
      have hfrozen : s₁.Sealed n := hfirm.results hτ _ (Keyed.mem_of_lookup hr) n v hn
      obtain ⟨hat, hsealed⟩ := at?_kept hfirm.tight h₁.toFrozenKept hfrozen path
      have hsame := (hsealed m (hat ▸ hm)).sameAt h₁.toFrozenKept
      cases (Engine.native_mirrors offers.tight hmirrors hcontainer hsame engine).symm.trans
        hnative
      rfl
    refine ⟨fun m w hvalue hcontainer chain => ?_, fun path m spells hm hcontainer => .inl ?_⟩
    · cases ho.symm.trans hvalue
      obtain ⟨-, hparts⟩ := hmeans.chain hx offers chain hask h₁
      obtain hflat | ⟨path, m', hpath, hm, hmirrors⟩ := hparts
      · exact absurd hcontainer (Engine.native_flat hflat hnative)
      · by_cases hcontainer' : m'.IsContainer
        · obtain rfl := hshared chain hm hmirrors hcontainer'
          exact ⟨path, hpath, hm⟩
        · exact absurd hcontainer (Engine.native_flat (hmirrors.flat hcontainer') hnative)
    · obtain ⟨-, f, hf, -⟩ | ⟨w, hw, hmirrors⟩ :=
        hmeans.spells hx offers spells hm (.value hask) h₁
      · cases hf.symm.trans hask
      · cases hw.symm.trans hask
        obtain rfl := hshared spells.chain hm hmirrors hcontainer
        exact ⟨v', ho⟩

/-! ## Scripts that read formulas -/

/-- A script that reads an expression gets the native value of its result. -/
theorem Seeks.read {run block : Nat} {υ : Session} (h : u.Seeks run block place folder name key υ)
    (hx : υ.outline.expression? key = some x)
    (hrun : (Engine.ofFuel fuel).nameInScript run block name u = .ok m u') :
    ∃ r w, u'.result? place key = some r ∧ r.outcome = .value m w := by
  rw [h.nameInScript_run] at hrun
  obtain ⟨m', u₁, hread, hrest⟩ := Run.bind_eq_ok hrun
  cases hrest
  have hread : (Engine.ofFuel fuel).nativeBinding place name (.place (.expression key)) u =
      .ok m u₁ := by
    unfold Run.behindCall Run.mapFailure at hread
    split at hread
    · rename_i hok
      cases hread
      exact hok
    · cases hread
    · cases hread
  obtain ⟨a, u₂, hask, houtcome⟩ := Run.bind_eq_ok hread
  obtain ⟨r, rfl, hr⟩ := Engine.evaluate_kept_or_circular h.session hx hask
  cases ho : r.outcome with
  | failure first more =>
    simp only [ho] at houtcome
    cases houtcome
  | value n v =>
    simp only [ho] at houtcome
    cases houtcome
    obtain hr | ⟨-, hcircular⟩ := hr
    · exact ⟨r, v, hr, ho⟩
    · cases ho.symm.trans hcircular

/-- A script that reads an expression whose result is kept gets it, or fails with it. -/
theorem Seeks.read_kept {run block : Nat} {υ : Session} {r : Result}
    (h : u.Seeks run block place folder name key υ) (hx : υ.outline.expression? key = some x)
    (hr : u.result? place key = some r) (fuel : Nat) :
    (∀ n v, r.outcome = .value n v → ∃ u', u.Precedes place u' ∧
      (Engine.ofFuel (fuel + 1)).nameInScript run block name u = .ok n u') ∧
    ∀ y : Outline.Expression, r.outcome = y.circular → ∃ f u',
      (Engine.ofFuel (fuel + 1)).nameInScript run block name u = .error (.failed f) u' ∧
        f.cause.message = "circular reference: " ++ y.path := by
  have hx : u.expression? place key = some x := (expression?_of_outline h.session).trans hx
  have hask : (Engine.ofFuel (fuel + 1)).ask (.evaluate place key) u = .ok (some r) (u.hit place) :=
    (Engine.ofFuel fuel).evaluate_kept hx hr
  have hbinding : (Engine.ofFuel (fuel + 1)).nativeBinding place name (.place (.expression key)) u =
      Engine.nativeOutcome name r.outcome (u.hit place) := Run.bind_run hask
  have hread := h.nameInScript_run (Engine.ofFuel (fuel + 1))
  refine ⟨fun n v ho => ?_, fun y ho => ?_⟩
  · rw [ho] at hbinding
    have hbehind : Run.behindCall ((Engine.ofFuel (fuel + 1)).nativeBinding place name
        (.place (.expression key))) u = .ok n (u.hit place) := by
      unfold Run.behindCall Run.mapFailure
      rw [hbinding]
      rfl
    rw [Run.bind_run hbehind] at hread
    refine ⟨_, ?_, hread⟩
    have hhit : u.Precedes place (u.hit place) :=
      u.precedes_changeSession place fun _ _ _ => ⟨id, rfl, rfl, id⟩
    refine hhit.trans (Calm.precedes ?_ place)
    exact calm_of_eq rfl rfl rfl
  · rw [ho] at hbinding
    have hbehind : Run.behindCall ((Engine.ofFuel (fuel + 1)).nativeBinding place name
        (.place (.expression key))) u = .error (.failed (.ofCause (.fault
          (Cause.engine ("circular reference: " ++ y.path)).toFault))) (u.hit place) := by
      unfold Run.behindCall Run.mapFailure
      rw [hbinding]
      rfl
    exact ⟨_, _, hread.trans (Run.bind_error hbehind), rfl⟩

/-- What a session was when an expression was executed precedes what it is later. -/
theorem Executes.session_later {s : Store} {o : Outcome} (h : s.Executes fuel place key σ x o u)
    (later : u.Precedes place t) {τ : Session} (hτ : t.sessions[place]? = some τ) :
    σ.Precedes τ := by
  have hbegun : (Accord.begun s place key).sessions[place]? =
      some { σ with inFlight := key :: σ.inFlight } := by
    unfold Accord.begun
    rw [getElem?_changeSession, if_pos rfl, h.session]
    rfl
  obtain ⟨υ, hυ, hσυ⟩ := h.retains place _ hbegun
  obtain ⟨τ', hτ', hυτ⟩ := later.session υ hυ
  obtain rfl := Option.some.inj (hτ.symm.trans hτ')
  have hσ : σ.Precedes υ := ⟨hσυ.alive, hσυ.tree, hσυ.outline, hσυ.kept⟩
  exact hσ.trans hυτ

/-- The result of a script is on offer. -/
theorem Settled.offers (h : t.Settled) {r : Result} (hσ : t.sessions[place]? = some σ)
    (hx : σ.outline.expression? key = some x) (script : x.language = .script)
    (hr : σ.results.lookup key = some r) (ho : r.outcome = .value n v) : t.Offers place key n v where
  tight := h.firm.tight
  kept := ⟨r, (result?_of_lookup hσ).trans hr, ho⟩
  mirrors := by
    have hconverted : n.toValue t = .ok v :=
      h.founded.toValue ((expression?_of_outline hσ).trans hx) script
        ((result?_of_lookup hσ).trans hr) ho
    exact ⟨h.firm.results hσ _ (Keyed.mem_of_lookup hr) n v ho, _, _, hconverted⟩

end Store

/-- Formulas share the containers of scripts.  A session keeps the result `ns` of a script, and
the result of a formula that names the script and goes on to members and items.  Where the
formula has come to an array or object, it is the very one that is found in `ns` on the path that
the formula followed.  Where the path that a formula spells leads to an array or object, the
formula has come to that, unless it was executed while the script was being executed, and has the
circular reference for its result.  Every script that reads the formula by name, earlier or later,
gets what the formula has come to; later on, `ns` still holds the same at every path. -/
theorem formula_shares_container {fuel : Nat} {t : Store}
    (comes : (Engine.ofFuel fuel).Comes .empty t) {place : Nat} {σ : Session}
    (hσ : t.sessions[place]? = some σ) (alive : σ.alive = true) {ks : String}
    {xs : Outline.Expression} {rs : Result} {ns : Native} {vs : Value}
    (hxs : σ.outline.expression? ks = some xs) (script : xs.language = .script)
    (hrs : σ.results.lookup ks = some rs) (hns : rs.outcome = .value ns vs) {kf : String}
    {xf : Outline.Expression} {rf : Result} {name : String} {e : Expr}
    (hxf : σ.outline.expression? kf = some xf) (formula : xf.language = .formula)
    (compiled : Formula.compile ⟨xf.path, σ.sourceText xf⟩ = .ok e)
    (names : σ.outline.place? xf.parent name = some (.expression ks))
    (hrf : σ.results.lookup kf = some rf) :
    (∃ (fuel' : Nat) (s : Store) (τ : Session) (u : Store),
      s.Executes fuel' place kf τ xf rf.outcome u ∧ u.Precedes place t ∧
      (∀ m w, rf.outcome = .value m w → m.IsContainer → e.Chain name → ∃ path,
        Engine.Follows name s.evaluations.size
          ((s.counted place kf).evaluating place xf.parent τ.settings.maxCallDepth) fuel' e path ∧
        t.at? ns path = some m) ∧
      ∀ path m, e.Spells name path → t.at? ns path = some m → m.IsContainer →
        (∃ w, rf.outcome = .value m w) ∨ ks ∈ τ.inFlight ∧ rf.outcome = xs.circular) ∧
    ∀ (u : Store) (run block : Nat) (folder called : String) (υ : Session),
      u.Seeks run block place folder called kf υ →
      (∀ fuel' m u', (Engine.ofFuel fuel').nameInScript run block called u = .ok m u' →
        u'.Precedes place t → ∃ w, rf.outcome = .value m w) ∧
      (t.Precedes place u → (∀ path, u.at? ns path = t.at? ns path) ∧ ∀ fuel',
        (∀ m w, rf.outcome = .value m w → ∃ u', u.Precedes place u' ∧
          (Engine.ofFuel (fuel' + 1)).nameInScript run block called u = .ok m u') ∧
        (rf.outcome = xs.circular → ∃ f u',
          (Engine.ofFuel (fuel' + 1)).nameInScript run block called u = .error (.failed f) u' ∧
            f.cause.message = "circular reference: " ++ xs.path)) := by
  have hsettled := Store.settled_of_comes Store.settled_empty comes
  have hoffers := hsettled.offers hσ hxs script hrs hns
  have hkept : t.result? place kf = some rf := (Store.result?_of_lookup hσ).trans hrf
  constructor
  · obtain ⟨fuel', s, τ, u, hexecutes, later⟩ :=
      hsettled.founded.origins ((Store.expression?_of_outline hσ).trans hxf) hkept
    have hτσ := hexecutes.session_later later hσ
    have hsource : τ.sourceText xf = σ.sourceText xf := by
      unfold Session.sourceText
      rw [hτσ.tree]
    obtain ⟨hcontainer, hpath⟩ := hexecutes.shares formula (hsource ▸ compiled) (hτσ.alive alive)
      (hτσ.outline ▸ names) (hτσ.outline ▸ hxs) script later hoffers
    exact ⟨fuel', s, τ, u, hexecutes, later, hcontainer, hpath⟩
  · intro u run block folder called υ hseeks
    obtain ⟨x, hx⟩ := Outline.expression?_of_place? hseeks.place
    refine ⟨fun fuel' m u' hrun later => ?_, fun later => ⟨fun path => ?_, fun fuel' => ?_⟩⟩
    · obtain ⟨r, w, hr, ho⟩ := hseeks.read hx hrun
      obtain rfl := Option.some.inj (hkept.symm.trans (later.result? hr))
      exact ⟨w, ho⟩
    · exact (Store.at?_kept hsettled.firm.tight later.toFrozenKept hoffers.mirrors.frozen path).1
    · obtain ⟨hvalue, hcircular⟩ := hseeks.read_kept hx (later.result? hkept) fuel'
      exact ⟨hvalue, hcircular xs⟩

/-! ## A script and a formula -/

/-- A script, and in a folder a formula that reads the first item of its result. -/
def rowReader (text : String) : Tree :=
  ⟨[("", some [⟨.expression, "s", 1, some .script⟩, ⟨.folder, "d", 2, none⟩]),
      ("d", some [⟨.expression, "f", 3, some .formula⟩])],
    [("s", some text), ("d/f", some "s[0]")], 3⟩

namespace RowReader

/-- The script of the workbook. -/
def script : Outline.Expression :=
  ⟨"s", "s", ["s"], .script, 1, ""⟩

/-- The formula of the workbook. -/
def formula : Outline.Expression :=
  ⟨"d/f", "f", ["d", "f"], .formula, 3, "d"⟩

/-- The formula as it is read. -/
def row : Expr :=
  .index ⟨0, 4, 1, 1⟩ (.name ⟨0, 1, 1, 1⟩ "s") (.integer ⟨2, 3, 1, 3⟩ 0)

theorem ofTree_rowReader (text : String) : Outline.ofTree (rowReader text) =
    ⟨[Outline.root, ⟨"d", "d", ["d"], 2, some ""⟩], [script, formula]⟩ :=
  (Outline.ofTree_of_folder rfl (by decide) rfl rfl (by decide) rfl).trans rfl

theorem pathKey_f : pathKey "d/f" = "d/f" :=
  pathKey_of_lower (by decide : ∀ n ∈ ["d", "f"], Outline.isName n = true) (by decide)

theorem pathKey_s : pathKey "s" = "s" :=
  pathKey_of_name (by decide) (by decide)

theorem lex_row : Token.lex .formula ⟨"d/f", "s[0]"⟩ =
    ([⟨.name "s", ⟨0, 1, 1, 1⟩⟩, ⟨.symbol .leftBracket, ⟨1, 2, 1, 2⟩⟩,
      ⟨.number (.integer 0), ⟨2, 3, 1, 3⟩⟩, ⟨.symbol .rightBracket, ⟨3, 4, 1, 4⟩⟩] ++
      [⟨.endOfInput, ⟨4, 4, 1, 5⟩⟩], .empty) := by
  rw [Token.lex_ofList]
  with_unfolding_all rfl

theorem compile_row : Formula.compile ⟨"d/f", "s[0]"⟩ = .ok row := by
  have hindex : Formula.Grammar.Expression 63 [⟨.number (.integer 0), ⟨2, 3, 1, 3⟩⟩]
      (.integer ⟨2, 3, 1, 3⟩ 0) := Formula.expression_of_suffixed (.primary .number)
  exact Formula.compile_of_written lex_row (by decide) rfl
    (.expression (Formula.expression_of_suffixed (.index (.primary .name) hindex)))

theorem spells_row : row.Spells "s" [.position 0] := by
  have h : row.Spells "s" ([] ++ [Step.position 0]) :=
    .index (.name _) _ (Formula.Expr.constant_integer _ 0) (.number (by decide))
  exact h

/-- A session of the workbook that is asked for an expression. -/
structure Asked (t : Store) (σ : Session) : Prop where
  comes : (Engine.ofFuel 16).Comes .empty t
  session : t.sessions[0]? = some σ
  alive : σ.alive = true
  script : σ.outline.expression? "s" = some RowReader.script
  formula : σ.outline.expression? "d/f" = some RowReader.formula
  compiled : Formula.compile ⟨RowReader.formula.path, σ.sourceText RowReader.formula⟩ = .ok row
  names : σ.outline.place? RowReader.formula.parent "s" = some (.expression "s")
  named : σ.outline.place? "d" "f" = some (.expression "d/f")

theorem asked {text path : String} {a : Option Result} {t : Store} {σ : Session}
    (h : (Engine.ofFuel 16).query 0 (.expression path)
      (Store.empty.opened (rowReader text) ⟨.standard, [], []⟩ 0) = .ok a t)
    (hσ : t.sessions[0]? = some σ) (alive : σ.alive = true) : Asked t σ := by
  have hopened := (Engine.ofFuel 16).comes_opened .empty (rowReader text) ⟨.standard, [], []⟩ 0 .nil
  have hfirm := (Store.settled_of_comes Store.settled_empty hopened).firm
  have hquery := Engine.Offers.query (e := Engine.ofFuel 16)
    (s := Store.empty.opened (rowReader text) ⟨.standard, [], []⟩ 0) 0 (.expression path)
  have hlater := Engine.precedes_of_leads hfirm (.step .refl hquery (.value h)) 0
  obtain ⟨τ, hτ, hστ⟩ := hlater.session _
    (Store.session_opened Store.empty (rowReader text) ⟨.standard, [], []⟩ 0)
  obtain rfl := Option.some.inj (hσ.symm.trans hτ)
  have houtline : σ.outline = _ := hστ.outline.trans (ofTree_rowReader text)
  have hsource : σ.sourceText formula = "s[0]" := by
    unfold Session.sourceText
    rw [hστ.tree]
    rfl
  refine ⟨hopened.query h, hσ, alive, ?_, ?_, ?_, ?_, ?_⟩
  · rw [houtline]
    decide
  · rw [houtline]
    decide
  · rw [hsource]
    exact compile_row
  · rw [houtline]
    decide
  · rw [houtline]
    decide

/-- What a session keeps of the script and the formula, and the first item of the script's result. -/
structure Kept (t : Store) (σ : Session) (rs rf : Result) (ns m : Native) (vs : Value) :
    Prop where
  asked : Asked t σ
  script : σ.results.lookup "s" = some rs
  value : rs.outcome = .value ns vs
  formula : σ.results.lookup "d/f" = some rf
  item : t.at? ns [.position 0] = some m

/-- Whether the first session keeps an array for the script, with an array for its first item, and
an outcome for the formula. -/
def keeps (t : Store) (check : Outcome → Bool) : Bool :=
  match t.sessions[0]? with
  | some σ =>
    match σ.alive, σ.results.lookup "s", σ.results.lookup "d/f" with
    | true, some ⟨_, .value n _⟩, some ⟨_, o⟩ =>
      match t.at? n [.position 0] with
      | some (.array _) => check o
      | _ => false
    | _, _, _ => false
  | none => false

theorem kept_of_keeps {text path : String} {a : Option Result} {t : Store} {check : Outcome → Bool}
    (h : (Engine.ofFuel 16).query 0 (.expression path)
      (Store.empty.opened (rowReader text) ⟨.standard, [], []⟩ 0) = .ok a t)
    (hkeeps : keeps t check = true) : ∃ σ rs rf ns m vs, Kept t σ rs rf ns m vs ∧
      m.IsContainer ∧ check rf.outcome = true := by
  unfold keeps at hkeeps
  split at hkeeps
  · rename_i σ hσ
    split at hkeeps
    · rename_i i n v j o alive hs hf
      split at hkeeps
      · rename_i place hitem
        exact ⟨σ, _, _, n, _, v, ⟨asked h hσ alive, hs, rfl, hf, hitem⟩, trivial, hkeeps⟩
      · cases hkeeps
    · cases hkeeps
  · cases hkeeps

/-- What the sessions keep if the formula is asked for, and if a script that reads the folder is. -/
theorem rows_kept :
    (match (Engine.ofFuel 16).query 0 (.expression "d/f")
        (Store.empty.opened (rowReader "return [[true]]") ⟨.standard, [], []⟩ 0) with
      | .ok _ t => keeps t fun o => decide (o ≠ script.circular)
      | _ => false) = true ∧
    (match (Engine.ofFuel 16).query 0 (.expression "s")
        (Store.empty.opened (rowReader "d; return [[true]]") ⟨.standard, [], []⟩ 0) with
      | .ok _ t => keeps t fun o => decide (o = script.circular)
      | _ => false) = true := by
  unfold Engine.query Store.opened Store.opening Session.start
  rw [ofTree_rowReader, ofTree_rowReader]
  simp only [pathKey_f, pathKey_s]
  decide +kernel

end RowReader

open RowReader in
/-- The formula `s[0]` has the item of the script's result for its value. -/
theorem row_is_shared : ∃ (t : Store) (σ : Session) (rs rf : Result) (ns m : Native) (vs w : Value),
    Kept t σ rs rf ns m vs ∧ m.IsContainer ∧ rf.outcome = .value m w ∧
    ∃ (u : Store) (run block : Nat), u.Seeks run block 0 "d" "f" "d/f" σ ∧
      ∃ u', (Engine.ofFuel 1).nameInScript run block "f" u = .ok m u' := by
  have hrun := rows_kept.1
  split at hrun
  case h_2 => cases hrun
  case h_1 a t h =>
    obtain ⟨σ, rs, rf, ns, m, vs, kept, hm, hcheck⟩ := kept_of_keeps h hrun
    have asked := kept.asked
    obtain ⟨⟨_, s, τ, u, -, -, -, hpath⟩, reads⟩ := formula_shares_container asked.comes
      asked.session asked.alive asked.script rfl kept.script kept.value asked.formula rfl
      asked.compiled asked.names kept.formula
    obtain ⟨w, hw⟩ : ∃ w, rf.outcome = .value m w := by
      obtain hvalue | ⟨-, hcircular⟩ := hpath _ m spells_row kept.item hm
      · exact hvalue
      · exact absurd hcircular (of_decide_eq_true hcheck)
    refine ⟨t, σ, rs, rf, ns, m, vs, w, kept, hm, hw, ?_⟩
    -- A script of the folder of the formula begins to run.
    let u : Store := { t with executions := t.executions.push ⟨.folder 0 "d", [], 0, 1⟩ }
    have hseeks : u.Seeks t.executions.size t.blocks.size 0 "d" "f" "d/f" σ := by
      refine ⟨⟨_, Array.getElem?_push_size, rfl, rfl⟩, ?_, by decide, asked.session, asked.alive,
        asked.named⟩
      unfold Store.valueOf? Store.resolve?
      simp [u]
    have hcalm : t.Calm u := Store.calm_of_eq rfl rfl rfl
    obtain ⟨-, hread⟩ := (reads u _ _ "d" "f" σ hseeks).2 (hcalm.precedes 0)
    obtain ⟨u', -, hread⟩ := (hread 0).1 m w hw
    exact ⟨u, _, _, hseeks, u', hread⟩

open RowReader in
/-- A formula that was executed while the script was being executed does not share the result of
the script: scripts that read it fail.  The item of the result is there. -/
theorem circular_read_misses : ∃ (t : Store) (σ : Session) (rs rf : Result) (ns m : Native)
    (vs : Value), Kept t σ rs rf ns m vs ∧ row.Spells "s" [.position 0] ∧ m.IsContainer ∧
    ∀ (u : Store) (run block : Nat) (folder called : String) (υ : Session),
      u.Seeks run block 0 folder called "d/f" υ → t.Precedes 0 u →
      ∀ fuel, ∃ f u', (Engine.ofFuel (fuel + 1)).nameInScript run block called u =
        .error (.failed f) u' ∧ f.cause.message = "circular reference: s" := by
  have hrun := rows_kept.2
  split at hrun
  case h_2 => cases hrun
  case h_1 a t h =>
    obtain ⟨σ, rs, rf, ns, m, vs, kept, hm, hcheck⟩ := kept_of_keeps h hrun
    refine ⟨t, σ, rs, rf, ns, m, vs, kept, spells_row, hm, ?_⟩
    intro u run block folder called υ hseeks later fuel
    obtain ⟨x, hx⟩ := Outline.expression?_of_place? hseeks.place
    have hr : t.result? 0 "d/f" = some rf :=
      (Store.result?_of_lookup kept.asked.session).trans kept.formula
    exact (hseeks.read_kept hx (later.result? hr) fuel).2 script (of_decide_eq_true hcheck)

end Workbook
