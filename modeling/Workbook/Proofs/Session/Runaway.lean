/-
A formula that no limit on calls stops.

The limit counts the calls of lambdas that are active.  A method read from a list is a
function too, and a call of it is not counted; `reduce` calls the function it is given with
what it is given.  So `[v].reduce` applied to a function and a value applies the function to
the value and `v`, and with a lambda that makes the next such methods, and is over before
they are called, formulas nest calls without end while one counted call is active at most.
`evaluate_runaway` is the statement, for every limit and all fuel.
-/
import Mathlib
import Workbook.Proofs.Outline.Crawl
import Workbook.Proofs.Parser.Account
import Workbook.Proofs.Session.Query

namespace Workbook

/-! ## Runs that do not fail -/

namespace Run

variable {α β : Type} {x : Run α} {s : Store} {P : α → Store → Prop}

theorem Yields.ends (h : x.Yields s P) :
    (∃ a s', x s = .ok a s' ∧ P a s') ∨ ∃ s', x s = .error .exhausted s' := by
  cases hr : x s with
  | ok a s' => exact .inl ⟨a, s', rfl, h.value a s' hr⟩
  | error e s' =>
    cases e with
    | failed f => exact absurd hr (h.total f s')
    | exhausted => exact .inr ⟨s', rfl⟩

/-- What yields nothing is exhausted. -/
theorem Yields.exhausts (h : x.Yields s fun _ _ => False) : ∃ s', x s = .error .exhausted s' := by
  obtain ⟨_, _, _, h⟩ | h := h.ends
  · exact h.elim
  · exact h

theorem yields_of_ok {a : α} {t : Store} (hr : x s = .ok a t) (h : P a t) : x.Yields s P := by
  refine ⟨fun b u hb => ?_, fun f u hf => ?_⟩
  · rw [hr] at hb
    cases hb
    exact h
  · rw [hr] at hf
    cases hf

theorem yields_of_exhausted {t : Store} (hr : x s = .error .exhausted t) : x.Yields s P := by
  refine ⟨fun b u hb => ?_, fun f u hf => ?_⟩
  · rw [hr] at hb
    cases hb
  · rw [hr] at hf
    cases hf

/-- Runs that do the same yield the same. -/
theorem Yields.of_eq {y : Run α} {t : Store} (h : y.Yields t P) (hr : x s = y t) :
    x.Yields s P := by
  obtain ⟨a, s', hy, ha⟩ | ⟨s', hy⟩ := h.ends
  · exact yields_of_ok (hr.trans hy) ha
  · exact yields_of_exhausted (hr.trans hy)

theorem yields_pure {a : α} (h : P a s) : (pure a : Run α).Yields s P :=
  yields_of_ok rfl h

theorem yields_exhausted : (exhausted : Run α).Yields s P :=
  yields_of_exhausted rfl

theorem yields_get {k : Store → Run α} (h : (k s).Yields s P) : (get >>= k).Yields s P :=
  h.of_eq rfl

theorem yields_modifyGet {f : Store → α × Store} (h : P (f s).1 (f s).2) :
    (modifyGet f : Run α).Yields s P :=
  yields_of_ok rfl h

theorem Yields.mono {Q : α → Store → Prop} (h : x.Yields s P) (hPQ : ∀ a s', P a s' → Q a s') :
    x.Yields s Q :=
  ⟨fun a s' hr => hPQ a s' (h.value a s' hr), h.total⟩

theorem Yields.bind {k : α → Run β} {Q : β → Store → Prop} (h : x.Yields s P)
    (hk : ∀ a s', P a s' → (k a).Yields s' Q) : (x >>= k).Yields s Q := by
  obtain ⟨a, s', hr, ha⟩ | ⟨s', hr⟩ := h.ends
  · exact (hk a s' ha).of_eq (bind_run hr)
  · refine yields_of_exhausted (t := s') ?_
    show EStateM.bind x k s = _
    unfold EStateM.bind
    rw [hr]

theorem Yields.mapFailure (h : x.Yields s P) (f : Failure → Failure) :
    (mapFailure f x).Yields s P := by
  obtain ⟨a, s', hr, ha⟩ | ⟨s', hr⟩ := h.ends
  · exact yields_of_ok (by rw [Run.mapFailure, hr]) ha
  · exact yields_of_exhausted (t := s') (by rw [Run.mapFailure, hr])

theorem Yields.ensuring {g : Store → Store} (h : x.Yields s fun a s' => P a (g s')) :
    (ensuring x (modify g)).Yields s P := by
  obtain ⟨a, s', hr, ha⟩ | ⟨s', hr⟩ := h.ends
  · exact yields_of_ok (a := a) (t := g s') (by rw [Run.ensuring, hr]; rfl) ha
  · exact yields_of_exhausted (t := g s') (by rw [Run.ensuring, hr]; rfl)

theorem Yields.outcome (h : x.Yields s P) :
    (outcome x).Yields s fun r s' => ∃ a, r = .ok a ∧ P a s' := by
  obtain ⟨a, s', hr, ha⟩ | ⟨s', hr⟩ := h.ends
  · exact yields_of_ok (by rw [Run.outcome, hr]) ⟨a, rfl, ha⟩
  · exact yields_of_exhausted (t := s') (by rw [Run.outcome, hr])

end Run

/-! ## Formulas with all fuel -/

namespace Formula.Expr

/-- With any fuel, a formula yields what satisfies `P` unless it is exhausted. -/
def Yields (e : Expr) (evaluation : Nat) (locals : List (String × Value)) (s : Store)
    (P : Value → Store → Prop) : Prop :=
  ∀ fuel, ((Engine.ofFuel fuel).ask (.formula evaluation locals e)).Yields s P

variable {evaluation : Nat} {locals : List (String × Value)} {s : Store}
  {P Q : Value → Store → Prop} {e : Expr} {span : Span}

/-- A formula that is asked for runs with one unit of fuel less. -/
theorem yields_of_formula
    (h : ∀ fuel, ((Engine.ofFuel fuel).formula evaluation locals e).Yields s P) :
    e.Yields evaluation locals s P := by
  intro fuel
  cases fuel with
  | zero => exact Run.yields_exhausted
  | succ fuel => exact h fuel

theorem yields_integer {n : Int64} (h : P (.integer n) s) :
    (integer span n).Yields evaluation locals s P :=
  yields_of_formula fun _ => Run.yields_pure h

theorem yields_local {x : String} {v : Value} (hx : locals.lookup x = some v) (h : P v s) :
    (name span x).Yields evaluation locals s P := by
  refine yields_of_formula fun fuel => ?_
  unfold Engine.formula Engine.nameValue
  simp only [hx]
  exact Run.yields_pure h

theorem yields_lambda {parameters : List Name} {body : Expr}
    (h : ∀ id, P
      (.function (.typed (.mk id (.lambda evaluation locals (parameters.map Name.text) body))))
      { s with fresh := s.fresh + 1 }) :
    (lambda span parameters body).Yields evaluation locals s P :=
  yields_of_formula fun _ => Run.yields_of_ok rfl (h s.fresh)

theorem yields_binding {k : Name} {value body : Expr} (hv : value.Yields evaluation locals s P)
    (hb : ∀ v s', P v s' → body.Yields evaluation ((k.text, v) :: locals) s' Q) :
    (binding span k value body).Yields evaluation locals s Q :=
  yields_of_formula fun fuel => (hv fuel).bind fun v s' h => hb v s' h fuel

/-- The same of several formulas, one after the other. -/
def AllYield (es : List Expr) (evaluation : Nat) (locals : List (String × Value)) (s : Store)
    (R : List Value → Store → Prop) : Prop :=
  ∀ fuel, (es.mapM fun e => (Engine.ofFuel fuel).ask (.formula evaluation locals e)).Yields s R

variable {es : List Expr} {R : List Value → Store → Prop}

theorem allYield_nil (h : R [] s) : AllYield [] evaluation locals s R :=
  fun _ => Run.yields_pure h

theorem allYield_cons (he : e.Yields evaluation locals s P)
    (h : ∀ v s', P v s' → AllYield es evaluation locals s' fun vs => R (v :: vs)) :
    AllYield (e :: es) evaluation locals s R := by
  intro fuel
  rw [List.mapM_cons]
  exact (he fuel).bind fun v s' hv => (h v s' hv fuel).bind fun _ _ => Run.yields_pure

/-- The items of a list without spreads are what its formulas yield. -/
theorem listItems_one (eval : Expr → Run Value) (es : List Expr) :
    Engine.listItems eval (es.map .one) = es.mapM eval := by
  induction es with
  | nil => rfl
  | cons e es ih => rw [List.map_cons, List.mapM_cons, Engine.listItems, ih]

/-- The method `reduce` of a list. -/
theorem yields_reduce {span' : Span} {k : Name} (es : List Expr) (hk : k.text = "reduce")
    (hes : AllYield es evaluation locals s R)
    (h : ∀ vs s', R vs s' → P (.function (.typed (.mk s'.fresh (.listMethod vs .reduce))))
      { s' with fresh := s'.fresh + 1 }) :
    (member span (list span' (es.map .one)) k).Yields evaluation locals s P := by
  have hlist : (list span' (es.map .one)).Yields evaluation locals s
      fun v s' => ∃ vs, v = .ofItems vs ∧ R vs s' := by
    refine yields_of_formula fun fuel => ?_
    unfold Engine.formula
    simp only [listItems_one]
    exact (hes fuel).bind fun vs s' hvs => Run.yields_pure ⟨vs, rfl, hvs⟩
  refine yields_of_formula fun fuel => (hlist fuel).bind ?_
  rintro v s' ⟨vs, rfl, hvs⟩
  rw [hk]
  exact Run.yields_of_ok rfl (h vs s' hvs)

/-- A call of a function. -/
theorem yields_call {callee : Expr} {F : Callable → Store → Prop}
    (hf : callee.Yields evaluation locals s fun v s' => ∃ f, v = .function f ∧ F f s')
    (hes : ∀ f s', F f s' → AllYield es evaluation locals s' R)
    (h : ∀ f s' vs s'', F f s' → R vs s'' →
      ∀ fuel, ((Engine.ofFuel fuel).call f vs).Yields s'' P) :
    (call span callee es).Yields evaluation locals s P := by
  refine yields_of_formula fun fuel => (hf fuel).bind ?_
  rintro v s' ⟨f, rfl, hF⟩
  exact (hes f s' hF fuel).bind fun vs s'' hvs => h f s' vs s'' hF hvs fuel

end Formula.Expr

/-! ## Methods that call what they are given -/

namespace Engine

open Formula.Expr

variable {evaluation fuel : Nat} {locals : List (String × Value)} {s : Store}
  {P : Value → Store → Prop}

/-- Called with a function and a value, `reduce` of a list of one item applies the function to the
value and the item.  No call is counted. -/
theorem yields_call_reduce {id : Nat} {v a : Value} {f : Callable}
    (h : ∀ n < fuel, ((ofFuel n).call f [a, v]).Yields s P) :
    ((ofFuel fuel).call (.typed (.mk id (.listMethod [v] .reduce)))
      [.function f, a]).Yields s P := by
  cases fuel with
  | zero => exact Run.yields_exhausted
  | succ n =>
    exact ((h n (Nat.lt_succ_self n)).bind fun _ _ => Run.yields_pure).mapFailure _

/-- Of a list of two items, it applies the function to the first item, and then to what this
yields. -/
theorem yields_call_reduce_two {id : Nat} {v w a : Value} {f : Callable} {Q : Value → Store → Prop}
    (h : ∀ n < fuel, ((ofFuel n).call f [a, v]).Yields s Q)
    (h' : ∀ b s', Q b s' → ∀ n < fuel, ((ofFuel n).call f [b, w]).Yields s' P) :
    ((ofFuel fuel).call (.typed (.mk id (.listMethod [v, w] .reduce))) [.function f, a]).Yields s
      P := by
  cases fuel with
  | zero => exact Run.yields_exhausted
  | succ n =>
    refine Run.Yields.mapFailure ?_ _
    exact (h n (Nat.lt_succ_self n)).bind fun b s' hb =>
      (h' b s' hb n (Nat.lt_succ_self n)).bind fun _ _ => Run.yields_pure

/-- A call is counted while it is active, if there are not too many. -/
theorem callWithin_run {x : Run Value} (hs : s.busy evaluation = false) :
    callWithin evaluation x s =
      Run.ensuring x (modify fun s => s.countCalls evaluation (· - 1))
        (s.countCalls evaluation (· + 1)) := by
  show ((if s.busy evaluation then _ else _ : Run Value) s) = _
  rw [hs]
  rfl

/-- A call of a lambda. -/
theorem yields_call_lambda {id : Nat} {parameters : List String} {body : Formula.Expr}
    {arguments : List Value} (hs : s.busy evaluation = false)
    (h : body.Yields evaluation (bindParameters parameters arguments locals)
      (s.countCalls evaluation (· + 1)) fun v s' => P v (s'.countCalls evaluation (· - 1))) :
    ((ofFuel fuel).call (.typed (.mk id (.lambda evaluation locals parameters body)))
      arguments).Yields s P := by
  cases fuel with
  | zero => exact Run.yields_exhausted
  | succ n =>
    refine Run.Yields.mapFailure ?_ _
    exact (h n).ensuring.of_eq (callWithin_run hs)

end Engine

/-! ## The formula -/

/-- The method `reduce` of a list. -/
abbrev Value.reduceOf (vs : List Value) (id : Nat) : Value :=
  .function (.typed (.mk id (.listMethod vs .reduce)))

namespace Formula.Expr

/-- Whether a formula is `[n, [self].reduce].reduce` for a number. -/
def spins : Expr → Bool
  | member _ (list _ [.one (integer _ _), .one (member _ (list _ [.one (name _ x)]) k)]) k' =>
    x == "self" && k.text == "reduce" && k'.text == "reduce"
  | _ => false

/-- Whether a formula is `let l = fn(x, self) => b in [n, [l].reduce].reduce([l].reduce, l)` with
such a formula for `b`. -/
def runsAway : Expr → Bool
  | binding _ l (lambda _ [x, self] b)
      (call _
        (member _ (list _ [.one (integer _ _), .one (member _ (list _ [.one (name _ l₁)]) k₁)]) k)
        [member _ (list _ [.one (name _ l₂)]) k₂, name _ l₃]) =>
    l.text == "l" && x.text == "x" && self.text == "self" && b.spins && l₁ == "l" && l₂ == "l" &&
      l₃ == "l" && k.text == "reduce" && k₁.text == "reduce" && k₂.text == "reduce"
  | _ => false

variable {evaluation : Nat} {locals : List (String × Value)} {s : Store} {e : Expr}

/-- A formula `[x].reduce` for a name. -/
theorem yields_reduce_local {a b c : Span} {x : String} {k : Name} {w : Value}
    (hw : locals.lookup x = some w) (hk : k.text = "reduce") :
    (member a (list b [.one (name c x)]) k).Yields evaluation locals s fun v s' =>
      s'.evaluations = s.evaluations ∧ ∃ i, v = .reduceOf [w] i := by
  refine yields_reduce [_] hk (R := fun vs s' => vs = [w] ∧ s' = s) ?_ ?_
  · refine allYield_cons (P := fun v s' => v = w ∧ s' = s) (yields_local hw ⟨rfl, rfl⟩) ?_
    rintro v s' ⟨rfl, rfl⟩
    exact allYield_nil ⟨rfl, rfl⟩
  · rintro vs s' ⟨rfl, rfl⟩
    exact ⟨rfl, _, rfl⟩

/-- A formula `[n, [x].reduce].reduce` for a number and a name. -/
theorem yields_reduce_pair {a b c d e f : Span} {x : String} {k k' : Name} {n : Int64} {w : Value}
    (hw : locals.lookup x = some w) (hk : k.text = "reduce") (hk' : k'.text = "reduce") :
    (member a (list b [.one (integer c n), .one (member d (list e [.one (name f x)]) k)])
      k').Yields evaluation locals s fun v s' => s'.evaluations = s.evaluations ∧
        ∃ i j, v = .reduceOf [.integer n, .reduceOf [w] j] i := by
  refine yields_reduce [_, _] hk' (R := fun vs s' => s'.evaluations = s.evaluations ∧
    ∃ j, vs = [.integer n, .reduceOf [w] j]) ?_ ?_
  · refine allYield_cons (P := fun v s' => v = .integer n ∧ s' = s) (yields_integer ⟨rfl, rfl⟩) ?_
    rintro v s' ⟨rfl, rfl⟩
    refine allYield_cons (yields_reduce_local hw hk) ?_
    rintro v s'' ⟨hs, j, rfl⟩
    exact allYield_nil ⟨hs, j, rfl⟩
  · rintro vs s' ⟨hs, j, rfl⟩
    exact ⟨hs, _, j, rfl⟩

/-- What a lambda with such a body answers to a value: a method that holds another one, which holds
the value. -/
theorem yields_spins (he : e.spins = true) {w : Value} (hw : locals.lookup "self" = some w) :
    e.Yields evaluation locals s fun v s' => s'.evaluations = s.evaluations ∧
      ∃ n i j, v = .reduceOf [.integer n, .reduceOf [w] j] i := by
  unfold spins at he
  split at he
  case h_2 => cases he
  case h_1 =>
    simp only [Bool.and_eq_true, beq_iff_eq] at he
    obtain ⟨⟨rfl, hk⟩, hk'⟩ := he
    exact fun fuel => (yields_reduce_pair hw hk hk' fuel).mono fun v s' h => ⟨h.1, _, h.2⟩

end Formula.Expr

namespace Engine

variable {evaluation fuel id : Nat} {locals : List (String × Value)} {s : Store}
  {body : Formula.Expr}

/-- When such a lambda has answered, its call is counted no more. -/
theorem yields_call_spins (hbody : body.spins = true) (hs : s.busy evaluation = false)
    (x w : Value) :
    ((ofFuel fuel).call (.typed (.mk id (.lambda evaluation locals ["x", "self"] body)))
      [x, w]).Yields s fun v s' => s'.busy evaluation = false ∧
        ∃ n i j, v = .reduceOf [.integer n, .reduceOf [w] j] i := by
  refine yields_call_lambda hs fun fuel =>
    (Formula.Expr.yields_spins hbody (w := w) rfl fuel).mono fun v s' h => ⟨?_, h.2⟩
  have hcount : (s'.countCalls evaluation (· - 1)).evaluations[evaluation]? =
      s.evaluations[evaluation]? := by
    unfold Store.countCalls
    simp only [h.1, Store.countCalls, Array.getElem?_modify, if_true, Option.map_map]
    cases s.evaluations[evaluation]? <;> rfl
  unfold Store.busy at hs ⊢
  rw [hcount, hs]

/-- The call that leads to a call of the same kind: the method applies `[l].reduce` to the lambda
`l`, which makes the next such method, and then to that one.  The induction is on the fuel. -/
theorem call_endless {l : Value} (hl : l = .function (.typed (.mk id
      (.lambda evaluation locals ["x", "self"] body))))
    (hbody : body.spins = true) (hs : s.busy evaluation = false) (n : Int64) (i j k : Nat) :
    ((ofFuel fuel).call (.typed (.mk i (.listMethod [.integer n, .reduceOf [l] j] .reduce)))
      [.reduceOf [l] k, l]).Yields s fun _ _ => False := by
  subst hl
  induction fuel using Nat.strongRecOn generalizing s n i j k with
  | ind fuel ih =>
    refine yields_call_reduce_two (fun m hm => yields_call_reduce fun m' hm' =>
      yields_call_spins hbody hs _ _) ?_
    rintro v s' ⟨hs', n', i', j', rfl⟩ m hm
    exact yields_call_reduce fun m' hm' => ih m' (Nat.lt_trans hm' hm) hs' n' i' j' j

end Engine

/-- A formula that runs away is evaluated without end, if it may call at all. -/
theorem Formula.Expr.yields_runsAway {evaluation : Nat} {locals : List (String × Value)} {s : Store}
    {e : Formula.Expr} (he : e.runsAway = true) (hs : s.busy evaluation = false) :
    e.Yields evaluation locals s fun _ _ => False := by
  unfold runsAway at he
  split at he
  case h_2 => cases he
  case h_1 l _ _ _ body _ _ _ _ _ _ _ _ _ _ _ _ _ _ _ _ _ _ =>
    simp only [Bool.and_eq_true, beq_iff_eq] at he
    obtain ⟨⟨⟨⟨⟨⟨⟨⟨⟨hl, hx⟩, hself⟩, hbody⟩, rfl⟩, rfl⟩, rfl⟩, hk⟩, hk₁⟩, hk₂⟩ := he
    refine yields_binding (P := fun v s' => s'.evaluations = s.evaluations ∧ ∃ id, v = .function
      (.typed (.mk id (.lambda evaluation locals ["x", "self"] body)))) ?_ ?_
    · refine yields_lambda fun id => ⟨rfl, id, ?_⟩
      simp only [List.map_cons, List.map_nil, hx, hself]
    · rintro v s' ⟨hs', id, hv⟩
      have hlookup : ((l.text, v) :: locals).lookup "l" = some v := by
        rw [hl]
        rfl
      refine yields_call (R := fun vs s'' => s''.evaluations = s'.evaluations ∧
          ∃ k, vs = [.reduceOf [v] k, v])
        (F := fun f s'' => s''.evaluations = s'.evaluations ∧
          ∃ n i j, f = .typed (.mk i (.listMethod [.integer n, .reduceOf [v] j] .reduce))) ?_ ?_ ?_
      · refine fun fuel => (yields_reduce_pair hlookup hk₁ hk fuel).mono ?_
        rintro _ s'' ⟨hs'', i, j, rfl⟩
        exact ⟨_, rfl, hs'', _, i, j, rfl⟩
      · rintro f s₁ ⟨hs₁, -⟩
        refine allYield_cons (yields_reduce_local hlookup hk₂) ?_
        rintro _ s₂ ⟨hs₂, k, rfl⟩
        refine allYield_cons (P := fun w s₃ => w = v ∧ s₃ = s₂) (yields_local hlookup ⟨rfl, rfl⟩) ?_
        rintro _ _ ⟨rfl, rfl⟩
        exact allYield_nil ⟨hs₂.trans hs₁, k, rfl⟩
      · rintro _ s₁ _ s₂ ⟨-, n, i, j, rfl⟩ ⟨hs₂, k, rfl⟩ fuel
        refine Engine.call_endless hv hbody ?_ n i j k
        unfold Store.busy
        rw [hs₂, hs']
        exact hs

/-! ## Sessions -/

namespace Engine

variable {fuel place : Nat} {key : String} {s : Store} {σ : Session} {node : Outline.Expression}
  {e : Formula.Expr}

/-- The evaluation of such a formula in a session does not end either. -/
theorem yields_executeFormula
    (hcompile : Formula.compile ⟨node.path, σ.sourceText node⟩ = .ok e) (he : e.runsAway = true)
    (hdepth : 0 < σ.settings.maxCallDepth) :
    ((ofFuel fuel).executeFormula place σ node).Yields s fun _ _ => False := by
  have hrun : ((ofFuel fuel).runFormula (.folder place node.parent) σ.settings.maxCallDepth
      e).Yields s fun _ _ => False := by
    refine Run.Yields.bind (Run.yields_modifyGet (P := fun a s' => s'.busy a = false) ?_) ?_
    · unfold Store.busy
      rw [Array.getElem?_push_size]
      exact decide_eq_false (Nat.not_le.2 hdepth)
    · exact fun a s' hs' => Formula.Expr.yields_runsAway he hs' fuel
  unfold executeFormula
  simp only [hcompile]
  exact hrun.outcome.bind fun r s' ⟨_, _, h⟩ => h.elim

/-- However many calls may be active, and whatever the fuel: if an expression is a formula that runs
away, looking it up does not end. -/
theorem evaluate_runaway (hσ : s.sessions[place]? = some σ)
    (hnode : σ.outline.expression? key = some node) (hlanguage : node.language = .formula)
    (hresult : σ.results.lookup key = none) (hflight : key ∉ σ.inFlight)
    (hcompile : Formula.compile ⟨node.path, σ.sourceText node⟩ = .ok e) (he : e.runsAway = true)
    (hdepth : 0 < σ.settings.maxCallDepth) :
    ∃ s', (ofFuel fuel).evaluate place key s = .error .exhausted s' := by
  have hexecute (s : Store) :
      ((ofFuel fuel).execute place σ node).Yields s fun _ _ => False := by
    refine Run.Yields.bind (Run.yields_modifyGet (P := fun _ _ => True) trivial) fun _ s' _ => ?_
    simp only [hlanguage]
    exact yields_executeFormula hcompile he hdepth
  have heval : ((ofFuel fuel).evaluate place key).Yields s fun _ _ => False := by
    refine Run.yields_get ?_
    simp only [hσ, hnode, hresult]
    rw [if_neg (fun h => hflight (List.contains_iff_mem.1 h))]
    refine Run.Yields.bind (Run.yields_modifyGet (P := fun _ _ => True) trivial) fun _ s' _ => ?_
    exact (hexecute s').bind fun _ _ h => h.elim
  exact heval.exhausts

end Engine

/-! ## A workbook that gives no answer -/

def runawayText : String :=
  "let l = fn(x, self) => [0, [self].reduce].reduce in [0, [l].reduce].reduce([l].reduce, l)"

/-- A workbook with a formula that runs away. -/
def runaway : Tree :=
  ⟨[("", some [⟨.expression, "f", 1, some .formula⟩])], [("f", some runawayText)], 2⟩

theorem expression_runaway : (Outline.ofTree runaway).expression? "f" =
    some ⟨"f", "f", ["f"], .formula, 1, ""⟩ := by
  rw [Outline.ofTree_of_expressions rfl (by decide) rfl]
  rfl

theorem text_runaway : runaway.text ["f"] = .ok (some runawayText) := rfl

set_option maxRecDepth 2000 in
theorem runsAway_runawayText :
    (Formula.compile ⟨"f", runawayText⟩).toOption.any Formula.Expr.runsAway = true := by
  rw [Parser.compile_formula, runawayText, Parser.outcome_ofList]
  with_unfolding_all rfl

/-- Whatever the limit on calls, if it lets any call be made, and whatever the fuel: asked for the
formula, a session of the workbook gives no answer. -/
theorem consult_runaway (options : Options) (hdepth : 0 < options.settings.maxCallDepth)
    (time : Float) (s : Store) (fuel : Nat) :
    ∃ s', (Engine.ofFuel fuel).consult runaway options time [.expression "f"] s =
      .error .exhausted s' := by
  obtain ⟨e, hcompile, he⟩ : ∃ e, Formula.compile ⟨"f", runawayText⟩ = .ok e ∧
      e.runsAway = true := by
    have h := runsAway_runawayText
    cases hc : Formula.compile ⟨"f", runawayText⟩ with
    | ok e => exact ⟨e, rfl, by rw [hc] at h; exact h⟩
    | error ps => rw [hc] at h; cases h
  have hsource (σ : Session) (hσ : σ.tree = runaway) :
      Formula.compile ⟨"f", σ.sourceText ⟨"f", "f", ["f"], .formula, 1, ""⟩⟩ = .ok e := by
    unfold Session.sourceText
    simp only [hσ, text_runaway]
    exact hcompile
  have hkey : pathKey "f" = "f" := pathKey_of_name (by decide) (by decide)
  obtain ⟨s', hrun⟩ := Engine.evaluate_runaway
    (s.session_opened runaway options time) expression_runaway rfl rfl List.not_mem_nil
    (hsource _ rfl) he hdepth
  have hask : (Engine.ofFuel fuel).query s.sessions.size (.expression "f") =
      (Engine.ofFuel fuel).evaluate s.sessions.size "f" :=
    congrArg ((Engine.ofFuel fuel).evaluate s.sessions.size) hkey
  have hquery : ([Query.expression "f"].mapM ((Engine.ofFuel fuel).query s.sessions.size)).Yields
      (s.opened runaway options time) fun _ _ => False := by
    rw [List.mapM_cons, hask]
    exact (Run.yields_of_exhausted (P := fun _ _ => False) hrun).bind fun _ _ h => h.elim
  have hconsult : ((Engine.ofFuel fuel).consult runaway options time [.expression "f"]).Yields s
      fun _ _ => False :=
    (hquery.bind fun _ _ h => h.elim).of_eq
      (Run.bind_run (Run.newSession_run runaway time s options))
  exact hconsult.exhausts

/-- With the settings that sessions have by default, no fuel is enough for an answer. -/
theorem runaway_unanswered : ¬ ∃ fuel answer s', (Engine.ofFuel fuel).consult runaway
    ⟨.standard, [], []⟩ 0 [.expression "f"] Store.empty = .ok answer s' := by
  rintro ⟨fuel, answer, s', h⟩
  obtain ⟨t, ht⟩ := consult_runaway ⟨.standard, [], []⟩ (by decide) 0 Store.empty fuel
  rw [ht] at h
  cases h

end Workbook
