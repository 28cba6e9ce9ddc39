/-
Calls that are active.

Every context counts its calls.  The engine is run with a guard that is shown the requests
being answered, before and after every answer, so the calls of a context that are active at
that point are in sight; the count of the context is how many they are, and it is within the
limit of the context if there are any.  A call that is made where a context is at its limit
fails in the store it was made in.  What is left over between calls from outside is nothing:
contexts have the counts that they had.
-/
import Workbook.Proofs.Session.Origin
import Workbook.Proofs.Session.Stack
import Workbook.Proofs.Vigil

open List (Forall₂)

namespace Workbook

/-! ## Active calls -/

/-- The context that a function of formulas belongs to. -/
def TypedCode.context? : TypedCode → Option Context
  | .lambda evaluation _ _ _ => some (.evaluation evaluation)
  | _ => none

/-- The context that an answer to a request is a call of. -/
def Request.context? : {α : Type} → Request α → Option Context
  | _, .callTyped f _ => f.code.context?
  | _, .invoke run _ _ _ _ => some (.execution run)
  | _, _ => none

/-- Whether an activity is a call of a context that its store has. -/
def Activity.calls (c : Context) (a : Activity) : Bool :=
  a.request.context? = some c ∧ (a.store.calls? c).isSome

/-- How many activities are calls of a context. -/
def Context.active (as : List Activity) (c : Context) : Nat :=
  as.countP (·.calls c)

namespace Context

variable {α : Type} {r : Request α} {s : Store} {outer : List Activity}

theorem active_cons (c : Context) : active (⟨r, s⟩ :: outer) c =
    active outer c + if r.context? = some c ∧ (s.calls? c).isSome then 1 else 0 := by
  simp [active, List.countP_cons, Activity.calls]

theorem active_of_none (h : r.context? = none) : active (⟨r, s⟩ :: outer) = active outer := by
  funext c
  simp [active_cons, h]

theorem active_self {c : Context} (h : r.context? = some c) : active (⟨r, s⟩ :: outer) c =
    active outer c + if (s.calls? c).isSome then 1 else 0 := by
  simp [active_cons, h]

theorem active_of_ne {c c' : Context} (h : r.context? = some c) (hne : c' ≠ c) :
    active (⟨r, s⟩ :: outer) c' = active outer c' := by
  simp [active_cons, h, hne.symm]

end Context

/-- The contexts of an earlier store count so many calls more, new ones just so many, and those
with active calls are within their limits, which stay. -/
structure Store.Counts (s₀ : Store) (active : Context → Nat) (t : Store) : Prop where
  kept : ∀ c d m, s₀.calls? c = some (d, m) → t.calls? c = some (d + active c, m)
  new : ∀ c d m, s₀.calls? c = none → t.calls? c = some (d, m) → d = active c
  within : ∀ c d m, t.calls? c = some (d, m) → 0 < active c → d ≤ m
  absent : ∀ c, t.calls? c = none → active c = 0

namespace Store

variable {s₀ s t : Store} {n n' : Context → Nat} {c : Context}

theorem counts_self (s : Store) : s.Counts (fun _ => 0) s where
  kept _ _ _ h := h
  new _ _ _ h h' := absurd (h.symm.trans h') nofun
  within _ _ _ _ h := absurd h (Nat.lt_irrefl 0)
  absent _ _ := rfl

theorem Counts.inert (h : s₀.Counts n s) (hs : s.Inert t) : s₀.Counts n t where
  kept c d m hc := hs.kept c _ (h.kept c d m hc)
  new c d m hc ht := by
    cases hx : s.calls? c with
    | none => exact (hs.idle c _ hx ht).trans (h.absent c hx).symm
    | some x =>
      obtain rfl : x = (d, m) := Option.some.inj ((hs.kept c x hx).symm.trans ht)
      exact h.new c d m hc hx
  within c d m ht hn := by
    cases hx : s.calls? c with
    | none => exact absurd (h.absent c hx) (Nat.ne_of_gt hn)
    | some x =>
      obtain rfl : x = (d, m) := Option.some.inj ((hs.kept c x hx).symm.trans ht)
      exact h.within c d m hx hn
  absent c ht := by
    cases hx : s.calls? c with
    | none => exact h.absent c hx
    | some x => exact absurd ((hs.kept c x hx).symm.trans ht) nofun

/-- A call is entered below the limit. -/
theorem Counts.enter (h : s₀.Counts n s) (hfull : s.full c = false)
    (hc : n' c = n c + if (s.calls? c).isSome then 1 else 0) (hne : ∀ c', c' ≠ c → n' c' = n c') :
    s₀.Counts n' (s.count (· + 1) c) where
  kept c' d m hs := by
    have hk := h.kept c' d m hs
    by_cases hcc : c' = c
    · subst hcc
      rw [calls?_count, hc, hk]
      rfl
    · rw [s.calls?_count_of_ne _ hcc, hne c' hcc, hk]
  new c' d m hs ht := by
    by_cases hcc : c' = c
    · subst hcc
      rw [calls?_count] at ht
      obtain ⟨⟨d', m'⟩, hx, hd⟩ := Option.map_eq_some_iff.1 ht
      cases hd
      rw [hc, hx, h.new c' d' m' hs hx]
      rfl
    · rw [s.calls?_count_of_ne _ hcc] at ht
      rw [hne c' hcc]
      exact h.new c' d m hs ht
  within c' d m ht hn := by
    by_cases hcc : c' = c
    · subst hcc
      rw [calls?_count] at ht
      obtain ⟨⟨d', m'⟩, hx, hd⟩ := Option.map_eq_some_iff.1 ht
      cases hd
      simpa [full, hx] using hfull
    · rw [s.calls?_count_of_ne _ hcc] at ht
      exact h.within c' d m ht (hne c' hcc ▸ hn)
  absent c' ht := by
    by_cases hcc : c' = c
    · subst hcc
      rw [calls?_count, Option.map_eq_none_iff] at ht
      rw [hc, ht, h.absent c' ht]
      rfl
    · rw [s.calls?_count_of_ne _ hcc] at ht
      exact (hne c' hcc).trans (h.absent c' ht)

/-- The call that was entered is left. -/
theorem Counts.leave (hs : s₀.Counts n s) (ht : s₀.Counts n' t)
    (hc : n' c = n c + if (s.calls? c).isSome then 1 else 0) (hne : ∀ c', c' ≠ c → n' c' = n c') :
    s₀.Counts n (t.count (· - 1) c) := by
  have hle : n c ≤ n' c := by omega
  -- A context that came up during the call has no calls left to take away.
  have hpred : n' c - 1 = n c := by
    cases hx : s.calls? c with
    | none => rw [hc, hx, hs.absent c hx]; rfl
    | some x => rw [hc, hx]; rfl
  refine ⟨fun c' d m h₀ => ?_, fun c' d m h₀ h => ?_, fun c' d m h hn => ?_, fun c' h => ?_⟩
  all_goals by_cases hcc : c' = c
  · subst hcc
    have hsome : n' c' = n c' + 1 := by rw [hc, hs.kept c' d m h₀]; rfl
    rw [calls?_count, ht.kept c' d m h₀, hsome]
    rfl
  · rw [t.calls?_count_of_ne _ hcc, ← hne c' hcc]
    exact ht.kept c' d m h₀
  · subst hcc
    rw [calls?_count] at h
    obtain ⟨⟨d', m'⟩, hx, hd⟩ := Option.map_eq_some_iff.1 h
    cases hd
    rw [← hpred, ← ht.new c' d' m' h₀ hx]
  · rw [t.calls?_count_of_ne _ hcc] at h
    rw [← hne c' hcc]
    exact ht.new c' d m h₀ h
  · subst hcc
    rw [calls?_count] at h
    obtain ⟨⟨d', m'⟩, hx, hd⟩ := Option.map_eq_some_iff.1 h
    cases hd
    exact Nat.le_trans (Nat.sub_le d' 1) (ht.within c' d' m' hx (Nat.lt_of_lt_of_le hn hle))
  · rw [t.calls?_count_of_ne _ hcc] at h
    exact ht.within c' d m h ((hne c' hcc).symm ▸ hn)
  · subst hcc
    rw [calls?_count, Option.map_eq_none_iff] at h
    exact Nat.le_zero.1 (ht.absent c' h ▸ hle)
  · rw [t.calls?_count_of_ne _ hcc] at h
    exact (hne c' hcc).symm.trans (ht.absent c' h)

end Store

/-! ## Counting under guard -/

namespace Vigil

/-- The vigil over the counts of contexts. -/
def counting (s₀ : Store) (n : Context → Nat) : Vigil where
  World := Unit
  le _ _ := True
  le_refl _ := trivial
  le_trans _ _ := trivial
  Inv _ t := s₀.Counts n t
  inert h hs := h.inert hs
  Fails := Eq
  fails_fresh := Failure.fresh_refl
  cause := Failure.cause_congr
  cut := False

variable {s₀ : Store} {n n' : Context → Nat} {α : Type}

/-- A call goes as it does while it is one of the active calls. -/
theorem ends_counted {c : Context} {x y : Run α} {R : Unit → α → α → Prop} {s : Store}
    (hs : s₀.Counts n s) (hc : n' c = n c + if (s.calls? c).isSome then 1 else 0)
    (hne : ∀ c', c' ≠ c → n' c' = n c') (h : (counting s₀ n').Rel () x y R) :
    (counting s₀ n).Ends () R (Run.counted c x s) (Run.counted c y s) := by
  have hi : (counting s₀ n).Inv () s := hs
  unfold Run.counted
  cases hfull : s.full c with
  | true => exact .failed ((counting s₀ n).le_refl ()) hi rfl
  | false =>
    have hout {t : Store} (ht : s₀.Counts n' t) : (counting s₀ n).Inv () (t.count (· - 1) c) :=
      hs.leave ht hc hne
    simp only [Bool.false_eq_true, if_false]
    have hx := h.ends _ (hs.enter hfull hc hne)
    unfold Run.ensuring
    generalize x (s.count (· + 1) c) = r at hx ⊢
    generalize y (s.count (· + 1) c) = r' at hx ⊢
    cases hx with
    | ok le inv h => exact .ok le (hout inv) h
    | failed le inv h => exact .failed le (hout inv) h
    | exhausted le inv => exact .exhausted le (hout inv)
    | cut h => exact h.elim

theorem scripting_counting : (counting s₀ n).simulation.Scripting where
  toPassesFailures := passesFailures fun _ _ => Iff.rfl
  toSetsVariables := setsVariables fun _ _ _ hi =>
    { kept := hi.kept, new := hi.new, within := hi.within, absent := hi.absent }

/-- Two engines give the same answers as long as contexts count so many calls. -/
abbrev Same (s₀ : Store) (n : Context → Nat) (e₁ e₂ : Engine) : Prop :=
  (counting s₀ n).Agree (fun _ _ => True) e₁ e₂

theorem Same.responds {e₁ e₂ : Engine} (h : Same s₀ n e₁ e₂) :
    (counting s₀ n).simulation.Responds e₁ e₂ :=
  Simulation.responds_of_agree (S := (counting s₀ n).simulation.toSimulation) (fun _ => rfl)
    fun w _ r => h w r trivial

theorem Same.serves {e₁ e₂ : Engine} (h : Same s₀ n e₁ e₂) :
    (counting s₀ n).simulation.Serves e₁ e₂ where
  toReaches := h.reaches fun _ _ _ _ => trivial
  runScript := h.responds.runScript scripting_counting

/-- Requests are answered alike that are no calls. -/
theorem Same.answer {e₁ e₂ : Engine} (h : Same s₀ n e₁ e₂) (ht : e₂.Total) (fuel : Nat)
    (r : Request α) (hr : r.context? = none) :
    (counting s₀ n).Rel () (Engine.answer e₁ fuel r) (Engine.answer e₂ fuel r) fun _ => Eq := by
  have he := h.responds
  have hserves := h.serves
  refine agree_answer hserves.toReaches fuel r ?_
  cases r with
  | callTyped f vs =>
    refine he.toAnswers.callTypedCode (fun folder h hv => hserves.importValue loads ht h folder hv)
      f.code.alike_self (fun _ _ _ _ hf => ?_) (Value.forall_self vs)
    have hnone : f.code.context? = none := hr
    rw [hf] at hnone
    cases hnone
  | invoke run block f name vs => cases hr
  | statement run block st =>
    exact he.supplies.statementOf (S := (counting s₀ n).simulation.toSimulation) rfl rfl rfl
      (he.parts scripting_counting rfl rfl st)
  | expression run block e =>
    exact he.supplies.expressionOf rfl rfl e fun s _ => scripting_counting.assigns rfl s
  | evaluate place key => exact hserves.evaluateOf (catches fun _ _ h => h) executes ht rfl key
  | _ => trivial

/-- Calls are answered alike while they are counted. -/
theorem Same.call {e₁ e₂ : Engine} (h : Same s₀ n' e₁ e₂) (fuel : Nat) (r : Request α)
    {c : Context} (hr : r.context? = some c) {s : Store} (hs : s₀.Counts n s)
    (hc : n' c = n c + if (s.calls? c).isSome then 1 else 0) (hne : ∀ c', c' ≠ c → n' c' = n c') :
    (counting s₀ n).Ends () (fun _ => Eq) (Engine.answer e₁ fuel r s)
      (Engine.answer e₂ fuel r s) := by
  have he := h.responds
  cases r with
  | callTyped f vs =>
    obtain ⟨id, code⟩ := f
    cases code with
    | lambda evaluation locals parameters body =>
      cases hr
      refine Ends.behindCall ?_
      show (counting s₀ n).Ends () _ (e₁.callLambda evaluation locals parameters body vs s)
        (e₂.callLambda evaluation locals parameters body vs s)
      unfold Engine.callLambda
      rw [Engine.callWithin_eq, Engine.callWithin_eq]
      exact ends_counted hs hc hne (h () _ trivial)
    | _ => cases hr
  | invoke run block f name vs =>
    cases hr
    show (counting s₀ n).Ends () _ (e₁.invoke run block f name vs s)
      (e₂.invoke run block f name vs s)
    rw [Engine.invoke_eq, Engine.invoke_eq, Engine.callDuring_eq, Engine.callDuring_eq]
    have hvs := Native.forall_self vs
    exact ends_counted hs hc hne (Rel.imp (V := counting s₀ n')
      (he.called scripting_counting rfl rfl f name hvs) fun _ _ _ => Native.eq_of_alike)
  | _ => cases hr

end Vigil

theorem Store.Counts.callsKept {s s' : Store} (h : s.Counts (fun _ => 0) s') : s.CallsKept s' :=
  ⟨fun c x => h.kept c x.1 x.2, fun c x => h.new c x.1 x.2⟩

namespace Engine

variable {s₀ : Store} {guard : List Activity → Run Unit}

/-- Under a guard that passes all stores in which contexts count their active calls, an engine gives
the same answers as without. -/
theorem same_guarded
    (hguard : ∀ a outer t, s₀.Counts (Context.active outer) t → guard (a :: outer) t = .ok () t)
    (fuel : Nat) (outer : List Activity) :
    Vigil.Same s₀ (Context.active outer) (guarded guard fuel outer) (ofFuel fuel) := by
  induction fuel generalizing outer with
  | zero => exact fun w _ _ _ => Vigil.rel_exhausted
  | succ fuel ih =>
    intro w α r _
    refine ⟨fun s hs => Vigil.ends_guarded hs (fun w' t _ ht => hguard _ _ t ht) False.elim ?_⟩
    have he := ih (⟨r, s⟩ :: outer)
    show (Vigil.counting s₀ (Context.active outer)).Ends w _ _ (answer (ofFuel fuel) fuel r s)
    cases hr : r.context? with
    | none =>
      rw [Context.active_of_none hr] at he
      exact (he.answer (total_ofFuel fuel) fuel r hr).ends s hs
    | some c =>
      exact he.call fuel r hr hs (Context.active_self hr) fun _ => Context.active_of_ne hr

/-- A call where the context is at its limit fails in the store it was made in, whatever engine
there is for its body. -/
theorem answer_full (e : Engine) (fuel : Nat) {α : Type} (r : Request α) {c : Context}
    (hr : r.context? = some c) {t : Store} (ht : t.full c = true) :
    ∃ f : Failure, answer e fuel r t = .error (.failed f) t ∧
      f.cause.message = "maximum call stack size exceeded" := by
  cases r with
  | callTyped f vs =>
    obtain ⟨id, code⟩ := f
    cases code with
    | lambda evaluation locals parameters body =>
      cases hr
      refine ⟨.ofCause (.fault Cause.tooManyCalls.toFault), ?_, rfl⟩
      show Run.behindCall (e.callLambda evaluation locals parameters body vs) t = _
      unfold callLambda Run.behindCall Run.mapFailure
      rw [callWithin_eq, Run.counted, if_pos ht]
      rfl
    | _ => cases hr
  | invoke run block f name vs =>
    cases hr
    refine ⟨.ofCause .tooManyCalls, ?_, rfl⟩
    show e.invoke run block f name vs t = _
    rw [invoke_eq, callDuring_eq, Run.counted, if_pos ht]
    rfl
  | _ => cases hr

/-- What the surroundings do between runs counts no calls. -/
theorem counts_upheld (s : Store) : Store.Upheld (s.Counts fun _ => 0) where
  changeModules h _ _ := h.inert (Store.inert_of_eq rfl rfl rfl)
  release h _ := h.inert (Store.inert_of_eq rfl rfl rfl)
  forgetting h _ _ := h.inert (Store.inert_of_eq rfl rfl rfl)

/-- Whatever is done from outside, the counts are what they were. -/
theorem Visits.counts {fuel : Nat} {s t : Store} (h : (ofFuel fuel).Visits s t) :
    s.Counts (fun _ => 0) t := by
  induction h with
  | refl => exact s.counts_self
  | call _ h ih =>
    cases h with
    | newSession h =>
      cases h with
      | value h =>
        rw [Run.newSession_run] at h
        cases h
        exact ih.inert (Store.inert_of_eq rfl rfl rfl)
      | failure h =>
        rw [Run.newSession_run] at h
        cases h
    | setTime h => exact Run.upholds_setTime (counts_upheld s) _ _ _ _ ih h
    | dropSession h => exact Run.upholds_dropSession (counts_upheld s) _ _ _ ih h
    | ask h =>
      have hsame : Vigil.Same s _ (guarded (fun _ => pure ()) fuel []) (ofFuel fuel) :=
        same_guarded (fun _ _ _ _ => rfl) fuel []
      obtain ⟨_, -, hi⟩ := ((hsame () _ trivial).ends _ ih).endsIn id h
      exact hi

/-- The count of a context is how many of its calls are active, and it is at most the limit of the
context.  This is so before and after every answer that is given on the way, at whatever depth:
a guard that passes the stores of which it holds, and may do anything elsewhere, makes no
difference to any run.  A call where the limit is reached fails in the store it was made in,
whatever engine its body would be asked of.  However a run ends, and whatever is done from outside
one after another, contexts have as many active calls as before, and new ones have none. -/
theorem calls_are_counted (fuel : Nat) (s : Store) {guard : List Activity → Run Unit}
    (hguard : ∀ a outer t, s.Counts (Context.active outer) t → guard (a :: outer) t = .ok () t) :
    (∀ (α : Type) (r : Request α), (guarded guard fuel []).ask r s = (ofFuel fuel).ask r s) ∧
    (∀ (scope : Scope Native) (maxDepth : Nat) (name : String) (body : List Script.Stmt),
      (guarded guard fuel []).runScript scope maxDepth name body s =
        (ofFuel fuel).runScript scope maxDepth name body s ∧
      ∀ s', ((ofFuel fuel).runScript scope maxDepth name body).EndsIn s s' → s.CallsKept s') ∧
    (∀ (e : Engine) (n : Nat) (α : Type) (r : Request α) (c : Context) (t : Store),
      r.context? = some c → t.full c = true → ∃ f : Failure,
        answer e n r t = .error (.failed f) t ∧
        f.cause.message = "maximum call stack size exceeded") ∧
    ∀ s', (ofFuel fuel).Visits s s' → s.CallsKept s' := by
  have hsame := same_guarded hguard fuel []
  have hs : (Vigil.counting s (Context.active [])).Inv () s := s.counts_self
  have hscript (scope : Scope Native) (maxDepth : Nat) (name : String) (body : List Script.Stmt) :=
    (Vigil.Rel.imp (hsame.serves.runScript (w := ())
      (Store.scope_alike_self Native.alike_self scope) maxDepth name body)
      fun _ _ _ => Native.eq_of_alike).ends s hs
  refine ⟨fun α r => ((hsame () r trivial).ends s hs).eq (fun _ _ h => h) id,
    fun scope maxDepth name body => ⟨(hscript scope maxDepth name body).eq (fun _ _ h => h) id,
      fun s' h => ?_⟩,
    fun e n α r c t hr ht => answer_full e n r hr ht, fun s' h => h.counts.callsKept⟩
  obtain ⟨_, -, hi⟩ := (hscript scope maxDepth name body).endsIn id h
  exact Store.Counts.callsKept hi

end Engine

/-- Breaks off a run in which a context counts other calls than are active. -/
def countGuard (c : Context) (limit : Nat) : List Activity → Run Unit
  | [] => pure ()
  | _ :: outer => fun t =>
    if t.calls? c = some (c.active outer, limit) then .ok () t else .error .exhausted t

/-- The message of a run that fails. -/
def Run.message? {α : Type} (x : Run α) (s : Store) : Option String :=
  match x s with
  | .error (.failed f) _ => some f.cause.message
  | _ => none

/-- A function that calls itself, `() => f()`. -/
def recurring : Script.Function :=
  .mk none [] (.expr (.call ⟨6, 9, 1, 7⟩ (.name ⟨6, 7, 1, 7⟩ "f") [])) ⟨0, 9, 1, 1⟩

/-- A store with an execution that has the function and may have two calls of it active. -/
def twoLevels : Store :=
  { Store.empty with
    blocks := #[⟨[("f", ⟨.function (.mk 0 (.script 0 0 recurring "f")), true⟩)], none⟩]
    executions := #[⟨.fixed [], [], 0, 2⟩] }

/-- The third call fails, and the calls are counted rightly up to there. -/
theorem calls_are_counted_twice :
    (∀ a outer t, twoLevels.Counts (Context.active outer) t →
      countGuard (.execution 0) 2 (a :: outer) t = .ok () t) ∧
    Run.message? ((Engine.guarded (countGuard (.execution 0) 2) 9 []).ask
      (.invoke 0 0 recurring "f" [])) twoLevels = some "maximum call stack size exceeded" := by
  have hguard (a : Activity) (outer : List Activity) (t : Store)
      (ht : twoLevels.Counts (Context.active outer) t) :
      countGuard (.execution 0) 2 (a :: outer) t = .ok () t := by
    have hc : t.calls? (.execution 0) = some (Context.active outer (.execution 0), 2) := by
      simpa using ht.kept (.execution 0) 0 2 rfl
    exact if_pos hc
  refine ⟨hguard, ?_⟩
  unfold Run.message?
  rw [(Engine.calls_are_counted 9 twoLevels hguard).1 _ (.invoke 0 0 recurring "f" [])]
  with_unfolding_all rfl

end Workbook
