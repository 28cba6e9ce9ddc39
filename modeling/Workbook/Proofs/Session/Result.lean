/-
The data of results.

Whoever owns sessions may ask them for things, run scripts, and call functions that were
found, in any order and in any number of sessions.  `Engine.Leads` is where that may lead.
The arrays and objects of a result that a session keeps stay as they are wherever it leads:
everything that is reached from them was frozen with the result (`Store.Firm`), and nothing
that is frozen is modified.
-/
import Mathlib
import Workbook.Proofs.Frozen
import Workbook.Proofs.Outline.Crawl
import Workbook.Proofs.Session.Query

open List (Forall₂)

namespace Workbook

/-! ## What is done with sessions -/

/-- What the owner of sessions may run in a store.  Values that are handed in refer to
containers that are there. -/
inductive Engine.Offers (e : Engine) (s : Store) : {α : Type} → Run α → Prop
  | newSession (tree : Tree) (options : Options) (time : Float)
      (h : Forall₂ (Keyed.Alike (Value.Alike s.bound)) options.overrides options.overrides) :
      Offers e s (Run.newSession tree options time)
  | query (place : Nat) (q : Query) : Offers e s (e.query place q)
  | script {scope : Scope Native} (maxDepth : Nat) (name : String) (body : List Script.Stmt)
      (h : Scope.Alike s.bound (Native.Alike s.bound) scope scope) :
      Offers e s (e.runScript scope maxDepth name body)
  | callTyped {f : TypedFunction} {arguments : List Value} (hf : TypedFunction.Alike s.bound f f)
      (ha : Forall₂ (Value.Alike s.bound) arguments arguments) :
      Offers e s (e.ask (.callTyped f arguments))
  | callNative {f : NativeFunction} {arguments : List Native}
      (hf : NativeFunction.Alike s.bound f f)
      (ha : Forall₂ (Native.Alike s.bound) arguments arguments) :
      Offers e s (e.ask (.callNative f arguments))

/-- The stores to which one run after another leads. -/
inductive Engine.Leads (e : Engine) (s : Store) : Store → Prop
  | refl : Leads e s s
  | step {t u : Store} {α : Type} {x : Run α} (before : Leads e s t) (offered : e.Offers t x)
      (ends : x.EndsIn t u) : Leads e s u

namespace Custody

variable {K : Custody} {w : K.World} {e : Engine}

/-- A new session with modules of its own keeps the invariant if new modules do. -/
theorem keeps_newSession
    (modules : ∀ {w s} (m : Modules), K.Inv w s s →
      K.Inv w { s with modules := s.modules.push m } { s with modules := s.modules.push m })
    (tree : Tree) (options : Options) (time : Float)
    (h : Forall₂ (Keyed.Alike (Value.Alike (K.pairing w))) options.overrides options.overrides) :
    K.Keeps w (Run.newSession tree options time) fun _ _ => True := by
  unfold Run.newSession
  refine Keeps.bind (R := fun _ _ => True) ?_ fun w' hw place _ =>
    (keeps_newSessionWith place tree options.settings time
      (Value.locals_mono h (K.within hw))).imp fun _ _ _ _ => trivial
  exact keeps_modifyGet fun s hi => ⟨w, K.le_refl w, modules _ hi, trivial⟩

/-- What is offered keeps the invariant, if what is handed in is alike itself. -/
theorem Serves.offered (he : K.Serves e)
    (modules : ∀ {w s} (m : Modules), K.Inv w s s →
      K.Inv w { s with modules := s.modules.push m } { s with modules := s.modules.push m })
    (evaluate : ∀ place key, K.Keeps w (e.evaluate place key) (K.Evaluated place key)) {s : Store}
    (within : s.bound.Within (K.pairing w)) {α : Type} {x : Run α} (h : e.Offers s x) :
    K.Keeps w x fun _ _ => True := by
  cases h with
  | newSession tree options time h =>
    exact keeps_newSession modules tree options time (Value.locals_mono h within)
  | query place q =>
    cases q with
    | expression path => exact (evaluate place (pathKey path)).imp fun _ _ _ _ => trivial
    | _ => exact he.query place (by simp)
  | script maxDepth name body h =>
    have hscope := h.mono (fun _ _ hv => hv.mono within) within
    exact .of_rel (he.answers.runScript K.thorough.toScripting hscope maxDepth name body)
      fun _ _ _ _ h => ⟨(native_eq h).1, trivial⟩
  | callTyped hf ha =>
    exact .of_rel (he.answers.callTyped (hf.mono within) (Value.forall_mono ha within))
      fun _ _ _ _ h => ⟨(typed_eq h).1, trivial⟩
  | callNative hf ha =>
    exact .of_rel (he.answers.callNative (hf.mono within) (Native.forall_mono ha within))
      fun _ _ _ _ h => ⟨(native_eq h).1, trivial⟩

end Custody

namespace Store

/-- New modules keep a store firm. -/
theorem firm_newModules {w s : Store} (m : Modules) (hi : firmCustody.Inv w s s) :
    firmCustody.Inv w { s with modules := s.modules.push m } { s with modules := s.modules.push m } :=
  ⟨rfl, hi.2.change rfl rfl { hi.2.firm with
    places := { hi.2.firm.places with }
    tight := ⟨hi.2.firm.tight.arrays, hi.2.firm.tight.objects⟩ }⟩

/-- What is offered keeps a store firm. -/
theorem keeps_offered {fuel : Nat} {s : Store} {α : Type} {x : Run α}
    (h : (Engine.ofFuel fuel).Offers s x) : firmCustody.Keeps s x fun _ _ => True :=
  (firmCustody_serves fuel).offered firm_newModules
    (fun place key => (firmCustody_lenient place).evaluate (firmCustody_serves fuel) key) (.refl _) h

/-- From a firm store, everything leads to firm stores in which what was frozen is still as
it was. -/
theorem firm_of_leads {fuel : Nat} {s t : Store} (hs : s.Firm) (h : (Engine.ofFuel fuel).Leads s t) :
    t.Firm ∧ s.FrozenKept t := by
  induction h with
  | refl => exact ⟨hs, .refl s⟩
  | step _ offered ends ih =>
    obtain ⟨firm, kept⟩ := ih
    obtain ⟨w, hw, hi⟩ := (keeps_offered offered).endsIn ⟨rfl, .refl firm⟩ ends
    exact ⟨hi.2.firm, kept.trans ((Later.toFrozenKept hw).trans hi.2.kept)⟩

/-! ## What is reached -/

/-- What is found in a value by going through arrays and objects. -/
inductive Reaches (s : Store) : Native → Native → Prop
  | refl (v : Native) : Reaches s v v
  | item {place : Nat} {c : Container (Array Native)} {u v : Native}
      (hc : s.arrays[place]? = some c) (hu : u ∈ c.content) (h : Reaches s u v) :
      Reaches s (.array place) v
  | field {place : Nat} {c : Container Fields} {f : String × Native} {v : Native}
      (hc : s.objects[place]? = some c) (hf : f ∈ c.content) (h : Reaches s f.2 v) :
      Reaches s (.object place) v

/-- A container is the same in two stores: its contents, its version, and that it is
frozen. -/
def SameAt (s t : Store) : Native → Prop
  | .array place => t.arrays[place]? = s.arrays[place]?
  | .object place => t.objects[place]? = s.objects[place]?
  | _ => True

/-- What is reached from a frozen value is frozen. -/
theorem Sealed.reaches {s : Store} (tight : s.FrozenAll s.Sealed) {v u : Native}
    (h : s.Reaches v u) (hv : s.Sealed v) : s.Sealed u := by
  induction h with
  | refl => exact hv
  | item hc hu _ ih =>
    obtain ⟨d, hd, hf⟩ := hv
    rw [hc] at hd
    cases hd
    exact ih (tight.arrays _ _ hc hf _ hu)
  | field hc hm _ ih =>
    obtain ⟨d, hd, hf⟩ := hv
    rw [hc] at hd
    cases hd
    exact ih (tight.objects _ _ hc hf _ hm)

theorem Sealed.sameAt {s t : Store} (h : s.FrozenKept t) {v : Native} (hv : s.Sealed v) :
    s.SameAt t v := by
  cases v with
  | array place =>
    obtain ⟨c, hc, hf⟩ := hv
    exact (h.arrays place c hc hf).trans hc.symm
  | object place =>
    obtain ⟨c, hc, hf⟩ := hv
    exact (h.objects place c hc hf).trans hc.symm
  | _ => trivial

end Store

/-- Frozen data stays as it is.  No script in any scope and store modifies a frozen array or
object, however it ends; and whatever sessions are started, asked and called, scripts run in
between included, every array and object that is reached from the native value of a result
is the same later as when the result was kept. -/
theorem frozen_data_stays (fuel : Nat) :
    (∀ (scope : Scope Native) (maxDepth : Nat) (name : String) (body : List Script.Stmt)
      (s s' : Store), ((Engine.ofFuel fuel).runScript scope maxDepth name body).EndsIn s s' →
        s.FrozenKept s') ∧
      ∀ s t : Store, (Engine.ofFuel fuel).Leads .empty s → (Engine.ofFuel fuel).Leads s t →
        ∀ (place : Nat) (σ : Session) (key : String) (r : Result) (n : Native) (v : Value),
          s.sessions[place]? = some σ → (key, r) ∈ σ.results → r.outcome = .value n v →
            ∀ u, s.Reaches n u → s.SameAt t u := by
  refine ⟨fun scope maxDepth name body _ _ => runScript_frozenKept fuel scope maxDepth name body,
    fun s t hs ht place σ key r n v hσ hr hn u hu => ?_⟩
  obtain ⟨firm, -⟩ := Store.firm_of_leads Store.firm_empty hs
  obtain ⟨-, kept⟩ := Store.firm_of_leads firm ht
  exact ((firm.results hσ _ hr n v hn).reaches firm.tight hu).sameAt kept

/-! ## A script that tries to change a result -/

/-- A workbook with one script, which returns an array. -/
def arrayWorkbook : Tree :=
  Tree.empty.addExpression "a" .script "return [true]"

theorem arrayWorkbook_eq : arrayWorkbook =
    ⟨[("", some [⟨.expression, "a", 1, some .script⟩])], [("a", some "return [true]")], 1⟩ := by
  have hparts : pathParts "a" = ["a"] := pathParts_path (List.forall_mem_singleton.2 (by decide))
  have hroot : pathParts (Tree.path []) = [] := pathParts_path fun _ h => absurd h List.not_mem_nil
  unfold arrayWorkbook
  simp only [Tree.addExpression, hparts, List.getLast?, List.getLast, List.dropLast, Tree.addFolder,
    hroot]
  rfl

theorem ofTree_arrayWorkbook : Outline.ofTree arrayWorkbook =
    ⟨[Outline.root], [⟨"a", "a", ["a"], .script, 1, ""⟩]⟩ := by
  rw [arrayWorkbook_eq]
  exact (Outline.ofTree_of_expressions rfl (by decide) rfl).trans rfl

theorem pathKey_arrayWorkbook : pathKey "a" = "a" :=
  pathKey_of_name (by decide) (by decide)

/-- Whether a result is the first array, which is there. -/
def Session.keepsArray (s : Store) (σ : Session) : Bool :=
  match σ.results with
  | [("a", ⟨_, .value (.array 0) _⟩)] => 0 < s.arrays.size
  | _ => false

/-- The script is evaluated, and another that is run with its result as `x` fails. -/
theorem arrayWorkbook_run :
    (match Run.newSession arrayWorkbook ⟨.standard, [], []⟩ 0 .empty with
      | .ok 0 s₀ =>
        match (Engine.ofFuel 6).query 0 (.expression "a") s₀ with
        | .ok _ s =>
          match Script.compile ⟨"main", "x.push(true)"⟩ with
          | .ok p =>
            match (Engine.ofFuel 6).runScript (.fixed [("x", .ok (.array 0))]) 8 "main" p.body s with
            | .error (.failed _) _ => (s.sessions[0]?).any (Session.keepsArray s)
            | _ => false
          | .error _ => false
        | .error .. => false
      | _ => false) = true := by
  unfold Run.newSession Run.newSessionWith
  simp only [ofTree_arrayWorkbook, Engine.query, pathKey_arrayWorkbook]
  rw [arrayWorkbook_eq]
  decide +kernel

/-- The array that the failing script got hold of is as it was. -/
theorem array_stays_unpushed : ∃ (s t : Store) (σ : Session) (r : Result) (v : Value)
    (p : Script.Program), Script.compile ⟨"main", "x.push(true)"⟩ = .ok p ∧
      ((Engine.ofFuel 6).runScript (.fixed [("x", .ok (.array 0))]) 8 "main" p.body).EndsIn s t ∧
      s.sessions[0]? = some σ ∧ ("a", r) ∈ σ.results ∧ r.outcome = .value (.array 0) v ∧
      s.FrozenKept t ∧ s.SameAt t (.array 0) := by
  have hrun := arrayWorkbook_run
  split at hrun
  case h_2 => cases hrun
  case h_1 s₀ h₀ =>
    split at hrun
    case h_2 => cases hrun
    case h_1 a s h₁ =>
      split at hrun
      case h_2 => cases hrun
      case h_1 p hp =>
        split at hrun
        case h_2 => cases hrun
        case h_1 f t h₂ =>
          obtain ⟨σ, hσ, hkeeps⟩ := (Option.any_eq_true _ _).1 hrun
          unfold Session.keepsArray at hkeeps
          split at hkeeps
          case h_2 => cases hkeeps
          case h_1 id v hresults =>
            have hr : ("a", ⟨id, .value (.array 0) v⟩) ∈ σ.results := by simp [hresults]
            have hx : Native.Alike s.bound (.array 0) (.array 0) :=
              .array ⟨rfl, of_decide_eq_true hkeeps⟩
            have hs : (Engine.ofFuel 6).Leads .empty s :=
              .step (.step .refl (.newSession arrayWorkbook _ _ .nil) (.value h₀))
                (.query 0 (.expression "a")) (.value h₁)
            have hends := Run.EndsIn.failure h₂
            have ht : (Engine.ofFuel 6).Leads s t :=
              .step .refl (.script 8 "main" p.body (.fixed (.cons (.mk "x" (.ok hx)) .nil))) hends
            obtain ⟨scripts, results⟩ := frozen_data_stays 6
            exact ⟨s, t, σ, _, v, p, hp, hends, hσ, hr, rfl, scripts _ _ _ _ s t hends,
              results s t hs ht 0 σ "a" _ _ v hσ hr rfl _ (.refl _)⟩

end Workbook
