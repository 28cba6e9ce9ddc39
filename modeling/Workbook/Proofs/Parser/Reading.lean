/-
What parsers read.

A parser reads a result from one state to another if it yields the result and no problem has been
reported on the way (`Reads`).  Problems that have been found stay (`Grows`), so a parser made of
two parts reads exactly what its parts read one after the other (`reads_bind`).

The tokens between the two states are those that have been gone past (`State.Passes`).
-/
import Workbook.Parser

namespace Workbook
namespace Parser

open Token (Kind Keyword Symbol)

variable {α β : Type}

namespace State

/-- The state one level deeper. -/
def deeper (s : State) : State :=
  { s with depth := s.depth + 1 }

/-- The state one level less deep. -/
def shallower (s : State) : State :=
  { s with depth := s.depth - 1 }

/-- The state with another count of loops around it. -/
def within (s : State) (loops : Nat) : State :=
  { s with loops := loops }

/-- The state with one more problem, with the token ahead. -/
def reporting (s : State) (cause : Problem.Cause) : State :=
  { s with problems := s.problems.push ⟨cause, s.current.span⟩ }

@[simp] theorem taken_problems (s : State) : s.taken.problems = s.problems := by
  unfold taken
  split <;> rfl

@[simp] theorem taken_depth (s : State) : s.taken.depth = s.depth := by
  unfold taken
  split <;> rfl

@[simp] theorem taken_loops (s : State) : s.taken.loops = s.loops := by
  unfold taken
  split <;> rfl

theorem taken_rest_suffix (s : State) : s.taken.rest <:+ s.rest := by
  unfold taken
  split
  · exact List.suffix_rfl
  · rename_i t rest hrest
    rw [hrest]
    exact List.suffix_cons t rest

@[simp] theorem within_depth (s : State) (loops : Nat) : (s.within loops).depth = s.depth := rfl

@[simp] theorem within_problems (s : State) (loops : Nat) :
    (s.within loops).problems = s.problems := rfl

@[simp] theorem within_loops (s : State) (loops : Nat) : (s.within loops).loops = loops := rfl

@[simp] theorem within_within (s : State) (loops loops' : Nat) :
    (s.within loops).within loops' = s.within loops' := rfl

@[simp] theorem within_self (s : State) : s.within s.loops = s := rfl

/-- Whether a loop is around. -/
def inLoop (s : State) : Bool :=
  s.loops != 0

@[simp] theorem taken_inLoop (s : State) : s.taken.inLoop = s.inLoop := by
  unfold inLoop
  rw [taken_loops]

theorem rest_ne_nil {s : State} (h : s.kind ≠ .endOfInput) : s.rest ≠ [] := by
  intro hrest
  apply h
  unfold kind current
  rw [hrest]
  rfl

theorem rest_eq {s : State} (h : s.kind ≠ .endOfInput) : s.rest = s.current :: s.taken.rest := by
  unfold current taken
  cases hrest : s.rest with
  | nil => exact absurd hrest (rest_ne_nil h)
  | cons t rest => rfl

theorem previous_taken {s : State} (h : s.kind ≠ .endOfInput) :
    s.taken.previous = s.current.span := by
  unfold current taken
  cases hrest : s.rest with
  | nil => exact absurd hrest (rest_ne_nil h)
  | cons t rest => rfl

end State

/-! ## Running parsers -/

/-- What a parser comes to, and the state that it leaves. -/
def on (p : Parser α) (s : State) : Option α × State :=
  StateT.run (OptionT.run p) s

theorem on_bind (p : Parser α) (f : α → Parser β) (s : State) : (p >>= f).on s =
    (p.on s).1.elim (none, (p.on s).2) fun a => (f a).on (p.on s).2 := by
  unfold on
  rw [OptionT.run_bind]
  unfold Option.elimM
  show StateT.run _ _ = _
  rw [StateT.run_bind]
  show StateT.run (Option.elim (StateT.run p.run s).1 _ _) (StateT.run p.run s).2 = _
  cases (StateT.run p.run s).1 <;> rfl

theorem on_map (f : α → β) (p : Parser α) (s : State) :
    (f <$> p).on s = ((p.on s).1.map f, (p.on s).2) := by
  have hbind : f <$> p = p >>= fun a => pure (f a) := map_eq_pure_bind f p
  rw [hbind, on_bind]
  cases (p.on s).1 <;> rfl

theorem on_attempt (p : Parser α) (s : State) : (attempt p).on s = (some (p.on s).1, (p.on s).2) := rfl

theorem on_eats (k : Kind) (s : State) : (eats k).on s =
    if s.kind = k then (some true, s.taken) else (some false, s) := by
  have hrun : (eats k).on s = (if decide (s.kind = k) = true then (do let _ ← take; return true)
      else (return false) : Parser Bool).on s := rfl
  by_cases h : s.kind = k
  · rw [hrun, if_pos h, if_pos (decide_eq_true h)]
    rfl
  · rw [hrun, if_neg h, if_neg (by simpa using h)]
    rfl

theorem on_expect (k : Kind) (s : State) : (expect k).on s =
    if s.kind = k then (some (), s.taken) else (none, s.reporting (.expectedToken k s.kind)) := by
  unfold expect
  rw [on_bind, on_eats]
  by_cases h : s.kind = k
  · rw [if_pos h, if_pos h]
    rfl
  · rw [if_neg h, if_neg h]
    rfl

/-- Runs a parser one level deeper, unless that is too deep, and then lowers the level in some way. -/
def nestedBy (lower : Nat → Nat) (p : Parser α) : Parser α := do
  if maxNesting ≤ (← get).depth then reject (.tooDeep maxNesting)
  modify State.deeper
  let outcome ← attempt p
  modify fun s => { s with depth := lower s.depth }
  ofOutcome outcome

theorem on_nestedBy (lower : Nat → Nat) (p : Parser α) (s : State) : (nestedBy lower p).on s =
    if maxNesting ≤ s.depth then (none, s.reporting (.tooDeep maxNesting))
    else ((p.on s.deeper).1,
      { (p.on s.deeper).2 with depth := lower (p.on s.deeper).2.depth }) := by
  let inner : Parser α := do
    modify State.deeper
    let outcome ← attempt p
    modify fun s => { s with depth := lower s.depth }
    ofOutcome outcome
  have hinner : inner.on s = ((p.on s.deeper).1,
      { (p.on s.deeper).2 with depth := lower (p.on s.deeper).2.depth }) := by
    show (ofOutcome (p.on s.deeper).1).on _ = _
    cases (p.on s.deeper).1 <;> rfl
  have hrun : (nestedBy lower p).on s = (if maxNesting ≤ s.depth then
      (do let _ : PUnit ← reject (.tooDeep maxNesting); inner) else inner : Parser α).on s := rfl
  rw [hrun]
  by_cases h : maxNesting ≤ s.depth
  · rw [if_pos h, if_pos h]
    rfl
  · rw [if_neg h, if_neg h, hinner]

theorem on_nested (p : Parser α) (s : State) : (nested p).on s =
    if maxNesting ≤ s.depth then (none, s.reporting (.tooDeep maxNesting))
    else ((p.on s.deeper).1, (p.on s.deeper).2.shallower) :=
  on_nestedBy (· - 1) p s

/-! ## Growth -/

/-- What a parser reports comes after the problems that have been found before, and it never goes back
in the tokens.  A parser without a result has reported a problem.  The nesting of expressions and of
loops is left as it was, with a result or without. -/
class Grows (p : Parser α) : Prop where
  adds (s : State) : ∃ ps, (p.on s).2.problems = s.problems.pushAll ps ∧
    ((p.on s).1 = none → ps ≠ [])
  rest (s : State) : (p.on s).2.rest <:+ s.rest
  depth (s : State) : (p.on s).2.depth = s.depth
  loops (s : State) : (p.on s).2.loops = s.loops

namespace Grows

variable {p : Parser α} {f : α → Parser β}

/-- Problems that have been found stay. -/
theorem le (h : p.Grows) (s : State) : s.problems.total ≤ (p.on s).2.problems.total := by
  obtain ⟨ps, hps, -⟩ := h.adds s
  rw [hps, Problems.total_pushAll]
  omega

/-- No parser gives up in silence. -/
theorem lt_of_none (h : p.Grows) {s s' : State} (hnone : p.on s = (none, s')) :
    s.problems.total < s'.problems.total := by
  obtain ⟨ps, hps, hne⟩ := h.adds s
  rw [hnone] at hps hne
  have hlength : 0 < ps.length := List.length_pos_iff.2 (hne rfl)
  have hps : s'.problems = s.problems.pushAll ps := hps
  rw [hps, Problems.total_pushAll]
  omega

/-- A parser that yields a result and leaves the state as it was. -/
theorem quiet (h : ∀ s, (p.on s).1.isSome = true ∧ (p.on s).2 = s) : p.Grows where
  adds s := by
    refine ⟨[], congrArg State.problems (h s).2, fun hnone => ?_⟩
    have hsome := (h s).1
    rw [hnone] at hsome
    cases hsome
  rest s := ⟨[], congrArg State.rest (h s).2⟩
  depth s := congrArg State.depth (h s).2
  loops s := congrArg State.loops (h s).2

instance (a : α) : (pure a : Parser α).Grows := quiet fun _ => ⟨rfl, rfl⟩

theorem bind (hp : p.Grows) (hf : ∀ a, (f a).Grows) : (p >>= f).Grows where
  adds s := by
    obtain ⟨ps, hps, hne⟩ := hp.adds s
    rw [on_bind]
    cases hs : (p.on s).1 with
    | none => exact ⟨ps, hps, fun _ => hne hs⟩
    | some a =>
      obtain ⟨qs, hqs, hne'⟩ := (hf a).adds (p.on s).2
      refine ⟨ps ++ qs, ?_, fun hnone => ?_⟩
      · rw [← Problems.pushAll_append, ← hps]
        exact hqs
      · intro hnil
        exact hne' hnone (List.append_eq_nil_iff.1 hnil).2
  rest s := by
    rw [on_bind]
    cases (p.on s).1 with
    | none => exact hp.rest s
    | some a => exact ((hf a).rest (p.on s).2).trans (hp.rest s)
  depth s := by
    rw [on_bind]
    cases (p.on s).1 with
    | none => exact hp.depth s
    | some a => exact ((hf a).depth (p.on s).2).trans (hp.depth s)
  loops s := by
    rw [on_bind]
    cases (p.on s).1 with
    | none => exact hp.loops s
    | some a => exact ((hf a).loops (p.on s).2).trans (hp.loops s)

instance [hp : p.Grows] [hf : ∀ a, (f a).Grows] : (p >>= f).Grows :=
  .bind hp hf

instance [h : p.Grows] (f : α → β) : (f <$> p).Grows where
  adds s := by
    obtain ⟨ps, hps, hne⟩ := h.adds s
    rw [on_map]
    exact ⟨ps, hps, fun hnone => hne (Option.map_eq_none_iff.1 hnone)⟩
  rest s := by
    rw [on_map]
    exact h.rest s
  depth s := by
    rw [on_map]
    exact h.depth s
  loops s := by
    rw [on_map]
    exact h.loops s

instance [h : p.Grows] : (attempt p).Grows where
  adds s := by
    obtain ⟨ps, hps, -⟩ := h.adds s
    exact ⟨ps, hps, fun hnone => by cases hnone⟩
  rest s := h.rest s
  depth s := h.depth s
  loops s := h.loops s

instance {c : Prop} [Decidable c] {p q : Parser α} [p.Grows] [q.Grows] :
    (if c then p else q).Grows := by
  split <;> infer_instance

instance : (get : Parser State).Grows := quiet fun _ => ⟨rfl, rfl⟩

instance : peek.Grows := quiet fun _ => ⟨rfl, rfl⟩

instance : here.Grows := quiet fun _ => ⟨rfl, rfl⟩

instance : previous.Grows := quiet fun _ => ⟨rfl, rfl⟩

instance (first : Span) : (since first).Grows := quiet fun _ => ⟨rfl, rfl⟩

instance (k : Kind) : (sees k).Grows := quiet fun _ => ⟨rfl, rfl⟩

instance (s : Symbol) : (seesSymbol s).Grows := quiet fun _ => ⟨rfl, rfl⟩

instance : seesShorthand.Grows := quiet fun _ => ⟨rfl, rfl⟩

instance : take.Grows where
  adds s := ⟨[], s.taken_problems, fun h => by cases h⟩
  rest s := s.taken_rest_suffix
  depth s := s.taken_depth
  loops s := s.taken_loops

instance (k : Kind) : (eats k).Grows := by
  unfold eats
  infer_instance

instance (s : Symbol) : (eatsSymbol s).Grows := inferInstanceAs (eats _).Grows

instance (cause : Problem.Cause) (span : Span) : (reportAt cause span).Grows where
  adds _ := ⟨[⟨cause, span⟩], rfl, fun h => by cases h⟩
  rest _ := List.suffix_rfl
  depth _ := rfl
  loops _ := rfl

instance (cause : Problem.Cause) : (report cause).Grows := by
  unfold report
  infer_instance

instance (cause : Problem.Cause) : (reject cause : Parser α).Grows where
  adds s := ⟨[⟨cause, s.current.span⟩], rfl, fun _ => by simp⟩
  rest _ := List.suffix_rfl
  depth _ := rfl
  loops _ := rfl

instance (k : Kind) : (expect k).Grows := by
  unfold expect
  infer_instance

instance (s : Symbol) : (expectSymbol s).Grows := inferInstanceAs (expect _).Grows

instance (w : Keyword) : (expectWord w).Grows := inferInstanceAs (expect _).Grows

instance : name.Grows := by
  unfold name
  refine .bind inferInstance fun k => ?_
  split <;> infer_instance

instance : memberName.Grows := by
  unfold memberName
  refine .bind inferInstance fun k => ?_
  split <;> infer_instance

instance : key.Grows := by
  unfold key
  refine .bind inferInstance fun k => ?_
  split <;> infer_instance

instance [h : p.Grows] : (nested p).Grows where
  adds s := by
    rw [on_nested]
    split
    · exact ⟨[⟨.tooDeep maxNesting, s.current.span⟩], rfl, fun _ => by simp⟩
    · exact h.adds s.deeper
  rest s := by
    rw [on_nested]
    split
    · exact List.suffix_rfl
    · exact h.rest s.deeper
  depth s := by
    rw [on_nested]
    split
    · rfl
    · show (p.on s.deeper).2.depth - 1 = s.depth
      rw [h.depth s.deeper]
      rfl
  loops s := by
    rw [on_nested]
    split
    · rfl
    · exact h.loops s.deeper

instance {next : Parser (Option (α → α → α))} [next.Grows] [p.Grows] (fuel : Nat) (left : α) :
    (chain next p fuel left).Grows := by
  induction fuel generalizing left with
  | zero => unfold chain; infer_instance
  | succ fuel ih =>
    unfold chain
    refine .bind inferInstance fun join => ?_
    split <;> infer_instance

instance {next : Parser (Option (α → α → α))} [next.Grows] [p.Grows] : (operands next p).Grows := by
  unfold operands
  infer_instance

instance (table : Symbol → Option β) : (operator table).Grows := by
  unfold operator
  refine .bind inferInstance fun k => ?_
  split
  · split <;> infer_instance
  · infer_instance

instance (close : Symbol) [p.Grows] (fuel : Nat) : (separated close p fuel).Grows := by
  induction fuel with
  | zero => unfold separated; infer_instance
  | succ fuel ih => unfold separated; infer_instance

instance (close : Symbol) [p.Grows] : (closedBy close p).Grows := by
  unfold closedBy
  infer_instance

instance : parameters.Grows := by
  unfold parameters
  infer_instance

instance [p.Grows] : (item p).Grows := by
  unfold item
  infer_instance

instance [p.Grows] (cause : Problem.Cause) (fuel : Nat) : (holes p cause fuel).Grows := by
  induction fuel with
  | zero => unfold holes; infer_instance
  | succ fuel ih =>
    unfold holes
    refine .bind inferInstance fun _ => .bind inferInstance fun _ => .bind inferInstance fun _ =>
      .bind inferInstance fun k => ?_
    split <;> infer_instance

instance [p.Grows] (first : String) (cause : Problem.Cause) : (pieces first p cause).Grows := by
  unfold pieces
  infer_instance

end Grows

/-! ## Reading -/

/-- A parser yields a result and leaves another state, and no problem is reported on the way. -/
structure Reads (p : Parser α) (s : State) (a : α) (s' : State) : Prop where
  on : p.on s = (some a, s')
  clean : s'.problems.total = s.problems.total

section Reads

variable {p : Parser α} {f : α → Parser β} {s s' s₁ : State} {a : α} {b : β}

/-- What is read first is followed by what is read then. -/
theorem Reads.bind (h : p.Reads s a s₁) (hf : (f a).Reads s₁ b s') : (p >>= f).Reads s b s' where
  on := by
    rw [on_bind, h.on]
    exact hf.on
  clean := hf.clean.trans h.clean

/-- What is made of two parts reads what its parts read. -/
theorem reads_bind [p.Grows] [hf : ∀ a, (f a).Grows] : (p >>= f).Reads s b s' ↔
    ∃ a s₁, p.Reads s a s₁ ∧ (f a).Reads s₁ b s' := by
  constructor
  · intro h
    have hon := h.on
    rw [on_bind] at hon
    have hle := Grows.le (p := p) inferInstance s
    cases hp : p.on s with
    | mk o s₁ =>
      rw [hp] at hon hle
      cases o with
      | none => cases hon
      | some a =>
        have hle' := (hf a).le s₁
        have hrest : (f a).on s₁ = (some b, s') := hon
        rw [hrest] at hle'
        have hclean : s'.problems.total = s.problems.total := h.clean
        have hfirst : s₁.problems.total = s.problems.total :=
          Nat.le_antisymm (Nat.le_trans hle' (Nat.le_of_eq hclean)) hle
        exact ⟨a, s₁, ⟨hp, hfirst⟩, ⟨hrest, hclean.trans hfirst.symm⟩⟩
  · rintro ⟨a, s₁, h, hf⟩
    exact h.bind hf

theorem reads_map {f : α → β} : (f <$> p).Reads s b s' ↔ ∃ a, p.Reads s a s' ∧ b = f a := by
  constructor
  · intro h
    have hon := h.on
    rw [on_map] at hon
    obtain ⟨hb, hs⟩ := Prod.ext_iff.1 hon
    obtain ⟨a, ha, rfl⟩ := Option.map_eq_some_iff.1 hb
    have hs : (p.on s).2 = s' := hs
    exact ⟨a, ⟨Prod.ext ha hs, h.clean⟩, rfl⟩
  · rintro ⟨a, h, rfl⟩
    refine ⟨?_, h.clean⟩
    rw [on_map, h.on]
    rfl

/-- A parser that goes on like another one without reporting a problem reads the same. -/
theorem reads_of_on {q : Parser α} (h : p.on s = q.on s₁)
    (clean : s₁.problems.total = s.problems.total) : p.Reads s a s' ↔ q.Reads s₁ a s' := by
  constructor
  · intro hp
    exact ⟨h.symm.trans hp.on, hp.clean.trans clean.symm⟩
  · intro hq
    exact ⟨h.trans hq.on, hq.clean.trans clean⟩

theorem reads_pure {a' : α} : (pure a : Parser α).Reads s a' s' ↔ a' = a ∧ s' = s := by
  constructor
  · intro h
    cases h.on
    exact ⟨rfl, rfl⟩
  · rintro ⟨rfl, rfl⟩
    exact ⟨rfl, rfl⟩

theorem not_reads_reject {cause : Problem.Cause} : ¬ (reject cause : Parser α).Reads s a s' := by
  intro h
  cases h.on

/-- Where a problem is reported, nothing is read. -/
theorem not_reads_reportAt [p.Grows] {cause : Problem.Cause} {span : Span} :
    ¬ (reportAt cause span >>= fun _ => p).Reads s a s' := by
  intro h
  let reported : State := { s with problems := s.problems.push ⟨cause, span⟩ }
  have hon : p.on reported = (some a, s') := h.on
  have hle := Grows.le (p := p) inferInstance reported
  rw [hon] at hle
  have hlt : s.problems.total < s'.problems.total := hle
  have hclean := h.clean
  omega

theorem not_reads_report [p.Grows] {cause : Problem.Cause} :
    ¬ (report cause >>= fun _ => p).Reads s a s' := by
  intro h
  have hat : (reportAt cause s.current.span >>= fun _ => p).Reads s a s' := ⟨h.on, h.clean⟩
  exact not_reads_reportAt hat

theorem not_reads_reporting {cause : Problem.Cause} {u : Unit} :
    ¬ (report cause).Reads s u s' := by
  intro h
  exact not_reads_report (p := pure ()) (h.bind (reads_pure.2 ⟨rfl, rfl⟩))

theorem reads_peek {f : Kind → Parser β} : (peek >>= f).Reads s b s' ↔ (f s.kind).Reads s b s' :=
  reads_of_on rfl rfl

theorem reads_here {f : Span → Parser β} :
    (here >>= f).Reads s b s' ↔ (f s.current.span).Reads s b s' :=
  reads_of_on rfl rfl

theorem reads_get {f : State → Parser β} : (get >>= f).Reads s b s' ↔ (f s).Reads s b s' :=
  reads_of_on rfl rfl

theorem reads_sees {k : Kind} {f : Bool → Parser β} :
    (sees k >>= f).Reads s b s' ↔ (f (s.kind = k)).Reads s b s' :=
  reads_of_on rfl rfl

theorem reads_since {first : Span} {f : Span → Parser β} :
    (since first >>= f).Reads s b s' ↔ (f (first.merge s.previous)).Reads s b s' :=
  reads_of_on rfl rfl

theorem reads_take {f : Span → Parser β} :
    (take >>= f).Reads s b s' ↔ (f s.current.span).Reads s.taken b s' :=
  reads_of_on rfl (congrArg Problems.total s.taken_problems)

theorem reads_eats {k : Kind} {f : Bool → Parser β} : (eats k >>= f).Reads s b s' ↔
    (s.kind = k ∧ (f true).Reads s.taken b s') ∨ (s.kind ≠ k ∧ (f false).Reads s b s') := by
  by_cases h : s.kind = k
  · have hon : (eats k >>= f).on s = (f true).on s.taken := by
      rw [on_bind, on_eats, if_pos h]
      rfl
    rw [reads_of_on hon (congrArg Problems.total s.taken_problems)]
    simp [h]
  · have hon : (eats k >>= f).on s = (f false).on s := by
      rw [on_bind, on_eats, if_neg h]
      rfl
    rw [reads_of_on hon rfl]
    simp [h]

theorem reads_expect {k : Kind} {f : Unit → Parser β} : (expect k >>= f).Reads s b s' ↔
    s.kind = k ∧ (f ()).Reads s.taken b s' := by
  by_cases h : s.kind = k
  · have hon : (expect k >>= f).on s = (f ()).on s.taken := by
      rw [on_bind, on_expect, if_pos h]
      rfl
    rw [reads_of_on hon (congrArg Problems.total s.taken_problems)]
    simp [h]
  · have hon : (expect k >>= f).on s = (none, s.reporting (.expectedToken k s.kind)) := by
      rw [on_bind, on_expect, if_neg h]
      rfl
    constructor
    · intro hreads
      cases hon.symm.trans hreads.on
    · rintro ⟨hk, -⟩
      exact absurd hk h

theorem reads_nested : (nested p).Reads s a s' ↔
    s.depth < maxNesting ∧ ∃ s₁, p.Reads s.deeper a s₁ ∧ s' = s₁.shallower := by
  by_cases h : maxNesting ≤ s.depth
  · constructor
    · intro hreads
      have hon := hreads.on
      rw [on_nested, if_pos h] at hon
      cases hon
    · rintro ⟨hlt, -⟩
      omega
  · constructor
    · intro hreads
      have hon := hreads.on
      rw [on_nested, if_neg h] at hon
      obtain ⟨ha, hs'⟩ := Prod.ext_iff.1 hon
      have hs' : (p.on s.deeper).2.shallower = s' := hs'
      refine ⟨by omega, (p.on s.deeper).2, ⟨Prod.ext ha rfl, ?_⟩, hs'.symm⟩
      have hclean := hreads.clean
      rw [← hs'] at hclean
      exact hclean
    · rintro ⟨-, s₁, hreads, rfl⟩
      refine ⟨?_, hreads.clean⟩
      rw [on_nested, if_neg h, hreads.on]

end Reads

/-! ## Going past tokens -/

/-- The span of the last of some tokens. -/
def lastSpan (ts : List Token) : Span :=
  (ts.getLast?.map Token.span).getD default

@[simp] theorem lastSpan_concat (ts : List Token) (t : Token) : lastSpan (ts ++ [t]) = t.span := by
  simp [lastSpan]

/-- The second state is the first one after these tokens. -/
inductive State.Passes : State → List Token → State → Prop
  | nil (s : State) : Passes s [] s
  | cons {s s' : State} {ts : List Token} (h : s.kind ≠ .endOfInput) (rest : s.taken.Passes ts s') :
    Passes s (s.current :: ts) s'

namespace State.Passes

variable {s s₁ s' : State} {t : Token} {ts us : List Token}

theorem one (h : s.kind ≠ .endOfInput) : s.Passes [s.current] s.taken :=
  .cons h (.nil _)

/-- A token of a kind is gone past. -/
theorem taken {k : Kind} (h : s.kind = k) (hk : k ≠ .endOfInput) (rest : s.taken.Passes ts s') :
    s.Passes (⟨k, s.current.span⟩ :: ts) s' := by
  subst h
  exact .cons hk rest

theorem append (h : s.Passes ts s₁) (h' : s₁.Passes us s') : s.Passes (ts ++ us) s' := by
  induction h with
  | nil => exact h'
  | cons hk _ ih => exact .cons hk (ih h')

theorem of_append (h : s.Passes (ts ++ us) s') : ∃ s₁, s.Passes ts s₁ ∧ s₁.Passes us s' := by
  induction ts generalizing s with
  | nil => exact ⟨s, .nil s, h⟩
  | cons t ts ih =>
    cases h with
    | cons hk rest =>
      obtain ⟨s₁, h, h'⟩ := ih rest
      exact ⟨s₁, .cons hk h, h'⟩

theorem head (h : s.Passes (t :: ts) s') :
    s.current = t ∧ t.kind ≠ .endOfInput ∧ s.taken.Passes ts s' := by
  cases h with
  | cons hk rest => exact ⟨rfl, hk, rest⟩

theorem kind (h : s.Passes (t :: ts) s') : s.kind = t.kind :=
  congrArg Token.kind h.head.1

theorem rest (h : s.Passes ts s') : s.rest = ts ++ s'.rest := by
  induction h with
  | nil => rfl
  | cons hk _ ih =>
    rw [rest_eq hk, ih]
    rfl

theorem depth (h : s.Passes ts s') : s'.depth = s.depth := by
  induction h with
  | nil => rfl
  | cons _ _ ih => rw [ih, taken_depth]

theorem loops (h : s.Passes ts s') : s'.loops = s.loops := by
  induction h with
  | nil => rfl
  | cons _ _ ih => rw [ih, taken_loops]

/-- What is behind some tokens is in the same loops. -/
theorem inLoop (h : s.Passes ts s') : s'.inLoop = s.inLoop := by
  unfold State.inLoop
  rw [h.loops]

theorem kinds (h : s.Passes ts s') (ht : t ∈ ts) : t.kind ≠ .endOfInput := by
  induction h with
  | nil => cases ht
  | cons hk _ ih =>
    obtain rfl | ht := List.mem_cons.1 ht
    · exact hk
    · exact ih ht

/-- Tokens ahead can be gone past. -/
theorem exists_of_rest {rest : List Token} (h : s.rest = ts ++ rest)
    (kinds : ∀ t ∈ ts, t.kind ≠ .endOfInput) : ∃ s', s.Passes ts s' ∧ s'.rest = rest := by
  induction ts generalizing s with
  | nil => exact ⟨s, .nil s, h⟩
  | cons t ts ih =>
    have hcurrent : s.current = t := by
      unfold current
      rw [h]
      rfl
    have hk : s.kind ≠ .endOfInput := by
      unfold State.kind
      rw [hcurrent]
      exact kinds t List.mem_cons_self
    have htaken : s.taken.rest = ts ++ rest := by
      have hrest := rest_eq hk
      rw [h] at hrest
      exact (List.cons.inj hrest).2.symm
    obtain ⟨s', passes, hs'⟩ := ih htaken fun u hu => kinds u (List.mem_cons_of_mem _ hu)
    have hall := State.Passes.cons hk passes
    rw [hcurrent] at hall
    exact ⟨s', hall, hs'⟩

theorem problems (h : s.Passes ts s') : s'.problems = s.problems := by
  induction h with
  | nil => rfl
  | cons _ _ ih => rw [ih, taken_problems]

theorem previous (h : s.Passes (ts ++ [t]) s') : s'.previous = t.span := by
  obtain ⟨s₁, -, hlast⟩ := h.of_append
  obtain ⟨rfl, hk, hnil⟩ := hlast.head
  cases hnil
  exact previous_taken hk

theorem previous_eq (h : s.Passes ts s') (hts : ts ≠ []) : s'.previous = lastSpan ts := by
  rcases List.eq_nil_or_concat ts with rfl | ⟨us, t, rfl⟩
  · exact absurd rfl hts
  · rw [List.concat_eq_append] at h ⊢
    rw [h.previous, lastSpan_concat]

/-- Where a token has been gone past, there was fuel for it. -/
theorem fuel {fuel : Nat} (h : s.Passes (t :: ts) s') (hfuel : s.rest.length ≤ fuel) :
    ∃ m, fuel = m + 1 ∧ s'.rest.length ≤ m := by
  have hlength := congrArg List.length h.rest
  simp only [List.length_cons, List.length_append] at hlength
  exact ⟨fuel - 1, by omega, by omega⟩

theorem length_le {fuel : Nat} (h : s.Passes (t :: ts) s') (hfuel : s.rest.length ≤ fuel + 1) :
    s'.rest.length ≤ fuel := by
  obtain ⟨m, hm, hle⟩ := h.fuel hfuel
  omega

/-- The token ahead is the first of those that are gone past. -/
theorem current_eq (h : s.Passes ts s') : s.current = ts.headD s'.current := by
  cases h with
  | nil => rfl
  | cons _ _ => rfl

/-- The tokens tell the state after them. -/
theorem eq (h : s.Passes ts s₁) (h' : s.Passes ts s') : s₁ = s' := by
  induction h with
  | nil =>
    cases h'
    rfl
  | cons _ _ ih => exact ih h'.head.2.2

end State.Passes

@[simp] theorem State.taken_deeper (s : State) : s.deeper.taken = s.taken.deeper := by
  cases s with
  | mk rest previous problems depth loops => cases rest <;> rfl

@[simp] theorem State.shallower_deeper (s : State) : s.deeper.shallower = s := rfl

@[simp] theorem State.taken_within (s : State) (loops : Nat) :
    (s.within loops).taken = s.taken.within loops := by
  cases s with
  | mk rest previous problems depth loops => cases rest <;> rfl

/-- Going past tokens commutes with a change that leaves the tokens alone. -/
theorem State.passes_map {f : State → State} (current : ∀ s, (f s).current = s.current)
    (taken : ∀ s, (f s).taken = f s.taken) {s s' : State} {ts : List Token} :
    (f s).Passes ts s' ↔ ∃ s₁, s.Passes ts s₁ ∧ s' = f s₁ := by
  have hkind (s : State) : (f s).kind = s.kind := congrArg Token.kind (current s)
  constructor
  · intro h
    induction ts generalizing s with
    | nil =>
      cases h
      exact ⟨s, .nil s, rfl⟩
    | cons t ts ih =>
      obtain ⟨rfl, hk, hrest⟩ := h.head
      rw [taken] at hrest
      obtain ⟨s₁, h, hs'⟩ := ih hrest
      rw [current] at hk ⊢
      exact ⟨s₁, .cons hk h, hs'⟩
  · rintro ⟨s₁, h, rfl⟩
    induction h with
    | nil => exact .nil _
    | @cons s s' ts hk _ ih =>
      rw [← taken] at ih
      rw [← current]
      exact .cons (by rwa [hkind]) ih

/-- Going past tokens does not depend on how deep the parser is. -/
theorem State.passes_deeper {s s' : State} {ts : List Token} :
    s.deeper.Passes ts s' ↔ ∃ s₁, s.Passes ts s₁ ∧ s' = s₁.deeper :=
  passes_map (f := deeper) (fun _ => rfl) taken_deeper

/-- Going past tokens does not depend on how many loops are around. -/
theorem State.passes_within {s s' : State} {loops : Nat} {ts : List Token} :
    (s.within loops).Passes ts s' ↔ ∃ s₁, s.Passes ts s₁ ∧ s' = s₁.within loops :=
  passes_map (f := fun s => s.within loops) (fun _ => rfl) (fun s => taken_within s loops)

/-! ## The end of the tokens -/

/-- At the end, nothing is ahead or a token that is the end. -/
theorem rest_of_end {s : State} (h : s.kind = .endOfInput) :
    s.rest = [] ∨ ∃ t rest, s.rest = t :: rest ∧ t.kind = .endOfInput := by
  cases hrest : s.rest with
  | nil => exact .inl rfl
  | cons t rest =>
    unfold State.kind State.current at h
    rw [hrest] at h
    exact .inr ⟨t, rest, rfl, h⟩

section Whole

variable {ts : List Token} {final : Token} (body : ∀ t ∈ ts, t.kind ≠ .endOfInput)
  (ends : final.kind = .endOfInput)

theorem current_of_rest {s : State} {rest : List Token} (h : s.rest = final :: rest) :
    s.current = final := by
  unfold State.current
  rw [h]
  rfl

include ends in
theorem kind_of_rest {s : State} (h : s.rest = [final]) : s.kind = .endOfInput := by
  unfold State.kind
  rw [current_of_rest h]
  exact ends

include body ends in
/-- The tokens gone past up to the end are all tokens before the end. -/
theorem passes_eq {us : List Token} {s s' : State} (h : s.rest = ts ++ [final])
    (passes : s.Passes us s') (hend : s'.kind = .endOfInput) : us = ts := by
  have hrest := passes.rest
  rw [h] at hrest
  obtain ⟨vs, rfl, hlast⟩ | ⟨vs, rfl, hlast⟩ := List.append_eq_append_iff.1 hrest
  · cases vs with
    | nil => exact List.append_nil ts
    | cons v vs =>
      obtain ⟨rfl, -⟩ := List.cons.inj hlast
      exact absurd ends (passes.kinds (by simp))
  · cases vs with
    | nil => exact (List.append_nil us).symm
    | cons v vs =>
      obtain hnil | ⟨t, rest, hcons, ht⟩ := rest_of_end hend
      · cases hnil.symm.trans hlast
      · obtain ⟨rfl, -⟩ := List.cons.inj (hcons.symm.trans hlast)
        exact absurd ht (body _ (by simp))

end Whole

/-! ## Where there is room -/

/-- A parser can open `n` more levels, and the problems found do not stop it. -/
structure State.Ready (s : State) (n : Nat) : Prop where
  depth : s.depth + n = maxNesting
  going : s.problems.isFull = false

namespace State.Ready

variable {s s' : State} {n : Nat}

theorem taken (h : s.Ready n) : s.taken.Ready n where
  depth := by rw [taken_depth, h.depth]
  going := by rw [taken_problems, h.going]

theorem passes {ts : List Token} (h : s.Ready n) (passes : s.Passes ts s') : s'.Ready n where
  depth := by rw [passes.depth, h.depth]
  going := by rw [passes.problems, h.going]

theorem deeper (h : s.Ready (n + 1)) : s.deeper.Ready n where
  depth := by
    have hdepth := h.depth
    show s.depth + 1 + n = maxNesting
    omega
  going := h.going

theorem lt (h : s.Ready (n + 1)) : s.depth < maxNesting := by
  have hdepth := h.depth
  omega

theorem within (h : s.Ready n) (loops : Nat) : (s.within loops).Ready n :=
  ⟨h.depth, h.going⟩

end State.Ready

end Parser
end Workbook
