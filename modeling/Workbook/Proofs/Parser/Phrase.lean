/-
What tokens write.

A parser `Finds` a phrase if the tokens that it goes past write what it reads, and it `Accepts` one if
it reads what tokens write.  Since a parser looks at the token ahead, what it accepts may depend on
the kind of the token that follows (`Reading`).  It `Matches` what it finds and accepts.

This is shown here for the ways in which both languages put parsers together: one level of nesting,
operands with operators between them, parts with commas between them and strings with expressions
in them.
-/
import Workbook.Proofs.Parser.Reading

namespace Workbook
/-- The expression of an item, which dots may come before. -/
def Item.content {α : Type} : Item α → α
  | .one e | .spread e => e

/-- The expression of an entry: its value, or what dots come before. -/
def Entry.content {α : Type} : Entry α → α
  | .field _ e | .spread e => e

namespace Parser

open Token (Kind Keyword Symbol)

variable {α β : Type}

/-! ## What tokens write -/

/-- Which tokens write what. -/
abbrev Phrase (α : Type) := List Token → α → Prop

/-- Which tokens write what if a token of some kind follows. -/
abbrev Reading (α : Type) := List Token → α → Kind → Prop

/-- What tokens write whatever follows. -/
def Free (P : Phrase α) : Reading α :=
  fun ts a _ => P ts a

/-- What a parser reads where `n` more levels can be opened is written by the tokens that it goes
past. -/
def Finds (n : Nat) (p : Parser α) (L : Reading α) : Prop :=
  ∀ ⦃s a s'⦄, s.Ready n → p.Reads s a s' → ∃ ts, L ts a s'.kind ∧ s.Passes ts s'

/-- Where `n` more levels can be opened, a parser reads what tokens write. -/
def Accepts (n : Nat) (p : Parser α) (L : Reading α) : Prop :=
  ∀ ⦃s a s' ts⦄, s.Ready n → L ts a s'.kind → s.Passes ts s' → p.Reads s a s'

/-- Where `n` more levels can be opened, a parser reads what tokens write and nothing else. -/
structure Matches (n : Nat) (p : Parser α) (L : Reading α) : Prop where
  finds : p.Finds n L
  accepts : p.Accepts n L

section Matches

variable {n : Nat} {p : Parser α} {L L' : Reading α} {P : Phrase α} {s s' : State} {a : α}
  {ts : List Token}

theorem Finds.imp (h : p.Finds n L) (himp : ∀ ts a k, L ts a k → L' ts a k) : p.Finds n L' := by
  intro s a s' hs hp
  obtain ⟨ts, hL, passes⟩ := h hs hp
  exact ⟨ts, himp ts a _ hL, passes⟩

theorem Accepts.imp (h : p.Accepts n L) (himp : ∀ ts a k, L' ts a k → L ts a k) :
    p.Accepts n L' := by
  intro s a s' ts hs hL passes
  exact h hs (himp ts a _ hL) passes

theorem Matches.iff (h : p.Matches n L) (hs : s.Ready n) :
    p.Reads s a s' ↔ ∃ ts, L ts a s'.kind ∧ s.Passes ts s' := by
  constructor
  · exact fun hp => h.finds hs hp
  · rintro ⟨ts, hL, passes⟩
    exact h.accepts hs hL passes

theorem Matches.of_iff (h : ∀ {s a s'}, s.Ready n →
    (p.Reads s a s' ↔ ∃ ts, L ts a s'.kind ∧ s.Passes ts s')) : p.Matches n L :=
  ⟨fun _ _ _ hs hp => (h hs).1 hp, fun _ _ _ ts hs hL passes => (h hs).2 ⟨ts, hL, passes⟩⟩

theorem Matches.congr (h : p.Matches n L) (heq : ∀ ts a k, L ts a k ↔ L' ts a k) :
    p.Matches n L' :=
  ⟨h.finds.imp fun ts a k => (heq ts a k).1, h.accepts.imp fun ts a k => (heq ts a k).2⟩

/-- Where nothing is read, whatever is read is written. -/
theorem finds_of_not (hp : ∀ s a s', ¬ p.Reads s a s') : p.Finds n L :=
  fun s a s' _ h => absurd h (hp s a s')

theorem accepts_of_not (hL : ∀ ts a k, ¬ L ts a k) : p.Accepts n L :=
  fun _ a s' ts _ h _ => absurd h (hL ts a s'.kind)

/-- One level is opened. -/
theorem Finds.nested (h : p.Finds n L) : (nested p).Finds (n + 1) L := by
  intro s a s' hs hnested
  obtain ⟨-, s₁, hp, rfl⟩ := reads_nested.1 hnested
  obtain ⟨ts, hL, passes⟩ := h hs.deeper hp
  obtain ⟨s₂, hs₂, rfl⟩ := State.passes_deeper.1 passes
  exact ⟨ts, hL, hs₂⟩

theorem Accepts.nested (h : p.Accepts n L) : (nested p).Accepts (n + 1) L := by
  intro s a s' ts hs hL passes
  refine reads_nested.2 ⟨hs.lt, s'.deeper, ?_, rfl⟩
  exact h hs.deeper hL (State.passes_deeper.2 ⟨s', passes, rfl⟩)

theorem Matches.nested (h : p.Matches n L) : (nested p).Matches (n + 1) L :=
  ⟨h.finds.nested, h.accepts.nested⟩

end Matches

/-! ## Operands with operators between them

A kind of token has a rank: none, or how tightly the operator holds its operands.  A phrase may
reach as far to the right as it can; such a phrase is not the left operand of anything. -/

/-- The operator ahead is none that would go on with a phrase: a phrase that reaches as far as it can
goes on with all of them, another one with those of its own rank and above. -/
def Stops (rank : Kind → Nat) (reaches : Bool) (lowest : Nat) (k : Kind) : Prop :=
  rank k < if reaches then 1 else lowest

/-- What is read before an operator that does not go on with it. -/
def Before (rank : Kind → Nat) (lowest : Nat) (P : Bool → Phrase α) : Reading α :=
  fun ts a k => ∃ reaches, P reaches ts a ∧ Stops rank reaches lowest k

/-- What is read before a token of a lower rank. -/
def Below (rank : Kind → Nat) (lowest : Nat) (P : Phrase α) : Reading α :=
  fun ts a k => P ts a ∧ rank k < lowest

/-- Operands with operators between them, joined from left to right.  Only the last one may reach as
far as it can. -/
inductive Operands (joins : Kind → Option (α → α → α)) (P : Bool → Phrase α) : Bool → Phrase α
  | one {reaches : Bool} {ts : List Token} {a : α} (h : P reaches ts a) : Operands joins P reaches ts a
  | more {reaches : Bool} {ts us : List Token} {t : Token} {a b : α} {join : α → α → α}
    (left : Operands joins P false ts a) (operator : joins t.kind = some join)
    (right : P reaches us b) : Operands joins P reaches (ts ++ t :: us) (join a b)

/-- Operands with operators between them, none of which reaches as far as it can. -/
abbrev Chain (joins : Kind → Option (α → α → α)) (P : Phrase α) : Phrase α :=
  Operands joins (fun _ => P) false

/-- A parser that takes an operator and yields how it joins its operands. -/
structure Takes (next : Parser (Option (α → α → α))) (joins : Kind → Option (α → α → α)) : Prop where
  operator {s : State} {join : α → α → α} (h : joins s.kind = some join) :
    next.on s = (some (some join), s.taken)
  other {s : State} (h : joins s.kind = none) : next.on s = (some none, s)

section Operands

variable {n lowest : Nat} {rank : Kind → Nat} {joins : Kind → Option (α → α → α)}
  {next : Parser (Option (α → α → α))} {operand : Parser α} {P : Bool → Phrase α} {Q : Phrase α}
  {s s₁ s' : State} {a b left : α} {ts us : List Token} {reaches : Bool}

theorem Takes.reads_some {f : Option (α → α → α) → Parser β} {b : β} (h : Takes next joins)
    {join : α → α → α} (hjoin : joins s.kind = some join) :
    (next >>= f).Reads s b s' ↔ (f (some join)).Reads s.taken b s' := by
  have hon : (next >>= f).on s = (f (some join)).on s.taken := by
    rw [on_bind, h.operator hjoin]
    rfl
  exact reads_of_on hon (congrArg Problems.total s.taken_problems)

theorem Takes.reads_none {f : Option (α → α → α) → Parser β} {b : β} (h : Takes next joins)
    (hjoin : joins s.kind = none) : (next >>= f).Reads s b s' ↔ (f none).Reads s b s' := by
  have hon : (next >>= f).on s = (f none).on s := by
    rw [on_bind, h.other hjoin]
    rfl
  exact reads_of_on hon rfl

/-- After a phrase that reaches as far as it can there is no operator. -/
theorem Stops.not_reaches {k : Kind} (h : Stops rank reaches lowest k) (hk : 1 ≤ rank k) :
    reaches = false := by
  cases reaches with
  | false => rfl
  | true =>
    have hlt : rank k < 1 := h
    omega

/-- A phrase that goes on with fewer operators stops before more of them. -/
theorem Stops.lower {k : Kind} (h : Stops rank reaches (lowest + 1) k) (hk : rank k ≠ lowest) :
    Stops rank reaches lowest k := by
  cases reaches with
  | true => exact h
  | false =>
    have hlt : rank k < lowest + 1 := h
    show rank k < lowest
    omega

theorem Stops.raise {k : Kind} (h : Stops rank reaches lowest k) (h1 : 1 ≤ lowest) :
    Stops rank reaches (lowest + 1) k ∧ rank k ≠ lowest := by
  cases reaches with
  | true =>
    have hlt : rank k < 1 := h
    exact ⟨h, by omega⟩
  | false =>
    have hlt : rank k < lowest := h
    exact ⟨show rank k < lowest + 1 by omega, by omega⟩

theorem Stops.lt {k : Kind} (h : Stops rank reaches lowest k) (h1 : 1 ≤ lowest) :
    rank k < lowest := by
  obtain ⟨-, hne⟩ := h.raise h1
  cases reaches with
  | true =>
    have hlt : rank k < 1 := h
    omega
  | false => exact h

variable (joined : ∀ k, (joins k).isSome ↔ rank k = lowest)

include joined in
theorem joins_cases (k : Kind) :
    (∃ join, joins k = some join ∧ rank k = lowest) ∨ (joins k = none ∧ rank k ≠ lowest) := by
  have hk := joined k
  cases hjoin : joins k with
  | none =>
    rw [hjoin] at hk
    exact .inr ⟨rfl, fun he => absurd (hk.2 he) (by simp)⟩
  | some join =>
    rw [hjoin] at hk
    exact .inl ⟨join, rfl, hk.1 rfl⟩

variable [next.Grows] [operand.Grows] (takes : Takes next joins) (positive : 1 ≤ lowest)
  (ends : rank .endOfInput = 0)

include joined takes positive ends in
/-- From what has been read, a chain goes on to where no operator goes on with it. -/
theorem chain_sound (found : operand.Finds n (Before rank (lowest + 1) P)) (fuel : Nat) {s₀ : State}
    (hs : s₀.Ready n) (hfuel : s.rest.length ≤ fuel) (before : Operands joins P reaches ts left)
    (passes : s₀.Passes ts s) (stops : Stops rank reaches (lowest + 1) s.kind)
    (h : (chain next operand fuel left).Reads s a s') :
    ∃ us, Before rank lowest (Operands joins P) us a s'.kind ∧ s₀.Passes us s' := by
  induction fuel generalizing s left ts reaches with
  | zero =>
    have hrest : s.rest = [] := List.eq_nil_of_length_eq_zero (by omega)
    have hkind : s.kind = .endOfInput := by
      unfold State.kind State.current
      rw [hrest]
      rfl
    obtain ⟨rfl, rfl⟩ := reads_pure.1 h
    exact ⟨ts, ⟨reaches, before, stops.lower (by rw [hkind, ends]; omega)⟩, passes⟩
  | succ fuel ih =>
    unfold chain at h
    obtain ⟨join, hjoin, hrank⟩ | ⟨hjoin, hrank⟩ := joins_cases joined s.kind
    · rw [takes.reads_some hjoin, reads_bind] at h
      obtain ⟨b, s₁, hb, h⟩ := h
      obtain rfl := stops.not_reaches (by omega)
      have hk : s.kind ≠ .endOfInput := by
        intro hk
        rw [hk, ends] at hrank
        omega
      obtain ⟨us, ⟨reaches', hP, stops'⟩, passes'⟩ := found (hs.passes passes).taken hb
      have hlength : s₁.rest.length ≤ fuel := by
        have hrest := congrArg List.length (State.rest_eq hk)
        have hrest' := congrArg List.length passes'.rest
        simp only [List.length_cons, List.length_append] at hrest hrest'
        omega
      exact ih hlength (.more before hjoin hP) (passes.append (.cons hk passes')) stops' h
    · rw [takes.reads_none hjoin] at h
      obtain ⟨rfl, rfl⟩ := reads_pure.1 h
      exact ⟨ts, ⟨reaches, before, stops.lower hrank⟩, passes⟩

include joined takes positive ends in
/-- Operands with operators of one rank between them. -/
theorem Finds.operands (found : operand.Finds n (Before rank (lowest + 1) P)) :
    (operands next operand).Finds n (Before rank lowest (Operands joins P)) := by
  intro s a s' hs h
  unfold Parser.operands at h
  rw [reads_bind] at h
  obtain ⟨left, s₁, hleft, h⟩ := h
  rw [reads_get] at h
  obtain ⟨ts, ⟨reaches, hP, stops⟩, passes⟩ := found hs hleft
  exact chain_sound joined takes positive ends found _ hs (Nat.le_refl _) (.one hP) passes stops h

include takes in
/-- Wherever a chain ends, its tokens write it. -/
theorem Finds.chain (found : operand.Finds n (Free Q)) (ends : joins .endOfInput = none) :
    (Parser.operands next operand).Finds n (Free (Chain joins Q)) := by
  have hchain (fuel : Nat) : ∀ {s₀ s s' : State} {ts : List Token} {left a : α}, s₀.Ready n →
      Chain joins Q ts left → s₀.Passes ts s → (Parser.chain next operand fuel left).Reads s a s' →
      ∃ us, Chain joins Q us a ∧ s₀.Passes us s' := by
    induction fuel with
    | zero =>
      intro s₀ s s' ts left a _ before passes h
      obtain ⟨rfl, rfl⟩ := reads_pure.1 h
      exact ⟨ts, before, passes⟩
    | succ fuel ih =>
      intro s₀ s s' ts left a hs before passes h
      unfold Parser.chain at h
      cases hjoin : joins s.kind with
      | none =>
        rw [takes.reads_none hjoin] at h
        obtain ⟨rfl, rfl⟩ := reads_pure.1 h
        exact ⟨ts, before, passes⟩
      | some join =>
        rw [takes.reads_some hjoin, reads_bind] at h
        obtain ⟨b, s₁, hb, h⟩ := h
        have hk : s.kind ≠ .endOfInput := by
          intro hk
          rw [hk, ends] at hjoin
          cases hjoin
        obtain ⟨us, hQ, passes'⟩ := found (hs.passes passes).taken hb
        exact ih hs (.more before hjoin hQ) (passes.append (.cons hk passes')) h
  intro s a s' hs h
  unfold Parser.operands at h
  rw [reads_bind] at h
  obtain ⟨left, s₁, hleft, h⟩ := h
  rw [reads_get] at h
  obtain ⟨ts, hQ, passes⟩ := found hs hleft
  exact hchain _ hs (.one hQ) passes h

omit [next.Grows] [operand.Grows] in
include joined takes in
/-- After operands have been read, the chain goes on. -/
theorem chain_complete (accepted : operand.Accepts n (Before rank (lowest + 1) P)) (hs : s.Ready n)
    (h : Operands joins P reaches ts left) (passes : s.Passes ts s₁)
    (stops : Stops rank reaches (lowest + 1) s₁.kind) :
    ∃ fuel, s₁.rest.length ≤ fuel ∧ ∀ a s', (chain next operand fuel left).Reads s₁ a s' →
      (operands next operand).Reads s a s' := by
  induction h generalizing s₁ with
  | one hP =>
    have hread := accepted hs ⟨_, hP, stops⟩ passes
    refine ⟨s₁.rest.length, Nat.le_refl _, fun a s' hchain => ?_⟩
    exact hread.bind (reads_get.2 hchain)
  | more _ hjoin hP ih =>
    obtain ⟨s₂, hfirst, hlast⟩ := passes.of_append
    obtain ⟨rfl, hk, hlast⟩ := hlast.head
    have hrank : rank s₂.kind = lowest := (joined _).1 (Option.isSome_of_eq_some hjoin)
    obtain ⟨fuel, hfuel, hgo⟩ := ih hfirst (show rank s₂.kind < lowest + 1 by omega)
    have hread := accepted (hs.passes hfirst).taken ⟨_, hP, stops⟩ hlast
    have hrest := congrArg List.length (State.rest_eq hk)
    have hrest' := congrArg List.length hlast.rest
    simp only [List.length_cons, List.length_append] at hrest hrest'
    obtain ⟨fuel, rfl⟩ : ∃ m, fuel = m + 1 := ⟨fuel - 1, by omega⟩
    refine ⟨fuel, by omega, fun a s' hchain => hgo a s' ?_⟩
    unfold chain
    rw [takes.reads_some hjoin]
    exact hread.bind hchain

omit [next.Grows] [operand.Grows] in
include joined takes positive in
theorem Accepts.operands (accepted : operand.Accepts n (Before rank (lowest + 1) P)) :
    (operands next operand).Accepts n (Before rank lowest (Operands joins P)) := by
  intro s a s' ts hs ⟨reaches, h, stops⟩ passes
  obtain ⟨stops, hrank⟩ := stops.raise positive
  obtain ⟨fuel, -, hgo⟩ := chain_complete joined takes accepted hs h passes stops
  refine hgo a s' ?_
  cases fuel with
  | zero => exact reads_pure.2 ⟨rfl, rfl⟩
  | succ fuel =>
    obtain ⟨_, _, he⟩ | ⟨hjoin, -⟩ := joins_cases joined s'.kind
    · exact absurd he hrank
    · unfold chain
      rw [takes.reads_none hjoin]
      exact reads_pure.2 ⟨rfl, rfl⟩

omit [next.Grows] [operand.Grows] in
include joined takes positive in
theorem Accepts.chain (accepted : operand.Accepts n (Below rank (lowest + 1) Q)) :
    (Parser.operands next operand).Accepts n (Below rank lowest (Chain joins Q)) := by
  have hbefore : operand.Accepts n (Before rank (lowest + 1) fun _ => Q) :=
    accepted.imp fun ts a k ⟨_, hQ, stops⟩ => ⟨hQ, stops.lt (Nat.succ_pos _)⟩
  exact (hbefore.operands joined takes positive).imp fun ts a k ⟨h, hrank⟩ => ⟨false, h, hrank⟩

include joined takes positive ends in
theorem matches_operands (matched : operand.Matches n (Before rank (lowest + 1) P)) :
    (operands next operand).Matches n (Before rank lowest (Operands joins P)) :=
  ⟨matched.finds.operands joined takes positive ends, matched.accepts.operands joined takes positive⟩

end Operands

/-! ## Operators of a table -/

/-- What a table has for a token that is a symbol. -/
def ofSymbol (table : Symbol → Option β) : Kind → Option β
  | .symbol x => table x
  | _ => none

theorem on_operator (table : Symbol → Option β) (s : State) : (operator table).on s =
    (some (ofSymbol table s.kind), if (ofSymbol table s.kind).isSome then s.taken else s) := by
  unfold operator
  rw [on_bind]
  show Parser.on _ s = _
  cases s.kind with
  | symbol x =>
    show _ = (some (table x), if (table x).isSome then s.taken else s)
    simp only
    cases table x <;> rfl
  | _ => rfl

/-- A parser that takes the operators of a table takes those that the table has. -/
theorem takes_operator {table : Symbol → Option β} {make : β → α → α → α}
    {joins : Kind → Option (α → α → α)} (h : ∀ k, joins k = (ofSymbol table k).map make) :
    Takes (do return (← operator table).map make) joins where
  operator {s join} hjoin := by
    rw [h] at hjoin
    rw [on_bind, on_operator]
    obtain ⟨b, hb, rfl⟩ := Option.map_eq_some_iff.1 hjoin
    rw [hb]
    rfl
  other {s} hjoin := by
    rw [h] at hjoin
    rw [on_bind, on_operator, Option.map_eq_none_iff.1 hjoin]
    rfl

/-- The same where the table has how operands are joined. -/
theorem takes_table {table : Symbol → Option (α → α → α)} {joins : Kind → Option (α → α → α)}
    (h : ∀ k, joins k = ofSymbol table k) : Takes (operator table) joins where
  operator {s join} hjoin := by
    rw [h] at hjoin
    rw [on_operator, hjoin]
    rfl
  other {s} hjoin := by
    rw [h] at hjoin
    rw [on_operator, hjoin]
    rfl

/-! ## Parts with commas between them -/

/-- Parts with commas between them.  A comma may follow the last one. -/
inductive Listed (P : Phrase α) : Phrase (List α)
  | nil : Listed P [] []
  | one {ts : List Token} {a : α} (h : P ts a) : Listed P ts [a]
  | cons {ts us : List Token} {comma : Span} {a : α} {as : List α} (h : P ts a)
    (rest : Listed P us as) : Listed P (ts ++ ⟨.symbol .comma, comma⟩ :: us) (a :: as)

/-- What is read in a list that a symbol closes. -/
def Apart (close : Symbol) (P : Phrase α) : Reading α :=
  fun ts a k => P ts a ∧ (k = .symbol .comma ∨ k = .symbol close)

/-- What tokens write does not begin with this symbol. -/
def Avoids (x : Symbol) (P : Phrase α) : Prop :=
  ∀ ⦃ts a⦄, P ts a → ∃ t us, ts = t :: us ∧ t.kind ≠ .symbol x

/-- A parser reads the parts of a list that a symbol closes. -/
structure Lists (n : Nat) (close : Symbol) (part : Parser α) (P : Phrase α) : Prop where
  starts : Avoids close P
  finds : part.Finds n (Free P)
  accepts : part.Accepts n (Apart close P)

section Listed

variable {n : Nat} {close : Symbol} {part : Parser α} {P : Phrase α} {s s' : State} {a : α}
  {as : List α} {ts : List Token} [part.Grows]

theorem separated_sound (found : part.Finds n (Free P)) {fuel : Nat} (hs : s.Ready n)
    (hreads : (separated close part fuel).Reads s as s') :
    ∃ ts, Listed P ts as ∧ s.Passes ts s' := by
  induction fuel generalizing s as with
  | zero =>
    obtain ⟨rfl, rfl⟩ := reads_pure.1 hreads
    exact ⟨[], .nil, .nil _⟩
  | succ fuel ih =>
    unfold separated at hreads
    rw [seesSymbol, reads_sees] at hreads
    split at hreads
    · obtain ⟨rfl, rfl⟩ := reads_pure.1 hreads
      exact ⟨[], .nil, .nil _⟩
    · rw [reads_bind] at hreads
      obtain ⟨a, s₁, ha, hreads⟩ := hreads
      obtain ⟨ts, hP, passes⟩ := found hs ha
      rw [eatsSymbol, reads_eats] at hreads
      obtain ⟨hk, hreads⟩ | ⟨-, hreads⟩ := hreads
      · rw [if_pos rfl, reads_bind] at hreads
        obtain ⟨as', s₂, has, hreads⟩ := hreads
        obtain ⟨rfl, rfl⟩ := reads_pure.1 hreads
        obtain ⟨us, hus, passes'⟩ := ih (hs.passes passes).taken has
        exact ⟨_, .cons hP hus, passes.append (.taken hk (by decide) passes')⟩
      · obtain ⟨rfl, rfl⟩ := reads_pure.1 hreads
        exact ⟨ts, .one hP, passes⟩

/-- What is read as a list is parts and the symbol that closes it. -/
theorem closedBy_sound (found : part.Finds n (Free P)) (hs : s.Ready n)
    (hreads : (closedBy close part).Reads s as s') :
    ∃ ts span, Listed P ts as ∧ s.Passes (ts ++ [⟨.symbol close, span⟩]) s' := by
  unfold closedBy at hreads
  rw [reads_get, reads_bind] at hreads
  obtain ⟨as', s₁, hreads, hclosed⟩ := hreads
  rw [expectSymbol, reads_expect] at hclosed
  obtain ⟨hk, hclosed⟩ := hclosed
  obtain ⟨rfl, rfl⟩ := reads_pure.1 hclosed
  obtain ⟨ts, listed, passes⟩ := separated_sound found hs hreads
  exact ⟨ts, _, listed, passes.append (.taken hk (by simp) (.nil _))⟩

omit [part.Grows] in
theorem separated_complete (starts : Avoids close P) (accepted : part.Accepts n (Apart close P))
    (hclose : close ≠ .comma) {fuel : Nat} (hs : s.Ready n) (hfuel : s.rest.length ≤ fuel)
    (listed : Listed P ts as) (passes : s.Passes ts s') (hk : s'.kind = .symbol close) :
    (separated close part fuel).Reads s as s' := by
  induction listed generalizing s fuel with
  | nil =>
    cases passes
    cases fuel with
    | zero => exact reads_pure.2 ⟨rfl, rfl⟩
    | succ fuel =>
      unfold separated
      rw [seesSymbol, reads_sees, if_pos (decide_eq_true hk)]
      exact reads_pure.2 ⟨rfl, rfl⟩
  | one hP =>
    obtain ⟨t, us, rfl, ht⟩ := starts hP
    have hlength := congrArg List.length passes.rest
    simp only [List.length_cons, List.length_append] at hlength
    obtain ⟨fuel, rfl⟩ : ∃ m, fuel = m + 1 := ⟨fuel - 1, by omega⟩
    unfold separated
    rw [seesSymbol, reads_sees, if_neg (by simpa [passes.kind] using ht)]
    refine (accepted hs ⟨hP, .inr hk⟩ passes).bind ?_
    rw [eatsSymbol, reads_eats]
    refine .inr ⟨by simpa [hk] using hclose, ?_⟩
    exact reads_pure.2 ⟨rfl, rfl⟩
  | cons hP _ ih =>
    obtain ⟨s₁, hfirst, hrest⟩ := passes.of_append
    obtain ⟨hcurrent, hne, hrest⟩ := hrest.head
    have hcomma : s₁.kind = .symbol .comma := congrArg Token.kind hcurrent
    obtain ⟨t, us, rfl, ht⟩ := starts hP
    have hlength := congrArg List.length passes.rest
    have hlength' := congrArg List.length hrest.rest
    simp only [List.length_cons, List.length_append] at hlength hlength'
    obtain ⟨fuel, rfl⟩ : ∃ m, fuel = m + 1 := ⟨fuel - 1, by omega⟩
    unfold separated
    rw [seesSymbol, reads_sees, if_neg (by simpa [hfirst.kind] using ht)]
    refine (accepted hs ⟨hP, .inl hcomma⟩ hfirst).bind ?_
    rw [eatsSymbol, reads_eats]
    refine .inl ⟨hcomma, ?_⟩
    have htail : (separated close part fuel).Reads s₁.taken _ s' :=
      ih (hs.passes hfirst).taken (by omega) hrest
    exact htail.bind (reads_pure.2 ⟨rfl, rfl⟩)

omit [part.Grows] in
theorem closedBy_complete (starts : Avoids close P) (accepted : part.Accepts n (Apart close P))
    (hclose : close ≠ .comma) (hs : s.Ready n) {span : Span} (listed : Listed P ts as)
    (passes : s.Passes (ts ++ [⟨.symbol close, span⟩]) s') : (closedBy close part).Reads s as s' := by
  obtain ⟨s₁, hlist, hlast⟩ := passes.of_append
  obtain ⟨hcurrent, -, hlast⟩ := hlast.head
  cases hlast
  have hk : s₁.kind = .symbol close := congrArg Token.kind hcurrent
  have hread : (separated close part s.rest.length).Reads s as s₁ :=
    separated_complete starts accepted hclose hs (Nat.le_refl _) listed hlist hk
  unfold closedBy
  rw [reads_get]
  refine hread.bind ?_
  rw [expectSymbol, reads_expect]
  exact ⟨hk, reads_pure.2 ⟨rfl, rfl⟩⟩

/-- A list is read up to the symbol that closes it. -/
theorem Lists.reads_closedBy (h : Lists n close part P) (hclose : close ≠ .comma) (hs : s.Ready n) :
    (closedBy close part).Reads s as s' ↔
      ∃ ts span, Listed P ts as ∧ s.Passes (ts ++ [⟨.symbol close, span⟩]) s' := by
  constructor
  · exact closedBy_sound h.finds hs
  · rintro ⟨ts, span, listed, passes⟩
    exact closedBy_complete h.starts h.accepts hclose hs listed passes

end Listed

/-! ## Beginnings -/

/-- Whatever is written begins with such a token. -/
def Starts (first : Kind → Bool) (P : Phrase α) : Prop :=
  ∀ ⦃ts a⦄, P ts a → ∃ t us, ts = t :: us ∧ first t.kind = true

section Starts

variable {first : Kind → Bool} {P : Phrase α}

theorem Starts.append (h : Starts first P) {ts us : List Token} {a : α} (hP : P ts a) :
    ∃ t vs, ts ++ us = t :: vs ∧ first t.kind = true := by
  obtain ⟨t, vs, rfl, ht⟩ := h hP
  exact ⟨t, vs ++ us, rfl, ht⟩

theorem Starts.ne_nil (h : Starts first P) {ts : List Token} {a : α} (hP : P ts a) : ts ≠ [] := by
  obtain ⟨t, us, rfl, -⟩ := h hP
  exact List.cons_ne_nil t us

theorem Starts.avoids (h : Starts first P) {x : Symbol} (hx : first (.symbol x) = false) :
    Avoids x P := by
  intro ts a hP
  obtain ⟨t, us, rfl, ht⟩ := h hP
  refine ⟨t, us, rfl, fun he => ?_⟩
  rw [he, hx] at ht
  cases ht

theorem starts_operands {joins : Kind → Option (α → α → α)} {P : Bool → Phrase α}
    (h : ∀ reaches, Starts first (P reaches)) (reaches : Bool) :
    Starts first (Operands joins P reaches) := by
  intro ts a hP
  induction hP with
  | one hP => exact h _ hP
  | more _ _ _ ih =>
    obtain ⟨t, us, rfl, ht⟩ := ih
    exact ⟨t, _, rfl, ht⟩

end Starts

/-! ## Names -/

/-- The name that a token is. -/
def nameText? : Kind → Option String
  | .name text => some text
  | _ => none

/-- The name of a member that a token is. -/
def memberText? : Kind → Option String
  | .name text => some text
  | .word w => some w.text
  | _ => none

/-- The key of an entry that a token is. -/
def keyText? : Kind → Option String
  | .string text => some text
  | .number n => some n.text
  | k => memberText? k

section Names

variable {text? : Kind → Option String} {k : Kind} {s s' : State} {a : Name}

theorem reads_text {text : String} (h : text? k = some text) :
    (do return ⟨text, ← take⟩ : Parser Name).Reads s a s' ↔
      ∃ text, text? k = some text ∧ a = ⟨text, s.current.span⟩ ∧ s' = s.taken := by
  rw [reads_take, reads_pure, h]
  simp

theorem reads_no_text {cause : Problem.Cause} (h : text? k = none) :
    (reject cause : Parser Name).Reads s a s' ↔
      ∃ text, text? k = some text ∧ a = ⟨text, s.current.span⟩ ∧ s' = s.taken := by
  simp [not_reads_reject, h]

theorem reads_name : name.Reads s a s' ↔
    ∃ text, nameText? s.kind = some text ∧ a = ⟨text, s.current.span⟩ ∧ s' = s.taken := by
  unfold name
  rw [reads_peek]
  cases s.kind with
  | name text => exact reads_text rfl
  | _ => exact reads_no_text rfl

theorem reads_memberName : memberName.Reads s a s' ↔
    ∃ text, memberText? s.kind = some text ∧ a = ⟨text, s.current.span⟩ ∧ s' = s.taken := by
  unfold memberName
  rw [reads_peek]
  cases s.kind with
  | name text => exact reads_text rfl
  | word w => exact reads_text rfl
  | _ => exact reads_no_text rfl

theorem reads_key : key.Reads s a s' ↔
    ∃ text, keyText? s.kind = some text ∧ a = ⟨text, s.current.span⟩ ∧ s' = s.taken := by
  unfold key
  rw [reads_peek]
  cases hk : s.kind with
  | string text => exact reads_text rfl
  | number n => exact reads_text rfl
  | _ =>
    simp only
    rw [reads_memberName, hk]
    rfl

end Names

/-- A token that has a text writes it. -/
inductive Named (text? : Kind → Option String) : Phrase Name
  | mk {k : Kind} {span : Span} {text : String} (h : text? k = some text) :
    Named text? [⟨k, span⟩] ⟨text, span⟩

theorem nameText?_eq {k : Kind} {text : String} (h : nameText? k = some text) : k = .name text := by
  cases k with
  | name _ =>
    cases h
    rfl
  | _ => cases h

/-- A parser that takes one token which has a text. -/
theorem matches_named {p : Parser Name} {text? : Kind → Option String} (n : Nat)
    (h : ∀ s a s', p.Reads s a s' ↔
      ∃ text, text? s.kind = some text ∧ a = ⟨text, s.current.span⟩ ∧ s' = s.taken)
    (ends : text? .endOfInput = none) : p.Matches n (Free (Named text?)) := by
  constructor
  · intro s a s' _ hreads
    obtain ⟨text, htext, rfl, rfl⟩ := (h s a s').1 hreads
    have hne : s.kind ≠ .endOfInput := by
      intro he
      rw [he, ends] at htext
      cases htext
    exact ⟨_, .mk htext, .taken rfl hne (.nil _)⟩
  · intro s a s' ts _ hnamed passes
    cases hnamed with
    | @mk k span text htext =>
      obtain ⟨hcurrent, -, passes⟩ := passes.head
      cases passes
      have hk : s.kind = k := congrArg Token.kind hcurrent
      exact (h _ _ _).2 ⟨text, by rw [hk]; exact htext, by rw [hcurrent], rfl⟩

theorem lists_name (n : Nat) : Lists n .rightParen name (Named nameText?) where
  starts ts a h := by
    cases h with
    | mk h =>
      refine ⟨_, _, rfl, ?_⟩
      rintro rfl
      cases h
  finds := (matches_named n (fun _ _ _ => reads_name) rfl).finds
  accepts := (matches_named n (fun _ _ _ => reads_name) rfl).accepts.imp fun _ _ _ h => h.1

/-- Names in parentheses. -/
inductive Parameters : Phrase (List Name)
  | mk {ts : List Token} {first last : Span} {ps : List Name} (h : Listed (Named nameText?) ts ps) :
    Parameters (⟨.symbol .leftParen, first⟩ :: (ts ++ [⟨.symbol .rightParen, last⟩])) ps

theorem matches_parameters (n : Nat) : parameters.Matches n (Free Parameters) := by
  constructor
  · intro s ps s' hs h
    rw [parameters, expectSymbol, reads_expect] at h
    obtain ⟨hopen, h⟩ := h
    obtain ⟨ts, last, hlisted, passes⟩ :=
      ((lists_name n).reads_closedBy (by decide) hs.taken).1 h
    exact ⟨_, .mk hlisted, .taken hopen (by decide) passes⟩
  · intro s ps s' ts hs h passes
    cases h with
    | mk hlisted =>
      obtain ⟨hopen, -, passes⟩ := passes.head
      rw [parameters, expectSymbol, reads_expect]
      refine ⟨congrArg Token.kind hopen, ?_⟩
      exact ((lists_name n).reads_closedBy (by decide) hs.taken).2 ⟨_, _, hlisted, passes⟩

/-! ## A name that stands for an entry -/

theorem reads_seesShorthand {f : Bool → Parser β} {s s' : State} {b : β} :
    (seesShorthand >>= f).Reads s b s' ↔
      (f (s.kind.isName && (s.kindAt 1 = .symbol .comma || s.kindAt 1 = .symbol .rightBrace))).Reads
        s b s' :=
  reads_of_on rfl rfl

theorem kindAt_one {s : State} (h : s.kind ≠ .endOfInput) : s.kindAt 1 = s.taken.kind := by
  have hrest := State.rest_eq h
  unfold State.kindAt
  rw [hrest]
  unfold State.kind State.current
  cases s.taken.rest <;> rfl

/-! ## Expressions in brackets and strings -/

/-- What is read where no operator follows. -/
def Ended (rank : Kind → Nat) (P : Phrase α) : Reading α :=
  fun ts a k => P ts a ∧ rank k = 0

/-- An expression that three dots may come before. -/
inductive Items (P : Phrase α) : Phrase (Item α)
  | one {ts : List Token} {a : α} (h : P ts a) : Items P ts (.one a)
  | spread {ts : List Token} {dots : Span} {a : α} (h : P ts a) :
    Items P (⟨.symbol .dotDotDot, dots⟩ :: ts) (.spread a)

/-- Expressions in a string, each with the text after it. -/
inductive Holes (P : Phrase α) : Phrase (List (Piece α))
  | last {ts : List Token} {a : α} {text : String} {start stop final : Span} (h : P ts a) :
    Holes P (⟨.holeStart, start⟩ :: (ts ++ [⟨.holeEnd, stop⟩, ⟨.stringEnd text, final⟩]))
      (.hole a :: textPiece text)
  | more {ts us : List Token} {a : α} {ps : List (Piece α)} {text : String} {start stop next : Span}
    (h : P ts a) (rest : Holes P us ps) :
    Holes P (⟨.holeStart, start⟩ :: (ts ++ ⟨.holeEnd, stop⟩ :: ⟨.stringPart text, next⟩ :: us))
      (.hole a :: textPiece text ++ ps)

section Nested

variable {n : Nat} {rank : Kind → Nat} {expr : Parser α} {P : Phrase α} {close : Symbol}

theorem Finds.free_of_ended (found : expr.Finds n (Ended rank P)) : expr.Finds n (Free P) :=
  found.imp fun _ _ _ h => h.1

/-- Where an expression is read in a list, no operator follows. -/
theorem Accepts.apart (accepted : expr.Accepts n (Ended rank P)) (comma : rank (.symbol .comma) = 0)
    (closes : rank (.symbol close) = 0) : expr.Accepts n (Apart close P) := by
  refine accepted.imp fun ts a k ⟨h, follows⟩ => ⟨h, ?_⟩
  obtain hk | hk := follows
  · rw [hk, comma]
  · rw [hk, closes]

theorem Finds.item [expr.Grows] (found : expr.Finds n (Free P)) :
    (item expr).Finds n (Free (Items P)) := by
  intro s a s' hs h
  unfold Parser.item at h
  rw [eatsSymbol, reads_eats] at h
  obtain ⟨hk, h⟩ | ⟨-, h⟩ := h
  · rw [if_pos rfl, reads_bind] at h
    obtain ⟨a', s₁, ha, h⟩ := h
    obtain ⟨rfl, rfl⟩ := reads_pure.1 h
    obtain ⟨ts, hP, passes⟩ := found hs.taken ha
    exact ⟨_, .spread hP, .taken hk (by decide) passes⟩
  · rw [if_neg Bool.false_ne_true, reads_bind] at h
    obtain ⟨a', s₁, ha, h⟩ := h
    obtain ⟨rfl, rfl⟩ := reads_pure.1 h
    obtain ⟨ts, hP, passes⟩ := found hs ha
    exact ⟨ts, .one hP, passes⟩

theorem Accepts.item (accepted : expr.Accepts n (Apart close P)) (starts : Avoids .dotDotDot P) :
    (item expr).Accepts n (Apart close (Items P)) := by
  intro s a s' ts hs ⟨h, follows⟩ passes
  unfold Parser.item
  rw [eatsSymbol, reads_eats]
  cases h with
  | one h =>
    obtain ⟨t, us, rfl, ht⟩ := starts h
    refine .inr ⟨by rwa [passes.kind], ?_⟩
    exact (accepted hs ⟨h, follows⟩ passes).bind (reads_pure.2 ⟨rfl, rfl⟩)
  | spread h =>
    obtain ⟨hcurrent, -, passes⟩ := passes.head
    refine .inl ⟨congrArg Token.kind hcurrent, ?_⟩
    exact (accepted hs.taken ⟨h, follows⟩ passes).bind (reads_pure.2 ⟨rfl, rfl⟩)

theorem Avoids.items (h : Avoids close P) (hclose : close ≠ .dotDotDot) : Avoids close (Items P) := by
  intro ts a hitem
  cases hitem with
  | one hP => exact h hP
  | spread hP => exact ⟨_, _, rfl, by simpa using hclose.symm⟩

variable (matched : expr.Matches n (Ended rank P))

include matched in
theorem Matches.lists (comma : rank (.symbol .comma) = 0) (closes : rank (.symbol close) = 0)
    (starts : Avoids close P) : Lists n close expr P :=
  ⟨starts, matched.finds.free_of_ended, matched.accepts.apart comma closes⟩

include matched in
theorem Matches.lists_item [expr.Grows] (comma : rank (.symbol .comma) = 0)
    (closes : rank (.symbol close) = 0) (hclose : close ≠ .dotDotDot) (starts : Avoids close P)
    (dots : Avoids .dotDotDot P) : Lists n close (item expr) (Items P) :=
  ⟨starts.items hclose, matched.finds.free_of_ended.item,
    (matched.accepts.apart comma closes).item dots⟩

end Nested

section Holes

variable {n : Nat} {rank : Kind → Nat} {expr : Parser α} {P : Phrase α} {cause : Problem.Cause}
  {fuel : Nat} {ts : List Token} {ps : List (Piece α)} {s s' : State}

/-- What comes after an expression in a string. -/
def holeRest (more : Parser (List (Piece α))) (cause : Problem.Cause) (e : α) :
    Parser (List (Piece α)) := do
  expect .holeEnd
  match ← peek with
  | .stringPart s =>
    let _ ← take
    return .hole e :: textPiece s ++ (← more)
  | .stringEnd s =>
    let _ ← take
    return .hole e :: textPiece s
  | _ => reject cause

theorem holes_succ (expr : Parser α) (cause : Problem.Cause) (fuel : Nat) :
    holes expr cause (fuel + 1) = (do
      expect .holeStart
      holeRest (holes expr cause fuel) cause (← expr)) := rfl

instance {more : Parser (List (Piece α))} [more.Grows] (e : α) : (holeRest more cause e).Grows := by
  unfold holeRest
  refine .bind inferInstance fun _ => .bind inferInstance fun k => ?_
  split <;> infer_instance

theorem reads_holeRest {more : Parser (List (Piece α))} [more.Grows] {e : α} :
    (holeRest more cause e).Reads s ps s' ↔ s.kind = .holeEnd ∧
      ((∃ text, s.taken.kind = .stringEnd text ∧ ps = .hole e :: textPiece text ∧
        s' = s.taken.taken) ∨
      ∃ text qs, s.taken.kind = .stringPart text ∧ more.Reads s.taken.taken qs s' ∧
        ps = .hole e :: textPiece text ++ qs) := by
  unfold holeRest
  rw [reads_expect, reads_peek]
  refine and_congr_right fun _ => ?_
  cases s.taken.kind with
  | stringEnd text =>
    simp only
    rw [reads_take, reads_pure]
    simp
  | stringPart text =>
    simp only
    rw [reads_take, reads_bind]
    simp [reads_pure]
  | _ => simp [not_reads_reject]

theorem holes_sound [expr.Grows] (found : expr.Finds n (Free P)) (hs : s.Ready n)
    (h : (holes expr cause fuel).Reads s ps s') : ∃ ts, Holes P ts ps ∧ s.Passes ts s' := by
  induction fuel generalizing s ps with
  | zero => exact absurd h not_reads_reject
  | succ fuel ih =>
    rw [holes_succ, reads_expect, reads_bind] at h
    obtain ⟨hstart, a, s₁, ha, h⟩ := h
    obtain ⟨ts, hP, passes⟩ := found hs.taken ha
    obtain ⟨hstop, ⟨text, hk, rfl, rfl⟩ | ⟨text, qs, hk, hmore, rfl⟩⟩ := reads_holeRest.1 h
    · have hlast := State.Passes.taken hstop (by decide) (.taken hk (by simp) (.nil _))
      exact ⟨_, .last hP, .taken hstart (by decide) (passes.append hlast)⟩
    · obtain ⟨us, hus, passes'⟩ := ih (hs.taken.passes passes).taken.taken hmore
      have hnext := State.Passes.taken hstop (by decide) (.taken hk (by simp) passes')
      exact ⟨_, .more hP hus, .taken hstart (by decide) (passes.append hnext)⟩

theorem holes_complete [expr.Grows] (accepted : expr.Accepts n (Ended rank P))
    (stops : rank .holeEnd = 0) (hs : s.Ready n) (hfuel : s.rest.length < fuel) (h : Holes P ts ps)
    (passes : s.Passes ts s') : (holes expr cause fuel).Reads s ps s' := by
  obtain ⟨fuel, rfl⟩ : ∃ m, fuel = m + 1 := ⟨fuel - 1, by omega⟩
  induction h generalizing s fuel with
  | last hP =>
    obtain ⟨hstart, -, passes⟩ := passes.head
    obtain ⟨s₁, hfirst, hlast⟩ := passes.of_append
    obtain ⟨hstop, -, hlast⟩ := hlast.head
    obtain ⟨hend, -, hlast⟩ := hlast.head
    cases hlast
    have hstop : s₁.kind = .holeEnd := congrArg Token.kind hstop
    rw [holes_succ, reads_expect]
    refine ⟨congrArg Token.kind hstart, ?_⟩
    refine (accepted hs.taken ⟨hP, by rw [hstop, stops]⟩ hfirst).bind ?_
    exact reads_holeRest.2 ⟨hstop, .inl ⟨_, congrArg Token.kind hend, rfl, rfl⟩⟩
  | more hP _ ih =>
    have hlength := congrArg List.length passes.rest
    obtain ⟨hstart, -, passes⟩ := passes.head
    obtain ⟨s₁, hfirst, hlast⟩ := passes.of_append
    obtain ⟨hstop, -, hlast⟩ := hlast.head
    obtain ⟨hnext, -, hlast⟩ := hlast.head
    have hstop : s₁.kind = .holeEnd := congrArg Token.kind hstop
    have hlength' := congrArg List.length hlast.rest
    simp only [List.length_cons, List.length_append] at hlength hlength'
    obtain ⟨fuel, rfl⟩ : ∃ m, fuel = m + 1 := ⟨fuel - 1, by omega⟩
    rw [holes_succ, reads_expect]
    refine ⟨congrArg Token.kind hstart, ?_⟩
    refine (accepted hs.taken ⟨hP, by rw [hstop, stops]⟩ hfirst).bind ?_
    refine reads_holeRest.2 ⟨hstop, .inr ⟨_, _, congrArg Token.kind hnext, ?_, rfl⟩⟩
    exact ih (hs.taken.passes hfirst).taken.taken hlast fuel (by omega)

/-- What is read of a string whose first text has been taken. -/
theorem pieces_sound [expr.Grows] (found : expr.Finds n (Free P)) (hs : s.Ready n) {first : String}
    (h : (pieces first expr cause).Reads s ps s') :
    ∃ ts qs, Holes P ts qs ∧ ps = textPiece first ++ qs ∧ s.Passes ts s' := by
  unfold pieces at h
  rw [reads_get, reads_bind] at h
  obtain ⟨qs, s₁, h, hpure⟩ := h
  obtain ⟨rfl, rfl⟩ := reads_pure.1 hpure
  obtain ⟨ts, hholes, passes⟩ := holes_sound found hs h
  exact ⟨ts, qs, hholes, rfl, passes⟩

theorem pieces_complete [expr.Grows] (accepted : expr.Accepts n (Ended rank P))
    (stops : rank .holeEnd = 0) (hs : s.Ready n) {first : String} (h : Holes P ts ps)
    (passes : s.Passes ts s') : (pieces first expr cause).Reads s (textPiece first ++ ps) s' := by
  have hread : (holes expr cause s.rest.length.succ).Reads s ps s' :=
    holes_complete accepted stops hs (Nat.lt_succ_self _) h passes
  unfold pieces
  rw [reads_get]
  exact hread.bind (reads_pure.2 ⟨rfl, rfl⟩)

end Holes

end Parser
end Workbook
