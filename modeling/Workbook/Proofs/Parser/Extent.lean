/-
Where the trees lie that parsers build.

The tokens ahead of a parser lie one after the other, behind the token taken last, and a parser only
goes on (`State.Onward`), also where it fails.  So what it builds lies between the token that was ahead
at first and the token taken last (`Orderly`).
-/
import Workbook.Proofs.Parser.Reading
import Workbook.Proofs.Syntax
import Workbook.Proofs.Token.Extent

namespace Workbook
namespace Parser

open Token (Kind Keyword Symbol)

variable {α β : Type}

/-! ## States -/

/-- The tokens ahead are in order behind the token taken last, and the problems are at sound spans. -/
structure State.InOrder (src : Source) (s : State) : Prop where
  previous : src.Sound s.previous
  ahead : Token.Ordered src s.previous s.rest
  problems : s.problems.Sound src

/-- The second state is in order and not before the first one. -/
structure State.Onward (src : Source) (s s' : State) : Prop where
  inOrder : s'.InOrder src
  current_le : s.current.span.start ≤ s'.current.span.start
  current_stop_le : s.current.span.stop ≤ s'.current.span.stop
  first_le : s.previous.start ≤ s'.previous.start
  last_le : s.previous.stop ≤ s'.previous.stop

namespace State

variable {src : Source} {s s' s₁ : State}

/-- The token that is taken is the one taken last; at the end of the tokens there is no other one. -/
@[grind =] theorem taken_previous (s : State) : s.taken.previous = s.current.span := by
  unfold taken current
  cases s.rest <;> rfl

namespace InOrder

theorem current (h : s.InOrder src) : src.Sound s.current.span := by
  have hahead := h.ahead
  unfold State.current
  cases hrest : s.rest with
  | nil => exact h.previous
  | cons t rest =>
    rw [hrest] at hahead
    exact hahead.sound List.mem_cons_self

/-- The token taken last ends before the token ahead. -/
theorem stop_le (h : s.InOrder src) : s.previous.stop ≤ s.current.span.start := by
  have hahead := h.ahead
  unfold State.current
  cases hrest : s.rest with
  | nil =>
    rw [hrest] at hahead
    cases hahead with
    | nil hempty => exact Nat.le_of_eq hempty.symm
  | cons t rest =>
    rw [hrest] at hahead
    cases hahead with
    | cons hle => exact hle

theorem onward (h : s.InOrder src) : s.Onward src s :=
  ⟨h, Nat.le_refl _, Nat.le_refl _, Nat.le_refl _, Nat.le_refl _⟩

theorem taken (h : s.InOrder src) : s.Onward src s.taken := by
  have hprevious := s.taken_previous
  have hcurrent := h.current
  have hle := h.stop_le
  have hprevious_le := h.previous.le
  have hcurrent_le := hcurrent.le
  have hahead : Token.Ordered src s.taken.previous s.taken.rest := by
    obtain ⟨rest, previous, problems, depth, loops⟩ := s
    cases rest with
    | nil => exact h.ahead
    | cons t rest =>
      cases h.ahead with
      | cons _ _ hahead => exact hahead
  have htaken : s.taken.InOrder src :=
    ⟨hprevious ▸ hcurrent, hahead, s.taken_problems ▸ h.problems⟩
  have hstop := htaken.stop_le
  have hnext_le := htaken.current.le
  rw [hprevious] at hstop
  refine ⟨htaken, by omega, by omega, ?_, ?_⟩
  · rw [hprevious]
    omega
  · rw [hprevious]
    omega

theorem reporting (h : s.InOrder src) {span : Span} (hspan : src.Sound span)
    (cause : Problem.Cause) :
    s.Onward src { s with problems := s.problems.push ⟨cause, span⟩ } :=
  ⟨⟨h.previous, h.ahead, h.problems.push hspan⟩, Nat.le_refl _, Nat.le_refl _, Nat.le_refl _,
    Nat.le_refl _⟩

end InOrder

theorem Onward.trans (h : s.Onward src s₁) (h' : s₁.Onward src s') : s.Onward src s' :=
  ⟨h'.inOrder, Nat.le_trans h.current_le h'.current_le,
    Nat.le_trans h.current_stop_le h'.current_stop_le, Nat.le_trans h.first_le h'.first_le,
    Nat.le_trans h.last_le h'.last_le⟩

end State

/-! ## Where parsers lead -/

/-- A parser goes on from a state, and of its result and the state then something is known. -/
structure Leads (src : Source) (s : State) (p : Parser α) (Q : α → State → Prop) : Prop where
  onward : s.Onward src (p.on s).2
  result : ∀ a, (p.on s).1 = some a → Q a (p.on s).2

namespace Leads

variable {src : Source} {s : State} {p q : Parser α} {f : α → Parser β} {Q Q' : α → State → Prop}
  {R : β → State → Prop}

theorem mono (h : Leads src s p Q) (hQ : ∀ a s', s.Onward src s' → Q a s' → Q' a s') :
    Leads src s p Q' :=
  ⟨h.onward, fun a ha => hQ a _ h.onward (h.result a ha)⟩

theorem of_on (h : Leads src s q Q) (hon : p.on s = q.on s) : Leads src s p Q := by
  constructor
  · rw [hon]
    exact h.onward
  · intro a ha
    rw [hon] at ha ⊢
    exact h.result a ha

theorem pure (hs : s.InOrder src) {a : α} (h : Q a s) : Leads src s (pure a) Q :=
  ⟨hs.onward, fun _ ha => by cases ha; exact h⟩

/-- What is made of two parts goes on by both. -/
theorem bind (h : Leads src s p Q)
    (hf : ∀ a s₁, s.Onward src s₁ → Q a s₁ → Leads src s₁ (f a) R) : Leads src s (p >>= f) R := by
  cases hp : (p.on s).1 with
  | none =>
    have hon : (p >>= f).on s = (Option.none, (p.on s).2) := by rw [on_bind, hp]; rfl
    constructor
    · rw [hon]
      exact h.onward
    · intro a ha
      rw [hon] at ha
      cases ha
  | some a =>
    have hon : (p >>= f).on s = (f a).on (p.on s).2 := by rw [on_bind, hp]; rfl
    have hrest := hf a _ h.onward (h.result a hp)
    constructor
    · rw [hon]
      exact h.onward.trans hrest.onward
    · intro b hb
      rw [hon] at hb ⊢
      exact hrest.result b hb

theorem map {g : α → β} (h : Leads src s p fun a s' => R (g a) s') : Leads src s (g <$> p) R := by
  have hbind : g <$> p = p >>= fun a => Pure.pure (g a) := map_eq_pure_bind g p
  rw [hbind]
  exact h.bind fun a s₁ h₁ ha => .pure h₁.inOrder ha

theorem ite {c : Prop} [Decidable c] (hp : c → Leads src s p Q) (hq : ¬ c → Leads src s q Q) :
    Leads src s (if c then p else q) Q := by
  split
  · exact hp (by assumption)
  · exact hq (by assumption)

theorem attempt (h : Leads src s p Q) :
    Leads src s (attempt p) fun o s' => ∀ a, o = some a → Q a s' :=
  ⟨h.onward, fun o ho a ha => h.result a (by cases ho; exact ha)⟩

end Leads

/-! ## What is known of the places -/

namespace State

variable {src : Source} {s s' : State}

@[grind →] theorem InOrder.bounds (h : s.InOrder src) :
    s.previous.start ≤ s.previous.stop ∧ s.previous.stop ≤ s.current.span.start ∧
      s.current.span.start ≤ s.current.span.stop :=
  ⟨h.previous.le, h.stop_le, h.current.le⟩

@[grind →] theorem Onward.bounds (h : s.Onward src s') :
    s'.InOrder src ∧ s.current.span.start ≤ s'.current.span.start ∧
      s.current.span.stop ≤ s'.current.span.stop ∧ s.previous.start ≤ s'.previous.start ∧
      s.previous.stop ≤ s'.previous.stop :=
  ⟨h.inOrder, h.current_le, h.current_stop_le, h.first_le, h.last_le⟩

end State

/-! ## Looking and taking -/

section Taking

variable {src : Source} {s : State} {Q : α → State → Prop}

theorem leads_peek {f : Kind → Parser α} (h : Leads src s (f s.kind) Q) :
    Leads src s (peek >>= f) Q :=
  h.of_on rfl

theorem leads_here {f : Span → Parser α} (h : Leads src s (f s.current.span) Q) :
    Leads src s (here >>= f) Q :=
  h.of_on rfl

theorem leads_shorthand {f : Bool → Parser α} (h : ∀ b, Leads src s (f b) Q) :
    Leads src s (seesShorthand >>= f) Q :=
  (h _).of_on rfl

theorem leads_get {f : State → Parser α} (h : Leads src s (f s) Q) : Leads src s (get >>= f) Q :=
  h.of_on rfl

theorem leads_sees {k : Kind} {f : Bool → Parser α} (h : Leads src s (f (s.kind = k)) Q) :
    Leads src s (sees k >>= f) Q :=
  h.of_on rfl

theorem leads_since {first : Span} {f : Span → Parser α}
    (h : Leads src s (f (first.merge s.previous)) Q) : Leads src s (since first >>= f) Q :=
  h.of_on rfl

/-- A parser that has gone on to a state goes on from there. -/
theorem leads_from {s₁ : State} {p q : Parser α} (hs : s.Onward src s₁) (hon : p.on s = q.on s₁)
    (h : Leads src s₁ q Q) : Leads src s p Q := by
  constructor
  · rw [hon]
    exact hs.trans h.onward
  · intro a ha
    rw [hon] at ha ⊢
    exact h.result a ha

theorem leads_take {f : Span → Parser α} (hs : s.InOrder src)
    (h : s.Onward src s.taken → Leads src s.taken (f s.current.span) Q) :
    Leads src s (take >>= f) Q :=
  leads_from hs.taken rfl (h hs.taken)

theorem leads_eats {k : Kind} {f : Bool → Parser α} (hs : s.InOrder src)
    (htrue : s.Onward src s.taken → Leads src s.taken (f true) Q) (hfalse : Leads src s (f false) Q) :
    Leads src s (eats k >>= f) Q := by
  have hon : (eats k >>= f).on s = if s.kind = k then (f true).on s.taken else (f false).on s := by
    rw [on_bind, on_eats]
    split <;> rfl
  by_cases hk : s.kind = k
  · rw [if_pos hk] at hon
    exact leads_from hs.taken hon (htrue hs.taken)
  · rw [if_neg hk] at hon
    exact hfalse.of_on hon

/-- A problem is reported at a sound span. -/
theorem leads_reportAt {span : Span} {f : Unit → Parser α} (hs : s.InOrder src)
    (hspan : src.Sound span) (cause : Problem.Cause)
    (h : ∀ s₁, s.Onward src s₁ → s₁.previous = s.previous → s₁.rest = s.rest →
      Leads src s₁ (f ()) Q) : Leads src s (reportAt cause span >>= f) Q :=
  leads_from (hs.reporting hspan cause) rfl (h _ (hs.reporting hspan cause) rfl rfl)

theorem leads_report {f : Unit → Parser α} (hs : s.InOrder src) (cause : Problem.Cause)
    (h : ∀ s₁, s.Onward src s₁ → s₁.previous = s.previous → s₁.rest = s.rest →
      Leads src s₁ (f ()) Q) : Leads src s (report cause >>= f) Q :=
  leads_from (hs.reporting hs.current cause) rfl (h _ (hs.reporting hs.current cause) rfl rfl)

theorem leads_reject (hs : s.InOrder src) (cause : Problem.Cause) :
    Leads src s (reject cause) Q :=
  ⟨hs.reporting hs.current cause, fun _ ha => by cases ha⟩

theorem leads_expect {k : Kind} {f : Unit → Parser α} (hs : s.InOrder src)
    (h : s.Onward src s.taken → Leads src s.taken (f ()) Q) : Leads src s (expect k >>= f) Q := by
  by_cases hk : s.kind = k
  · have hon : (expect k >>= f).on s = (f ()).on s.taken := by
      rw [on_bind, on_expect, if_pos hk]
      rfl
    exact leads_from hs.taken hon (h hs.taken)
  · have hon : (expect k >>= f).on s = (reject (.expectedToken k s.kind)).on s := by
      rw [on_bind, on_expect, if_neg hk]
      rfl
    exact (leads_reject hs _).of_on hon

end Taking

/-! ## Names -/

/-- The parser takes a token as a name, or gives up. -/
def TakesName (p : Parser Name) : Prop :=
  ∀ s : State, (∃ text, p.on s = (some ⟨text, s.current.span⟩, s.taken)) ∨
    ∃ cause, p.on s = (reject cause : Parser Name).on s

theorem name_on (s : State) : name.on s = (match s.kind with
    | .name text => (return ⟨text, ← take⟩ : Parser Name)
    | got => reject (.expectedName got)).on s := rfl

theorem memberName_on (s : State) : memberName.on s = (match s.kind with
    | .name text => (return ⟨text, ← take⟩ : Parser Name)
    | .word w => return ⟨w.text, ← take⟩
    | got => reject (.expectedProperty got)).on s := rfl

theorem key_on (s : State) : key.on s = (match s.kind with
    | .string s => (return ⟨s, ← take⟩ : Parser Name)
    | .number n => return ⟨n.text, ← take⟩
    | _ => memberName).on s := rfl

theorem takesName_name : TakesName name := by
  intro s
  rw [name_on]
  split
  · exact .inl ⟨_, rfl⟩
  · exact .inr ⟨_, rfl⟩

theorem takesName_memberName : TakesName memberName := by
  intro s
  rw [memberName_on]
  split
  · exact .inl ⟨_, rfl⟩
  · exact .inl ⟨_, rfl⟩
  · exact .inr ⟨_, rfl⟩

theorem takesName_key : TakesName key := by
  intro s
  rw [key_on]
  split
  · exact .inl ⟨_, rfl⟩
  · exact .inl ⟨_, rfl⟩
  · exact takesName_memberName s

section Names

variable {src : Source} {s : State} {Q : α → State → Prop}

theorem leads_named {p : Parser Name} {f : Name → Parser α} (hp : TakesName p) (hs : s.InOrder src)
    (h : ∀ text, s.Onward src s.taken → Leads src s.taken (f ⟨text, s.current.span⟩) Q) :
    Leads src s (p >>= f) Q := by
  rcases hp s with ⟨text, htext⟩ | ⟨cause, hcause⟩
  · have hon : (p >>= f).on s = (f ⟨text, s.current.span⟩).on s.taken := by
      rw [on_bind, htext]
      rfl
    exact leads_from hs.taken hon (h text hs.taken)
  · have hon : (p >>= f).on s = (reject cause).on s := by
      rw [on_bind, hcause]
      rfl
    exact (leads_reject hs cause).of_on hon

/-- A node that a token stands for. -/
theorem within_taken [Single β] {b : β} (hs : s.InOrder src) (hspan : (node b).span = s.current.span)
    (hchildren : (node b).children = []) :
    Within src s.current.span.start s.taken.previous.stop b := by
  refine .of_placed (.intro (hspan ▸ hs.current) (hspan ▸ Nat.le_refl _) ?_ ?_)
  · exact Nat.le_of_eq (by rw [hspan, s.taken_previous])
  · rw [hchildren]
    exact fun _ hc => by cases hc

/-- A node from the token that was ahead to the token taken last. -/
theorem within_since [Single β] {b : β} {s' : State} (hs : s.InOrder src) (hs' : s'.InOrder src)
    (hstart : s.current.span.start ≤ s'.previous.start)
    (hstop : s.current.span.stop ≤ s'.previous.stop)
    (hspan : (node b).span = s.current.span.merge s'.previous)
    (hchildren : ∀ c ∈ (node b).children, Placed src s.current.span.start s'.previous.stop c) :
    Within src s.current.span.start s'.previous.stop b :=
  .of_placed (.merge hspan hs.current hs'.previous ⟨Nat.le_refl _, hstart⟩ ⟨hstop, Nat.le_refl _⟩
    hchildren)

end Names

/-! ## Parsers of trees -/

/-- What the parser builds lies between the token that was ahead and the token taken last. -/
def Orderly [Parts α] (src : Source) (p : Parser α) : Prop :=
  ∀ s : State, s.InOrder src →
    Leads src s p fun a s' => Within src s.current.span.start s'.previous.stop a

/-- The states differ in the counts of what is open at most. -/
structure State.Alike (s s' : State) : Prop where
  rest : s'.rest = s.rest
  previous : s'.previous = s.previous
  problems : s'.problems = s.problems

theorem State.InOrder.alike {src : Source} {s s' : State} (h : s.InOrder src) (halike : s.Alike s') :
    s.Onward src s' := by
  obtain ⟨rest, previous, problems, depth, loops⟩ := s
  obtain ⟨rest', previous', problems', depth', loops'⟩ := s'
  obtain ⟨rfl, rfl, rfl⟩ := halike
  exact ⟨⟨h.previous, h.ahead, h.problems⟩, Nat.le_refl _, Nat.le_refl _, Nat.le_refl _,
    Nat.le_refl _⟩

namespace Orderly

variable [Parts α] {src : Source} {p : Parser α}

/-- What a parser builds while the counts of what is open are changed. -/
theorem around (hp : Orderly src p) {q : Parser α} {s : State} {f g : State → State}
    (hon : q.on s = ((p.on (f s)).1, g (p.on (f s)).2)) (hf : s.Alike (f s))
    (hg : ∀ s' : State, s'.Alike (g s')) (hs : s.InOrder src) :
    Leads src s q fun a s' => Within src s.current.span.start s'.previous.stop a := by
  have hfirst := hs.alike hf
  have hleads := hp (f s) hfirst.inOrder
  have hlast := hleads.onward.inOrder.alike (hg _)
  constructor
  · rw [hon]
    exact hfirst.trans (hleads.onward.trans hlast)
  · intro a ha
    rw [hon] at ha ⊢
    exact (hleads.result a ha).mono hfirst.current_le hlast.last_le

theorem map [Parts β] {f : α → β} (hf : ∀ lo hi a, Within src lo hi a → Within src lo hi (f a))
    (hp : Orderly src p) : Orderly src (f <$> p) :=
  fun s hs => ((hp s hs).mono fun a _ _ ha => hf _ _ a ha).map

theorem nested (hp : Orderly src p) : Orderly src (nested p) := by
  intro s hs
  by_cases hdepth : maxNesting ≤ s.depth
  · have hon := on_nested p s
    rw [if_pos hdepth] at hon
    exact (leads_reject hs (.tooDeep maxNesting)).of_on hon
  · have hon := on_nested p s
    rw [if_neg hdepth] at hon
    exact hp.around hon ⟨rfl, rfl, rfl⟩ (fun _ => ⟨rfl, rfl, rfl⟩) hs

theorem name : Orderly src name := by
  intro s hs
  rw [← bind_pure Parser.name]
  exact leads_named takesName_name hs fun text h₁ => .pure h₁.inOrder (within_taken hs rfl rfl)

theorem separated (hp : Orderly src p) (close : Symbol) (fuel : Nat) :
    Orderly src (separated close p fuel) := by
  induction fuel with
  | zero => exact fun s hs => .pure hs .nil
  | succ fuel ih =>
    intro s hs
    refine leads_sees (.ite (fun _ => .pure hs .nil) fun _ => ?_)
    refine (hp s hs).bind fun first s₁ h₁ hfirst => ?_
    refine leads_eats h₁.inOrder (fun h₂ => ?_) (.pure h₁.inOrder (.cons hfirst .nil))
    refine (ih s₁.taken h₂.inOrder).bind fun rest s₃ h₃ hrest => .pure h₃.inOrder ?_
    exact .cons (hfirst.mono (by grind) (by grind)) (hrest.mono (by grind) (by grind))

theorem closedBy (hp : Orderly src p) (close : Symbol) : Orderly src (closedBy close p) := by
  intro s hs
  refine leads_get ((hp.separated close _ s hs).bind fun parts s₁ h₁ hparts => ?_)
  refine leads_expect h₁.inOrder fun h₂ => .pure h₂.inOrder ?_
  exact hparts.mono (by grind) (by grind)

theorem parameters : Orderly src parameters := by
  intro s hs
  refine leads_expect hs fun h₁ => (name.closedBy _ _ h₁.inOrder).mono fun names s₂ h₂ hnames => ?_
  exact hnames.mono (by grind) (by grind)

theorem item (hp : Orderly src p) : Orderly src (item p) := by
  intro s hs
  refine leads_eats hs (fun h₁ => ?_) ?_
  · refine (hp s.taken h₁.inOrder).bind fun a s₂ h₂ ha => .pure h₂.inOrder ?_
    exact ha.mono (by grind) (by grind)
  · exact (hp s hs).bind fun a s₁ h₁ ha => .pure h₁.inOrder ha

theorem within_textPiece {lo hi : Nat} (s : String) :
    Within src lo hi (textPiece s : List (Piece α)) := by
  unfold textPiece
  split
  · exact .nil
  · exact .cons (fun _ hn => by cases hn) .nil

theorem holes (hp : Orderly src p) (cause : Problem.Cause) (fuel : Nat) :
    Orderly src (holes p cause fuel) := by
  induction fuel with
  | zero => exact fun s hs => leads_reject hs cause
  | succ fuel ih =>
    intro s hs
    refine leads_expect hs fun h₁ => (hp _ h₁.inOrder).bind fun e s₂ h₂ he => ?_
    refine leads_expect h₂.inOrder fun h₃ => leads_peek ?_
    split
    · refine leads_take h₃.inOrder fun h₄ => (ih _ h₄.inOrder).bind fun rest s₅ h₅ hrest => ?_
      refine .pure h₅.inOrder ((Within.hole ?_).cons (.append (within_textPiece _) ?_))
      · exact he.mono (by grind) (by grind)
      · exact hrest.mono (by grind) (by grind)
    · refine leads_take h₃.inOrder fun h₄ => .pure h₄.inOrder ((Within.hole ?_).cons ?_)
      · exact he.mono (by grind) (by grind)
      · exact within_textPiece _
    · exact leads_reject h₃.inOrder _

theorem pieces (hp : Orderly src p) (first : String) (cause : Problem.Cause) :
    Orderly src (pieces first p cause) := by
  intro s hs
  refine leads_get ((hp.holes cause _ s hs).bind fun tail s₁ h₁ htail => .pure h₁.inOrder ?_)
  exact .append (within_textPiece _) htail

end Orderly

/-! ## Nodes -/

section Nodes

variable {src : Source} {s : State}

/-- A node that a token stands for. -/
theorem leads_leaf [Single α] {f : Span → α}
    (hf : ∀ span, (node (f span)).span = span ∧ (node (f span)).children = [])
    (hs : s.InOrder src) : Leads src s (do return f (← take))
      fun a s' => Within src s.current.span.start s'.previous.stop a :=
  leads_take hs fun h₁ => .pure h₁.inOrder (within_taken hs (hf _).1 (hf _).2)

/-- A node from a token up to the end of what comes after it. -/
theorem leads_enclosed [Single α] [Parts β] {p : Parser β} {f : Span → β → α}
    (hf : ∀ span b, (node (f span b)).span = span ∧ (node (f span b)).children = nodes b)
    (hp : Orderly src p) (hs : s.InOrder src) :
    Leads src s (do let first ← take; let b ← p; return f (← since first) b)
      fun a s' => Within src s.current.span.start s'.previous.stop a := by
  refine leads_take hs fun h₁ => (hp _ h₁.inOrder).bind fun b s₂ h₂ hb => ?_
  obtain ⟨hspan, hchildren⟩ := hf (s.current.span.merge s₂.previous) b
  refine leads_since (.pure h₂.inOrder (within_since hs h₂.inOrder (by grind) (by grind) hspan ?_))
  rw [hchildren]
  exact hb.mono (by grind) (Nat.le_refl _)

end Nodes

/-! ## Operators -/

/-- What is joined lies where its operands lie, one after the other. -/
def Joins [Parts α] (src : Source) (join : α → α → α) : Prop :=
  ∀ ⦃lo m hi : Nat⦄ ⦃a b : α⦄, Within src lo m a → Within src m hi b → Within src lo hi (join a b)

/-- What joins two operands covers both. -/
theorem joins_merge [Single α] {src : Source} {f : Span → α → α → α}
    (hf : ∀ span a b, (node (f span a b)).span = span ∧
      (node (f span a b)).children = nodes a ++ nodes b) :
    Joins src fun a b => f ((node a).span.merge (node b).span) a b := by
  intro lo m hi a b ha hb
  obtain ⟨hspan, hchildren⟩ := hf ((node a).span.merge (node b).span) a b
  obtain ⟨hm, -, hhi⟩ := hb.bounds
  exact ha.after hb.sound hm hhi hspan hchildren (hb.self.mono hm (Nat.le_refl _))

/-- The parser yields how to join operands, if it yields something. -/
def YieldsJoins [Parts α] (src : Source) (next : Parser (Option (α → α → α))) : Prop :=
  ∀ s : State, s.InOrder src → Leads src s next fun o _ => ∀ join, o = some join → Joins src join

section Operators

variable [Parts α] {src : Source} {next : Parser (Option (α → α → α))} {p : Parser α}

theorem leads_chain (hnext : YieldsJoins src next) (hp : Orderly src p) (fuel : Nat) {s : State}
    (hs : s.InOrder src) {lo : Nat} {left : α} (hleft : Within src lo s.previous.stop left) :
    Leads src s (chain next p fuel left) fun a s' => Within src lo s'.previous.stop a := by
  induction fuel generalizing s left with
  | zero => exact .pure hs hleft
  | succ fuel ih =>
    refine (hnext s hs).bind fun o s₁ h₁ hjoin => ?_
    cases o with
    | none => exact .pure h₁.inOrder (hleft.mono (Nat.le_refl _) h₁.last_le)
    | some join =>
      refine (hp s₁ h₁.inOrder).bind fun right s₂ h₂ hright => ih h₂.inOrder ?_
      refine hjoin join rfl (m := s₁.previous.stop) ?_ ?_
      · exact hleft.mono (Nat.le_refl _) h₁.last_le
      · exact hright.mono h₁.inOrder.stop_le (Nat.le_refl _)

theorem Orderly.operands (hnext : YieldsJoins src next) (hp : Orderly src p) :
    Orderly src (operands next p) := by
  intro s hs
  refine (hp s hs).bind fun left s₁ h₁ hleft => leads_get ?_
  exact leads_chain hnext hp _ h₁.inOrder hleft

/-- What is taken for an operator is in the table. -/
theorem leads_operator {β : Type} {s : State} (hs : s.InOrder src) (table : Symbol → Option β) :
    Leads src s (operator table) fun o _ => ∀ b, o = some b → ∃ sym, table sym = some b := by
  refine leads_peek ?_
  split
  · rename_i sym _
    split
    · rename_i b hb
      refine leads_take hs fun h₁ => .pure h₁.inOrder fun b' hb' => ⟨sym, ?_⟩
      rw [hb]
      exact hb'
    · exact .pure hs fun _ h => by cases h
  · exact .pure hs fun _ h => by cases h

/-- The operators of a table, which join operands. -/
theorem yieldsJoins_map {β : Type} (table : Symbol → Option β) {join : β → α → α → α}
    (hjoin : ∀ b, Joins src (join b)) : YieldsJoins src (do return (← operator table).map join) := by
  intro s hs
  refine (leads_operator hs table).bind fun o s₁ h₁ _ => .pure h₁.inOrder fun j hj => ?_
  obtain ⟨b, -, rfl⟩ := Option.map_eq_some_iff.1 hj
  exact hjoin b

end Operators

end Parser
end Workbook
