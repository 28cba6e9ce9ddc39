/-
How parsers come to an end.

A parser consumes if it takes a token whenever it comes to a certain result (`Consumes`).  A loop does
rounds; each round takes a token or leaves the loop, so a bound on the number of rounds that is no
less than the number of tokens ahead is never what ends it (`ends_of_round`).

Two parsers are alike near some states if they do the same there and leave the token that marks the
end untaken (`Alike`).  Parsers made of alike ones are alike, and what comes after a token need only be
alike where fewer tokens are ahead.
-/
import Workbook.Proofs.Parser.Reading

namespace Workbook
namespace Parser

open Token (Kind Keyword Symbol)

variable {α β σ : Type}

/-! ## Tokens that end -/

namespace State

variable {s : State}

/-- The last of the tokens ahead marks the end, and no other does. -/
def Ended (s : State) : Prop :=
  ∃ ts final, s.rest = ts ++ [final] ∧ final.kind = .endOfInput ∧ ∀ t ∈ ts, t.kind ≠ .endOfInput

theorem Ended.pos (h : s.Ended) : 0 < s.rest.length := by
  obtain ⟨ts, final, hrest, -⟩ := h
  rw [hrest, List.length_append]
  exact Nat.lt_of_lt_of_le Nat.one_pos (Nat.le_add_left _ _)

/-- The token that marks the end is behind every other one. -/
theorem Ended.taken (h : s.Ended) (hk : s.kind ≠ .endOfInput) : s.taken.Ended := by
  obtain ⟨ts, final, hrest, hfinal, hts⟩ := h
  have hnext := rest_eq hk
  cases ts with
  | nil =>
    rw [hrest] at hnext
    have hcurrent : final = s.current := (List.cons.inj hnext).1
    exact absurd ((congrArg Token.kind hcurrent).symm.trans hfinal) hk
  | cons t ts =>
    rw [hrest] at hnext
    exact ⟨ts, final, (List.cons.inj hnext).2.symm, hfinal,
      fun u hu => hts u (List.mem_cons_of_mem t hu)⟩

theorem length_taken (hk : s.kind ≠ .endOfInput) : s.rest.length = s.taken.rest.length + 1 :=
  congrArg List.length (rest_eq hk)

theorem rest_taken_lt (hk : s.kind ≠ .endOfInput) : s.taken.rest.length < s.rest.length :=
  Nat.lt_of_lt_of_eq (Nat.lt_succ_self _) (length_taken hk).symm

/-- At most `n` tokens are ahead, the last of which marks the end, and so many expressions are open. -/
structure Near (n d : Nat) (s : State) : Prop where
  ended : s.Ended
  few : s.rest.length ≤ n
  depth : s.depth = d

theorem Near.of_rest {n d : Nat} {s' : State} (h : s.Near n d) (hrest : s'.rest = s.rest)
    (hdepth : s'.depth = s.depth) : s'.Near n d := by
  obtain ⟨⟨ts, final, heq, hfinal⟩, few, depth⟩ := h
  exact ⟨⟨ts, final, hrest.trans heq, hfinal⟩, hrest ▸ few, hdepth.trans depth⟩

/-- Where the same tokens are ahead, the first is of the same kind. -/
theorem kind_of_rest {s' : State} (h : s'.rest = s.rest) : s'.kind = s.kind := by
  unfold kind current
  rw [h]
  cases s.rest <;> rfl

theorem Near.on {n d : Nat} {p : Parser α} [hg : p.Grows] (h : s.Near n d)
    (hended : (p.on s).2.Ended) : (p.on s).2.Near n d :=
  ⟨hended, Nat.le_trans (hg.rest s).length_le h.few, (hg.depth s).trans h.depth⟩

end State

/-! ## Consumption -/

/-- A parser that comes to a result with the property has taken a token. -/
def Consumes (P : α → Prop) (p : Parser α) : Prop :=
  ∀ ⦃s a s'⦄, p.on s = (some a, s') → P a → s'.rest.length < s.rest.length

/-- A parser that comes to any result has taken a token. -/
abbrev Advances (p : Parser α) : Prop :=
  Consumes (fun _ => True) p

/-- A parser consumes at a token of this kind. -/
def ConsumesAt (k : Kind) (P : α → Prop) (p : Parser α) : Prop :=
  ∀ ⦃s a s'⦄, s.kind = k → p.on s = (some a, s') → P a → s'.rest.length < s.rest.length

/-- No parser makes the tokens ahead more. -/
theorem Grows.length_le {p : Parser α} (h : p.Grows) {s s' : State} {o : Option α}
    (hon : p.on s = (o, s')) : s'.rest.length ≤ s.rest.length := by
  have hsuffix := h.rest s
  rw [hon] at hsuffix
  exact hsuffix.length_le

/-- Both parts of a parser that comes to a result come to one. -/
theorem on_of_bind {p : Parser α} {f : α → Parser β} {s s' : State} {b : β}
    (h : (p >>= f).on s = (some b, s')) :
    ∃ a s₁, p.on s = (some a, s₁) ∧ (f a).on s₁ = (some b, s') := by
  rw [on_bind] at h
  cases hp : p.on s with
  | mk o s₁ =>
    rw [hp] at h
    cases o with
    | none => cases h
    | some a => exact ⟨a, s₁, rfl, h⟩

theorem ConsumesAt.take {Q : β → Prop} {k : Kind} {f : Span → Parser β} (hk : k ≠ .endOfInput)
    (hg : ∀ a, (f a).Grows) : ConsumesAt k Q (take >>= f) := by
  intro s b s' hs hon _
  have hrest : (f s.current.span).on s.taken = (some b, s') := hon
  exact Nat.lt_of_le_of_lt ((hg s.current.span).length_le hrest) (State.rest_taken_lt (hs ▸ hk))

theorem ConsumesAt.first {k : Kind} {Q : β → Prop} {p : Parser α} {f : α → Parser β}
    (hp : ConsumesAt k (fun _ => True) p) (hg : ∀ a, (f a).Grows) : ConsumesAt k Q (p >>= f) := by
  intro s b s' hk hon _
  obtain ⟨a, s₁, hfirst, hrest⟩ := on_of_bind hon
  exact Nat.lt_of_le_of_lt ((hg a).length_le hrest) (hp hk hfirst trivial)

namespace Consumes

variable {P : α → Prop} {Q : β → Prop} {p : Parser α} {f : α → Parser β} {k : Kind}

theorem at_kind (h : Consumes P p) : ConsumesAt k P p :=
  fun _ _ _ _ hon hP => h hon hP

/-- Either the first part has taken a token, or the second one takes it. -/
theorem bind (hp : Consumes P p) [hgrows : p.Grows] (hg : ∀ a, (f a).Grows)
    (hf : ∀ a, ¬ P a → Consumes Q (f a)) : Consumes Q (p >>= f) := by
  intro s b s' hon hQ
  obtain ⟨a, s₁, hfirst, hrest⟩ := on_of_bind hon
  by_cases hP : P a
  · exact Nat.lt_of_le_of_lt ((hg a).length_le hrest) (hp hfirst hP)
  · exact Nat.lt_of_lt_of_le (hf a hP hrest hQ) (hgrows.length_le hfirst)

/-- The first part takes a token. -/
theorem first (hp : Advances p) [p.Grows] [hg : ∀ a, (f a).Grows] : Consumes Q (p >>= f) :=
  .bind hp hg fun _ h => absurd trivial h

/-- The second part takes a token. -/
theorem later [hg : p.Grows] (hf : ∀ a, Consumes Q (f a)) : Consumes Q (p >>= f) := by
  intro s b s' hon hQ
  obtain ⟨a, s₁, hfirst, hrest⟩ := on_of_bind hon
  exact Nat.lt_of_lt_of_le (hf a hrest hQ) (hg.length_le hfirst)

theorem pure {a : α} (h : ¬ P a) : Consumes P (pure a) := by
  intro s a' s' hon hP
  cases hon
  exact absurd hP h

theorem reject {cause : Problem.Cause} : Consumes P (reject cause) := by
  intro s a s' hon
  cases hon

theorem ite {c : Prop} [Decidable c] {q : Parser α} (hp : Consumes P p) (hq : Consumes P q) :
    Consumes P (if c then p else q) := by
  split
  · exact hp
  · exact hq

/-- What is done next may look at the token ahead. -/
theorem peek {f : Kind → Parser β} (h : ∀ k, ConsumesAt k Q (f k)) : Consumes Q (peek >>= f) :=
  fun s _ _ hon hQ => h s.kind rfl hon hQ

theorem get {f : State → Parser β} (h : ∀ s, ConsumesAt s.kind Q (f s)) : Consumes Q (get >>= f) :=
  fun s _ _ hon hQ => h s rfl hon hQ

theorem eats (hk : k ≠ .endOfInput) : Consumes (· = true) (eats k) := by
  intro s b s' hon hb
  rw [on_eats] at hon
  split at hon
  · rename_i hs
    cases hon
    exact State.rest_taken_lt (hs ▸ hk)
  · cases hon
    cases hb

theorem expect (hk : k ≠ .endOfInput) : Advances (expect k) := by
  intro s a s' hon _
  rw [on_expect] at hon
  split at hon
  · rename_i hs
    cases hon
    exact State.rest_taken_lt (hs ▸ hk)
  · cases hon

theorem expectSymbol (x : Symbol) : Advances (expectSymbol x) :=
  expect (by simp)

theorem expectWord (w : Keyword) : Advances (expectWord w) :=
  expect (by simp)

theorem nested (hp : Advances p) : Advances (nested p) := by
  intro s a s' hon _
  rw [on_nested] at hon
  split at hon
  · cases hon
  · obtain ⟨ha, hs⟩ := Prod.ext_iff.1 hon
    have hlt : (p.on s.deeper).2.rest.length < s.deeper.rest.length := hp (Prod.ext ha rfl) trivial
    have hs : (p.on s.deeper).2.shallower = s' := hs
    rw [← hs]
    exact hlt

theorem operands {next : Parser (Option (α → α → α))} [next.Grows] [p.Grows] (hp : Advances p) :
    Advances (operands next p) :=
  .first hp

/-- An operator of a table is a token. -/
theorem operator (table : Symbol → Option β) : Consumes (·.isSome = true) (operator table) := by
  refine .peek fun k => ?_
  split
  · split
    · exact .take (by simp) fun _ => inferInstance
    · exact (Consumes.pure (by simp)).at_kind
  · exact (Consumes.pure (by simp)).at_kind

end Consumes

/-! ## Loops -/

/-- A loop that does rounds comes to an end: a round fails, or it leaves the loop, or it takes a token
at least and the loop goes on. -/
inductive Ends (round : σ → Parser (σ ⊕ α)) : σ → State → Option α × State → Prop
  | fails {x : σ} {s s' : State} (h : (round x).on s = (none, s')) : Ends round x s (none, s')
  | leaves {x : σ} {s s' : State} {a : α} (h : (round x).on s = (some (.inr a), s')) :
    Ends round x s (some a, s')
  | again {x y : σ} {s s' : State} {r : Option α × State} (h : (round x).on s = (some (.inl y), s'))
    (takes : s'.rest.length < s.rest.length) (rest : Ends round y s' r) : Ends round x s r

/-- Where each round takes a token or leaves the loop, a bound that is no less than the number of
tokens ahead does not end it. -/
theorem ends_of_round {round : σ → Parser (σ ⊕ α)} {bounded : Nat → σ → Parser α}
    (unfolds : ∀ n x, bounded (n + 1) x = round x >>= fun o => o.elim (bounded n) pure)
    (takes : ∀ x, Consumes (·.isLeft = true) (round x))
    (stays : ∀ x s, s.Ended → ((round x).on s).2.Ended) {n : Nat} {x : σ} {s : State}
    (hs : s.Ended) (hn : s.rest.length ≤ n) : Ends round x s ((bounded n x).on s) := by
  induction n generalizing x s with
  | zero => exact absurd hs.pos (by omega)
  | succ n ih =>
    rw [unfolds, on_bind]
    cases hround : (round x).on s with
    | mk o s' =>
      have hended := stays x s hs
      rw [hround] at hended
      rcases o with _ | y | a
      · exact .fails hround
      · have hlt := takes x hround rfl
        exact .again hround hlt (ih hended (by omega))
      · exact .leaves hround

/-! ## Parsers that are alike -/

/-- Where at most `n` tokens are ahead and `d` expressions are open, two parsers do the same, and they
leave the token that marks the end ahead. -/
class Alike (n d : Nat) (p q : Parser α) : Prop where
  same (s : State) (h : s.Near n d) : q.on s = p.on s ∧ (p.on s).2.Ended

/-- Two parsers do the same there at a token of this kind. -/
def AlikeAt (k : Kind) (n d : Nat) (p q : Parser α) : Prop :=
  ∀ s : State, s.Near n d → s.kind = k → q.on s = p.on s ∧ (p.on s).2.Ended

namespace Alike

variable {n d : Nat} {k : Kind} {p p' : Parser α} {f f' : α → Parser β}

theorem at_kind (h : Alike n d p p') : AlikeAt k n d p p' :=
  fun s hs _ => h.same s hs

theorem mono {m : Nat} (h : Alike n d p p') (hm : m ≤ n) : Alike m d p p' where
  same s hs := h.same s ⟨hs.ended, Nat.le_trans hs.few hm, hs.depth⟩

/-- Some token is ahead. -/
theorem zero : Alike 0 d p p' where
  same s hs := absurd hs.ended.pos (by have := hs.few; omega)

end Alike

/-- Behind a token that has been looked at fewer tokens are ahead. -/
theorem AlikeAt.take {n d : Nat} {k : Kind} {f f' : Span → Parser β} (hk : k ≠ .endOfInput)
    (hf : ∀ a, Alike n d (f a) (f' a)) : AlikeAt k (n + 1) d (take >>= f) (take >>= f') := by
  intro s hs hkind
  have hne : s.kind ≠ .endOfInput := hkind ▸ hk
  have hlength := s.length_taken hne
  have hfew := hs.few
  exact (hf s.current.span).same s.taken
    ⟨hs.ended.taken hne, by omega, s.taken_depth.trans hs.depth⟩

theorem AlikeAt.taking {n d : Nat} {k : Kind} {f f' : Span → Parser β} (hk : k ≠ .endOfInput)
    (hf : ∀ a, Alike n d (f a) (f' a)) : AlikeAt k n d (Parser.take >>= f) (Parser.take >>= f') := by
  cases n with
  | zero => exact Alike.zero.at_kind
  | succ n => exact .take hk fun a => (hf a).mono (Nat.le_succ n)

theorem AlikeAt.bind {n d : Nat} {k : Kind} {p p' : Parser α} {f f' : α → Parser β} [hg : p.Grows]
    (h : AlikeAt k n d p p') (hf : ∀ a, Alike n d (f a) (f' a)) :
    AlikeAt k n d (p >>= f) (p' >>= f') := by
  intro s hs hkind
  obtain ⟨hsame, hended⟩ := h s hs hkind
  rw [on_bind, on_bind, hsame]
  cases (p.on s).1 with
  | none => exact ⟨rfl, hended⟩
  | some a => exact (hf a).same _ (hs.on hended)

/-- What leaves the tokens ahead leaves the kind of the first. -/
theorem AlikeAt.past {n d : Nat} {k : Kind} {p : Parser α} {f f' : α → Parser β} [hg : p.Grows]
    (hp : ∀ s, (p.on s).2.rest = s.rest) (hf : ∀ a, AlikeAt k n d (f a) (f' a)) :
    AlikeAt k n d (p >>= f) (p >>= f') := by
  intro s hs hkind
  have hnear : (p.on s).2.Near n d := hs.of_rest (hp s) (hg.depth s)
  rw [on_bind, on_bind]
  cases (p.on s).1 with
  | none => exact ⟨rfl, hnear.ended⟩
  | some a => exact hf a _ hnear ((State.kind_of_rest (hp s)).trans hkind)

namespace Alike

variable {n d : Nat} {k : Kind} {p p' : Parser α} {f f' : α → Parser β}

/-- What comes behind a token is alike if it is where fewer tokens are ahead. -/
theorem after {P : α → Prop} (consumes : Consumes P p) [hg : p.Grows] (h : Alike (n + 1) d p p')
    (hf : ∀ a, P a → Alike n d (f a) (f' a)) (hf' : ∀ a, ¬ P a → Alike (n + 1) d (f a) (f' a)) :
    Alike (n + 1) d (p >>= f) (p' >>= f') where
  same s hs := by
    obtain ⟨hsame, hended⟩ := h.same s hs
    have hnear := hs.on hended
    rw [on_bind, on_bind, hsame]
    cases hp : p.on s with
    | mk o s₁ =>
      rw [hp] at hended hnear
      cases o with
      | none => exact ⟨rfl, hended⟩
      | some a =>
        by_cases hP : P a
        · have hlt := consumes hp hP
          have hfew := hs.few
          exact (hf a hP).same s₁ ⟨hended, by omega, hnear.depth⟩
        · exact (hf' a hP).same s₁ hnear

theorem bind (h : Alike n d p p') [p.Grows] (hf : ∀ a, Alike n d (f a) (f' a)) :
    Alike n d (p >>= f) (p' >>= f') where
  same s hs := (AlikeAt.bind h.at_kind hf) s hs rfl

/-- What a token comes before. -/
theorem behind (consumes : Advances p) [p.Grows] (h : Alike (n + 1) d p p')
    (hf : ∀ a, Alike n d (f a) (f' a)) : Alike (n + 1) d (p >>= f) (p' >>= f') :=
  .after consumes h (fun a _ => hf a) fun _ h => absurd trivial h

instance [h : Alike n d p p'] [p.Grows] [hf : ∀ a, Alike n d (f a) (f' a)] :
    Alike n d (p >>= f) (p' >>= f') :=
  .bind h hf

theorem peek {f f' : Kind → Parser β} (h : ∀ k, AlikeAt k n d (f k) (f' k)) :
    Alike n d (peek >>= f) (peek >>= f') where
  same s hs := h s.kind s hs rfl

/-- What is done next depends on whether a token of this kind is ahead. -/
theorem sees {f f' : Bool → Parser β} (h : AlikeAt k n d (f true) (f' true))
    (h' : Alike n d (f false) (f' false)) : Alike n d (Parser.sees k >>= f) (Parser.sees k >>= f') where
  same s hs := by
    have hon (f : Bool → Parser β) : (Parser.sees k >>= f).on s = (f (decide (s.kind = k))).on s := rfl
    rw [hon, hon]
    by_cases hk : s.kind = k
    · rw [decide_eq_true hk]
      exact h s hs hk
    · rw [decide_eq_false hk]
      exact h'.same s hs

theorem get {f f' : State → Parser β} (h : ∀ s, AlikeAt s.kind n d (f s) (f' s)) :
    Alike n d (get >>= f) (get >>= f') where
  same s hs := h s s hs rfl

/-- A parser that is given the number of the tokens ahead. -/
theorem ahead {f : Nat → Parser α} (h : ∀ i ≤ n, Alike i d (f i) p) :
    Alike n d (do f (← MonadState.get).rest.length) p where
  same s hs := by
    have hon : (do f (← MonadState.get).rest.length : Parser α).on s = (f s.rest.length).on s := rfl
    rw [hon]
    exact (h s.rest.length hs.few).same s ⟨hs.ended, Nat.le_refl _, hs.depth⟩

/-- A parser that leaves the tokens ahead. -/
theorem still [hg : p.Grows] (h : ∀ s, (p.on s).2.rest = s.rest) : Alike n d p p where
  same s hs := ⟨rfl, (hs.of_rest (h s) (hg.depth s)).ended⟩

instance (a : α) : Alike n d (pure a : Parser α) (pure a) := still fun _ => rfl

instance : Alike n d (MonadState.get : Parser State) MonadState.get := still fun _ => rfl

instance : Alike n d Parser.peek Parser.peek := still fun _ => rfl

instance : Alike n d here here := still fun _ => rfl

instance (first : Span) : Alike n d (since first) (since first) := still fun _ => rfl

instance (k : Kind) : Alike n d (Parser.sees k) (Parser.sees k) := still fun _ => rfl

instance (x : Symbol) : Alike n d (seesSymbol x) (seesSymbol x) := still fun _ => rfl

instance : Alike n d seesShorthand seesShorthand := still fun _ => rfl

instance (cause : Problem.Cause) (span : Span) : Alike n d (reportAt cause span) (reportAt cause span) :=
  still fun _ => rfl

instance (cause : Problem.Cause) : Alike n d (report cause) (report cause) := still fun _ => rfl

instance (cause : Problem.Cause) : Alike n d (reject cause : Parser α) (reject cause) :=
  still fun _ => rfl

instance [h : Alike n d p p'] (f : α → β) : Alike n d (f <$> p) (f <$> p') where
  same s hs := by
    obtain ⟨hsame, hended⟩ := h.same s hs
    rw [on_map, on_map, hsame]
    exact ⟨rfl, hended⟩

instance [h : Alike n d p p'] : Alike n d (attempt p) (attempt p') where
  same s hs := by
    obtain ⟨hsame, hended⟩ := h.same s hs
    rw [on_attempt, on_attempt, hsame]
    exact ⟨rfl, hended⟩

instance {c : Prop} [Decidable c] {q q' : Parser α} [Alike n d p p'] [Alike n d q q'] :
    Alike n d (if c then p else q) (if c then p' else q') := by
  split <;> assumption

theorem eats (hk : k ≠ .endOfInput) : Alike n d (eats k) (eats k) where
  same s hs := by
    refine ⟨rfl, ?_⟩
    rw [on_eats]
    split
    · rename_i hs'
      exact hs.ended.taken (hs' ▸ hk)
    · exact hs.ended

theorem expect (hk : k ≠ .endOfInput) : Alike n d (expect k) (expect k) where
  same s hs := by
    refine ⟨rfl, ?_⟩
    rw [on_expect]
    split
    · rename_i hs'
      exact hs.ended.taken (hs' ▸ hk)
    · exact hs.ended

instance (x : Symbol) : Alike n d (eatsSymbol x) (eatsSymbol x) := eats (by simp)

instance (w : Keyword) : Alike n d (Parser.eats (.word w)) (Parser.eats (.word w)) := eats (by simp)

instance (x : Symbol) : Alike n d (expectSymbol x) (expectSymbol x) := expect (by simp)

instance (w : Keyword) : Alike n d (expectWord w) (expectWord w) := expect (by simp)

instance : Alike n d name name := by
  refine peek fun k => ?_
  split
  · exact .taking (by simp) fun _ => inferInstance
  · exact at_kind inferInstance

instance : Alike n d memberName memberName := by
  refine peek fun k => ?_
  split
  · exact .taking (by simp) fun _ => inferInstance
  · exact .taking (by simp) fun _ => inferInstance
  · exact at_kind inferInstance

instance : Alike n d key key := by
  refine peek fun k => ?_
  split
  · exact .taking (by simp) fun _ => inferInstance
  · exact .taking (by simp) fun _ => inferInstance
  · exact at_kind inferInstance

/-- One level deeper, if that is not too deep. -/
theorem nested_of_lt (h : d < maxNesting → Alike n (d + 1) p p') :
    Alike n d (nested p) (nested p') where
  same s hs := by
    rw [on_nested, on_nested]
    by_cases hdeep : maxNesting ≤ s.depth
    · rw [if_pos hdeep, if_pos hdeep]
      exact ⟨rfl, hs.ended⟩
    · rw [if_neg hdeep, if_neg hdeep]
      have hdepth : s.deeper.depth = d + 1 := congrArg (· + 1) hs.depth
      obtain ⟨hsame, hended⟩ := (h (by rw [← hs.depth]; omega)).same s.deeper
        ⟨hs.ended, hs.few, hdepth⟩
      rw [hsame]
      exact ⟨rfl, hended⟩

/-- Where nothing more can be nested, what would be is too deep. -/
theorem tooDeep (hd : maxNesting ≤ d) : Alike n d (Parser.reject (.tooDeep maxNesting)) (nested p) where
  same s hs := by
    rw [on_nested, if_pos (by rw [hs.depth]; exact hd)]
    exact ⟨rfl, hs.ended⟩

instance [h : Alike n (d + 1) p p'] : Alike n d (nested p) (nested p') :=
  nested_of_lt fun _ => h

instance {next : Parser (Option (α → α → α))} [next.Grows] [hn : Alike n d next next] [p.Grows]
    [Alike n d p p'] (fuel : Nat) (left : α) :
    Alike n d (chain next p fuel left) (chain next p' fuel left) := by
  induction fuel generalizing left with
  | zero => unfold chain; infer_instance
  | succ fuel ih =>
    unfold chain
    refine .bind hn fun join => ?_
    cases join <;> infer_instance

instance {next : Parser (Option (α → α → α))} [next.Grows] [Alike n d next next] [p.Grows]
    [Alike n d p p'] : Alike n d (operands next p) (operands next p') := by
  unfold operands
  infer_instance

instance (table : Symbol → Option β) : Alike n d (operator table) (operator table) := by
  refine peek fun k => ?_
  split
  · split
    · exact .taking (by simp) fun _ => inferInstance
    · exact at_kind inferInstance
  · exact at_kind inferInstance

instance (close : Symbol) [p.Grows] [Alike n d p p'] (fuel : Nat) :
    Alike n d (separated close p fuel) (separated close p' fuel) := by
  induction fuel with
  | zero => unfold separated; infer_instance
  | succ fuel ih => unfold separated; infer_instance

instance (close : Symbol) [p.Grows] [Alike n d p p'] :
    Alike n d (closedBy close p) (closedBy close p') := by
  unfold closedBy
  infer_instance

instance : Alike n d parameters parameters := by
  unfold parameters
  infer_instance

instance [p.Grows] [Alike n d p p'] : Alike n d (item p) (item p') := by
  unfold item
  infer_instance

instance [p.Grows] [Alike n d p p'] (cause : Problem.Cause) (fuel : Nat) :
    Alike n d (holes p cause fuel) (holes p' cause fuel) := by
  induction fuel with
  | zero => unfold holes; infer_instance
  | succ fuel ih =>
    unfold holes
    refine .bind (expect (by simp)) fun _ => .bind inferInstance fun _ =>
      .bind (expect (by simp)) fun _ => peek fun k => ?_
    split
    · exact .taking (by simp) fun _ => inferInstance
    · exact .taking (by simp) fun _ => inferInstance
    · exact at_kind inferInstance

instance [p.Grows] [Alike n d p p'] (first : String) (cause : Problem.Cause) :
    Alike n d (pieces first p cause) (pieces first p' cause) := by
  unfold pieces
  infer_instance

end Alike

/-! ## Rounds that the languages share -/

section Rounds

variable {n d : Nat} {p : Parser α}

/-- An operator and an operand, behind those that have been read. -/
def chainRound (next : Parser (Option (α → α → α))) (operand : Parser α) (left : α) :
    Parser (α ⊕ α) := do
  match ← next with
  | none => return .inr left
  | some join => return .inl (join left (← operand))

/-- A part of a list, behind those that have been read. -/
def separatedRound (close : Symbol) (part : Parser α) (read : List α) :
    Parser (List α ⊕ List α) := do
  if ← seesSymbol close then return .inr read
  let first ← part
  if ← eatsSymbol .comma then return .inl (read ++ [first])
  return .inr (read ++ [first])

/-- An expression of a string and the text after it, behind those that have been read. -/
def holesRound (expr : Parser α) (unterminated : Problem.Cause) (read : List (Piece α)) :
    Parser (List (Piece α) ⊕ List (Piece α)) := do
  expect .holeStart
  let e ← expr
  expect .holeEnd
  match ← peek with
  | .stringPart s =>
    let _ ← take
    return .inl (read ++ (.hole e :: textPiece s))
  | .stringEnd s =>
    let _ ← take
    return .inr (read ++ (.hole e :: textPiece s))
  | _ => reject unterminated

/-- A member, an index or a call after an operand, where trees have these constructors. -/
def suffixesRound {γ : Type} (span : α → Span) (member : α → Name → α) (index : Span → α → α → α)
    (call : Span → α → List γ → α) (expr : Parser α) (argument : Parser γ) (e : α) : Parser (α ⊕ α) := do
  match ← peek with
  | .symbol .dot =>
    let _ ← take
    let k ← memberName
    return .inl (member e k)
  | .symbol .leftBracket =>
    let _ ← take
    let k ← expr
    expectSymbol .rightBracket
    return .inl (index (← since (span e)) e k)
  | .symbol .leftParen =>
    let _ ← take
    let arguments ← closedBy .rightParen argument
    return .inl (call (← since (span e)) e arguments)
  | _ => return .inr e

theorem reject_bind (cause : Problem.Cause) (f : α → Parser β) :
    (reject cause >>= f) = reject cause := rfl

theorem map_reject (cause : Problem.Cause) (f : α → β) : f <$> reject cause = (reject cause : Parser β) :=
  rfl

theorem chain_unfolds (next : Parser (Option (α → α → α))) (n : Nat) (left : α) :
    chain next p (n + 1) left =
      chainRound next p left >>= fun o => o.elim (chain next p n) pure := by
  unfold chainRound
  simp only [chain, bind_assoc]
  refine bind_congr fun join => ?_
  cases join <;> simp

theorem separated_unfolds (close : Symbol) (n : Nat) (read : List α) :
    (read ++ ·) <$> separated close p (n + 1) = separatedRound close p read >>= fun o =>
      o.elim (fun read => (read ++ ·) <$> separated close p n) pure := by
  unfold separatedRound
  simp only [separated, map_bind, bind_assoc]
  refine bind_congr fun closed => ?_
  cases closed
  · simp only [if_neg Bool.false_ne_true, map_bind, bind_assoc]
    refine bind_congr fun first => bind_congr fun comma => ?_
    cases comma <;> simp
  · simp

theorem holes_unfolds (cause : Problem.Cause) (n : Nat) (read : List (Piece α)) :
    (read ++ ·) <$> holes p cause (n + 1) = holesRound p cause read >>= fun o =>
      o.elim (fun read => (read ++ ·) <$> holes p cause n) pure := by
  unfold holesRound
  simp only [holes, map_bind, bind_assoc]
  refine bind_congr fun _ => bind_congr fun e => bind_congr fun _ => bind_congr fun k => ?_
  split
  · simp
  · simp
  · simp [map_reject, reject_bind]

theorem consumes_chainRound {next : Parser (Option (α → α → α))} [next.Grows] [p.Grows]
    (hnext : Consumes (·.isSome = true) next) (left : α) :
    Consumes (·.isLeft = true) (chainRound next p left) := by
  refine .bind hnext (fun o => ?_) fun o ho => ?_
  · split <;> infer_instance
  · cases o with
    | none => exact .pure (by simp)
    | some join => exact absurd rfl ho

theorem consumes_separatedRound [p.Grows] (close : Symbol) (read : List α) :
    Consumes (·.isLeft = true) (separatedRound close p read) := by
  unfold separatedRound
  refine .later fun closed => .ite (.pure (by simp)) (.later fun first => ?_)
  refine .bind (Consumes.eats (by simp)) inferInstance fun comma hcomma => ?_
  rw [if_neg hcomma]
  exact .pure (by simp)

theorem consumes_holesRound [p.Grows] (cause : Problem.Cause) (read : List (Piece α)) :
    Consumes (·.isLeft = true) (holesRound p cause read) := by
  refine .bind (Consumes.expect (by simp)) (fun _ => ?_) fun _ h => absurd trivial h
  refine .bind inferInstance fun e => .bind inferInstance fun _ => .bind inferInstance fun k => ?_
  split <;> infer_instance

section

variable {γ : Type} {span : α → Span} {member : α → Name → α} {index : Span → α → α → α}
  {call : Span → α → List γ → α} {argument : Parser γ} [p.Grows] [argument.Grows]

theorem consumes_suffixesRound (e : α) :
    Consumes (·.isLeft = true) (suffixesRound span member index call p argument e) := by
  refine .peek fun k => ?_
  split
  · exact .take (by simp) fun _ => inferInstance
  · exact .take (by simp) fun _ => inferInstance
  · exact .take (by simp) fun _ => inferInstance
  · exact (Consumes.pure (by simp)).at_kind

theorem alike_suffixesRound [Alike n d p p] [Alike n d argument argument] (e : α) :
    Alike n d (suffixesRound span member index call p argument e)
      (suffixesRound span member index call p argument e) := by
  refine .peek fun k => ?_
  split
  · exact .taking (by simp) fun _ => inferInstance
  · exact .taking (by simp) fun _ => inferInstance
  · exact .taking (by simp) fun _ => inferInstance
  · exact Alike.at_kind inferInstance

end

theorem alike_chainRound {next : Parser (Option (α → α → α))} [next.Grows] [hn : Alike n d next next]
    [p.Grows] [Alike n d p p] (left : α) :
    Alike n d (chainRound next p left) (chainRound next p left) := by
  refine .bind hn fun join => ?_
  cases join <;> infer_instance

theorem alike_separatedRound [p.Grows] [Alike n d p p] (close : Symbol) (read : List α) :
    Alike n d (separatedRound close p read) (separatedRound close p read) := by
  unfold separatedRound
  infer_instance

theorem alike_holesRound [p.Grows] [Alike n d p p] (cause : Problem.Cause) (read : List (Piece α)) :
    Alike n d (holesRound p cause read) (holesRound p cause read) := by
  refine .bind (.expect (by simp)) fun _ => .bind inferInstance fun _ =>
    .bind (.expect (by simp)) fun _ => .peek fun k => ?_
  split
  · exact .taking (by simp) fun _ => inferInstance
  · exact .taking (by simp) fun _ => inferInstance
  · exact Alike.at_kind inferInstance

end Rounds

end Parser
end Workbook
