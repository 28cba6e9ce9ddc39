/-
Fields under numbers.

A number can name a field, and the literal that names it can be an index: `{ n: … }[n]`.  The parsers
make a key of the text of the literal; an evaluation makes a key of the value of the index.

In a formula the index of a mapping is a string or an integer of 64 bits.  An integer has the same text
both times (`Formula.text_integer`), so its field is read back (`Formula.readsBack_integer`); under any
other number nothing is found (`Formula.notFound`).

In a script an index is a double, and its key is the text of the double.  So the field is read back
where this is the text of the literal, and nothing is found elsewhere (`Script.ask_fieldRead`).  The
texts are the same for literals that are written as their doubles are (`Token.Literal.text_of_plain`).

What holds for a literal in both languages is `fields_read_back`.

The grammar that the parser of scripts is shown to read ends no statement where a line ends; the
functions in an expression may have such statements all the same.  So that something can be said of
every expression, an expression is known by being read (`Takes`), and around it the grammar says what is
written (`Grammar.around`).  The parser reads this (`accepted_around`), as it reads an expression that the
grammar writes (`takes_of_level`).
-/
import Mathlib
import Workbook.Proofs.Script.Completeness
import Workbook.Proofs.Script.Derivation
import Workbook.Proofs.Token.Literal

namespace Workbook

/-! ## Expressions as the parser takes them -/

namespace Script

open Token (Kind)
open Workbook.Parser (Phrase Starts State Ended)

namespace Grammar

/-- One expression, written in one way. -/
def Only (field : List Token) (v : Expr) : Phrase Expr :=
  fun ts e => ts = field ∧ e = v

/-- What is written `k` levels around the expressions of a phrase. -/
def around (E : Phrase Expr) : Nat → Level
  | 0 => .over false E (fun _ _ => False) fun _ _ => False
  | k + 1 => (around E k).next false

/-- All of the grammar is around nothing. -/
theorem around_nothing (n : Nat) : around (fun _ _ => False) n = level false n := by
  induction n with
  | zero => rfl
  | succ n ih =>
    show (around (fun _ _ => False) n).next false = (level false n).next false
    rw [ih]

section

variable {E : Phrase Expr} {ts : List Token} {e : Expr}

/-- An operand alone is an expression. -/
theorem around_suffixed {k : Nat}
    (h : Suffixed (around E k).expr (Block (around E k).expr false) ts e) :
    (around E (k + 1)).expr ts e := by
  cases k with
  | zero => exact next_suffixed h
  | succ k => exact next_suffixed h

theorem starts_around (hE : Starts begins E) (k : Nat) :
    Starts begins (around E k).expr ∧ Starts begins (around E k).power := by
  induction k with
  | zero => exact ⟨hE, starts_power starts_prefixed⟩
  | succ k ih => exact ⟨starts_assignment ih.2, starts_power starts_prefixed⟩

theorem balanced_around (hE : AllBalanced E) (k : Nat) :
    AllBalanced (around E k).expr ∧ AllBalanced (around E k).power ∧
      AllBalanced (around E k).operand := by
  induction k with
  | zero => exact balanced_over false hE balanced_nothing balanced_nothing
  | succ k ih =>
    obtain ⟨hexpr, hpower, hoperand⟩ := ih
    have hblock : AllBalanced (Block (around E k).expr false) := balanced_block hexpr
    exact balanced_over false (balanced_assignment hexpr hblock hpower) hpower hoperand

theorem plain_around (hE : AllBalanced E) (k : Nat) : AllPlain (around E k).power := by
  have hbalanced := (balanced_around hE k).1
  cases k with
  | zero => exact plain_power (plain_prefixed hbalanced)
  | succ k => exact plain_power (plain_prefixed hbalanced)

end

end Grammar

namespace Parser

open Workbook.Parser
open Grammar (rank begins Only around)

variable {n : Nat} {field : List Token} {v : Expr}

/-- Where `n` more levels can be opened, the parser takes tokens for an expression, whatever comes after
them that does not go on with it. -/
def Takes (n : Nat) (field : List Token) (v : Expr) : Prop :=
  (level n).expr.Accepts n (Ended rank (Only field v))

theorem takes_of_level (h : (Grammar.level false n).expr field v) : Takes n field v := by
  refine (accepted_level n).expr.imp ?_
  rintro ts e k ⟨⟨rfl, rfl⟩, hk⟩
  exact ⟨h, hk⟩

/-- What is taken for an expression is written as one, where a line may end a statement. -/
theorem level_of_takes (h : Takes n field v) (hn : n ≤ maxNesting)
    (kinds : ∀ t ∈ field, t.kind ≠ .endOfInput) : (Grammar.level true n).expr field v := by
  -- The tokens are read at the end of a text.
  let final : Token := ⟨.endOfInput, default⟩
  let s : State := { start (field ++ [final]) with depth := maxNesting - n }
  have hready : s.Ready n := ⟨Nat.sub_add_cancel hn, rfl⟩
  have htokens : s.rest = field ++ [final] := rfl
  obtain ⟨s', passes, hrest⟩ := State.Passes.exists_of_rest htokens kinds
  have hend : s'.kind = .endOfInput := kind_of_rest rfl hrest
  have hrank : rank s'.kind = 0 := by rw [hend]; rfl
  have hreads : (level n).expr.Reads s v s' := h hready ⟨⟨rfl, rfl⟩, hrank⟩ passes
  obtain ⟨ts, hwritten, passes'⟩ := (found_level n).expr hready hreads
  have heq : ts ++ s'.rest = field ++ s'.rest := by rw [← passes'.rest, ← passes.rest]
  rw [← List.append_cancel_right heq]
  exact hwritten

/-- What is written around an expression that is taken is read. -/
theorem accepted_around (h : Takes n field v) (starts : Starts begins (Only field v))
    (balanced : Grammar.AllBalanced (Only field v)) (k : Nat) :
    AcceptedLevel (n + k) (level (n + k)) (around (Only field v) k) := by
  induction k with
  | zero => exact accepted_lowest h starts
  | succ k ih =>
    obtain ⟨hstarts, hpowers⟩ := Grammar.starts_around starts k
    exact ih.next hstarts hpowers (Grammar.plain_around balanced k)

/-- Statements written around an expression that is taken are read as a whole script. -/
theorem reads_of_around {k : Nat} (h : Takes n field v) (hk : n + k = maxNesting)
    (fieldKinds : ∀ t ∈ field, t.kind ≠ .endOfInput) {ts : List Token} {final : Token}
    (kinds : ∀ t ∈ ts, t.kind ≠ .endOfInput) (ends : final.kind = .endOfInput) {m : Nat}
    {body : List Stmt} (hbody : Grammar.Statements
      (Grammar.Statement (around (Only field v) k).expr false m false) ts body final) :
    ∃ p s', p.body = body ∧ whole.Reads (start (ts ++ [final])) p s' := by
  have hwritten := level_of_takes h (by omega) fieldKinds
  have hstarts : Starts begins (Only field v) := by
    rintro ts e ⟨rfl, rfl⟩
    exact (Grammar.starts_level true n).1 hwritten
  have hbalanced : Grammar.AllBalanced (Only field v) := by
    rintro ts e ⟨rfl, rfl⟩
    exact (Grammar.balanced_level true n).1 hwritten
  have haccepted := (accepted_around h hstarts hbalanced k).expr
  rw [hk] at haccepted
  exact reads_of_statements haccepted (Grammar.starts_around hstarts k).1 kinds ends hbody

end Parser
end Script

/-! ## A field and its index -/

open Token (Literal)

/-- The tokens of `{ n: … }[n]`, around those of the field.  A script returns it, with the object in
parentheses; these stand on the line of the word, so that the line does not end the statement. -/
inductive FieldRead (n : Literal) (field : List Token) : Language → List Token → Prop
  | formula {first key colon last opening index closing : Span} :
    FieldRead n field .formula (⟨.symbol .leftBrace, first⟩ :: ⟨.number n, key⟩ ::
      ⟨.symbol .colon, colon⟩ :: (field ++ [⟨.symbol .rightBrace, last⟩,
        ⟨.symbol .leftBracket, opening⟩, ⟨.number n, index⟩, ⟨.symbol .rightBracket, closing⟩]))
  | script {returns before first key colon last after opening index closing : Span}
    (line : before.line ≤ returns.line) :
    FieldRead n field .script (⟨.word .returnWord, returns⟩ :: ⟨.symbol .leftParen, before⟩ ::
      ⟨.symbol .leftBrace, first⟩ :: ⟨.number n, key⟩ :: ⟨.symbol .colon, colon⟩ ::
        (field ++ [⟨.symbol .rightBrace, last⟩, ⟨.symbol .rightParen, after⟩,
          ⟨.symbol .leftBracket, opening⟩, ⟨.number n, index⟩, ⟨.symbol .rightBracket, closing⟩]))

/-! ## Formulas -/

namespace Formula

open Grammar (Expression Closed Operand Suffixed)

variable {n : Literal} {field ts : List Token} {v : Expr}

theorem written_fieldRead (h : FieldRead n field .formula ts) (hv : Expression 63 field v) :
    ∃ span record key index, Expression 64 ts
      (.index span (.record record [.field ⟨n.text, key⟩ v]) (Parser.literal index n)) := by
  cases h with
  | @formula first key colon last opening index closing =>
    have hentry : Grammar.Entries (Expression 63)
        (⟨.number n, key⟩ :: ⟨.symbol .colon, colon⟩ :: field) (.field ⟨n.text, key⟩ v) := .field rfl hv
    have hrecord : Suffixed (Expression 63) false (⟨.symbol .leftBrace, first⟩ ::
          ((⟨.number n, key⟩ :: ⟨.symbol .colon, colon⟩ :: field) ++ [⟨.symbol .rightBrace, last⟩]))
        (.record (first.merge last) [.field ⟨n.text, key⟩ v]) := .primary (.record (.one hentry))
    have hindex : Expression 63 [⟨.number n, index⟩] (Parser.literal index n) :=
      expression_of_suffixed (.primary .number)
    have hexpr : Expression 64 (_ ++ ⟨.symbol .leftBracket, opening⟩ ::
        ([_] ++ [⟨.symbol .rightBracket, closing⟩])) _ :=
      expression_of_suffixed (.index hrecord hindex)
    rw [List.cons_append, List.append_assoc] at hexpr
    exact ⟨_, _, _, _, hexpr⟩

/-- An integer of 64 bits has the same text as a key and as an index. -/
theorem text_integer (k : Int64) : (Literal.integer k).text = Json.integerText k.toInt := by
  have hsign : k < 0 ↔ k.toInt < 0 := Int64.lt_iff_toInt_lt
  unfold Literal.text Json.integerText
  simp only [hsign]

variable (fuel evaluation : Nat) (locals : List (String × Value))

theorem ask_record (record : Span) (key : Name) (v : Expr) :
    (Engine.ofFuel (fuel + 1)).ask (.formula evaluation locals (.record record [.field key v])) =
      (Engine.ofFuel fuel).ask (.formula evaluation locals v) >>= fun w =>
        pure (.mapping [(key.text, .ready w)] none) := by
  show ((Engine.ofFuel fuel).ask (.formula evaluation locals v) >>= fun w =>
    pure (Entries.set key.text (.ready w) [])) >>= (fun entries => pure (Value.ofEntries entries)) = _
  rw [bind_assoc]
  rfl

/-- The value of an entry, under its own key. -/
theorem readEntry_singleton (e : Engine) (key : String) (w : Value) :
    e.readEntry [(key, .ready w)] key = checkedRead key w := by
  have hfind : Entries.find? [(key, .ready w)] key = some (.ready w) := by
    simp [Entries.find?]
  unfold Engine.readEntry Engine.readKey?
  rw [hfind]
  rfl

/-- The index of a mapping with one entry is looked at after the value of the entry. -/
theorem ask_index {i : Expr} {u : Value}
    (hi : (Engine.ofFuel (fuel + 1)).ask (.formula evaluation locals i) = pure u) (span record : Span)
    (key : Name) (v : Expr) :
    (Engine.ofFuel (fuel + 2)).ask (.formula evaluation locals (.index span
        (.record record [.field key v]) i)) =
      (Engine.ofFuel fuel).ask (.formula evaluation locals v) >>= fun w =>
        (Engine.ofFuel (fuel + 1)).item (.mapping [(key.text, .ready w)] none) u := by
  show ((Engine.ofFuel (fuel + 1)).ask (.formula evaluation locals (.record record [.field key v])) >>=
    fun w => (Engine.ofFuel (fuel + 1)).ask (.formula evaluation locals i) >>= fun u =>
      (Engine.ofFuel (fuel + 1)).item w u) = _
  rw [ask_record, bind_assoc]
  refine bind_congr fun w => ?_
  rw [pure_bind, hi, pure_bind]

/-- A field comes to what its value comes to, under an integer of 64 bits. -/
theorem ask_fieldRead (k : Int64) (span record key index : Span) (v : Expr) :
    (Engine.ofFuel (fuel + 2)).ask (.formula evaluation locals (.index span
        (.record record [.field ⟨(Literal.integer k).text, key⟩ v]) (.integer index k))) =
      (Engine.ofFuel fuel).ask (.formula evaluation locals v) >>=
        checkedRead (Json.integerText k.toInt) := by
  rw [ask_index fuel evaluation locals (u := .integer k) rfl, text_integer]
  refine bind_congr fun w => ?_
  exact readEntry_singleton _ _ w

/-! ### Other numbers -/

/-- Nothing is found: what comes of it is null or a mismatch. -/
def FindsNothing (r : Run Value) : Prop :=
  r = pure .null ∨ ∃ message, r = Run.mismatch message

/-- A number with a fraction is no index. -/
theorem item_fraction {x : Float} (fraction : Number.isIntegral x = false)
    (entries : List (String × Slot)) :
    (Engine.ofFuel (fuel + 1)).item (.mapping entries none) (.float x) =
      Run.mismatch ("index must be an integer, got " ++ Number.text x) := by
  show ((Engine.ofFuel (fuel + 1)).position (.float x) >>= Engine.itemAt (.mapping entries none)) = _
  unfold Engine.position
  simp only [fraction, Bool.false_eq_true, if_false]
  rfl

/-- A mapping has nothing under a double: it has no positions, and no double is a key. -/
theorem item_float (x : Float) : ∃ r, FindsNothing r ∧ ∀ entries,
    (Engine.ofFuel (fuel + 1)).item (.mapping entries none) (.float x) = r := by
  cases hwhole : Number.isIntegral x with
  | false => exact ⟨_, .inr ⟨_, rfl⟩, item_fraction fuel hwhole⟩
  | true =>
    have hitem (entries : List (String × Slot)) :
        (Engine.ofFuel (fuel + 1)).item (.mapping entries none) (.float x) =
          (Engine.ofFuel (fuel + 1)).position (.float x) >>= Engine.itemAt (.mapping entries none) :=
      rfl
    obtain ⟨i, hi⟩ : ∃ i, (Engine.ofFuel (fuel + 1)).position (.float x) = pure i := by
      unfold Engine.position
      simp only [hwhole, if_true]
      exact ⟨_, rfl⟩
    simp only [hitem, hi, pure_bind]
    cases i with
    | none => exact ⟨pure .null, .inl rfl, fun _ => rfl⟩
    | some i =>
      exact ⟨Run.mismatch "cannot index mapping with a number", .inr ⟨_, rfl⟩, fun _ => rfl⟩

/-- An expression for a field finds nothing under a number that is no integer of 64 bits. -/
theorem ask_other (lexed : n.Lexed) (other : ∀ k, n ≠ .integer k) (span record index : Span)
    (key : Name) (v : Expr) : ∃ r, FindsNothing r ∧
      (Engine.ofFuel (fuel + 2)).ask (.formula evaluation locals (.index span
        (.record record [.field key v]) (Parser.literal index n))) =
      (Engine.ofFuel fuel).ask (.formula evaluation locals v) >>= fun _ => r := by
  cases n with
  | integer k => exact absurd rfl (other k)
  | float x =>
    obtain ⟨r, hr, hitem⟩ := item_float fuel x
    refine ⟨r, hr, ?_⟩
    show (Engine.ofFuel (fuel + 2)).ask (.formula evaluation locals (.index span
      (.record record [.field key v]) (.float index x))) = _
    rw [ask_index fuel evaluation locals (u := .float x) rfl]
    exact bind_congr fun w => hitem _
  | big ds =>
    have hbig : Value.ofInt (Number.ofDigits ds.toList) = .big (Number.ofDigits ds.toList) := by
      obtain ⟨c, cs, -, hn⟩ := lexed
      unfold Value.ofInt
      rw [if_neg (by rw [Token.Lexer.not_fitsWord_of_literal hn.symm]; exact Bool.false_ne_true)]
    refine ⟨Run.mismatch "cannot index mapping with bigint", .inr ⟨_, rfl⟩, ?_⟩
    show (Engine.ofFuel (fuel + 2)).ask (.formula evaluation locals (.index span
      (.record record [.field key v]) (.big index ds))) = _
    rw [ask_index fuel evaluation locals (u := .big (Number.ofDigits ds.toList)) (congrArg pure hbig)]
    rfl

end Formula

/-! ## Scripts -/

namespace Script

open Grammar (Only around)

variable {n : Literal} {field ts : List Token} {v : Expr}

theorem written_fieldRead {final : Token} (h : FieldRead n field .script ts)
    (ends : final.kind = .endOfInput) : ∃ whole span object key index m, Grammar.Statements
      (Grammar.Statement (around (Only field v) 2).expr false m false) ts [.returns whole (some
        (.index span (.object object [.field ⟨n.text, key⟩ v]) (.number index n.toFloat)))] final := by
  cases h with
  | @script returns before first key colon last after opening index closing line =>
    let E := Only field v
    have hentry : Grammar.Entries (around E 0).expr (Grammar.Block (around E 0).expr false)
        (⟨.number n, key⟩ :: ⟨.symbol .colon, colon⟩ :: field) (.field ⟨n.text, key⟩ v) :=
      .field rfl ⟨rfl, rfl⟩
    have hobject : (around E 1).expr (⟨.symbol .leftBrace, first⟩ ::
          ((⟨.number n, key⟩ :: ⟨.symbol .colon, colon⟩ :: field) ++ [⟨.symbol .rightBrace, last⟩]))
        (.object (first.merge last) [.field ⟨n.text, key⟩ v]) :=
      Grammar.around_suffixed (.primary (.object (.one hentry)))
    have hindex : (around E 1).expr [⟨.number n, index⟩] (.number index n.toFloat) :=
      Grammar.around_suffixed (.primary .number)
    have hexpr : (around E 2).expr ((⟨.symbol .leftParen, before⟩ :: (_ ++
        [⟨.symbol .rightParen, after⟩])) ++ ⟨.symbol .leftBracket, opening⟩ ::
          ([_] ++ [⟨.symbol .rightBracket, closing⟩])) _ :=
      Grammar.around_suffixed (.index (.primary (.parenthesized hobject)) hindex)
    have hfirst : ∀ t ∈ [(⟨.symbol .leftParen, before⟩ : Token)].head?, t.span.line ≤ returns.line := by
      rintro t ⟨⟩
      exact line
    have hreturn : Grammar.Statement (around E 2).expr false 1 false (_ :: (_ ++ [])) _ final :=
      .returns hexpr hfirst (.finish ends)
    have hall := Grammar.Statements.cons (C := Grammar.Statement (around E 2).expr false 1 false)
      hreturn .nil
    simp only [List.cons_append, List.append_assoc, List.append_nil, List.nil_append] at hall
    exact ⟨_, _, _, _, _, 1, hall⟩

variable (fuel run block : Nat)

/-- The store with one more object. -/
def withObject (st : Store) (fields : Fields) : Store :=
  { st with objects := st.objects.push (.ofContent fields) }

theorem fields_withObject (st : Store) (fields : Fields) :
    (withObject st fields).fields st.objects.size = fields := by
  unfold Store.fields withObject
  simp only [Array.getElem?_push_size]
  rfl

/-- An object with one field has this field and no other. -/
theorem ask_fieldRead (span object index : Span) (key : Name) (v : Expr) (x : Float) {st st' : Store}
    {w : Native} (h : (Engine.ofFuel fuel).boundValue run block key.text v st = .ok w st') :
    (Engine.ofFuel (fuel + 2)).ask (.expression run block (.index span
        (.object object [.field key v]) (.number index x))) st =
      .ok (if Number.text x = key.text then w else .undefined) (withObject st' [(key.text, w)]) := by
  have hobject : (Engine.ofFuel (fuel + 1)).ask
      (.expression run block (.object object [.field key v])) st =
      .ok (.object st'.objects.size) (withObject st' [(key.text, w)]) := by
    show (((Engine.ofFuel fuel).boundValue run block key.text v >>= fun w =>
      pure (Keyed.put key.text w [])) >>= fun fields => Run.newObject fields) st = _
    rw [bind_assoc, Run.bind_run h]
    rfl
  show ((Engine.ofFuel (fuel + 1)).ask (.expression run block (.object object [.field key v])) >>=
    fun o => Run.property o (Number.text x)) st = _
  rw [Run.bind_run hobject]
  show Run.ofExcept (.ok ((((withObject st' [(key.text, w)]).fields st'.objects.size).lookup
    (Number.text x)).getD .undefined)) (withObject st' [(key.text, w)]) = _
  rw [fields_withObject]
  by_cases heq : Number.text x = key.text
  · rw [if_pos heq, heq, List.lookup_cons_self]
    rfl
  · rw [if_neg heq, List.lookup_cons, beq_eq_false_iff_ne.2 heq]
    rfl

end Script

/-! ## Both languages -/

/-- An expression comes to the value of another one, unless this is a failure. -/
def Formula.ReadsBack (e v : Formula.Expr) : Prop :=
  ∀ (fuel evaluation : Nat) (locals : List (String × Value)) (st st' : Store) (w : Value),
    (Engine.ofFuel fuel).ask (.formula evaluation locals v) st = .ok w st' →
    (∀ kind message payload, w ≠ .error kind message payload) →
    (Engine.ofFuel (fuel + 2)).ask (.formula evaluation locals e) st = .ok w st'

/-- An expression is null or fails after another one, whatever the value of this. -/
def Formula.NotFound (e v : Formula.Expr) : Prop :=
  ∀ (fuel evaluation : Nat) (locals : List (String × Value)) (st st' : Store) (w : Value),
    (Engine.ofFuel fuel).ask (.formula evaluation locals v) st = .ok w st' →
    ∃ r, FindsNothing r ∧ (Engine.ofFuel (fuel + 2)).ask (.formula evaluation locals e) st = r st'

/-- An expression comes to the value that another one has in a field with the key, and leaves the object
with this field. -/
def Script.ReadsBack (key : String) (e v : Script.Expr) : Prop :=
  ∀ (fuel run block : Nat) (st st' : Store) (w : Native),
    (Engine.ofFuel fuel).boundValue run block key v st = .ok w st' →
    (Engine.ofFuel (fuel + 2)).ask (.expression run block e) st = .ok w (withObject st' [(key, w)])

/-- What `{ n: … }[n]` comes to in both languages. -/
structure FieldLaws (n : Literal) (field : List Token) : Prop where
  formula : ∀ (s : Source) (ts : List Token) (final : Token) (v : Formula.Expr),
    Token.lex .formula s = (ts ++ [final], .empty) → FieldRead n field .formula ts →
    Formula.Grammar.Expression 63 field v →
    ∃ e, Formula.compile s = .ok e ∧ ((∃ k, n = .integer k) → Formula.ReadsBack e v) ∧
      ((∀ k, n ≠ .integer k) → Formula.NotFound e v)
  script : ∀ (s : Source) (ts : List Token) (final : Token) (v : Script.Expr),
    Token.lex .script s = (ts ++ [final], .empty) → FieldRead n field .script ts →
    Script.Parser.Takes 62 field v →
    ∃ p whole e, Script.compile s = .ok p ∧ p.body = [.returns whole (some e)] ∧
      (n.text = Number.text n.toFloat → Script.ReadsBack n.text e v)
  plain : ∀ (l : Language) (s : Source) (t : Token), t ∈ (Token.lex l s).1 → t.kind = .number n →
    n.Plain → n.text = Number.text n.toFloat

/-- Only the last token of a text marks its end. -/
theorem Token.kinds_of_lex {l : Language} {s : Source} {ts : List Token} {final : Token}
    (hlex : Token.lex l s = (ts ++ [final], .empty)) :
    (∀ t ∈ ts, t.kind ≠ .endOfInput) ∧ final.kind = .endOfInput := by
  obtain ⟨us, last, hus, ends, kinds⟩ := Token.lex_eq_concat l s
  rw [hlex] at hus
  obtain ⟨rfl, heq⟩ := List.append_inj' hus rfl
  cases heq
  exact ⟨kinds, ends⟩

theorem Formula.readsBack_integer (k : Int64) (span record key index : Span) (v : Formula.Expr) :
    ReadsBack (.index span (.record record [.field ⟨(Literal.integer k).text, key⟩ v])
      (.integer index k)) v := by
  intro fuel evaluation locals st st' w h hw
  rw [ask_fieldRead, Run.bind_run h]
  unfold checkedRead
  split
  · exact absurd rfl (hw _ _ _)
  · rfl

theorem Formula.notFound {n : Literal} (lexed : n.Lexed) (other : ∀ k, n ≠ .integer k)
    (span record index : Span) (key : Name) (v : Formula.Expr) :
    NotFound (.index span (.record record [.field key v]) (Parser.literal index n)) v := by
  intro fuel evaluation locals st st' w h
  obtain ⟨r, hr, hask⟩ := ask_other fuel evaluation locals lexed other span record index key v
  exact ⟨r, hr, by rw [hask, Run.bind_run h]⟩

theorem Script.readsBack_of_text {n : Literal} (h : n.text = Number.text n.toFloat)
    (span object key index : Span) (v : Script.Expr) :
    ReadsBack n.text (.index span (.object object [.field ⟨n.text, key⟩ v])
      (.number index n.toFloat)) v := by
  intro fuel run block st st' w hv
  rw [ask_fieldRead fuel run block span object index ⟨n.text, key⟩ v n.toFloat hv, if_pos h.symm]

/-- The tokens that read a field are those of the field and of the number, and others. -/
theorem FieldRead.mem {n : Literal} {field ts : List Token} {l : Language}
    (h : FieldRead n field l ts) : (∃ t ∈ ts, t.kind = .number n) ∧ ∀ t ∈ field, t ∈ ts := by
  cases h with
  | @formula _ key => exact ⟨⟨⟨.number n, key⟩, by simp, rfl⟩, fun t ht => by simp [ht]⟩
  | @script _ _ _ key _ => exact ⟨⟨⟨.number n, key⟩, by simp, rfl⟩, fun t ht => by simp [ht]⟩

/-- A field under an integer of 64 bits is read back by a formula, and one under a number that is written
as its double is by a script. -/
theorem fields_read_back (n : Literal) (field : List Token) : FieldLaws n field where
  formula s ts final v hlex h hv := by
    obtain ⟨kinds, ends⟩ := Token.kinds_of_lex hlex
    obtain ⟨span, record, key, index, hwritten⟩ := Formula.written_fieldRead h hv
    refine ⟨_, Formula.compile_of_written hlex kinds ends (.expression hwritten), ?_, ?_⟩
    · rintro ⟨k, rfl⟩
      exact Formula.readsBack_integer k span record key index v
    · intro other
      obtain ⟨t, ht, hn⟩ := h.mem.1
      have hmem : t ∈ (Token.lex .formula s).1 := by
        rw [hlex]
        exact List.mem_append_left _ ht
      exact Formula.notFound (Token.Lexer.lexed_lexFrom _ _ hmem hn) other span record index _ v
  script s ts final v hlex h hv := by
    obtain ⟨kinds, ends⟩ := Token.kinds_of_lex hlex
    have hfield : ∀ t ∈ field, t.kind ≠ .endOfInput := fun t ht => kinds t (h.mem.2 t ht)
    obtain ⟨whole, span, object, key, index, m, hwritten⟩ := Script.written_fieldRead h ends
    obtain ⟨p, s', hbody, hreads⟩ := Script.Parser.reads_of_around hv rfl hfield kinds ends hwritten
    exact ⟨p, whole, _, Script.compile_of_reads hlex hreads, hbody,
      fun htext => Script.readsBack_of_text htext span object key index v⟩
  plain l s t ht hn plain := Literal.text_of_plain (Token.Lexer.lexed_lexFrom _ _ ht hn) plain

/-! ## Texts with such fields -/

/-- A stretch of a text of one line. -/
def onLine (i j : Nat) : Span :=
  ⟨i, j, 1, i + 1⟩

theorem lex_fields : Token.lex .formula ⟨"", "\x7b1:2\x7d[1]"⟩ =
    ([⟨.symbol .leftBrace, onLine 0 1⟩, ⟨.number (.integer 1), onLine 1 2⟩,
      ⟨.symbol .colon, onLine 2 3⟩, ⟨.number (.integer 2), onLine 3 4⟩,
      ⟨.symbol .rightBrace, onLine 4 5⟩, ⟨.symbol .leftBracket, onLine 5 6⟩,
      ⟨.number (.integer 1), onLine 6 7⟩, ⟨.symbol .rightBracket, onLine 7 8⟩] ++
      [⟨.endOfInput, onLine 8 8⟩], .empty) ∧
    Token.lex .script ⟨"", "return(\x7b1.5:2\x7d)[1.5]"⟩ =
      ([⟨.word .returnWord, onLine 0 6⟩, ⟨.symbol .leftParen, onLine 6 7⟩,
        ⟨.symbol .leftBrace, onLine 7 8⟩, ⟨.number (.float 1.5), onLine 8 11⟩,
        ⟨.symbol .colon, onLine 11 12⟩, ⟨.number (.integer 2), onLine 12 13⟩,
        ⟨.symbol .rightBrace, onLine 13 14⟩, ⟨.symbol .rightParen, onLine 14 15⟩,
        ⟨.symbol .leftBracket, onLine 15 16⟩, ⟨.number (.float 1.5), onLine 16 19⟩,
        ⟨.symbol .rightBracket, onLine 19 20⟩] ++
        [⟨.endOfInput, onLine 20 20⟩], .empty) := by
  rw [Token.lex_ofList, Token.lex_ofList]
  with_unfolding_all decide

theorem plain_fraction : Literal.Plain (.float 1.5) := by
  refine .float (q := 3 / 2) ?_ fun n hn => ?_
  · have hexact : Number.exact 1.5 = .finite false (3 * 2 ^ 51) (-52) := rfl
    rw [Number.value?_of_exact hexact]
    norm_num
  · have htwice : 3 = n * 2 := by
      rw [div_eq_iff two_ne_zero] at hn
      exact_mod_cast hn
    omega

/-- A field under an integer in a formula, and one under a fraction in a script. -/
theorem literal_fields_are_two :
    (∃ e, Formula.compile ⟨"", "\x7b1:2\x7d[1]"⟩ = .ok e ∧ ∀ evaluation locals st,
      (Engine.ofFuel 3).ask (.formula evaluation locals e) st = .ok (.integer 2) st) ∧
    ∃ p whole e, Script.compile ⟨"", "return(\x7b1.5:2\x7d)[1.5]"⟩ = .ok p ∧
      p.body = [.returns whole (some e)] ∧ ∀ run block st,
      (Engine.ofFuel 3).ask (.expression run block e) st =
        .ok (.number 2) (Script.withObject st [((Literal.float 1.5).text, .number 2)]) := by
  have hformula : Formula.Grammar.Expression 63 [⟨.number (.integer 2), onLine 3 4⟩]
      (.integer (onLine 3 4) 2) := Formula.expression_of_suffixed (.primary .number)
  have hscript : Script.Parser.Takes 62 [⟨.number (.integer 2), onLine 12 13⟩]
      (.number (onLine 12 13) (Literal.integer 2).toFloat) :=
    Script.Parser.takes_of_level (by
      rw [← Script.Grammar.around_nothing]
      exact Script.Grammar.around_suffixed (.primary .number))
  obtain ⟨hinteger, hfraction⟩ := lex_fields
  constructor
  · obtain ⟨e, hcompile, hreads, -⟩ := (fields_read_back (.integer 1) _).formula _ _ _ _
      hinteger .formula hformula
    refine ⟨e, hcompile, fun evaluation locals st => ?_⟩
    exact hreads ⟨1, rfl⟩ 1 evaluation locals st st (.integer 2) rfl (by simp)
  · have hlaws := fields_read_back (.float 1.5) [⟨.number (.integer 2), onLine 12 13⟩]
    obtain ⟨p, whole, e, hcompile, hbody, hreads⟩ := hlaws.script _ _ _ _ hfraction
      (.script (by decide)) hscript
    have htext := hlaws.plain .script _ ⟨.number (.float 1.5), onLine 8 11⟩
      (by rw [hfraction]; simp) rfl plain_fraction
    refine ⟨p, whole, e, hcompile, hbody, fun run block st => ?_⟩
    exact hreads htext 1 run block st st (.number 2) rfl

theorem fraction_index : Number.text 1.5 = "1.5" ∧ Token.lex .formula ⟨"", "\x7b1.5:2\x7d[1.5]"⟩ =
    ([⟨.symbol .leftBrace, onLine 0 1⟩, ⟨.number (.float 1.5), onLine 1 4⟩,
      ⟨.symbol .colon, onLine 4 5⟩, ⟨.number (.integer 2), onLine 5 6⟩,
      ⟨.symbol .rightBrace, onLine 6 7⟩, ⟨.symbol .leftBracket, onLine 7 8⟩,
      ⟨.number (.float 1.5), onLine 8 11⟩, ⟨.symbol .rightBracket, onLine 11 12⟩] ++
      [⟨.endOfInput, onLine 12 12⟩], .empty) := by
  rw [Token.lex_ofList]
  with_unfolding_all decide

/-- A field under a fraction is not read back by a formula, although its value is no failure. -/
theorem fraction_is_no_index :
    ∃ e, Formula.compile ⟨"", "\x7b1.5:2\x7d[1.5]"⟩ = .ok e ∧ ∀ evaluation locals st,
      (Engine.ofFuel 1).ask (.formula evaluation locals (.integer (onLine 5 6) 2)) st =
        .ok (.integer 2) st ∧
      (Engine.ofFuel 3).ask (.formula evaluation locals e) st =
        Run.mismatch "index must be an integer, got 1.5" st := by
  have hfield : Formula.Grammar.Expression 63 [⟨.number (.integer 2), onLine 5 6⟩]
      (.integer (onLine 5 6) 2) := Formula.expression_of_suffixed (.primary .number)
  obtain ⟨htext, hlex⟩ := fraction_index
  obtain ⟨kinds, ends⟩ := Token.kinds_of_lex hlex
  obtain ⟨span, record, key, index, hwritten⟩ :=
    Formula.written_fieldRead (n := .float 1.5) .formula hfield
  refine ⟨_, Formula.compile_of_written hlex kinds ends (.expression hwritten),
    fun evaluation locals st => ⟨rfl, ?_⟩⟩
  show (Engine.ofFuel 3).ask (.formula evaluation locals (.index span (.record record [.field _ _])
    (.float index 1.5))) st = _
  rw [Formula.ask_index 1 evaluation locals (u := .float 1.5) rfl]
  show (Engine.ofFuel 2).item (.mapping [((Literal.float 1.5).text, .ready (.integer 2))] none)
    (.float 1.5) st = _
  rw [Formula.item_fraction 1 (by decide), htext]
  rfl

end Workbook
