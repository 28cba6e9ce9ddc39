/-
Integers as formulas write them.

A text of digits is a formula that comes to the number they write, and with a minus in front of them to
its negative, both exact and with the tag of integers (`digits_are_exact`).  So the least integer of
64 bits can be written, although its digits alone are too long for 64 bits.

The digits are one token (`lexFrom_digits`).  It holds the number, or digits of the number if 64 bits do
not hold it, and both come to the same value (`formula_literal`).
-/
import Mathlib
import Workbook.Proofs.Formula.Arithmetic
import Workbook.Proofs.Parser.Account
import Workbook.Proofs.Simulation

namespace Workbook

/-! ## The number that digits write -/

namespace Number

/-- The natural number that digits write, with the units last. -/
def written (ds : List Char) : Nat :=
  Nat.ofDigits 10 (ds.reverse.map fun c => c.toNat - '0'.toNat)

theorem ofDigits_eq_written (ds : List Char) : ofDigits ds = written ds := by
  induction ds using List.reverseRecOn with
  | nil => rfl
  | append_singleton ds c ih =>
    have hlast : ofDigits (ds ++ [c]) = 10 * ofDigits ds + (c.toNat - 48) := by
      unfold ofDigits
      rw [List.foldl_append]
      rfl
    have hfirst : written (ds ++ [c]) = (c.toNat - 48) + 10 * written ds := by
      unfold written
      rw [List.reverse_append, List.reverse_singleton, List.singleton_append, List.map_cons,
        Nat.ofDigits_cons]
      rfl
    rw [hlast, hfirst, ih, Nat.add_comm]

/-- Zeros in front of a number do not count. -/
theorem ofDigits_dropWhile_zero (ds : List Char) :
    ofDigits (ds.dropWhile (· = '0')) = ofDigits ds := by
  induction ds with
  | nil => rfl
  | cons c ds ih =>
    by_cases hc : c = '0'
    · subst hc
      exact ih
    · rw [List.dropWhile_cons_of_neg (by simpa using hc)]

end Number

/-! ## Tokens -/

namespace Token
namespace Lexer

variable {ds : List Char} (digits : ∀ c ∈ ds, c.isDigit = true)

include digits in
theorem digitsLength_digits : digitsLength ds = ds.length := by
  unfold digitsLength
  rw [List.takeWhile_eq_self_iff.2 digits]

include digits in
/-- Digits alone are a number without fraction and exponent. -/
theorem numberLength_digits : numberLength ds = ds.length := by
  unfold numberLength
  simp only [digitsLength_digits digits, List.drop_length, fractionLength, exponentLength,
    Nat.add_zero]

include digits in
theorem literal_digits : literal ds =
    if Number.fitsWord (Number.ofDigits ds) then .integer (Int64.ofNat (Number.ofDigits ds))
    else .big (String.ofList (ds.dropWhile (· = '0'))) := by
  unfold literal
  rw [if_neg (by rw [digitsLength_digits digits]; exact Nat.lt_irrefl _)]

/-- A digit is no blank and begins no comment. -/
theorem blanks_of_isDigit {c : Char} (hc : c.isDigit = true) (cs : List Char) :
    blanks 0 0 .code (c :: cs) = (0, none) := by
  have hne (d : Char) (hd : d.isDigit = false) : c ≠ d := by
    rintro rfl
    rw [hc] at hd
    cases hd
  have hslash := hne '/' (by decide)
  rw [blanks, if_neg]
  · rintro (h | h | h | h)
    · exact hne ' ' (by decide) h
    · exact hne '\t' (by decide) h
    · exact hne '\r' (by decide) h
    · exact hne '\n' (by decide) h
  · exact fun _ h _ => hslash h
  · exact fun _ h _ => hslash h

include digits in
/-- Digits are one token. -/
theorem lexFrom_digits (hne : ds ≠ []) (l : Language) {c : Cursor} (hc : c.rest = ds) :
    ∃ (span : Span) (final : Token), lexFrom l .empty ⟨c, []⟩ =
      ([⟨.number (literal ds), span⟩] ++ [final], .empty) ∧ final.kind = .endOfInput := by
  obtain ⟨ch, rest, rfl⟩ := List.exists_cons_of_ne_nil hne
  have hch : ch.isDigit = true := digits ch List.mem_cons_self
  have hstep : codeStep l ch ⟨c, []⟩ =
      plainStep (.number (literal (ch :: rest))) (ch :: rest).length ⟨c, []⟩ [] := by
    unfold codeStep
    rw [if_pos hch]
    simp only [hc, numberLength_digits digits, List.take_length]
  have hend : (c.drop (ch :: rest).length).rest = [] := by
    rw [Cursor.rest_drop, hc, List.drop_length]
  refine ⟨c.span (ch :: rest).length, finish (c.drop (ch :: rest).length), ?_, rfl⟩
  rw [lexFrom_plain hc (blanks_of_isDigit hch rest) hstep, lexFrom_nil hend]
  rfl

include digits in
/-- A minus before digits is a token of its own. -/
theorem lexFrom_minus_digits (hne : ds ≠ []) {c : Cursor} (hc : c.rest = '-' :: ds) :
    ∃ (minus span : Span) (final : Token), lexFrom .formula .empty ⟨c, []⟩ =
      ([⟨.symbol .minus, minus⟩, ⟨.number (literal ds), span⟩] ++ [final], .empty) ∧
      final.kind = .endOfInput := by
  have hstep : codeStep .formula '-' ⟨c, []⟩ = plainStep (.symbol .minus) 1 ⟨c, []⟩ [] := by
    obtain ⟨_, place⟩ := c
    cases hc
    rfl
  have hdrop : (c.drop 1).rest = ds := by
    rw [Cursor.rest_drop, hc]
    rfl
  obtain ⟨span, final, hlex, ends⟩ := lexFrom_digits digits hne .formula hdrop
  refine ⟨c.span 1, span, final, ?_, ends⟩
  rw [lexFrom_plain hc rfl hstep, hlex]
  rfl

end Lexer
end Token

/-! ## Expressions -/

namespace Formula

/-- What the grammar says of the tokens of a text without problems is what the text comes to. -/
theorem compile_of_written {s : Source} {ts : List Token} {final : Token} {e : Expr}
    (hlex : Token.lex .formula s = (ts ++ [final], .empty)) (body : ∀ t ∈ ts, t.kind ≠ .endOfInput)
    (ends : final.kind = .endOfInput) (h : Grammar.Written final.span ts e) : compile s = .ok e := by
  rw [Workbook.Parser.compile_formula]
  refine Workbook.Parser.settled_of_reads Parser.grows_whole (by rw [hlex]) ?_
  rw [hlex]
  exact (Parser.reads_whole_iff body ends ⟨rfl, rfl⟩ rfl).2 h

/-- An operand alone is an expression. -/
theorem expression_of_suffixed {d : Nat} {ts : List Token} {e : Expr}
    (h : Grammar.Suffixed (Grammar.Expression d) false ts e) : Grammar.Expression (d + 1) ts e := by
  cases d with
  | zero => exact ⟨_, .one (.one (.one (.one (.one (.one (.suffixed h))))))⟩
  | succ d => exact ⟨_, .one (.one (.one (.one (.one (.one (.suffixed h))))))⟩

/-- Digits come to the number that they write, whether 64 bits hold it or not. -/
theorem formula_literal (e : Engine) (evaluation : Nat) (locals : List (String × Value)) (span : Span)
    {ds : List Char} (digits : ∀ c ∈ ds, c.isDigit = true) :
    e.formula evaluation locals (Parser.literal span (Token.Lexer.literal ds)) =
      pure (.ofInt (Number.written ds)) := by
  rw [Token.Lexer.literal_digits digits, Number.ofDigits_eq_written]
  by_cases fits : Number.fitsWord (Number.written ds) = true
  · rw [if_pos fits]
    have hvalue : Value.ofInt (Number.written ds) = .integer (Int64.ofNat (Number.written ds)) := by
      unfold Value.ofInt
      rw [if_pos fits, Int64.ofInt_eq_ofNat]
    rw [hvalue]
    rfl
  · rw [if_neg fits]
    show pure (Value.ofInt (Number.ofDigits (String.ofList (ds.dropWhile (· = '0'))).toList)) = _
    rw [String.toList_ofList, Number.ofDigits_dropWhile_zero, Number.ofDigits_eq_written]

/-- The negative of an integer. -/
theorem formula_neg {e : Engine} {evaluation : Nat} {locals : List (String × Value)} (span : Span)
    {operand : Expr} {n : Int} (ask : e.ask (.formula evaluation locals operand) = pure (.ofInt n)) :
    e.formula evaluation locals (.unary span .neg operand) = pure (.ofInt (-n)) := by
  show (e.ask (.formula evaluation locals operand) >>= fun v => Run.ofExcept (negate v)) = _
  rw [ask, pure_bind, negate_of_int (Value.isInt_ofInt n).exact]
  rfl

/-! ## Whole texts -/

/-- The store after an evaluation in a scope that made nothing. -/
def afterEvaluation (s : Store) (scope : Scope Value) (maxDepth : Nat) : Store :=
  { s with evaluations := s.evaluations.push ⟨scope, 0, maxDepth⟩ }

/-- A text that has a value as a formula, wherever it stands: it comes to this value in every scope,
an expression with this text has it as its outcome, and nothing else is left behind. -/
structure HasValue (text : String) (v : Value) : Prop where
  runs : ∃ e, (∀ name, compile ⟨name, text⟩ = .ok e) ∧ ∀ fuel scope maxDepth s,
    (Engine.ofFuel (fuel + 2)).runFormula scope maxDepth e s = .ok v (afterEvaluation s scope maxDepth)
  executes : ∀ (fuel place : Nat) (σ : Session) (x : Outline.Expression) (s : Store),
    σ.sourceText x = text → ∃ n, (Engine.ofFuel (fuel + 2)).executeFormula place σ x s =
      .ok (.value n v) (afterEvaluation s (.folder place x.parent) σ.settings.maxCallDepth)

/-- The native value of an integer is a number or a long integer; freezing it changes nothing. -/
theorem native_ofInt (e : Engine) (n : Int) :
    ∃ m, e.native (.ofInt n) = pure m ∧ ∀ s : Store, s.freeze m = s := by
  unfold Value.ofInt
  split
  · refine ⟨_, rfl, fun s => Store.freeze_eq_self ?_⟩
    split <;> rfl
  · exact ⟨_, rfl, fun s => Store.freeze_eq_self rfl⟩

/-- An expression comes to what its text comes to as a formula. -/
theorem hasValue_ofInt {text : String} {e : Expr} {n : Int}
    (compiles : ∀ name, compile ⟨name, text⟩ = .ok e)
    (comes : ∀ fuel evaluation, (Engine.ofFuel (fuel + 2)).ask (.formula evaluation [] e) =
      pure (.ofInt n)) : HasValue text (.ofInt n) := by
  have hrun (fuel : Nat) (scope : Scope Value) (maxDepth : Nat) (s : Store) :
      (Engine.ofFuel (fuel + 2)).runFormula scope maxDepth e s =
        .ok (.ofInt n) (afterEvaluation s scope maxDepth) := by
    show (Engine.ofFuel (fuel + 2)).ask (.formula s.evaluations.size [] e)
      (afterEvaluation s scope maxDepth) = _
    rw [comes]
    rfl
  refine ⟨⟨e, compiles, hrun⟩, fun fuel place σ x s htext => ?_⟩
  obtain ⟨m, hnative, hfreeze⟩ := native_ofInt (Engine.ofFuel (fuel + 1)) n
  have hask : (Engine.ofFuel (fuel + 2)).ask (.native (.ofInt n)) = pure m := hnative
  have houtcome : Run.outcome ((Engine.ofFuel (fuel + 2)).runFormula (.folder place x.parent)
      σ.settings.maxCallDepth e) s =
      .ok (.ok (.ofInt n)) (afterEvaluation s (.folder place x.parent) σ.settings.maxCallDepth) := by
    unfold Run.outcome
    rw [hrun]
  refine ⟨m, ?_⟩
  unfold Engine.executeFormula
  simp only [htext, compiles]
  rw [Run.bind_run houtcome]
  simp only [hask, pure_bind]
  show EStateM.Result.ok _ (Store.freeze _ m) = _
  rw [hfreeze]

section

variable {ds : List Char} (hne : ds ≠ []) (digits : ∀ c ∈ ds, c.isDigit = true)

include hne digits in
theorem hasValue_digits : HasValue (String.ofList ds) (.ofInt (Number.written ds)) := by
  have hrest : (Cursor.start (String.ofList ds)).rest = ds := String.toList_ofList
  obtain ⟨span, final, hlex, ends⟩ := Token.Lexer.lexFrom_digits digits hne .formula hrest
  have hwritten (n : Token.Literal) :
      Grammar.Written final.span [⟨.number n, span⟩] (Parser.literal span n) :=
    .expression ⟨_, .one (.one (.one (.one (.one (.one (.suffixed (.primary .number)))))))⟩
  refine hasValue_ofInt (fun name => compile_of_written hlex (by simp) ends (hwritten _))
    fun fuel evaluation => ?_
  exact formula_literal (Engine.ofFuel (fuel + 1)) evaluation [] span digits

include hne digits in
theorem hasValue_minus_digits :
    HasValue (String.ofList ('-' :: ds)) (.ofInt (-(Number.written ds : Int))) := by
  have hrest : (Cursor.start (String.ofList ('-' :: ds))).rest = '-' :: ds := String.toList_ofList
  obtain ⟨minus, span, final, hlex, ends⟩ := Token.Lexer.lexFrom_minus_digits digits hne hrest
  have hwritten (n : Token.Literal) : Grammar.Written final.span
      [⟨.symbol .minus, minus⟩, ⟨.number n, span⟩]
      (.unary (minus.merge (Parser.literal span n).span) .neg (Parser.literal span n)) :=
    .expression ⟨_, .one (.one (.one (.one (.one (.one (.neg (.suffixed (.primary .number))))))))⟩
  refine hasValue_ofInt (fun name => compile_of_written hlex (by simp) ends (hwritten _))
    fun fuel evaluation => ?_
  have hask := formula_literal (Engine.ofFuel fuel) evaluation [] span digits
  exact formula_neg (minus.merge (Parser.literal span (Token.Lexer.literal ds)).span) hask

include hne digits in
/-- Digits are the number that they write, and with a minus in front of them its negative. -/
theorem digits_are_exact : ∃ v w : Value, v.IsInt (Number.written ds) ∧
    w.IsInt (-(Number.written ds : Int)) ∧ HasValue (String.ofList ds) v ∧
    HasValue (String.ofList ('-' :: ds)) w :=
  ⟨_, _, Value.isInt_ofInt _, Value.isInt_ofInt _, hasValue_digits hne digits,
    hasValue_minus_digits hne digits⟩

end

/-- The digits of the least integer of 64 bits are a long integer, the negative is none. -/
theorem least_word_is_written : ∃ v : Value, ∃ word : Int64, v.IsInt 9223372036854775808 ∧
    word.toInt = -9223372036854775808 ∧ HasValue "9223372036854775808" v ∧
    HasValue "-9223372036854775808" (.integer word) := by
  have hdigits : ∀ c ∈ "9223372036854775808".toList, c.isDigit = true :=
    List.all_eq_true.1 (by decide)
  have hnumber : Number.written "9223372036854775808".toList = 9223372036854775808 := by
    simp [Number.written, Nat.ofDigits]
  have htext : String.ofList ('-' :: "9223372036854775808".toList) = "-9223372036854775808" := by
    decide
  obtain ⟨v, w, hv, hw, hdigits, hminus⟩ := digits_are_exact (by decide) hdigits
  rw [hnumber] at hv hw
  rw [String.ofList_toList] at hdigits
  rw [htext] at hminus
  obtain ⟨word, rfl⟩ := hw.tag.2 (by decide)
  exact ⟨v, word, hv, Option.some.inj hw.exact, hdigits, hminus⟩

end Formula
end Workbook
