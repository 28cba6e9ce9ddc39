/-
What is printed is read again: functions, and what they are made of, and then statements.

The semicolon that a statement is printed with ends it.  What is printed of `if` without `else` needs
to know that no `else` comes next, and so does what ends in such a statement.
-/
import Workbook.Proofs.Script.Printed

namespace Workbook
namespace Script

open Token (Kind Symbol Keyword)
open Workbook.Parser (Phrase Listed Items Holes Parameters Starts keyText? textPiece lastSpan)
open Grammar (opensStatement starts_level)

variable {style : Style} {n line : Nat} {ts : List Token}

/-! ## Strings with expressions -/

section Pieces

theorem unplacedPieces_append (ps qs : List (Piece Expr)) :
    unplacedPieces (ps ++ qs) = unplacedPieces ps ++ unplacedPieces qs := by
  rw [unplacedPieces_eq, unplacedPieces_eq, unplacedPieces_eq, List.map_append]

theorem textPiece_of_ne {s : String} (h : s.isEmpty = false) :
    (textPiece s : List (Piece Expr)) = [.text s] := by
  rw [textPiece, h]
  rfl

/-- Pieces behind a text: nothing but the end of the string, or a token with the text and what comes
after it. -/
theorem pieces_of_fits {pieces : List (Piece Expr)} {mark : String → Kind} {text : String}
    (regular : regularPieces pieces (!text.isEmpty) = true)
    (h : ∀ e, .hole e ∈ pieces → e.Prints style)
    (fits : (printPieces style pieces mark text).Fits n line ts) :
    (hasHole pieces = false ∧ ∃ text' final, ts = [⟨.stringEnd text', final⟩] ∧
      textPiece text' = textPiece text ++ pieces) ∨
    ∃ text' first us ps, ts = ⟨mark text', first⟩ :: us ∧ Holes (Grammar.level false n).expr us ps ∧
      unplacedPieces (textPiece text' ++ ps) = unplacedPieces (textPiece text ++ pieces) := by
  induction pieces generalizing mark text ts with
  | nil =>
    obtain ⟨final, -, rfl⟩ := fits.token
    exact .inl ⟨rfl, text, final, rfl, (List.append_nil _).symm⟩
  | cons p rest ih =>
    cases p with
    | text s =>
      simp only [regularPieces, Bool.and_eq_true, Bool.not_eq_true'] at regular
      obtain ⟨⟨hbefore, hs⟩, hrest⟩ := regular
      have hnone : (textPiece text : List (Piece Expr)) = [] := by
        rw [Bool.not_eq_false'] at hbefore
        rw [textPiece, if_pos hbefore]
      have hpieces : textPiece s ++ rest = textPiece text ++ .text s :: rest := by
        rw [textPiece_of_ne hs, hnone]
        rfl
      have hmem (e : Expr) (he : .hole e ∈ rest) : e.Prints style := h e (List.mem_cons_of_mem _ he)
      rw [← hpieces]
      exact ih (by rw [hs]; exact hrest) hmem fits
    | hole e =>
      simp only [regularPieces, Bool.and_eq_true] at regular
      obtain ⟨first, us, -, rfl, hus⟩ := fits.cons
      obtain ⟨start, vs, -, rfl, hvs⟩ := hus.cons
      obtain ⟨es, ws, rfl, hes, hws⟩ := hvs.append
      obtain ⟨stop, tail, -, rfl, htail⟩ := hws.cons
      obtain ⟨e', he, hplain⟩ := (h e List.mem_cons_self).inside hes
      have hmem (e : Expr) (he : .hole e ∈ rest) : e.Prints style := h e (List.mem_cons_of_mem _ he)
      have hregular : regularPieces rest (!("" : String).isEmpty) = true := regular.2
      obtain ⟨-, text', final, rfl, htext⟩ | ⟨text', next, xs, ps, rfl, hps, hplains⟩ :=
        ih hregular hmem htail
      · refine .inr ⟨text, first, _, .hole e' :: textPiece text', rfl, .last he, ?_⟩
        have hrest : textPiece text' = rest := htext
        rw [hrest, unplacedPieces_append, unplacedPieces_append, unplacedPieces, unplacedPieces, hplain]
      · refine .inr ⟨text, first, _, .hole e' :: textPiece text' ++ ps, rfl, .more he hps, ?_⟩
        have hrest : unplacedPieces (textPiece text' ++ ps) = unplacedPieces rest := hplains
        rw [List.cons_append, unplacedPieces_append, unplacedPieces_append, unplacedPieces,
          unplacedPieces, hplain, hrest]

theorem Expr.prints_template {span : Span} {pieces : List (Piece Expr)}
    (regular : (Expr.template span pieces).regular = true)
    (h : ∀ e, .hole e ∈ pieces → e.Prints style) : (template span pieces).Prints style := by
  simp only [Expr.regular, Bool.and_eq_true] at regular
  intro n line ts fits
  have hregular : regularPieces pieces (!("" : String).isEmpty) = true := regular.2
  obtain ⟨hnone, -⟩ | ⟨text, first, us, ps, rfl, hps, hplain⟩ := pieces_of_fits hregular h fits
  · rw [regular.1] at hnone
    cases hnone
  · exact ⟨_, Grammar.Primary.template hps, congrArg (Expr.template default) hplain⟩

end Pieces

/-! ## Statements in braces -/

/-- Tokens that print the statement write it, up to where its parts stand, unless an `else` comes next
that would belong to it. -/
def Stmt.Prints (style : Style) (s : Stmt) (loop : Bool) : Prop :=
  ∀ ⦃n line ts next⦄, (s.print style).Fits n line ts →
    (s.dangles = true → next.kind ≠ .word .elseWord) →
    ∃ s' m, Grammar.Statement (Grammar.level false n).expr false m loop ts s' next ∧
      s'.unplaced = s.unplaced

/-- Tokens that print the statements write them, up to where their parts stand, unless an `else` comes
next. -/
def StatementsPrint (style : Style) (body : List Stmt) (loop : Bool) : Prop :=
  ∀ ⦃n line ts next⦄, (printStatements style body).Fits n line ts → next.kind ≠ .word .elseWord →
    ∃ body' m, Grammar.Statements (Grammar.Statement (Grammar.level false n).expr false m loop) ts body'
      next ∧ unplacedStatements body' = unplacedStatements body

namespace Grammar

/-- No statement begins with `else`. -/
theorem not_else_of_statement {m : Nat} {loop : Bool} {s : Stmt} {next : Token}
    (h : Statement (level false n).expr false m loop ts s next) :
    ∃ t us, ts = t :: us ∧ t.kind ≠ .word .elseWord := by
  cases m with
  | zero => exact h.elim
  | succ m =>
    cases h with
    | declaration hd _ =>
      cases hd with
      | value hk _ =>
        refine ⟨_, _, rfl, ?_⟩
        rintro rfl
        cases hk
      | bare => exact ⟨_, _, rfl, by simp⟩
    | expr he _ _ =>
      obtain ⟨t, us, rfl, ht⟩ := (starts_level false n).1 he
      refine ⟨t, _, rfl, fun hk => ?_⟩
      rw [hk] at ht
      cases ht
    | _ => exact ⟨_, _, rfl, by simp⟩

theorem not_else_of_statements {m : Nat} {loop : Bool} {body : List Stmt} {next final : Token}
    (h : Statements (Statement (level false n).expr false m loop) ts body next)
    (hfinal : final.kind ≠ .word .elseWord) : (ts.headD final).kind ≠ .word .elseWord := by
  cases h with
  | nil => exact hfinal
  | cons hs _ =>
    obtain ⟨t, us, rfl, ht⟩ := not_else_of_statement hs
    exact ht

end Grammar

section Statements

variable {loop : Bool}

theorem statementsPrint_nil : StatementsPrint style [] loop := by
  intro n line ts next fits _
  obtain rfl := fits.empty
  exact ⟨[], 0, .nil, rfl⟩

theorem statementsPrint_cons {s : Stmt} {body : List Stmt} (hs : s.Prints style loop)
    (hbody : StatementsPrint style body loop) : StatementsPrint style (s :: body) loop := by
  intro n line ts next fits hnext
  obtain ⟨us, vs, rfl, hus, hvs⟩ := fits.append
  obtain ⟨body', m, hrest, hplains⟩ := hbody hvs hnext
  obtain ⟨s', m', hfirst, hplain⟩ := hs hus fun _ => Grammar.not_else_of_statements hrest hnext
  refine ⟨s' :: body', max m m', .cons (hfirst.mono (Nat.le_max_right m m')) ?_, ?_⟩
  · exact hrest.imp fun _ h => h.mono (Nat.le_max_left m m')
  · rw [unplacedStatements, unplacedStatements, hplain, hplains]

theorem StatementsPrint.braces {body : List Stmt} (h : StatementsPrint style body loop)
    (fits : (Print.braces (printStatements style body)).Fits n line ts) : ∃ first us last body' m,
    ts = ⟨.symbol .leftBrace, first⟩ :: (us ++ [⟨.symbol .rightBrace, last⟩]) ∧
      Grammar.Statements (Grammar.Statement (Grammar.level false n).expr false m loop) us body'
        ⟨.symbol .rightBrace, last⟩ ∧ unplacedStatements body' = unplacedStatements body := by
  obtain ⟨first, us, -, rfl, hus⟩ := fits.cons
  obtain ⟨vs, last, -, rfl, hvs⟩ := hus.concat
  have hlast : (⟨.symbol .rightBrace, last⟩ : Token).kind ≠ .word .elseWord := by simp
  obtain ⟨body', m, hbody, hplain⟩ := h hvs hlast
  exact ⟨first, vs, last, body', m, rfl, hbody, hplain⟩

end Statements

/-! ## Functions -/

/-- Tokens that print what is in the body write it, up to where its parts stand. -/
def Body.Prints (style : Style) : Body → Prop
  | .block body => StatementsPrint style body false
  | .expr e => e.Prints style

/-- Tokens that print what may begin in this way only in parentheses do not begin so. -/
theorem Expr.Prints.guarded {e : Expr} {begins : List Kind → Bool} (h : e.Prints style)
    (careful : style.careful = true) (hparen : ∀ ks, begins (.symbol .leftParen :: ks) = false)
    (fits : ((e.print style).guarded style.careful begins).inside.Fits n line ts) :
    ∃ e', (Grammar.level false n).expr ts e' ∧ e'.unplaced = e.unplaced ∧
      begins (ts.map Token.kind) = false := by
  unfold Print.guarded at fits
  rw [careful, Bool.true_and] at fits
  split at fits
  · obtain ⟨m, rfl, inner⟩ := fits.inside
    have hone : 1 ≤ 14 := by decide
    obtain ⟨e', he, hplain⟩ := h.parenthesized hone inner
    obtain ⟨first, last, us, rfl, -⟩ := inner.parenthesized
    exact ⟨e', he, hplain, hparen _⟩
  · rename_i hbegins
    obtain ⟨e', he, hplain⟩ := h.inside fits
    have hkinds : ts.map Token.kind = (e.print style).kinds := fits.kinds
    exact ⟨e', he, hplain, by rw [hkinds]; exact Bool.not_eq_true _ ▸ hbegins⟩

section Functions

variable {ps : List Name} {body : List Stmt}

/-- Tokens that print the body write what an arrow makes its value. -/
theorem Body.Prints.arrowBody {b : Body} (careful : style.careful = true) (h : b.Prints style)
    (fits : (b.print style).Fits n line ts) :
    ∃ b', Grammar.ArrowBody (Grammar.level false n).expr
      (Grammar.Block (Grammar.level false n).expr false) ts b' ∧ b'.unplaced = b.unplaced := by
  cases b with
  | block body =>
    obtain ⟨first, us, last, body', m, rfl, hbody, hplain⟩ := StatementsPrint.braces h fits
    exact ⟨.block body', .block ⟨m, .mk hbody⟩, congrArg Body.block hplain⟩
  | expr e =>
    have h : e.Prints style := h
    obtain ⟨e', he, hplain, hbegins⟩ := h.guarded careful (fun _ => rfl) fits
    refine ⟨.expr e', .expr he fun t ht hk => ?_, congrArg Body.expr hplain⟩
    rw [beginsBlock, List.head?_map, ht, Option.map_some, hk] at hbegins
    cases hbegins

/-- Names in parentheses and statements in braces. -/
theorem StatementsPrint.behindName (h : StatementsPrint style body false)
    (fits : (Print.parameters ps ++ Print.braces (printStatements style body)).Fits n line ts) :
    ∃ us vs ps' body', ts = us ++ vs ∧ Parameters us ps' ∧
      (∃ m, Grammar.Braced (Grammar.Statement (Grammar.level false n).expr false m false) vs body') ∧
      ps'.map Name.unplaced = ps.map Name.unplaced ∧
      unplacedStatements body' = unplacedStatements body := by
  obtain ⟨us, vs, rfl, hus, hvs⟩ := fits.append
  obtain ⟨ps', hps, hnames⟩ := hus.parameters
  obtain ⟨first, ws, last, body', m, rfl, hbody, hplain⟩ := h.braces hvs
  exact ⟨us, _, ps', body', rfl, hps, ⟨m, .mk hbody⟩, hnames, hplain⟩

theorem Function.phrase_of_fits {name : Option Name} {span : Span}
    (h : StatementsPrint style body false)
    (fits : (Print.word .functionWord ++ (name.elim .empty .name ++
      (Print.parameters ps ++ Print.braces (printStatements style body)))).Fits n line ts) :
    ∃ f', Grammar.FunctionPhrase (Grammar.Block (Grammar.level false n).expr false) ts f' ∧
      f'.unplaced = (Function.mk name ps (.block body) span).unplaced := by
  obtain ⟨first, us, -, rfl, hus⟩ := fits.cons
  obtain ⟨ns, vs, rfl, hns, hvs⟩ := hus.append
  obtain ⟨params, bs, ps', body', rfl, hps, hbody, hnames, hplain⟩ := h.behindName hvs
  cases name with
  | none =>
    obtain rfl := hns.empty
    rw [List.nil_append]
    exact ⟨_, .unnamed hps hbody, by rw [Function.unplaced, Body.unplaced, hnames, hplain]; rfl⟩
  | some name =>
    obtain ⟨span', -, rfl⟩ := hns.name
    rw [List.singleton_append]
    exact ⟨_, .named hps hbody, by rw [Function.unplaced, Body.unplaced, hnames, hplain]; rfl⟩

theorem Function.arrow_of_fits {b : Body} {span : Span} (careful : style.careful = true)
    (h : b.Prints style)
    (fits : (Print.arrowParameters ps ++ (Print.symbol .arrow ++ b.print style)).Fits n line ts) :
    ∃ e', Grammar.Arrow (Grammar.level false n).expr
        (Grammar.Block (Grammar.level false n).expr false) ts e' ∧
      e'.unplaced = .function (Function.mk none ps b span).unplaced := by
  obtain ⟨us, vs, rfl, hus, hvs⟩ := fits.append
  obtain ⟨arrow, bs, -, rfl, hbs⟩ := hvs.cons
  obtain ⟨b', hb, hplain⟩ := h.arrowBody careful hbs
  unfold Print.arrowParameters at hus
  split at hus
  · obtain ⟨span', -, rfl⟩ := hus.name
    exact ⟨_, .single hb, by rw [Expr.unplaced, Function.unplaced, hplain]; rfl⟩
  · obtain ⟨ps', hps, hnames⟩ := hus.parameters
    cases hps with
    | mk hlisted =>
      exact ⟨_, .listed (.mk hlisted) hb, by rw [Expr.unplaced, Function.unplaced, hplain, hnames]; rfl⟩

/-- Only a function without a name is written with an arrow. -/
theorem Function.name_of_isArrow {f : Function} (regular : f.regular = true)
    (harrow : f.isArrow style = true) : f.name = none := by
  obtain ⟨name, ps, b, span⟩ := f
  simp only [Function.regular, Bool.and_eq_true, Bool.or_eq_true] at regular
  simp only [Function.isArrow, Function.body, Function.name, Bool.or_eq_true, Bool.and_eq_true,
    Bool.not_eq_true'] at harrow
  obtain hnone | hblock := regular.1
  · exact Option.isNone_iff_eq_none.1 hnone
  · obtain hblock' | ⟨hnone, -⟩ := harrow
    · rw [hblock] at hblock'
      cases hblock'
    · exact Option.isNone_iff_eq_none.1 hnone

/-- A function that is not written with an arrow has a block. -/
theorem Function.block_of_not_isArrow {f : Function} (harrow : ¬ f.isArrow style = true) :
    ∃ body, f.body = .block body := by
  obtain ⟨name, ps, b, span⟩ := f
  cases b with
  | expr e => exact absurd rfl harrow
  | block body => exact ⟨body, rfl⟩

theorem Expr.prints_function {f : Function} (careful : style.careful = true)
    (regular : f.regular = true) (h : f.body.Prints style) : (function f).Prints style := by
  intro n line ts fits
  by_cases harrow : f.isArrow style = true
  · have hname := Function.name_of_isArrow regular harrow
    obtain ⟨name, ps, b, span⟩ := f
    obtain rfl : name = none := hname
    rw [Expr.print, Function.print, Print.function, if_pos harrow] at fits
    rw [Expr.prec, if_pos harrow]
    obtain ⟨e', he, hplain⟩ := Function.arrow_of_fits careful h fits
    exact ⟨e', .arrow he, hplain⟩
  · obtain ⟨body, hbody⟩ := Function.block_of_not_isArrow harrow
    obtain ⟨name, ps, b, span⟩ := f
    obtain rfl : b = .block body := hbody
    rw [Expr.print, Function.print, Print.function, if_neg harrow] at fits
    rw [Expr.prec, if_neg harrow]
    obtain ⟨f', hf, hplain⟩ := Function.phrase_of_fits h fits
    exact ⟨.function f', .function hf, congrArg Expr.function hplain⟩

end Functions

/-! ## Objects -/

/-- Tokens that print the entry write it, up to where its parts stand. -/
def EntryPrints (style : Style) (a : Entry Expr) : Prop :=
  ∀ ⦃n line ts⦄, (printEntry style a).Fits n line ts →
    ∃ a', Grammar.Entries (Grammar.level false n).expr
      (Grammar.Block (Grammar.level false n).expr false) ts a' ∧ unplacedEntry a' = unplacedEntry a

section Objects

variable {e : Expr} {key : Name}

theorem entryPrints_spread (h : e.Prints style) : EntryPrints style (.spread e) := by
  intro n line ts fits
  obtain ⟨dots, us, -, rfl, hus⟩ := fits.cons
  obtain ⟨e', he, hplain⟩ := h.inside hus
  exact ⟨.spread e', .spread he, congrArg Entry.spread hplain⟩

/-- A key and a value. -/
theorem Expr.Prints.entry (h : e.Prints style)
    (fits : (Print.name key ++ (Print.symbol .colon ++ (e.print style).inside)).Fits n line ts) :
    ∃ a', Grammar.Entries (Grammar.level false n).expr
      (Grammar.Block (Grammar.level false n).expr false) ts a' ∧
        unplacedEntry a' = unplacedEntry (.field key e) := by
  obtain ⟨span, us, -, rfl, hus⟩ := fits.cons
  obtain ⟨colon, vs, -, rfl, hvs⟩ := hus.cons
  obtain ⟨e', he, hplain⟩ := h.inside hvs
  exact ⟨.field ⟨key.text, span⟩ e', .field rfl he, by rw [unplacedEntry, hplain]; rfl⟩

theorem entryPrints_field (h : e.Prints style) (regular : e.regular = true)
    (hbody : ∀ f, e = .function f → f.body.Prints style) : EntryPrints style (.field key e) := by
  intro n line ts fits
  change (Print.field key e (e.print style)).Fits n line ts at fits
  unfold Print.field at fits
  split at fits
  · split at fits
    · rename_i hs
      subst hs
      obtain ⟨span', -, rfl⟩ := fits.name
      exact ⟨_, .short, rfl⟩
    · exact h.entry fits
  · rename_i f
    split at fits
    · rename_i hname
      have hnamed : ¬ f.isArrow style = true := by
        intro harrow
        rw [Function.name_of_isArrow regular harrow] at hname
        cases hname
      obtain ⟨body, hblock⟩ := Function.block_of_not_isArrow hnamed
      have hbody := hbody f rfl
      obtain ⟨name, ps, b, span⟩ := f
      obtain rfl : b = .block body := hblock
      obtain ⟨name, rfl, htext⟩ := Option.map_eq_some_iff.1 hname
      rw [Expr.print, Function.print, Print.function, if_neg hnamed, Print.word, Print.behind_token] at fits
      obtain ⟨span', us, -, rfl, hus⟩ := fits.cons
      obtain ⟨params, bs, ps', body', rfl, hps, hbraced, hnames, hplain⟩ :=
        StatementsPrint.behindName hbody hus
      refine ⟨_, .method rfl hps hbraced, ?_⟩
      simp only [unplacedEntry, Expr.unplaced, Function.unplaced, Body.unplaced, hnames, hplain,
        Name.unplaced, Option.map_some, Function.parameters, htext]
    · exact h.entry fits
  · exact h.entry fits

theorem Expr.prints_object {span : Span} {entries : List (Entry Expr)}
    (h : ∀ a ∈ entries, EntryPrints style a) : (object span entries).Prints style := by
  intro n line ts fits
  obtain ⟨first, us, -, rfl, hus⟩ := fits.cons
  obtain ⟨vs, last, -, rfl, hvs⟩ := hus.concat
  rw [printEntries_eq] at hvs
  obtain ⟨entries', hlisted, hplain⟩ := hvs.listed fun a ha ts fits => h a ha fits
  refine ⟨_, Grammar.Primary.object hlisted, ?_⟩
  rw [Expr.unplaced, Expr.unplaced, unplacedEntries_eq, unplacedEntries_eq, hplain]

end Objects

variable {span : Span} {e : Expr}

/-! ## Parts of statements -/

section Parts

theorem Declarator.declarator?_keyword (how : Declarator) :
    Parser.declarator? (.word how.keyword) = some how := by
  cases how <;> rfl

theorem opensStatement_eq (ts : List Token) :
    opensStatement ts = beginsStatement (ts.map Token.kind) := by
  cases ts with
  | nil => rfl
  | cons t ts =>
    cases ts <;> simp [opensStatement, beginsStatement, beginsBlock]

/-- What may be left out. -/
theorem possibly_of_fits {value : Option Expr} (h : ∀ e ∈ value, e.Prints style)
    (fits : (printOption style value).Fits n line ts) :
    ∃ value', Grammar.Possibly (Grammar.level false n).expr ts value' ∧
      unplacedOption value' = unplacedOption value := by
  cases value with
  | none =>
    obtain rfl := fits.empty
    exact ⟨none, .none, rfl⟩
  | some e =>
    obtain ⟨e', he, hplain⟩ := (h e rfl).inside fits
    exact ⟨some e', .some he, by rw [unplacedOption, hplain]; rfl⟩

/-- A declaration with the semicolon that ends it. -/
theorem declaration_of_fits {how : Declarator} {key : Name} {value : Option Expr}
    (regular : (value.isSome || how = .variable) = true) (h : ∀ e ∈ value, e.Prints style)
    (fits : ((Stmt.declaration span how key value).print style).Fits n line ts) :
    ∃ us mark d, ts = us ++ [⟨.symbol .semicolon, mark⟩] ∧
      Grammar.Declaration (Grammar.level false n).expr us d ∧
      d.unplaced = (Stmt.declaration span how key value).unplaced := by
  obtain ⟨first, us, -, rfl, hus⟩ := fits.cons
  obtain ⟨span', vs, -, rfl, hvs⟩ := hus.cons
  cases value with
  | none =>
    obtain ⟨ws, xs, rfl, hws, hxs⟩ := hvs.append
    obtain ⟨ys, mark, -, rfl, hys⟩ := hxs.concat
    obtain rfl := hws.empty
    obtain rfl := hys.empty
    obtain rfl : how = .variable := of_decide_eq_true regular
    exact ⟨[⟨.word .letWord, first⟩, ⟨.name key.text, span'⟩], mark, _, rfl, .bare, rfl⟩
  | some e =>
    obtain ⟨eq, ws, -, rfl, hws⟩ := hvs.cons
    obtain ⟨xs, mark, -, rfl, hxs⟩ := hws.concat
    obtain ⟨e', he, hplain⟩ := (h e rfl).inside hxs
    refine ⟨_, mark, _, rfl, .value how.declarator?_keyword he, ?_⟩
    rw [Stmt.unplaced, unplacedOption, hplain]
    rfl

/-- Tokens that print what stands before the first semicolon of a loop write it, with the semicolon. -/
def StartPrints (style : Style) (start : Option Stmt) : Prop :=
  ∀ ⦃n line ts⦄, (printStart style start).Fits n line ts →
    ∃ us mark start', ts = us ++ [⟨.symbol .semicolon, mark⟩] ∧
      Grammar.LoopStart (Grammar.level false n).expr us start' ∧
      unplacedBranch start' = unplacedBranch start

theorem startPrints_none : StartPrints style none := by
  intro n line ts fits
  obtain ⟨mark, -, rfl⟩ := fits.token
  exact ⟨[], mark, none, rfl, .none, rfl⟩

theorem startPrints_expr (h : e.Prints style) : StartPrints style (some (.expr e)) := by
  intro n line ts fits
  obtain ⟨us, mark, -, rfl, hus⟩ := fits.concat
  obtain ⟨e', he, hplain⟩ := h.inside hus
  exact ⟨us, mark, _, rfl, .expr he, by rw [unplacedBranch, Stmt.unplaced, hplain]; rfl⟩

theorem startPrints_declaration {how : Declarator} {key : Name} {value : Option Expr}
    (regular : (value.isSome || how = .variable) = true) (h : ∀ e ∈ value, e.Prints style) :
    StartPrints style (some (.declaration span how key value)) := by
  intro n line ts fits
  obtain ⟨us, mark, d, rfl, hd, hplain⟩ := declaration_of_fits regular h fits
  exact ⟨us, mark, _, rfl, .declaration hd, by rw [unplacedBranch, hplain]; rfl⟩

end Parts

/-! ## Statements -/

namespace Stmt

variable {loop : Bool}

theorem prints_declaration {how : Declarator} {key : Name} {value : Option Expr}
    (regular : (value.isSome || how = .variable) = true) (h : ∀ e ∈ value, e.Prints style) :
    (declaration span how key value).Prints style loop := by
  intro n line ts next fits _
  obtain ⟨us, mark, d, rfl, hd, hplain⟩ := declaration_of_fits regular h fits
  exact ⟨d, 1, .declaration hd .semicolon, hplain⟩

theorem prints_function {f : Function} (regular : (f.name.isSome && f.body.isBlock) = true)
    (h : f.body.Prints style) : (function f).Prints style loop := by
  intro n line ts next fits _
  obtain ⟨name, ps, b, span⟩ := f
  cases name with
  | none => cases regular
  | some name =>
    cases b with
    | expr e => cases regular
    | block body =>
      obtain ⟨first, us, -, rfl, hus⟩ := fits.cons
      obtain ⟨span', vs, -, rfl, hvs⟩ := hus.cons
      obtain ⟨params, bs, ps', body', rfl, hps, ⟨m, hbody⟩, hnames, hplain⟩ :=
        StatementsPrint.behindName h hvs
      refine ⟨_, m + 1, .function hps hbody, ?_⟩
      rw [Stmt.unplaced, Function.unplaced, Body.unplaced, hnames, hplain]
      rfl

theorem prints_branch_none {yes : Stmt} (he : e.Prints style) (hyes : yes.Prints style loop) :
    (branch span e yes none).Prints style loop := by
  intro n line ts next fits hnext
  have hnext := hnext rfl
  obtain ⟨first, us, -, rfl, hus⟩ := fits.cons
  obtain ⟨opening, vs, -, rfl, hvs⟩ := hus.cons
  obtain ⟨cs, ws, rfl, hcs, hws⟩ := hvs.append
  obtain ⟨closing, xs, -, rfl, hxs⟩ := hws.cons
  obtain ⟨ys, zs, rfl, hys, hzs⟩ := hxs.append
  obtain rfl := hzs.empty
  rw [List.append_nil]
  obtain ⟨e', hcondition, hplain⟩ := he.inside hcs
  obtain ⟨yes', m, hyes, hplain'⟩ := hyes hys fun _ => hnext
  exact ⟨_, m + 1, .ifThen hcondition hyes hnext, by rw [Stmt.unplaced, hplain, hplain']; rfl⟩

theorem prints_branch_some {yes no : Stmt} (he : e.Prints style) (hyes : yes.Prints style loop)
    (hno : no.Prints style loop) (regular : yes.dangles = false) :
    (branch span e yes (some no)).Prints style loop := by
  intro n line ts next fits hnext
  obtain ⟨first, us, -, rfl, hus⟩ := fits.cons
  obtain ⟨opening, vs, -, rfl, hvs⟩ := hus.cons
  obtain ⟨cs, ws, rfl, hcs, hws⟩ := hvs.append
  obtain ⟨closing, xs, -, rfl, hxs⟩ := hws.cons
  obtain ⟨ys, zs, rfl, hys, hzs⟩ := hxs.append
  obtain ⟨orElse, ns, -, rfl, hns⟩ := hzs.cons
  obtain ⟨e', hcondition, hplain⟩ := he.inside hcs
  have hdangles : yes.dangles = true →
      (⟨.word .elseWord, orElse⟩ : Token).kind ≠ .word .elseWord := by
    rw [regular]
    intro h
    cases h
  obtain ⟨yes', m, hyes, hplain'⟩ := hyes hys hdangles
  obtain ⟨no', m', hno, hplain''⟩ := hno hns hnext
  refine ⟨_, max m m' + 1, .ifElse hcondition (hyes.mono (Nat.le_max_left m m'))
    (hno.mono (Nat.le_max_right m m')), ?_⟩
  rw [Stmt.unplaced, unplacedBranch, hplain, hplain', hplain'']
  rfl

theorem prints_whileLoop {body : Stmt} (he : e.Prints style) (hbody : body.Prints style true) :
    (whileLoop span e body).Prints style loop := by
  intro n line ts next fits hnext
  obtain ⟨first, us, -, rfl, hus⟩ := fits.cons
  obtain ⟨opening, vs, -, rfl, hvs⟩ := hus.cons
  obtain ⟨cs, ws, rfl, hcs, hws⟩ := hvs.append
  obtain ⟨closing, bs, -, rfl, hbs⟩ := hws.cons
  obtain ⟨e', hcondition, hplain⟩ := he.inside hcs
  obtain ⟨body', m, hbody, hplain'⟩ := hbody hbs hnext
  exact ⟨_, m + 1, .whileLoop hcondition hbody, by rw [Stmt.unplaced, hplain, hplain']; rfl⟩

theorem prints_forLoop {start : Option Stmt} {condition step : Option Expr} {body : Stmt}
    (hstart : StartPrints style start) (hcondition : ∀ e ∈ condition, e.Prints style)
    (hstep : ∀ e ∈ step, e.Prints style) (hbody : body.Prints style true) :
    (forLoop span start condition step body).Prints style loop := by
  intro n line ts next fits hnext
  obtain ⟨first, us, -, rfl, hus⟩ := fits.cons
  obtain ⟨opening, vs, -, rfl, hvs⟩ := hus.cons
  obtain ⟨ss, ws, rfl, hss, hws⟩ := hvs.append
  obtain ⟨ss, mark, start', rfl, hstart, hplain₁⟩ := hstart hss
  obtain ⟨cs, xs, rfl, hcs, hxs⟩ := hws.append
  obtain ⟨mark', ys, -, rfl, hys⟩ := hxs.cons
  obtain ⟨ps, zs, rfl, hps, hzs⟩ := hys.append
  obtain ⟨closing, bs, -, rfl, hbs⟩ := hzs.cons
  obtain ⟨condition', hcondition, hplain₂⟩ := possibly_of_fits hcondition hcs
  obtain ⟨step', hstep, hplain₃⟩ := possibly_of_fits hstep hps
  obtain ⟨body', m, hbody, hplain₄⟩ := hbody hbs hnext
  rw [List.append_assoc, List.singleton_append]
  refine ⟨_, m + 1, .forLoop hstart hcondition hstep hbody, ?_⟩
  rw [Stmt.unplaced, hplain₁, hplain₂, hplain₃, hplain₄]
  rfl

theorem prints_forOf {how : Declarator} {key : Name} {body : Stmt} (he : e.Prints style)
    (hbody : body.Prints style true) : (forOf span how key e body).Prints style loop := by
  intro n line ts next fits hnext
  obtain ⟨first, us, -, rfl, hus⟩ := fits.cons
  obtain ⟨opening, vs, -, rfl, hvs⟩ := hus.cons
  obtain ⟨declared, ws, -, rfl, hws⟩ := hvs.cons
  obtain ⟨span', xs, -, rfl, hxs⟩ := hws.cons
  obtain ⟨of, ys, -, rfl, hys⟩ := hxs.cons
  obtain ⟨is, zs, rfl, his, hzs⟩ := hys.append
  obtain ⟨closing, bs, -, rfl, hbs⟩ := hzs.cons
  obtain ⟨e', hitems, hplain⟩ := he.inside his
  obtain ⟨body', m, hbody, hplain'⟩ := hbody hbs hnext
  refine ⟨_, m + 1, .forOf how.declarator?_keyword hitems hbody, ?_⟩
  rw [Stmt.unplaced, hplain, hplain']
  rfl

theorem prints_returns {value : Option Expr} (h : ∀ e ∈ value, e.Prints style) :
    (returns span value).Prints style loop := by
  intro n line ts next fits _
  obtain ⟨first, us, hfirst, rfl, hus⟩ := fits.cons
  obtain ⟨vs, mark, -, rfl, hvs⟩ := hus.concat
  cases value with
  | none =>
    obtain rfl := hvs.empty
    exact ⟨_, 1, .returnsNothing .semicolon, rfl⟩
  | some e =>
    obtain ⟨e', he, hplain⟩ := (h e rfl).inside hvs
    have hline (t : Token) (ht : t ∈ vs.head?) : t.span.line ≤ first.line := by
      rw [hfirst, hvs.line t (List.mem_of_head? ht)]
    refine ⟨_, 1, .returns he hline .semicolon, ?_⟩
    rw [Stmt.unplaced, unplacedOption, hplain]
    rfl

theorem prints_breaks : (breaks span).Prints style true := by
  intro n line ts next fits _
  obtain ⟨first, us, -, rfl, hus⟩ := fits.cons
  obtain ⟨mark, -, rfl⟩ := hus.token
  exact ⟨_, 1, .breaks .semicolon, rfl⟩

theorem prints_continues : (continues span).Prints style true := by
  intro n line ts next fits _
  obtain ⟨first, us, -, rfl, hus⟩ := fits.cons
  obtain ⟨mark, -, rfl⟩ := hus.token
  exact ⟨_, 1, .continues .semicolon, rfl⟩

theorem prints_throws (he : e.Prints style) : (throws span e).Prints style loop := by
  intro n line ts next fits _
  obtain ⟨first, us, -, rfl, hus⟩ := fits.cons
  obtain ⟨vs, mark, -, rfl, hvs⟩ := hus.concat
  obtain ⟨e', he, hplain⟩ := he.inside hvs
  exact ⟨_, 1, .throws he .semicolon, by rw [Stmt.unplaced, hplain]; rfl⟩

theorem prints_block {body : List Stmt} (h : StatementsPrint style body loop) :
    (block span body).Prints style loop := by
  intro n line ts next fits _
  obtain ⟨first, us, last, body', m, rfl, hbody, hplain⟩ := h.braces fits
  exact ⟨_, m + 1, .block hbody, by rw [Stmt.unplaced, hplain]; rfl⟩

theorem prints_expr (careful : style.careful = true) (he : e.Prints style) :
    (expr e).Prints style loop := by
  intro n line ts next fits _
  obtain ⟨us, mark, -, rfl, hus⟩ := fits.concat
  obtain ⟨e', he, hplain, hopens⟩ := he.guarded careful (fun _ => rfl) hus
  rw [← opensStatement_eq] at hopens
  exact ⟨_, 1, .expr he hopens .semicolon, congrArg Stmt.expr hplain⟩

theorem prints_empty : (empty span).Prints style loop := by
  intro n line ts next fits _
  obtain ⟨mark, -, rfl⟩ := fits.token
  exact ⟨_, 1, .empty, rfl⟩

end Stmt

end Script
end Workbook
