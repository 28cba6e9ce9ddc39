/-
Jumps stay in the bodies that they are written in.

The parser counts the loops around a statement, and begins anew in the body of a function.  So in the
tree of a text without problems every `break` and `continue` has a loop around it in the same body
(`Grammar.contained_written`, from the rules of the grammar one by one).

A loop takes the jumps of its body, so a statement that ends with a jump is one where a jump without a
loop around it is written (`Engine.keeps_statement`).  The bodies of scripts and functions are not
(`jumps_stay_in_bodies`).
-/
import Mathlib
import Workbook.Engine
import Workbook.Proofs.Parser.Height
import Workbook.Proofs.Script.Completeness
import Workbook.Proofs.Simulation
import Workbook.Proofs.Syntax

namespace Workbook

/-! ## Jumps in trees -/

namespace Script

mutual

/-- Whether every `break` and `continue` has a loop around it; `loop` says whether one is around the
statement.  The bodies of functions do not count. -/
def Stmt.contained (loop : Bool) : Stmt → Bool
  | .breaks _ | .continues _ => loop
  | .branch _ _ yes no => yes.contained loop && containedBranch loop no
  -- how the start of a `for` loop ends is not looked at, so it may be anything
  | .whileLoop _ _ body | .forLoop _ _ _ _ body | .forOf _ _ _ _ body => body.contained true
  | .block _ body => containedAll loop body
  | .declaration _ _ _ _ | .function _ | .returns _ _ | .throws _ _ | .expr _ | .empty _ => true

def containedBranch (loop : Bool) : Option Stmt → Bool
  | some st => st.contained loop
  | none => true

def containedAll (loop : Bool) : List Stmt → Bool
  | [] => true
  | st :: rest => st.contained loop && containedAll loop rest

end

/-- Whether every `break` and `continue` in a body has a loop around it in this body. -/
def Body.contained : Body → Bool
  | .block body => containedAll false body
  | .expr _ => true

end Script

/-- Jumps in the functions of a tree have loops around them, each in the body that it is in. -/
def Node.Contained (n : Node) : Prop :=
  ∀ f, (Node.function f).IsIn n → f.body.contained = true

/-- Jumps in the functions of several trees have loops around them. -/
def Contained (ns : List Node) : Prop :=
  ∀ n ∈ ns, n.Contained

namespace Contained

open Script

theorem both {ns ms : List Node} (hns : Contained ns) (hms : Contained ms) : Contained (ns ++ ms) :=
  List.forall_mem_append.2 ⟨hns, hms⟩

section

variable {α : Type} [Parts α] {a : α} {as bs : List α}

theorem nil : Contained (nodes ([] : List α)) :=
  nofun

theorem cons (ha : Contained (nodes a)) (has : Contained (nodes as)) : Contained (nodes (a :: as)) :=
  .both ha has

theorem append (has : Contained (nodes as)) (hbs : Contained (nodes bs)) :
    Contained (nodes (as ++ bs)) := by
  rw [show nodes (as ++ bs) = nodes as ++ nodes bs from List.flatMap_append]
  exact .both has hbs

theorem some (ha : Contained (nodes a)) : Contained (nodes (some a)) :=
  .cons ha .nil

end

theorem name (k : Name) : Contained (nodes k) := by
  rintro n hn f hf
  cases List.mem_singleton.1 hn
  cases hf with
  | child hc _ => cases hc

theorem names (ks : List Name) : Contained (nodes ks) := by
  induction ks with
  | nil => exact .nil
  | cons k _ ih => exact .cons (name k) ih

theorem expr {e : Expr} (h : Contained e.children) : Contained (nodes e) := by
  rintro n hn f hf
  cases List.mem_singleton.1 hn
  cases hf with
  | child hc hf => exact h _ hc f hf

theorem stmt {st : Stmt} (h : Contained st.children) : Contained (nodes st) := by
  rintro n hn f hf
  cases List.mem_singleton.1 hn
  cases hf with
  | child hc hf => exact h _ hc f hf

/-- A function whose own jumps have loops around them, and everything in it. -/
theorem function {key : Option Name} {params : List Name} {body : Body} {span : Span}
    (self : body.contained = true) (below : Contained (nodes body)) :
    Contained (nodes (Function.mk key params body span)) := by
  have hkey : Contained (nodes key) := by
    cases key with
    | none => exact nofun
    | some k => exact .some (name k)
  rintro n hn f hf
  cases List.mem_singleton.1 hn
  cases hf with
  | self => exact self
  | child hc hf => exact both (both hkey (names params)) below _ hc f hf

end Contained

/-! ## Phrases -/

namespace Parser

variable {α : Type} [Parts α] {P : Phrase α}

/-- The functions in whatever is written contain their jumps. -/
def Contains (P : Phrase α) : Prop :=
  ∀ ⦃ts a⦄, P ts a → Contained (nodes a)

namespace Contains

variable (hP : Contains P)
include hP

theorem listed : Contains (Listed P) := by
  intro ts as has
  induction has with
  | nil => exact .nil
  | one ha => exact .cons (hP ha) .nil
  | cons ha _ ih => exact .cons (hP ha) ih

theorem items : Contains (Items P) := by
  intro ts i hi
  cases hi with
  | one ha | spread ha => exact hP ha

theorem holes {ts : List Token} {ps : List (Piece α)} (hps : Holes P ts ps) (s : String) :
    Contained (nodes (textPiece s ++ ps)) := by
  have htext (s : String) : Contained (nodes (textPiece s : List (Piece α))) := by
    unfold textPiece
    split
    · exact .nil
    · exact .cons (fun _ hn => by cases hn) .nil
  refine .append (htext s) ?_
  induction hps with
  | last ha => exact .cons (hP ha) (htext _)
  | more ha _ ih => exact .cons (hP ha) (.append (htext _) ih)

theorem operands {joins : Token.Kind → Option (α → α → α)}
    (hjoins : ∀ {k join}, joins k = some join → ∀ a b, Contained (nodes a) →
      Contained (nodes b) → Contained (nodes (join a b))) {reaches : Bool} :
    Contains (Operands joins (fun _ => P) reaches) := by
  intro ts a ha
  induction ha with
  | one ha => exact hP ha
  | more _ operator right ih => exact hjoins operator _ _ ih (hP right)

end Contains
end Parser

namespace Script
namespace Grammar

open Workbook.Parser (Phrase Chain Listed Items Contains)
open Script.Parser (joined joinedLogically)

variable {E P W U : Phrase Expr} {B : Phrase (List Stmt)}

/-- The jumps in whatever is written have loops around them, those in its functions included. -/
def ContainsAll (B : Phrase (List Stmt)) : Prop :=
  ∀ ⦃ts body⦄, B ts body → containedAll false body = true ∧ Contained (nodes body)

/-! ### Expressions -/

section

variable (hE : Contains E) (hB : ContainsAll B)

include hB in
theorem contains_function : Contains (FunctionPhrase B) := by
  intro ts f hf
  cases hf with
  | named _ hb | unnamed _ hb =>
    obtain ⟨self, below⟩ := hB hb
    exact .function self below

include hE hB

theorem contained_arrowBody {ts : List Token} {b : Body} (hb : ArrowBody E B ts b) :
    b.contained = true ∧ Contained (nodes b) := by
  cases hb with
  | block hb => exact hB hb
  | expr he _ => exact ⟨rfl, hE he⟩

theorem contains_arrow : Contains (Arrow E B) := by
  intro ts e he
  cases he with
  | single hb | listed _ hb =>
    obtain ⟨self, below⟩ := contained_arrowBody hE hB hb
    exact .expr (.function self below)

theorem contains_entries : Contains (Entries E B) := by
  intro ts entry he
  cases he with
  | spread he => exact hE he
  | short => exact .both (.name _) (.expr nofun)
  | field _ he => exact .both (.name _) (hE he)
  | method _ _ hb =>
    obtain ⟨self, below⟩ := hB hb
    exact .both (.name _) (.expr (.function self below))

theorem contains_primary : Contains (Primary E B) := by
  intro ts e he
  cases he with
  | number | string | name | trueWord | falseWord | nullWord | undefinedWord => exact .expr nofun
  | template hp => exact .expr (hE.holes hp _)
  | function hf => exact .expr (contains_function hB hf)
  | array hl => exact .expr (hE.items.listed hl)
  | object hl => exact .expr ((contains_entries hE hB).listed hl)
  | parenthesized he => exact hE he

theorem contains_suffixed : Contains (Suffixed E B) := by
  intro ts e he
  induction he with
  | primary hp => exact contains_primary hE hB hp
  | member _ _ ih => exact .expr (.both ih (.name _))
  | index _ hk ih => exact .expr (.both ih (hE hk))
  | call _ ha ih => exact .expr (.both ih (hE.items.listed ha))

theorem contains_prefixed (hU : Contains U) : Contains (Prefixed E B U) := by
  intro ts e he
  induction he with
  | updated hu => cases hu with
    | suffixed hs => exact contains_suffixed hE hB hs
    | step hs _ _ _ => exact .expr (contains_suffixed hE hB hs)
  | sign _ hu => exact .expr (hU hu)
  | step _ _ _ ih => exact .expr ih

end

theorem contains_power (hP : Contains P) (hW : Contains W) : Contains (Power P W) := by
  intro ts e he
  cases he with
  | one hp => exact hP hp
  | pow hb hp => exact .expr (.both (hP hb) (hW hp))

theorem contains_coalesced (hP : Contains P) : Contains (Coalesced P) := by
  have hchain {n : Nat} {Q : Phrase Expr} (hQ : Contains Q) : Contains (Chain (joins n) Q) := by
    refine hQ.operands fun hjoin a b ha hb => ?_
    obtain ⟨op, -, rfl⟩ | ⟨op, rfl⟩ := joins_eq hjoin
    · exact .expr (.both ha hb)
    · exact .expr (.both ha hb)
  exact hchain (hchain (hchain (hchain (hchain (hchain (hchain hP))))))

theorem contains_assignment (hE : Contains E) (hB : ContainsAll B) (hP : Contains P) :
    Contains (Assignment E B P) := by
  have hconditional : Contains (Conditional E P) := by
    intro ts e he
    cases he with
    | one hc => exact contains_coalesced hP hc
    | choice hc hy hn => exact .expr (.both (.both (contains_coalesced hP hc) (hE hy)) (hE hn))
  intro ts e he
  cases he with
  | arrow ha => exact contains_arrow hE hB ha
  | conditional hc => exact hconditional hc
  | assign ht _ _ hv => exact .expr (.both (hconditional ht) (hE hv))

/-! ### Statements -/

section

variable {C : Clause Stmt} {S : Bool → Clause Stmt} {lines : Bool}

theorem contained_statements {loop : Bool}
    (hC : ∀ {ts st next}, C ts st next → st.contained loop = true ∧ Contained (nodes st))
    {ts : List Token} {body : List Stmt} {next : Token} (hbody : Statements C ts body next) :
    containedAll loop body = true ∧ Contained (nodes body) := by
  induction hbody with
  | nil => exact ⟨rfl, .nil⟩
  | cons hst _ ih =>
    obtain ⟨hself, hbelow⟩ := hC hst
    exact ⟨Bool.and_eq_true_iff.2 ⟨hself, ih.1⟩, .cons hbelow ih.2⟩

variable (hE : Contains E)
include hE

theorem contained_declaration {ts : List Token} {d : Stmt} (hd : Declaration E ts d) :
    (∀ loop, d.contained loop = true) ∧ Contained (nodes d) := by
  cases hd with
  | value _ hv => exact ⟨fun _ => rfl, .stmt (.both (.name _) (.some (hE hv)))⟩
  | bare => exact ⟨fun _ => rfl, .stmt (.both (.name _) nofun)⟩

theorem contains_possibly : Contains (Possibly E) := by
  intro ts o ho
  cases ho with
  | none => exact nofun
  | some he => exact .some (hE he)

theorem contains_loopStart : Contains (LoopStart E) := by
  intro ts o ho
  cases ho with
  | none => exact nofun
  | declaration hd => exact .some (contained_declaration hE hd).2
  | expr he => exact .some (.stmt (hE he))

/-- A jump is written where a loop is around it, and the body of a function begins anew. -/
theorem contained_rule
    (hS : ∀ {loop ts st next}, S loop ts st next → st.contained loop = true ∧ Contained (nodes st))
    {loop : Bool} {ts : List Token} {st : Stmt} {next : Token} (hst : Rule E lines S loop ts st next) :
    st.contained loop = true ∧ Contained (nodes st) := by
  cases hst with
  | declaration hd _ =>
    obtain ⟨hself, hbelow⟩ := contained_declaration hE hd
    exact ⟨hself loop, hbelow⟩
  | function _ hb =>
    cases hb with
    | mk hbody =>
      obtain ⟨hself, hbelow⟩ := contained_statements hS hbody
      exact ⟨rfl, .stmt (.function hself hbelow)⟩
  | ifThen hc hy _ =>
    obtain ⟨hyes, hbelow⟩ := hS hy
    exact ⟨Bool.and_eq_true_iff.2 ⟨hyes, rfl⟩, .stmt (.both (.both (hE hc) hbelow) nofun)⟩
  | ifElse hc hy hn =>
    obtain ⟨hyes, hbelow⟩ := hS hy
    obtain ⟨hno, hbelow'⟩ := hS hn
    exact ⟨Bool.and_eq_true_iff.2 ⟨hyes, hno⟩, .stmt (.both (.both (hE hc) hbelow) (.some hbelow'))⟩
  | whileLoop hc hb =>
    obtain ⟨hbody, hbelow⟩ := hS hb
    exact ⟨hbody, .stmt (.both (hE hc) hbelow)⟩
  | forLoop hs hc hp hb =>
    obtain ⟨hbody, hbelow⟩ := hS hb
    exact ⟨hbody, .stmt (.both (.both (.both (contains_loopStart hE hs) (contains_possibly hE hc))
      (contains_possibly hE hp)) hbelow)⟩
  | forOf _ hi hb =>
    obtain ⟨hbody, hbelow⟩ := hS hb
    exact ⟨hbody, .stmt (.both (.both (.name _) (hE hi)) hbelow)⟩
  | returns hv _ _ => exact ⟨rfl, .stmt (.some (hE hv))⟩
  | throws hv _ | expr hv _ _ => exact ⟨rfl, .stmt (hE hv)⟩
  | block hb =>
    obtain ⟨hself, hbelow⟩ := contained_statements hS hb
    exact ⟨hself, .stmt hbelow⟩
  | returnsNothing _ | breaks _ | continues _ | empty => exact ⟨rfl, .stmt nofun⟩

theorem contained_statement {n : Nat} {loop : Bool} {ts : List Token} {st : Stmt} {next : Token}
    (hst : Statement E lines n loop ts st next) : st.contained loop = true ∧ Contained (nodes st) := by
  induction n generalizing loop ts st next with
  | zero => exact hst.elim
  | succ n ih => exact contained_rule hE ih hst

theorem containsAll_block : ContainsAll (Block E lines) := by
  rintro ts body ⟨n, hb⟩
  cases hb with
  | mk hbody => exact contained_statements (contained_statement hE) hbody

end

/-! ### Levels -/

theorem contains_level (lines : Bool) (n : Nat) : Contains (level lines n).expr ∧
    Contains (level lines n).power ∧ Contains (level lines n).operand := by
  have hover {E W U : Phrase Expr} (hE : Contains E) (hW : Contains W) (hU : Contains U) :
      Contains (Level.over lines E W U).expr ∧ Contains (Level.over lines E W U).power ∧
        Contains (Level.over lines E W U).operand := by
    have hblock : ContainsAll (Block E lines) := containsAll_block hE
    have hoperand := contains_prefixed hE hblock hU
    exact ⟨hE, contains_power hoperand hW, hoperand⟩
  induction n with
  | zero =>
    have hnothing : Contains (fun _ _ => False : Phrase Expr) := fun _ _ he => he.elim
    exact hover hnothing hnothing hnothing
  | succ n ih =>
    obtain ⟨hE, hP, hO⟩ := ih
    exact hover (contains_assignment hE (containsAll_block hE) hP) hP hO

/-- The jumps in a script have loops around them, those in its functions included. -/
theorem contained_written {lines : Bool} {ts : List Token} {body : List Stmt} {final : Token}
    (hbody : Written lines ts body final) :
    containedAll false body = true ∧ Contained (nodes body) := by
  obtain ⟨n, hbody⟩ := hbody
  exact contained_statements (contained_statement (contains_level lines 64).1) hbody

end Grammar
end Script

/-! ## Jumps in runs -/

/-- Whether a statement ends with a jump. -/
def Flow.jumps : Flow → Bool
  | .broke | .continued => true
  | .normal | .returned _ => false

/-- The run ends with a jump only if there is a loop around it. -/
def Run.Keeps (loop : Bool) (x : Run Flow) : Prop :=
  ∀ ⦃s flow s'⦄, x s = .ok flow s' → flow.jumps = true → loop = true

namespace Run
namespace Keeps

variable {loop : Bool} {x : Run Flow}

theorem pure {flow : Flow} (h : flow.jumps = true → loop = true) : Keeps loop (pure flow) := by
  rintro s flow' s' hrun hjumps
  cases hrun
  exact h hjumps

theorem error {x : Run Flow} (h : ∀ s, ∃ stop s', x s = .error stop s') : Keeps loop x := by
  rintro s flow s' hrun
  obtain ⟨stop, s₁, hfails⟩ := h s
  cases hfails.symm.trans hrun

/-- A run that goes on with what another one comes to. -/
theorem from_bind {α : Type} {x : Run α} {k : α → Run Flow}
    (h : ∀ ⦃s a s'⦄, x s = .ok a s' → Keeps loop (k a)) : Keeps loop (x >>= k) := by
  rintro s flow s' hrun
  cases hx : x s with
  | ok a s₁ =>
    rw [Run.bind_run hx] at hrun
    exact h hx hrun
  | error stop s₁ =>
    rw [Run.bind_error hx] at hrun
    cases hrun

theorem bind {α : Type} {x : Run α} {k : α → Run Flow} (h : ∀ a, Keeps loop (k a)) :
    Keeps loop (x >>= k) :=
  from_bind fun _ a _ _ => h a

theorem mapFailure {f : Failure → Failure} (h : Keeps loop x) : Keeps loop (Run.mapFailure f x) := by
  rintro s flow s' hrun
  unfold Run.mapFailure at hrun
  cases hx : x s with
  | ok flow' s₁ =>
    rw [hx] at hrun
    cases hrun
    exact h hx
  | error stop s₁ =>
    rw [hx] at hrun
    cases stop <;> cases hrun

end Keeps
end Run

namespace Engine

open Script
open Run (Keeps)

/-! ### Loops -/

/-- A loop takes the jumps of its body. -/
theorem keeps_repeatWhile (loop : Bool) (condition : Run Bool) (body : Run Flow) (step : Run Unit)
    (fuel : Nat) : Keeps loop (repeatWhile condition body step fuel) := by
  induction fuel with
  | zero => exact .error fun s => ⟨_, _, rfl⟩
  | succ fuel ih =>
    unfold repeatWhile
    refine .bind fun b => ?_
    split
    · refine .bind fun flow => ?_
      cases flow with
      | normal | continued => exact .bind fun _ => ih
      | broke | returned v => exact .pure nofun
    · exact .pure nofun

theorem keeps_overItems (loop : Bool) (body : Native → Run Flow) (vs : List Native) :
    Keeps loop (overItems body vs) := by
  induction vs with
  | nil => exact .pure nofun
  | cons v rest ih =>
    unfold overItems
    refine .bind fun flow => ?_
    cases flow with
    | normal | continued => exact ih
    | broke | returned v => exact .pure nofun

/-! ### Statements -/

/-- The engine answers a statement with a jump only if there is a loop around it. -/
def KeepsJumps (e : Engine) : Prop :=
  ∀ {loop : Bool} (run block : Nat) {st : Stmt}, st.contained loop = true →
    Keeps loop (e.ask (.statement run block st))

section

variable {e : Engine} (he : e.KeepsJumps) {loop : Bool} (run block : Nat)
include he

theorem keeps_inOrder {body : List Stmt} (h : containedAll loop body = true) :
    Keeps loop (e.inOrder run block body) := by
  induction body with
  | nil => exact .pure nofun
  | cons st rest ih =>
    obtain ⟨hfirst, hrest⟩ := Bool.and_eq_true_iff.1 h
    unfold inOrder
    refine .from_bind fun s flow s' hrun => ?_
    cases flow with
    | normal => exact ih hrest
    | returned v | broke | continued => exact .pure ((he run block hfirst).mapFailure hrun)

theorem keeps_statements {body : List Stmt} (h : containedAll loop body = true) :
    Keeps loop (e.statements run block body) :=
  .bind fun _ => keeps_inOrder he run block h

theorem keeps_statement (fuel : Nat) {st : Stmt} (h : st.contained loop = true) :
    Keeps loop (e.statement fuel run block st) := by
  cases st with
  | declaration _ _ _ value =>
    cases value with
    | some _ | none => exact .bind fun _ => .bind fun _ => .pure nofun
  | function _ | empty _ => exact .pure nofun
  | branch _ _ yes no =>
    obtain ⟨hyes, hno⟩ := Bool.and_eq_true_iff.1 h
    refine .bind fun b => ?_
    split
    · exact he run block hyes
    · cases no with
      | some no => exact he run block hno
      | none => exact .pure nofun
  | whileLoop _ _ _ => exact keeps_repeatWhile ..
  | forLoop _ start _ _ _ =>
    refine .bind fun inner => ?_
    cases start with
    | some st => exact .bind fun _ => keeps_repeatWhile ..
    | none => exact keeps_repeatWhile ..
  | forOf _ _ _ _ _ => exact .bind fun _ => .bind fun _ => .bind fun _ => keeps_overItems ..
  | returns _ value =>
    cases value with
    | some _ => exact .bind fun _ => .pure nofun
    | none => exact .pure nofun
  | breaks _ | continues _ => exact .pure fun _ => h
  | throws _ _ => exact .bind fun _ => .bind fun _ => .error fun s => ⟨_, _, rfl⟩
  | block _ _ => exact .bind fun inner => keeps_statements he run inner h
  | expr _ => exact .bind fun _ => .pure nofun

end

theorem keepsJumps_ofFuel (fuel : Nat) : (ofFuel fuel).KeepsJumps := by
  induction fuel with
  | zero => exact fun _ _ _ _ => .error fun s => ⟨_, _, rfl⟩
  | succ fuel ih => exact fun run block _ h => keeps_statement ih run block fuel h

end Engine

/-! ## Bodies -/

/-- A run that ends normally, or with a value, if it does not fail. -/
def Run.EndsBody (x : Run Flow) : Prop :=
  ∀ s flow s', x s = .ok flow s' → flow = .normal ∨ ∃ v, flow = .returned v

theorem Run.Keeps.endsBody {x : Run Flow} (h : x.Keeps false) : x.EndsBody := by
  intro s flow s' hrun
  cases flow with
  | normal => exact .inl rfl
  | returned v => exact .inr ⟨v, rfl⟩
  | broke | continued => cases h hrun rfl

namespace Script

/-- No jump leaves the body that it is written in: the statements of a script without problems, and of
any function in it, end normally or with a value, or they fail. -/
theorem jumps_stay_in_bodies {src : Source} {p : Program} (h : compile src = .ok p)
    (fuel run block : Nat) : ((Engine.ofFuel fuel).statements run block p.body).EndsBody ∧
      ∀ f body, (Node.function f).IsIn (.script p) → f.body = .block body →
        ((Engine.ofFuel fuel).statements run block body).EndsBody := by
  obtain ⟨ts, final, -, -, -, hwritten⟩ := Parser.written_of_compile_script h
  obtain ⟨hscript, hfunctions⟩ := Grammar.contained_written hwritten
  have hends {body : List Stmt} (hbody : containedAll false body = true) :=
    (Engine.keeps_statements (Engine.keepsJumps_ofFuel fuel) run block hbody).endsBody
  refine ⟨hends hscript, fun f body hf hbody => hends ?_⟩
  -- the script itself is no function, so the function is below it
  cases hf with
  | child hc hf =>
    have hcontained := hfunctions _ hc f hf
    rwa [hbody] at hcontained

/-- A loop that is left at once. -/
def leftLoop : Stmt :=
  .whileLoop ⟨8, 26, 1, 9⟩ (.boolean ⟨15, 19, 1, 16⟩ true) (.breaks ⟨21, 26, 1, 22⟩)

/-- A function with the loop in it, and no more. -/
def leaver : Function :=
  .mk none [] (.block [leftLoop]) ⟨0, 28, 1, 1⟩

theorem lex_leaver : Token.lex .script ⟨"main", "() => \x7b while (true) break \x7d"⟩ =
    ([⟨.symbol .leftParen, ⟨0, 1, 1, 1⟩⟩, ⟨.symbol .rightParen, ⟨1, 2, 1, 2⟩⟩,
      ⟨.symbol .arrow, ⟨3, 5, 1, 4⟩⟩, ⟨.symbol .leftBrace, ⟨6, 7, 1, 7⟩⟩,
      ⟨.word .whileWord, ⟨8, 13, 1, 9⟩⟩, ⟨.symbol .leftParen, ⟨14, 15, 1, 15⟩⟩,
      ⟨.word .trueWord, ⟨15, 19, 1, 16⟩⟩, ⟨.symbol .rightParen, ⟨19, 20, 1, 20⟩⟩,
      ⟨.word .breakWord, ⟨21, 26, 1, 22⟩⟩, ⟨.symbol .rightBrace, ⟨27, 28, 1, 28⟩⟩] ++
      [⟨.endOfInput, ⟨28, 28, 1, 29⟩⟩], .empty) := by
  rw [Token.lex_ofList]
  with_unfolding_all rfl

theorem compile_leaver : ∃ p, compile ⟨"main", "() => \x7b while (true) break \x7d"⟩ = .ok p ∧
    p.body = [.expr (.function leaver)] := by
  let E := (Grammar.level false 63).expr
  have hcondition : E [⟨.word .trueWord, ⟨15, 19, 1, 16⟩⟩] (.boolean ⟨15, 19, 1, 16⟩ true) :=
    Grammar.level_suffixed (.primary .trueWord)
  have hbreak : Grammar.Statement E false 1 true [⟨.word .breakWord, ⟨21, 26, 1, 22⟩⟩]
      (.breaks ⟨21, 26, 1, 22⟩) ⟨.symbol .rightBrace, ⟨27, 28, 1, 28⟩⟩ :=
    Grammar.Rule.breaks (.brace rfl)
  have hloop : Grammar.Statement E false 2 false (⟨.word .whileWord, ⟨8, 13, 1, 9⟩⟩ ::
      ⟨.symbol .leftParen, ⟨14, 15, 1, 15⟩⟩ :: ([⟨.word .trueWord, ⟨15, 19, 1, 16⟩⟩] ++
        ⟨.symbol .rightParen, ⟨19, 20, 1, 20⟩⟩ :: [⟨.word .breakWord, ⟨21, 26, 1, 22⟩⟩]))
      leftLoop ⟨.symbol .rightBrace, ⟨27, 28, 1, 28⟩⟩ :=
    Grammar.Rule.whileLoop hcondition hbreak
  have hbody : Grammar.Block E false (⟨.symbol .leftBrace, ⟨6, 7, 1, 7⟩⟩ ::
      (_ ++ [⟨.symbol .rightBrace, ⟨27, 28, 1, 28⟩⟩])) [leftLoop] := ⟨2, .mk (.cons hloop .nil)⟩
  have hparameters : Parser.Parameters (⟨.symbol .leftParen, ⟨0, 1, 1, 1⟩⟩ ::
      ([] ++ [⟨.symbol .rightParen, ⟨1, 2, 1, 2⟩⟩])) [] := .mk .nil
  have hfunction : Grammar.Arrow E (Grammar.Block E false) (⟨.symbol .leftParen, ⟨0, 1, 1, 1⟩⟩ ::
      (_ ++ ⟨.symbol .arrow, ⟨3, 5, 1, 4⟩⟩ :: _)) (.function leaver) :=
    .listed hparameters (.block hbody)
  have hstatement : Grammar.Statement (Grammar.level false 64).expr false 1 false (_ ++ [])
      (.expr (.function leaver)) ⟨.endOfInput, ⟨28, 28, 1, 29⟩⟩ :=
    Grammar.Rule.expr (.arrow hfunction) rfl (.finish rfl)
  exact compile_of_written lex_leaver (by decide) rfl ⟨1, .cons hstatement .nil⟩

/-- A function that leaves its loop ends normally. -/
theorem leaver_ends_normally : ∃ p, compile ⟨"main", "() => \x7b while (true) break \x7d"⟩ = .ok p ∧
    (∀ fuel run block, ((Engine.ofFuel fuel).statements run block p.body).EndsBody ∧
      ((Engine.ofFuel fuel).statements run block [leftLoop]).EndsBody) ∧
    (Engine.ofFuel 4).statements 0 0 [leftLoop] .empty = .ok .normal .empty := by
  obtain ⟨⟨_, span⟩, hcompile, rfl⟩ := compile_leaver
  refine ⟨_, hcompile, fun fuel run block => ?_, rfl⟩
  obtain ⟨hscript, hfunctions⟩ := jumps_stay_in_bodies hcompile fuel run block
  have hleaver : (Node.function leaver).IsIn (.script ⟨[.expr (.function leaver)], span⟩) :=
    .child (List.mem_singleton_self _) (.child (List.mem_singleton_self _)
      (.child (List.mem_singleton_self _) .self))
  exact ⟨hscript, hfunctions leaver _ hleaver rfl⟩

end Script
end Workbook
