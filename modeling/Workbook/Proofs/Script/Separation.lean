/-
What stands between two statements of a body.

Whatever statements a node of a tree lists, the tokens of the text write them one after another
(`Grammar.housed_written`, from the rules of the grammar one by one).  A statement without a body of
its own ends with a semicolon, or where the line does on which its last token begins
(`Grammar.unended_of_statement`).

So between two statements there is a semicolon or a line break, unless that is in the last token of
the first one (`statements_are_separated`).  The parser compares the lines on which tokens begin; a
text in backticks may end on a later one (`separated_inside_template`).
-/
import Mathlib
import Workbook.Proofs.Parser.Account
import Workbook.Proofs.Parser.Height
import Workbook.Proofs.Script.Completeness
import Workbook.Proofs.Source.Excerpt
import Workbook.Proofs.Syntax
import Workbook.Proofs.Token.Extent

namespace Workbook

/-! ## Line breaks between tokens -/

theorem Position.line_after {cs : List Char} (h : '\n' ∉ cs) (p : Position) :
    (p.after cs).line = p.line := by
  induction cs generalizing p with
  | nil => rfl
  | cons c cs ih =>
    obtain ⟨hc, hcs⟩ := not_or.1 (mt List.mem_cons.2 h)
    rw [after_cons, ih hcs, next, if_neg (Ne.symm hc)]

namespace Source

variable {s : Source}

/-- What stands between three boundaries of a text. -/
theorem exists_between {i j k : Nat} (hij : i ≤ j) (hjk : j ≤ k)
    (hi : String.Pos.Raw.IsValid s.text ⟨i⟩) (hj : String.Pos.Raw.IsValid s.text ⟨j⟩)
    (hk : String.Pos.Raw.IsValid s.text ⟨k⟩) : ∃ before own gap after,
      s.text.toList = before ++ own ++ gap ++ after ∧
      (Position.start.after before).offset = i ∧
      (Position.start.after (before ++ own)).offset = j ∧
      (Position.start.after (before ++ own ++ gap)).offset = k ∧
      s.extract? i j = some own ∧ s.extract? j k = some gap := by
  have hplace (cs : List Char) :
      (Position.start.after cs).offset = (String.ofList cs).utf8ByteSize := by
    rw [Position.offset_after]
    exact Nat.zero_add _
  obtain ⟨upToI, hprefixI, hsizeI⟩ := exists_of_isValid hi
  obtain ⟨upToJ, hprefixJ, hsizeJ⟩ := exists_of_isValid hj
  obtain ⟨upToK, ⟨after, hafter⟩, hsizeK⟩ := exists_of_isValid hk
  obtain ⟨own, rfl⟩ := prefix_of_byteSize_le hprefixI hprefixJ (by omega)
  obtain ⟨gap, rfl⟩ := prefix_of_byteSize_le hprefixJ ⟨after, hafter⟩ (by omega)
  have hown : s.text.toList = upToI ++ own ++ (gap ++ after) := by
    rw [← hafter]
    simp only [List.append_assoc]
  have hextractOwn := extract?_eq hown
  have hextractGap := extract?_eq hafter.symm
  rw [← byteSize_append, hsizeI, hsizeJ] at hextractOwn
  rw [← byteSize_append, hsizeJ, hsizeK] at hextractGap
  exact ⟨upToI, own, gap, after, hafter.symm, (hplace _).trans hsizeI, (hplace _).trans hsizeJ,
    (hplace _).trans hsizeK, hextractOwn, hextractGap⟩

end Source

/-- The text from a span on up to the beginning of another one: what the first of them covers, and
what is between them. -/
def Source.Between (s : Source) (a b : Span) (own gap : List Char) : Prop :=
  s.extract? a.start a.stop = some own ∧ s.extract? a.stop b.start = some gap

namespace Source

variable {s : Source} {a b : Span}

/-- Where one of two spans is on an earlier line, there is a line break before the other one. -/
theorem between_of_line (ha : s.Sound a) (hb : s.Sound b) (hle : a.stop ≤ b.start)
    (hline : a.line < b.line) : ∃ own gap, s.Between a b own gap ∧ ('\n' ∈ gap ∨ '\n' ∈ own) := by
  obtain ⟨before, own, gap, after, htext, hi, hj, hk, hown, hgap⟩ :=
    exists_between ha.le hle ha.start_valid ha.stop_valid hb.start_valid
  refine ⟨own, gap, ⟨hown, hgap⟩, ?_⟩
  by_contra hnone
  obtain ⟨hnoGap, hnoOwn⟩ := not_or.1 hnone
  have htextA : s.text.toList = before ++ (own ++ (gap ++ after)) := by
    rw [htext]
    simp only [List.append_assoc]
  have hplaceA := position_after htextA
  have hplaceB := position_after htext
  rw [hi, ha.place] at hplaceA
  rw [hk, hb.place] at hplaceB
  have hsame : (Position.start.after (before ++ own ++ gap)).line =
      (Position.start.after before).line := by
    rw [Position.after_append, Position.after_append, Position.line_after hnoGap,
      Position.line_after hnoOwn]
  rw [← hplaceA, ← hplaceB] at hsame
  exact absurd hsame (Nat.ne_of_gt hline)

/-- Where a character stands between two spans, it is in the gap between them. -/
theorem between_of_covers {c : Span} {ch : Char} (ha : s.Sound a) (hb : s.Sound b)
    (hac : a.stop ≤ c.start) (hcb : c.stop ≤ b.start) (hc : s.Covers c [ch]) :
    ∃ own gap, s.Between a b own gap ∧ ch ∈ gap := by
  have hle := hc.sound.le
  obtain ⟨before, own, gap, after, htext, hi, hj, hk, hown, hgap⟩ :=
    exists_between ha.le (Nat.le_trans hac (Nat.le_trans hle hcb)) ha.start_valid ha.stop_valid
      hb.start_valid
  refine ⟨own, gap, ⟨hown, hgap⟩, ?_⟩
  obtain ⟨first, last, hfirst, rfl⟩ := hc
  have hsize (cs : List Char) :
      (Position.start.after cs).offset = (String.ofList cs).utf8ByteSize := by
    rw [Position.offset_after]
    exact Nat.zero_add _
  have hstart : (Position.start.after (before ++ own)).offset ≤ (Position.start.after first).offset :=
    hj.trans_le hac
  have hstop : (Position.start.after (first ++ [ch])).offset ≤
      (Position.start.after (before ++ own ++ gap)).offset := hcb.trans_eq hk.symm
  rw [hsize, hsize] at hstart hstop
  have hbefore : before ++ own <+: s.text.toList := ⟨gap ++ after, by rw [htext]; simp only [List.append_assoc]⟩
  have hwhole : before ++ own ++ gap <+: s.text.toList := ⟨after, htext.symm⟩
  have hupTo : first <+: s.text.toList := ⟨[ch] ++ last, by rw [hfirst, List.append_assoc]⟩
  obtain ⟨more, rfl⟩ := prefix_of_byteSize_le hbefore hupTo hstart
  obtain ⟨rest, hrest⟩ := prefix_of_byteSize_le ⟨last, hfirst.symm⟩ hwhole hstop
  rw [List.append_assoc (before ++ own), List.append_assoc (before ++ own)] at hrest
  rw [← List.append_cancel_left hrest]
  simp

end Source

/-! ## The statements that nodes list -/

/-- The statements that a node of a tree lists. -/
def Node.body? : Node → Option (List Script.Stmt)
  | .script p => some p.body
  | .stmt (.block _ body) => some body
  | .function (.mk _ _ (.block body) _) => some body
  | _ => none

namespace Script

/-- Whether a statement ends with a semicolon or where a line does. -/
def Stmt.isEnded : Stmt → Bool
  | .declaration .. | .returns .. | .breaks _ | .continues _ | .throws .. | .expr _ => true
  | .function _ | .branch .. | .whileLoop .. | .forLoop .. | .forOf .. | .block .. | .empty _ => false

namespace Grammar

open Workbook.Parser (Phrase Chain Listed Items Holes Operands Starts Parameters lastSpan textPiece)
open Script.Parser (joined joinedLogically declarator?)

/-- Some of the tokens write the statements one after another. -/
def Among (ts : List Token) (body : List Stmt) : Prop :=
  ∃ us next m n loop, us <:+: ts ∧
    Statements (Statement (level true m).expr true n loop) us body next

theorem Among.mono {ts us : List Token} {body : List Stmt} (h : Among ts body) (hts : ts <:+: us) :
    Among us body := by
  obtain ⟨vs, next, m, n, loop, hvs, hwrites⟩ := h
  exact ⟨vs, next, m, n, loop, hvs.trans hts, hwrites⟩

/-- Whatever statements the nodes of some trees list, some of the tokens write them. -/
def Housed (ts : List Token) (ns : List Node) : Prop :=
  ∀ n ∈ ns, ∀ (m : Node) body, m.IsIn n → m.body? = some body → Among ts body

namespace Housed

variable {ts us : List Token} {t : Token} {ns ms : List Node}

theorem mono (h : Housed ts ns) (hts : ts <:+: us) : Housed us ns :=
  fun n hn m body hm hbody => (h n hn m body hm hbody).mono hts

theorem behind (h : Housed ts ns) : Housed (t :: ts) ns :=
  h.mono (List.suffix_cons t ts).isInfix

theorem left (h : Housed ts ns) : Housed (ts ++ us) ns :=
  h.mono (List.prefix_append ts us).isInfix

theorem right (h : Housed us ns) : Housed (ts ++ us) ns :=
  h.mono (List.suffix_append ts us).isInfix

theorem both (hns : Housed ts ns) (hms : Housed ts ms) : Housed ts (ns ++ ms) :=
  List.forall_mem_append.2 ⟨hns, hms⟩

theorem empty : Housed ts [] := by
  intro n hn
  cases hn

/-- A node, with the statements that it lists itself. -/
theorem node {n : Node} (self : ∀ body, n.body? = some body → Among ts body)
    (below : Housed ts n.children) : Housed ts [n] := by
  intro n' hn m body hm hbody
  obtain rfl := List.mem_singleton.1 hn
  cases hm with
  | self => exact self body hbody
  | child hc hm => exact below _ hc m body hm hbody

theorem name (k : Name) : Housed ts (nodes k) :=
  .node (fun _ h => by cases h) .empty

theorem expr {e : Expr} (h : Housed ts e.children) : Housed ts (nodes e) :=
  .node (fun _ h => by cases h) h

/-- A statement that lists no others. -/
theorem stmt {st : Stmt} (self : (Node.stmt st).body? = none) (h : Housed ts st.children) :
    Housed ts (nodes st) :=
  .node (fun _ hbody => by cases self.symm.trans hbody) h

section

variable {α : Type} [Parts α] {a : α} {as bs : List α}

theorem cons (ha : Housed ts (nodes a)) (has : Housed ts (nodes as)) : Housed ts (nodes (a :: as)) :=
  .both ha has

theorem append (has : Housed ts (nodes as)) (hbs : Housed ts (nodes bs)) :
    Housed ts (nodes (as ++ bs)) := by
  rw [show nodes (as ++ bs) = nodes as ++ nodes bs from List.flatMap_append]
  exact .both has hbs

theorem some (ha : Housed ts (nodes a)) : Housed ts (nodes (some a)) :=
  .cons ha .empty

end

theorem names (ks : List Name) : Housed ts (nodes ks) := by
  induction ks with
  | nil => exact .empty
  | cons k _ ih => exact .cons (name k) ih

/-- A function with the statements of its body. -/
theorem function {key : Option Name} {params : List Name} {body : Body} {span : Span}
    (self : ∀ list, body = .block list → Among ts list) (below : Housed ts (nodes body)) :
    Housed ts (nodes (Function.mk key params body span)) := by
  have hkey : Housed ts (nodes key) := by
    cases key with
    | none => exact .empty
    | some k => exact .some (name k)
  refine .node (fun list hlist => ?_) (both (both hkey (names params)) below)
  cases body with
  | block list' =>
    cases hlist
    exact self _ rfl
  | expr e => cases hlist

end Housed

/-! ### Phrases -/

/-- The tokens of whatever is written write the statements that are listed in it. -/
def Houses {α : Type} [Parts α] (P : Phrase α) : Prop :=
  ∀ ⦃ts a⦄, P ts a → Housed ts (nodes a)

namespace Houses

variable {α : Type} [Parts α] {P : Phrase α} (hP : Houses P)
include hP

theorem listed : Houses (Listed P) := by
  intro ts as has
  induction has with
  | nil => exact .empty
  | one ha => exact .cons (hP ha) .empty
  | cons ha _ ih => exact .cons (hP ha).left (.right (.behind ih))

theorem items : Houses (Items P) := by
  intro ts i hi
  cases hi with
  | one ha => exact hP ha
  | spread ha => exact (hP ha).behind

theorem holes {ts : List Token} {ps : List (Piece α)} (hps : Holes P ts ps) (s : String) :
    Housed ts (nodes (textPiece s ++ ps)) := by
  have htext {ts : List Token} (s : String) : Housed ts (nodes (textPiece s : List (Piece α))) := by
    unfold textPiece
    split
    · exact .empty
    · exact .cons .empty .empty
  refine .append (htext s) ?_
  induction hps with
  | last ha => exact .cons (.behind (hP ha).left) (htext _)
  | more ha _ ih =>
    exact .cons (.behind (hP ha).left) (.append (htext _) (.behind (.right (.behind (.behind ih)))))

theorem operands {joins : Token.Kind → Option (α → α → α)}
    (hjoins : ∀ {k join}, joins k = some join → ∀ ts a b, Housed ts (nodes a) → Housed ts (nodes b) →
      Housed ts (nodes (join a b))) {reaches : Bool} :
    Houses (Operands joins (fun _ => P) reaches) := by
  intro ts a ha
  induction ha with
  | one ha => exact hP ha
  | more _ operator right ih => exact hjoins operator _ _ _ ih.left (.right (.behind (hP right)))

end Houses

/-- The tokens of statements in braces write these, and the statements that are listed in them. -/
def HousesAll (B : Phrase (List Stmt)) : Prop :=
  ∀ ⦃ts body⦄, B ts body → Among ts body ∧ Housed ts (nodes body)

variable {E P W U : Phrase Expr} {B : Phrase (List Stmt)}

/-! ### Expressions -/

section

variable (hE : Houses E) (hB : HousesAll B)

include hB in
/-- A function with statements in braces for its body. -/
theorem housed_function {ts : List Token} {key : Option Name} {params : List Name}
    {body : List Stmt} {span : Span} (hb : B ts body) :
    Housed ts (nodes (Function.mk key params (.block body) span)) := by
  obtain ⟨self, below⟩ := hB hb
  refine .function (fun list hlist => ?_) below
  cases hlist
  exact self

include hE hB

theorem houses_arrow : Houses (Arrow E B) := by
  have hbody {ts : List Token} {key : Option Name} {params : List Name} {body : Body} {span : Span}
      (hb : ArrowBody E B ts body) : Housed ts (nodes (Function.mk key params body span)) := by
    cases hb with
    | block hb => exact housed_function hB hb
    | expr he _ => exact .function (fun _ hlist => by cases hlist) (hE he)
  intro ts e he
  cases he with
  | single hb => exact .expr (hbody hb).behind.behind
  | listed _ hb => exact .expr (.behind (.right (hbody hb).behind))

theorem houses_entries : Houses (Entries E B) := by
  intro ts entry he
  cases he with
  | spread he => exact (hE he).behind
  | short => exact .both (.name _) (.expr .empty)
  | field _ he => exact .both (.name _) (hE he).behind.behind
  | method _ _ hb =>
    exact .both (.name _) (.expr (.behind (.right (housed_function hB hb))))

theorem houses_primary : Houses (Primary E B) := by
  intro ts e he
  cases he with
  | number | string | name | trueWord | falseWord | nullWord | undefinedWord => exact .expr .empty
  | template hp => exact .expr (.behind (hE.holes hp _))
  | function hf =>
    cases hf with
    | named _ hb => exact .expr (.behind (.behind (.right (housed_function hB hb))))
    | unnamed _ hb => exact .expr (.behind (.right (housed_function hB hb)))
  | array hl => exact .expr (.behind (.left (hE.items.listed hl)))
  | object hl => exact .expr (.behind (.left ((houses_entries hE hB).listed hl)))
  | parenthesized he => exact .behind (.left (hE he))

theorem houses_suffixed : Houses (Suffixed E B) := by
  intro ts e he
  induction he with
  | primary hp => exact houses_primary hE hB hp
  | member _ _ ih => exact .expr (.both ih.left (.name _))
  | index _ hk ih => exact .expr (.both ih.left (.right (.behind (hE hk).left)))
  | call _ ha ih => exact .expr (.both ih.left (.right (.behind (hE.items.listed ha).left)))

theorem houses_prefixed (hU : Houses U) : Houses (Prefixed E B U) := by
  intro ts e he
  induction he with
  | updated hu => cases hu with
    | suffixed hs => exact houses_suffixed hE hB hs
    | step hs _ _ _ => exact .expr (houses_suffixed hE hB hs).left
  | sign _ hu => exact .expr (hU hu).behind
  | step _ _ _ ih => exact .expr ih.behind

end

theorem houses_power (hP : Houses P) (hW : Houses W) : Houses (Power P W) := by
  intro ts e he
  cases he with
  | one hp => exact hP hp
  | pow hb hp => exact .expr (.both (hP hb).left (.right (.behind (hW hp))))

theorem houses_coalesced (hP : Houses P) : Houses (Coalesced P) := by
  have hchain {n : Nat} {Q : Phrase Expr} (hQ : Houses Q) : Houses (Chain (joins n) Q) := by
    refine hQ.operands fun hjoin ts a b ha hb => ?_
    obtain ⟨op, -, rfl⟩ | ⟨op, rfl⟩ := joins_eq hjoin
    · exact .expr (.both ha hb)
    · exact .expr (.both ha hb)
  exact hchain (hchain (hchain (hchain (hchain (hchain (hchain hP))))))

theorem houses_assignment (hE : Houses E) (hB : HousesAll B) (hP : Houses P) :
    Houses (Assignment E B P) := by
  have hconditional : Houses (Conditional E P) := by
    intro ts e he
    cases he with
    | one hc => exact houses_coalesced hP hc
    | choice hc hy hn =>
      exact .expr (.both (.both (houses_coalesced hP hc).left (.right (.behind (hE hy).left)))
        (.right (.behind (.right (hE hn).behind))))
  intro ts e he
  cases he with
  | arrow ha => exact houses_arrow hE hB ha
  | conditional hc => exact hconditional hc
  | assign ht _ _ hv => exact .expr (.both (hconditional ht).left (.right (hE hv).behind))

/-! ### Statements -/

section

variable {C : Clause Stmt} {S : Bool → Clause Stmt} {lines : Bool}

theorem housed_statements (hC : ∀ {ts st next}, C ts st next → Housed ts (nodes st))
    {ts : List Token} {body : List Stmt} {next : Token} (hbody : Statements C ts body next) :
    Housed ts (nodes body) := by
  induction hbody with
  | nil => exact .empty
  | cons hst _ ih => exact .cons (hC hst).left ih.right

variable (hE : Houses E)
include hE

theorem houses_declaration : Houses (Declaration E) := by
  intro ts d hd
  cases hd with
  | value _ hv =>
    exact .stmt rfl (.both (.name _) (.some (hE hv).behind.behind.behind))
  | bare => exact .stmt rfl (.both (.name _) .empty)

theorem houses_possibly : Houses (Possibly E) := by
  intro ts o ho
  cases ho with
  | none => exact .empty
  | some he => exact .some (hE he)

theorem houses_loopStart : Houses (LoopStart E) := by
  intro ts o ho
  cases ho with
  | none => exact .empty
  | declaration hd => exact .some (houses_declaration hE hd)
  | expr he => exact .some (.stmt rfl (hE he))

/-- The statements of a block and of the body of a function are listed by them. -/
theorem housed_rule
    (hlists : ∀ {loop ts body next}, Statements (S loop) ts body next → Among ts body)
    (hS : ∀ {loop ts st next}, S loop ts st next → Housed ts (nodes st))
    {loop : Bool} {ts : List Token} {st : Stmt} {next : Token} (hst : Rule E lines S loop ts st next) :
    Housed ts (nodes st) := by
  have hbraced : HousesAll (Braced (S false)) := by
    intro us body hb
    cases hb with
    | mk hbody =>
      exact ⟨(hlists hbody).mono ⟨[_], [_], rfl⟩, .behind (housed_statements hS hbody).left⟩
  cases hst with
  | declaration hd _ => exact (houses_declaration hE hd).left
  | function _ hb =>
    exact .stmt rfl (.behind (.behind (.right (housed_function hbraced hb))))
  | ifThen hc hy _ =>
    exact .stmt rfl (.both (.both (.behind (.behind (hE hc).left))
      (.behind (.behind (.right (hS hy).behind)))) .empty)
  | ifElse hc hy hn =>
    exact .stmt rfl (.both (.both (.behind (.behind (hE hc).left))
      (.behind (.behind (.right (.behind (hS hy).left)))))
      (.some (.behind (.behind (.right (.behind (.right (hS hn).behind)))))))
  | whileLoop hc hb =>
    exact .stmt rfl (.both (.behind (.behind (hE hc).left))
      (.behind (.behind (.right (hS hb).behind))))
  | forLoop hs hc hp hb =>
    exact .stmt rfl (.both (.both (.both (.behind (.behind (houses_loopStart hE hs).left))
      (.behind (.behind (.right (.behind (houses_possibly hE hc).left)))))
      (.behind (.behind (.right (.behind (.right (.behind (houses_possibly hE hp).left)))))))
      (.behind (.behind (.right (.behind (.right (.behind (.right (hS hb).behind))))))))
  | forOf _ hi hb =>
    exact .stmt rfl (.both (.both (.name _) (.behind (.behind (.behind (.behind (.behind
      (hE hi).left)))))) (.behind (.behind (.behind (.behind (.behind (.right (hS hb).behind)))))))
  | returns hv _ _ => exact .stmt rfl (.behind (.left (.some (hE hv))))
  | throws hv _ => exact .stmt rfl (.behind (hE hv).left)
  | expr hv _ _ => exact .stmt rfl (hE hv).left
  | block hb =>
    refine .node (fun list hlist => ?_) (.behind (housed_statements hS hb).left)
    cases hlist
    exact (hlists hb).mono ⟨[_], [_], rfl⟩
  | returnsNothing _ | breaks _ | continues _ | empty => exact .stmt rfl .empty

end

section

variable {m : Nat} (hE : Houses (level true m).expr)
include hE

theorem housed_statement {n : Nat} {loop : Bool} {ts : List Token} {st : Stmt} {next : Token}
    (hst : Statement (level true m).expr true n loop ts st next) : Housed ts (nodes st) := by
  induction n generalizing loop ts st next with
  | zero => exact hst.elim
  | succ n ih =>
    exact housed_rule hE (fun hbody => ⟨_, _, m, n, _, List.infix_rfl, hbody⟩) ih hst

theorem housesAll_block : HousesAll (Block (level true m).expr true) := by
  rintro ts body ⟨n, hb⟩
  cases hb with
  | mk hbody =>
    exact ⟨⟨_, _, m, n, false, ⟨[_], [_], rfl⟩, hbody⟩,
      .behind (housed_statements (housed_statement hE) hbody).left⟩

end

/-! ### Levels -/

theorem houses_level (m : Nat) : Houses (level true m).expr ∧ Houses (level true m).power ∧
    Houses (level true m).operand := by
  induction m with
  | zero =>
    have hnothing : Houses (fun _ _ => False : Phrase Expr) := fun _ _ he => he.elim
    have hoperand : Houses (level true 0).operand :=
      houses_prefixed hnothing (housesAll_block (m := 0) hnothing) hnothing
    exact ⟨hnothing, houses_power hoperand hnothing, hoperand⟩
  | succ m ih =>
    obtain ⟨hE, hP, hO⟩ := ih
    have hexpr : Houses (level true (m + 1)).expr := houses_assignment hE (housesAll_block hE) hP
    have hoperand : Houses (level true (m + 1)).operand :=
      houses_prefixed hexpr (housesAll_block (m := m + 1) hexpr) hO
    exact ⟨hexpr, houses_power hoperand hP, hoperand⟩

/-- Whatever statements a node of a script lists, some of the tokens of the script write them. -/
theorem housed_written {ts : List Token} {p : Program} {final : Token}
    (hbody : Written true ts p.body final) : Housed ts [.script p] := by
  obtain ⟨n, hbody⟩ := hbody
  refine .node (fun list hlist => ?_)
    (housed_statements (housed_statement (houses_level 64).1) hbody)
  cases hlist
  exact ⟨ts, final, 64, n, false, List.infix_rfl, hbody⟩

/-! ## How statements end -/

/-- What writes a statement up to what ends it, for the statements that a semicolon or the end of a
line ends. -/
inductive Unended (E : Phrase Expr) : Phrase Stmt
  | declaration {ts : List Token} {d : Stmt} (h : Declaration E ts d) : Unended E ts d
  | returns {vs : List Token} {first : Span} {v : Expr} (h : E vs v) :
    Unended E (⟨.word .returnWord, first⟩ :: vs) (.returns (first.merge (lastSpan vs)) (some v))
  | returnsNothing {first : Span} :
    Unended E [⟨.word .returnWord, first⟩] (.returns (first.merge first) none)
  | breaks {first : Span} : Unended E [⟨.word .breakWord, first⟩] (.breaks first)
  | continues {first : Span} : Unended E [⟨.word .continueWord, first⟩] (.continues first)
  | throws {vs : List Token} {first : Span} {v : Expr} (h : E vs v) :
    Unended E (⟨.word .throwWord, first⟩ :: vs) (.throws (first.merge v.span) v)
  | expr {ts : List Token} {e : Expr} (h : E ts e) : Unended E ts (.expr e)

theorem unended_of_statement (hE : Starts begins E) {n : Nat} {lines loop : Bool} {us : List Token}
    {st : Stmt} {next : Token} (hst : Statement E lines n loop us st next) (h : st.isEnded = true) :
    ∃ (start : List Token) (last : Token) (ends : List Token),
      us = start ++ [last] ++ ends ∧ Unended E (start ++ [last]) st ∧
      Ends lines last.span ends next := by
  have hlast {vs ends : List Token} (hne : vs ≠ []) (he : Ends lines (lastSpan vs) ends next) :
      ∃ (start : List Token) (last : Token), vs = start ++ [last] ∧ Ends lines last.span ends next := by
    obtain rfl | ⟨start, last, rfl⟩ := List.eq_nil_or_concat vs
    · exact absurd rfl hne
    · rw [List.concat_eq_append] at he ⊢
      rw [Parser.lastSpan_concat] at he
      exact ⟨start, last, rfl, he⟩
  cases n with
  | zero => exact hst.elim
  | succ n =>
    cases hst with
    | declaration hd he =>
      obtain ⟨start, last, rfl, hends⟩ := hlast (ne_nil_declaration hd) he
      exact ⟨start, last, _, rfl, .declaration hd, hends⟩
    | returns hv _ he =>
      obtain ⟨start, last, rfl, hends⟩ := hlast (hE.ne_nil hv) he
      exact ⟨_ :: start, last, _, rfl, .returns hv, hends⟩
    | returnsNothing he => exact ⟨[], _, _, rfl, .returnsNothing, he⟩
    | breaks he => exact ⟨[], _, _, rfl, .breaks, he⟩
    | continues he => exact ⟨[], _, _, rfl, .continues, he⟩
    | throws hv he =>
      obtain ⟨start, last, rfl, hends⟩ := hlast (hE.ne_nil hv) he
      exact ⟨_ :: start, last, _, rfl, .throws hv, hends⟩
    | expr hv _ he =>
      obtain ⟨start, last, rfl, hends⟩ := hlast (hE.ne_nil hv) he
      exact ⟨start, last, _, rfl, .expr hv, hends⟩
    | function | ifThen | ifElse | whileLoop | forLoop | forOf | block | empty => cases h

/-- Two statements one after the other are written by tokens one after the other. -/
theorem Statements.neighbours {C : Clause Stmt} {ts : List Token} {before after : List Stmt}
    {first second : Stmt} {next : Token}
    (h : Statements C ts (before ++ first :: second :: after) next) : ∃ pre us vs post,
      ts = pre ++ (us ++ (vs ++ post)) ∧ C us first ((vs ++ post).headD next) ∧
        C vs second (post.headD next) := by
  induction before generalizing ts with
  | nil =>
    cases h with
    | cons hfirst hrest =>
      cases hrest with
      | cons hsecond hrest => exact ⟨[], _, _, _, rfl, hfirst, hsecond⟩
  | cons st before ih =>
    cases h with
    | @cons ts us _ _ _ hst hrest =>
      obtain ⟨pre, us', vs, post, rfl, hfirst, hsecond⟩ := ih hrest
      exact ⟨ts ++ pre, us', vs, post, by simp only [List.append_assoc], hfirst, hsecond⟩

end Grammar

open Grammar in
/-- Two statements of a body, the first of which has no body of its own, are apart: the text between
the last token of the first one, without the semicolon that may end it, and the first token of the
second one has a semicolon or a line break in it, unless a line break is in that last token.  The body
is that of the script, of a block or of a function, anywhere in the tree of a script without
problems. -/
theorem statements_are_separated {src : Source} {p : Program} (h : compile src = .ok p) {n : Node}
    (hn : n.IsIn (.script p)) {before after : List Stmt} {first second : Stmt}
    (hbody : n.body? = some (before ++ first :: second :: after)) (hfirst : first.isEnded = true) :
    ∃ m k loop start last ends next rest following own gap,
      start ++ [last] ++ ends ++ next :: rest <:+: (Token.lex .script src).1 ∧
      Unended (level true m).expr (start ++ [last]) first ∧
      (ends = [] ∨ ∃ span, ends = [⟨.symbol .semicolon, span⟩]) ∧
      Statement (level true m).expr true k loop (next :: rest) second following ∧
      src.Between last.span next.span own gap ∧ (';' ∈ gap ∨ '\n' ∈ gap ∨ '\n' ∈ own) := by
  obtain ⟨ts, final, htokens, -, hkinds, hwritten⟩ := Parser.written_of_compile_script h
  obtain ⟨us, following, m, k, loop, hwithin, hlisted⟩ :=
    housed_written hwritten _ (List.mem_singleton_self _) n _ hn hbody
  obtain ⟨pre, vs, ws, post, rfl, hvs, hws⟩ := hlisted.neighbours
  obtain ⟨start, last, ends, rfl, hunended, hends⟩ :=
    unended_of_statement (starts_level true m).1 hvs hfirst
  obtain ⟨next, rest, rfl, hnext⟩ := starts_statement (starts_level true m).1 hws
  have hall : start ++ [last] ++ ends ++ next :: rest <:+: (Token.lex .script src).1 := by
    rw [htokens]
    refine List.IsInfix.trans ⟨pre, post, ?_⟩ (hwithin.trans (List.prefix_append ts [final]).isInfix)
    simp only [List.append_assoc, List.cons_append]
  -- where the tokens are
  have hordered := Token.ordered_lex .script src
  have hsound {t : Token} (ht : t ∈ start ++ [last] ++ ends ++ next :: rest) : src.Sound t.span :=
    hordered.sound (hall.subset ht)
  have hlast : src.Sound last.span := hsound (by simp)
  have hsecond : src.Sound next.span := hsound (by simp)
  have hpairs := (hordered.pairwise.sublist hall.sublist)
  have happart : ∀ t ∈ start ++ [last] ++ ends, t.span.stop ≤ next.span.start := fun t ht =>
    (List.pairwise_append.1 hpairs).2.2 t ht next List.mem_cons_self
  have hle : last.span.stop ≤ next.span.start := happart last (by simp)
  have hline (hline : last.span.line < next.span.line) : ∃ own gap,
      src.Between last.span next.span own gap ∧ (';' ∈ gap ∨ '\n' ∈ gap ∨ '\n' ∈ own) := by
    obtain ⟨own, gap, hbetween, hbreak⟩ := Source.between_of_line hlast hsecond hle hline
    exact ⟨own, gap, hbetween, .inr hbreak⟩
  cases hends with
  | @semicolon span =>
    have hcovers := Token.covers_symbol (hall.subset (by simp)) (t := ⟨.symbol .semicolon, span⟩) rfl
    have hbehind : last.span.stop ≤ span.start := by
      have hfirsts := (List.pairwise_append.1 hpairs).1
      exact (List.pairwise_append.1 hfirsts).2.2 last (by simp) _ List.mem_cons_self
    obtain ⟨own, gap, hbetween, hmem⟩ := Source.between_of_covers hlast hsecond hbehind
      (happart ⟨.symbol .semicolon, span⟩ (by simp)) hcovers
    exact ⟨m, k, loop, start, last, _, next, rest, _, own, gap, hall, hunended, .inr ⟨span, rfl⟩, hws,
      hbetween, .inl hmem⟩
  | brace hk => exact absurd hk hnext
  | finish hk =>
    refine absurd hk (hkinds next (hwithin.subset ?_))
    simp
  | line _ hlt =>
    obtain ⟨own, gap, hbetween, hmem⟩ := hline hlt
    exact ⟨m, k, loop, start, last, _, next, rest, _, own, gap, hall, hunended, .inl rfl, hws,
      hbetween, hmem⟩

theorem lex_pair : Token.lex .script ⟨"main", "a; b"⟩ =
    ([⟨.name "a", ⟨0, 1, 1, 1⟩⟩, ⟨.symbol .semicolon, ⟨1, 2, 1, 2⟩⟩, ⟨.name "b", ⟨3, 4, 1, 4⟩⟩] ++
      [⟨.endOfInput, ⟨4, 4, 1, 5⟩⟩], .empty) := by
  rw [Token.lex_ofList]
  with_unfolding_all rfl

theorem compile_pair : ∃ p, compile ⟨"main", "a; b"⟩ = .ok p ∧
    p.body = [.expr (.name ⟨0, 1, 1, 1⟩ "a"), .expr (.name ⟨3, 4, 1, 4⟩ "b")] := by
  have hname (s : String) (span : Span) : (Grammar.level false 64).expr [⟨.name s, span⟩]
      (.name span s) := Grammar.level_suffixed (.primary .name)
  have hfirst : Grammar.Statement (Grammar.level false 64).expr false 1 false
      ([⟨.name "a", ⟨0, 1, 1, 1⟩⟩] ++ [⟨.symbol .semicolon, ⟨1, 2, 1, 2⟩⟩])
      (.expr (.name ⟨0, 1, 1, 1⟩ "a")) ⟨.name "b", ⟨3, 4, 1, 4⟩⟩ :=
    Grammar.Rule.expr (hname _ _) rfl .semicolon
  have hsecond : Grammar.Statement (Grammar.level false 64).expr false 1 false
      ([⟨.name "b", ⟨3, 4, 1, 4⟩⟩] ++ []) (.expr (.name ⟨3, 4, 1, 4⟩ "b"))
      ⟨.endOfInput, ⟨4, 4, 1, 5⟩⟩ := Grammar.Rule.expr (hname _ _) rfl (.finish rfl)
  exact compile_of_written lex_pair (by decide) rfl ⟨1, .cons hfirst (.cons hsecond .nil)⟩

/-- Two names with a semicolon between them. -/
theorem separated_by_semicolon : ∃ p, compile ⟨"main", "a; b"⟩ = .ok p ∧
    (Node.script p).body? = some ([] ++ .expr (.name ⟨0, 1, 1, 1⟩ "a") ::
      .expr (.name ⟨3, 4, 1, 4⟩ "b") :: []) ∧
    Stmt.isEnded (.expr (.name ⟨0, 1, 1, 1⟩ "a")) = true ∧
    ∃ last next own gap, (⟨"main", "a; b"⟩ : Source).Between last next own gap ∧
      (';' ∈ gap ∨ '\n' ∈ gap ∨ '\n' ∈ own) := by
  obtain ⟨⟨_, span⟩, hcompile, rfl⟩ := compile_pair
  refine ⟨_, hcompile, rfl, rfl, ?_⟩
  obtain ⟨_, _, _, _, last, _, next, _, _, own, gap, _, _, _, _, hbetween, hmem⟩ :=
    statements_are_separated hcompile .self
      (show Node.body? _ = some ([] ++ _ :: _ :: []) from rfl) rfl
  exact ⟨last.span, next.span, own, gap, hbetween, hmem⟩

/-- A text in backticks with a line break in it, and a name behind it on its last line: two statements
with a blank between them, and no problem. -/
theorem separated_inside_template :
    compile ⟨"main", "\x60a\nb\x60 c"⟩ =
      .ok ⟨[.expr (.string ⟨0, 5, 1, 1⟩ "a\nb"), .expr (.name ⟨6, 7, 2, 4⟩ "c")], ⟨0, 7, 1, 1⟩⟩ ∧
    ((Token.lex .script ⟨"main", "\x60a\nb\x60 c"⟩).1.map fun t => (t.span.start, t.span.stop)) =
      [(0, 5), (6, 7), (7, 7)] ∧
    (⟨"main", "\x60a\nb\x60 c"⟩ : Source).extract? 5 6 = some [' '] := by
  have hlex : Token.lex .script ⟨"main", "\x60a\nb\x60 c"⟩ =
      ([⟨.string "a\nb", ⟨0, 5, 1, 1⟩⟩, ⟨.name "c", ⟨6, 7, 2, 4⟩⟩, ⟨.endOfInput, ⟨7, 7, 2, 5⟩⟩],
        .empty) := by
    rw [Token.lex_ofList]
    with_unfolding_all rfl
  refine ⟨?_, by rw [hlex]; rfl, by with_unfolding_all rfl⟩
  unfold compile parse
  rw [hlex]
  with_unfolding_all rfl

end Script
end Workbook
