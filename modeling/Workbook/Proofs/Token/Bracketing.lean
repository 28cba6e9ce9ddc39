/-
Strings in strings.

A string may hold expressions, and these may hold braces and strings in turn.  The lexer keeps a list
of what it is inside of; the tokens it makes carry no such list.  Still they nest: a grammar says how
(`Whole`), and the theorem this file exists for is `strings_nest`, for every text without problems.

The invariant says what the tokens ahead close, from the innermost string outwards (`Ahead`).  Each
step of the lexer changes its list just as its tokens open and close (`ahead_stringStep`,
`ahead_codeStep`).
-/
import Mathlib
import Workbook.Proofs.Source

namespace Workbook
namespace Token

/-! ## How tokens nest -/

/-- Whether a token has no part in how tokens nest: it is neither a brace nor a piece of a string with
expressions, and does not mark the end. -/
def Kind.isPlain : Kind → Bool
  | .stringStart _ | .stringPart _ | .stringEnd _ | .holeStart | .holeEnd => false
  | .symbol .leftBrace | .symbol .rightBrace => false
  | .endOfInput => false
  | _ => true

open Lexer (Quote)

section Grammar

variable (src : Source)

mutual

/-- What may stand in an expression of a string: braces in pairs, strings as a whole, and anything
that is plain. -/
inductive Balanced : List Token → Prop
  | nil : Balanced []
  | plain {t : Token} {ts : List Token} (kind : t.kind.isPlain = true) (rest : Balanced ts) :
    Balanced (t :: ts)
  | braces {a b : Token} {ts us : List Token} (left : a.kind = .symbol .leftBrace)
    (inner : Balanced ts) (right : b.kind = .symbol .rightBrace) (rest : Balanced us) :
    Balanced (a :: (ts ++ b :: us))
  | string {q : Quote} {t : Token} {first : String} {cs : List Char} {ts us : List Token}
    (kind : t.kind = .stringStart first) (quote : src.Covers t.span (q.char :: cs))
    (holes : Holes q ts) (rest : Balanced us) : Balanced (t :: (ts ++ us))

/-- What follows a text in a string that does not end with it: an expression between its marks, and
the text after it. -/
inductive Holes : Quote → List Token → Prop
  | hole {q : Quote} {a b : Token} {ts us : List Token} (start : a.kind = .holeStart)
    (inner : Balanced ts) (stop : b.kind = .holeEnd) (rest : Texts q us) :
    Holes q (a :: (ts ++ b :: us))

/-- The text after an expression: the last one, up to the quote that began the string, or one that
goes on. -/
inductive Texts : Quote → List Token → Prop
  | last {q : Quote} {t : Token} {s : String} {cs : List Char} (kind : t.kind = .stringEnd s)
    (quote : src.Covers t.span (cs ++ [q.char])) : Texts q [t]
  | part {q : Quote} {t : Token} {s : String} {ts : List Token} (kind : t.kind = .stringPart s)
    (holes : Holes q ts) : Texts q (t :: ts)

end

/-- The tokens of a whole text: strings are whole and the end is outside of them.  Braces that are
outside of strings need not be in pairs. -/
inductive Whole : List Token → Prop
  | stop {t : Token} (kind : t.kind = .endOfInput) : Whole [t]
  | brace {t : Token} {ts : List Token} (kind : t.kind = .symbol .leftBrace ∨
      t.kind = .symbol .rightBrace) (rest : Whole ts) : Whole (t :: ts)
  | balanced {ts us : List Token} (h : Balanced src ts) (rest : Whole us) : Whole (ts ++ us)

end Grammar

theorem Balanced.append {src : Source} {ts us : List Token} :
    Balanced src ts → Balanced src us → Balanced src (ts ++ us)
  | .nil, h => h
  | .plain kind rest, h => .plain kind (rest.append h)
  | .braces left inner right rest, h => by
    rw [List.cons_append, List.append_assoc]
    exact .braces left inner right (rest.append h)
  | .string kind quote holes rest, h => by
    rw [List.cons_append, List.append_assoc]
    exact .string kind quote holes (rest.append h)

namespace Lexer

/-! ## What is still open -/

section Ahead

variable (src : Source)

/-- Tokens that close all that is open, the innermost first, and go on to the end of the text. -/
inductive Ahead : List Open → List Token → Prop
  | outside {ts : List Token} (h : Whole src ts) : Ahead [] ts
  | text {q : Quote} {opens : List Open} {ts us : List Token} (h : Texts src q ts)
    (rest : Ahead opens us) : Ahead (.text q :: opens) (ts ++ us)
  | hole {q : Quote} {opens : List Open} {t : Token} {ts us : List Token} (h : Balanced src ts)
    (kind : t.kind = .holeEnd) (rest : Ahead (.text q :: opens) us) :
    Ahead (.hole q 0 :: opens) (ts ++ t :: us)
  | brace {q : Quote} {braces : Nat} {opens : List Open} {t : Token} {ts us : List Token}
    (h : Balanced src ts) (kind : t.kind = .symbol .rightBrace)
    (rest : Ahead (.hole q braces :: opens) us) : Ahead (.hole q (braces + 1) :: opens) (ts ++ t :: us)

end Ahead

/-- Not in the text of a string. -/
def InCode (opens : List Open) : Prop :=
  ∀ q rest, opens ≠ .text q :: rest

namespace Ahead

variable {src : Source} {q : Quote} {braces : Nat} {opens : List Open} {t : Token}
  {ts us : List Token}

/-- What is balanced changes nothing. -/
theorem prepend (h : Ahead src opens us) (hcode : InCode opens) (hts : Balanced src ts) :
    Ahead src opens (ts ++ us) := by
  cases h with
  | outside h => exact .outside (.balanced hts h)
  | text => exact absurd rfl (hcode _ _)
  | hole h kind rest =>
    rw [← List.append_assoc]
    exact .hole (hts.append h) kind rest
  | brace h kind rest =>
    rw [← List.append_assoc]
    exact .brace (hts.append h) kind rest

theorem plain (h : Ahead src opens us) (hcode : InCode opens) (ht : t.kind.isPlain = true) :
    Ahead src opens (t :: us) :=
  h.prepend hcode (.plain ht .nil)

/-- An opening brace in an expression, which the tokens ahead close. -/
theorem openBrace (h : Ahead src (.hole q (braces + 1) :: opens) us)
    (ht : t.kind = .symbol .leftBrace) : Ahead src (.hole q braces :: opens) (t :: us) := by
  cases h with
  | @brace _ _ _ b ts vs inner kind rest =>
    have hpair : Balanced src (t :: (ts ++ [b])) := .braces ht inner kind .nil
    have hall := rest.prepend (by simp [InCode]) hpair
    rwa [List.cons_append, List.append_assoc] at hall

/-- A text in a string that an expression follows, which the tokens ahead close together with the
string. -/
theorem holes {a : Token} (h : Ahead src (.hole q 0 :: opens) us) (ha : a.kind = .holeStart) :
    ∃ ts vs, a :: us = ts ++ vs ∧ Holes src q ts ∧ Ahead src opens vs := by
  cases h with
  | @hole _ _ b ts us inner kind rest =>
    cases rest with
    | @text _ _ rs vs hrest hopens =>
      exact ⟨a :: (ts ++ b :: rs), vs, by simp, .hole ha inner kind hrest, hopens⟩

end Ahead

/-! ## Steps -/

section Steps

variable {src : Source} {l : Language} {q : Quote} {opens : List Open} {s : State} {ts : List Token}

/-- A text that is closed ends before its quote. -/
theorem rest_of_closed (l : Language) (q : Quote) (text : List Char) (problems : List Problem)
    (c : Cursor) (h : (stringBody l q text problems c).ending = .closed) :
    ∃ rest, (stringBody l q text problems c).cursor.rest = q.char :: rest := by
  fun_induction stringBody l q text problems c with
  | case1 => cases h
  | case2 => cases h
  | case3 text problems c rest hc => exact ⟨rest, hc⟩
  | case4 _ _ _ _ _ _ _ _ _ ih => exact ih h
  | case5 => cases h
  | case6 _ _ _ _ _ _ _ _ _ _ ih => exact ih h

/-- The two ways that a string goes on without a problem: to its quote, or to an expression. -/
theorem stringStep_of_clean {further : Bool} {origin : Position} {c : Cursor}
    (h : (stringStep l q further origin c opens).problems = []) : ∃ text n,
      ((∃ rest, c.rest.drop n = q.char :: rest) ∧ stringStep l q further origin c opens =
        ⟨[⟨if further then .stringEnd text else .string text,
          .between origin (c.drop (n + 1)).place⟩], [], ⟨c.drop (n + 1), opens⟩⟩) ∨
      stringStep l q further origin c opens =
        ⟨[⟨if further then .stringPart text else .stringStart text,
          .between origin (c.drop n).place⟩, ⟨.holeStart, (c.drop n).span 2⟩], [],
          ⟨c.drop (n + 2), .hole q 0 :: opens⟩⟩ := by
  obtain ⟨n, hn⟩ := stringBody_drop l q [] [] c
  refine ⟨(stringBody l q [] [] c).text, n, ?_⟩
  cases hending : (stringBody l q [] [] c).ending with
  | closed =>
    obtain ⟨rest, hrest⟩ := rest_of_closed l q [] [] c hending
    rw [hn] at hrest
    simp only [stringStep, hending] at h
    refine .inl ⟨⟨rest, hrest⟩, ?_⟩
    simp only [stringStep, hending, hn, h, Cursor.drop_drop]
  | unterminated => simp [stringStep, hending] at h
  | hole =>
    simp only [stringStep, hending] at h
    refine .inr ?_
    simp only [stringStep, hending, hn, h, Cursor.drop_drop]

theorem char_of_ofChar? {ch : Char} (h : Quote.ofChar? l ch = some q) : ch = q.char := by
  unfold Quote.ofChar? at h
  split at h
  · cases h
    assumption
  · split at h
    · rename_i hsingle
      cases h
      exact hsingle.2
    · split at h
      · rename_i hback
        cases h
        exact hback.2
      · cases h

/-- A string that begins. -/
theorem ahead_string {c : Cursor} {rest : List Char} (hplace : src.Reaches c)
    (hcode : InCode opens) (hrest : c.rest = q.char :: rest)
    (hclean : (stringStep l q false c.place (c.drop 1) opens).problems = [])
    (h : Ahead src (stringStep l q false c.place (c.drop 1) opens).next.opens ts) :
    Ahead src opens ((stringStep l q false c.place (c.drop 1) opens).tokens ++ ts) := by
  obtain ⟨text, n, ⟨-, hstep⟩ | hstep⟩ := stringStep_of_clean hclean
  · rw [hstep] at h ⊢
    exact h.plain hcode rfl
  · rw [hstep] at h ⊢
    obtain ⟨us, vs, hsplit, hholes, hopens⟩ :=
      h.holes (a := ⟨.holeStart, ((c.drop 1).drop n).span 2⟩) rfl
    have hquote : src.Covers (.between c.place ((c.drop 1).drop n).place)
        (q.char :: rest.take n) := by
      have hcovers := hplace.covers (n + 1)
      rw [hrest, List.take_succ_cons, Nat.add_comm] at hcovers
      rw [Cursor.drop_drop]
      exact hcovers
    show Ahead src opens (_ :: _ :: ts)
    rw [hsplit]
    have hall := hopens.prepend hcode
      (.string (t := ⟨.stringStart text, _⟩) rfl hquote hholes .nil)
    rwa [List.append_nil] at hall

/-- A string that goes on after an expression. -/
theorem ahead_text {c : Cursor} (hplace : src.Reaches c)
    (hclean : (stringStep l q true c.place c opens).problems = [])
    (h : Ahead src (stringStep l q true c.place c opens).next.opens ts) :
    Ahead src (.text q :: opens) ((stringStep l q true c.place c opens).tokens ++ ts) := by
  obtain ⟨text, n, ⟨⟨rest, hrest⟩, hstep⟩ | hstep⟩ := stringStep_of_clean hclean
  · rw [hstep] at h ⊢
    have hquote : src.Covers (.between c.place (c.drop (n + 1)).place)
        (c.rest.take n ++ [q.char]) := by
      have hcovers := hplace.covers (n + 1)
      rw [List.take_add, hrest] at hcovers
      exact hcovers
    exact .text (.last rfl hquote) h
  · rw [hstep] at h ⊢
    obtain ⟨us, vs, hsplit, hholes, hopens⟩ := h.holes (a := ⟨.holeStart, (c.drop n).span 2⟩) rfl
    show Ahead src _ (_ :: _ :: ts)
    rw [hsplit]
    exact .text (.part rfl hholes) hopens

/-- A symbol.  Outside of all strings braces are not counted. -/
theorem ahead_track {sym : Symbol} {span : Span} (hcode : InCode opens) :
    Ahead src (track sym opens).2 ts → Ahead src opens (⟨(track sym opens).1, span⟩ :: ts) := by
  unfold track
  split
  · exact fun h => h.openBrace rfl
  · exact fun h => .hole .nil rfl h
  · exact fun h => .brace .nil rfl h
  · rename_i hleft hzero hright
    intro h
    by_cases hbrace : sym = .leftBrace ∨ sym = .rightBrace
    · cases opens with
      | nil =>
        cases h with
        | outside h => exact .outside (.brace (by simpa using hbrace) h)
      | cons o opens =>
        cases o with
        | text q => exact absurd rfl (hcode _ _)
        | hole q braces =>
          rcases hbrace with rfl | rfl
          · exact absurd rfl (hleft _ _ _ rfl)
          · cases braces with
            | zero => exact absurd rfl (hzero _ _ rfl)
            | succ braces => exact absurd rfl (hright _ _ _ rfl)
    · have hplain : (Kind.symbol sym).isPlain = true := by
        cases sym <;> first | rfl | simp at hbrace
      exact h.plain hcode hplain

theorem isPlain_wordKind (l : Language) (s : String) : (wordKind l s).isPlain = true := by
  unfold wordKind
  split <;> rfl

/-- A step outside of the text of a string. -/
theorem ahead_codeStep {ch : Char} {rest : List Char} (hplace : src.Reaches s.cursor)
    (hcode : InCode s.opens) (hrest : s.cursor.rest = ch :: rest) :
    (codeStep l ch s).problems = [] → Ahead src (codeStep l ch s).next.opens ts →
      Ahead src s.opens ((codeStep l ch s).tokens ++ ts) := by
  unfold codeStep markStep symbolStep
  split
  · exact fun _ h => h.plain hcode rfl
  · split
    · exact fun _ h => h.plain hcode (isPlain_wordKind _ _)
    · split
      · rename_i q hq
        obtain rfl := char_of_ofChar? hq
        exact ahead_string hplace hcode hrest
      · split
        · split
          · exact fun hclean => by simp [rejectStep] at hclean
          · exact fun _ h => ahead_track hcode h
        · exact fun hclean => by simp [rejectStep] at hclean

end Steps

/-! ## The whole text -/

/-- Without problems all tokens of a step are kept. -/
theorem kept_of_isEmpty {r : Step} {found : Problems} (h : found.isEmpty = true) :
    r.kept found = r.tokens := by
  unfold Step.kept
  rw [if_neg fun hfull => Problems.not_isEmpty_of_isFull hfull h]

theorem isEmpty_of_lexFrom {l : Language} {problems : Problems} {s : State}
    (h : (lexFrom l problems s).2.isEmpty = true) : problems.isEmpty = true := by
  obtain ⟨ps, hps⟩ := problems_lexFrom l problems s
  rw [hps] at h
  exact (Problems.isEmpty_of_pushAll h).1

/-- Without problems the tokens ahead close all that is open. -/
theorem ahead_lexFrom {src : Source} (l : Language) (problems : Problems) (s : State)
    (hplace : src.Reaches s.cursor) (h : (lexFrom l problems s).2.isEmpty = true) :
    Ahead src s.opens (lexFrom l problems s).1 := by
  fun_induction lexFrom l problems s with
  | case1 problems s hfull => exact absurd h (Problems.not_isEmpty_of_isFull hfull)
  | case2 problems s _ q opens hopens r found ahead ih =>
    have hfound : found.isEmpty = true := isEmpty_of_lexFrom h
    have hlaid : Laid (fun _ _ => True) s.cursor r.tokens r.next.cursor :=
      laid_stringStep l q true s.cursor 0 opens
    rw [hopens]
    show Ahead src _ (r.kept found ++ ahead.1)
    rw [kept_of_isEmpty hfound]
    exact ahead_text hplace (Problems.isEmpty_of_pushAll hfound).2 (ih (hplace.laid hlaid) h)
  | case3 problems s _ c problems' hfull => exact absurd h (Problems.not_isEmpty_of_isFull hfull)
  | case4 problems s _ c problems' _ hc hcode =>
    -- a string that is still open would be a problem
    have hopens : s.opens = [] := by
      by_contra hopens
      rw [if_neg (by simpa using hopens)] at h
      simp [Problems.isEmpty, Problems.push] at h
    rw [hopens]
    exact .outside (.stop rfl)
  | case5 problems s _ c problems' _ ch rest hc r found ahead hcode ih =>
    obtain ⟨n, hn, -⟩ := skipBlanks_drop s.cursor
    have hfound : found.isEmpty = true := isEmpty_of_lexFrom h
    have hplace : src.Reaches c := by
      show src.Reaches (skipBlanks s.cursor).1
      rw [hn]
      exact hplace.drop n
    have hlaid : Laid (fun _ _ => True) c r.tokens r.next.cursor :=
      laid_codeStep l ch ⟨c, s.opens⟩ fun _ _ _ => trivial
    show Ahead src s.opens (r.kept found ++ ahead.1)
    rw [kept_of_isEmpty hfound]
    exact ahead_codeStep (s := ⟨c, s.opens⟩) hplace hcode hc
      (Problems.isEmpty_of_pushAll hfound).2 (ih (hplace.laid hlaid) h)

end Lexer

/-! ## Token by token -/

/-- What comes after a token.  After a text that goes on there is the opening mark of an expression;
after that mark the expression and its closing mark; after that mark a text of the string. -/
def Follows (src : Source) (t : Token) (after : List Token) : Prop :=
  match t.kind with
  | .stringStart _ | .stringPart _ => ∃ a rest, after = a :: rest ∧ a.kind = .holeStart
  | .holeStart => ∃ inner b rest, after = inner ++ b :: rest ∧ Balanced src inner ∧ b.kind = .holeEnd
  | .holeEnd => ∃ a rest text, after = a :: rest ∧
      (a.kind = .stringPart text ∨ a.kind = .stringEnd text)
  | _ => True

/-- Every token has after it what has to come there. -/
def Followed (src : Source) (ts : List Token) : Prop :=
  ∀ before t after, ts = before ++ t :: after → Follows src t after

section Followed

variable {src : Source} {q : Quote} {t : Token} {ts us : List Token}

theorem followed_nil : Followed src [] := by
  intro before t after h
  simp at h

theorem Followed.cons (h : Followed src ts) (ht : Follows src t ts) : Followed src (t :: ts) := by
  intro before u after hsplit
  cases before with
  | nil =>
    cases hsplit
    exact ht
  | cons b before =>
    cases hsplit
    exact h before u after rfl

theorem follows_of_isPlain (h : t.kind.isPlain = true) : Follows src t ts := by
  unfold Follows
  split <;> simp_all [Kind.isPlain]

theorem follows_of_symbol {sym : Symbol} (h : t.kind = .symbol sym) : Follows src t ts := by
  unfold Follows
  rw [h]
  trivial

/-- The opening mark of an expression begins what follows a text that goes on. -/
theorem Holes.head (h : Holes src q ts) : ∃ a rest, ts ++ us = a :: rest ∧ a.kind = .holeStart := by
  cases h with
  | hole start => exact ⟨_, _, rfl, start⟩

theorem Texts.head (h : Texts src q ts) : ∃ a rest text, ts ++ us = a :: rest ∧
    (a.kind = .stringPart text ∨ a.kind = .stringEnd text) := by
  cases h with
  | last kind => exact ⟨_, _, _, rfl, .inr kind⟩
  | part kind => exact ⟨_, _, _, rfl, .inl kind⟩

mutual

theorem Balanced.followed {src : Source} {ts us : List Token} :
    Balanced src ts → Followed src us → Followed src (ts ++ us)
  | .nil, h => h
  | .plain kind rest, h => (rest.followed h).cons (follows_of_isPlain kind)
  | .braces left inner right rest, h => by
    rw [List.cons_append, List.append_assoc]
    refine (inner.followed ?_).cons (follows_of_symbol left)
    exact (rest.followed h).cons (follows_of_symbol right)
  | .string kind quote holes rest, h => by
    rw [List.cons_append, List.append_assoc]
    refine (holes.followed (rest.followed h)).cons ?_
    rw [Follows, kind]
    exact holes.head

theorem Holes.followed {src : Source} {q : Quote} {ts us : List Token} :
    Holes src q ts → Followed src us → Followed src (ts ++ us)
  | .hole start inner stop rest, h => by
    rw [List.cons_append, List.append_assoc]
    refine (inner.followed ((rest.followed h).cons ?_)).cons ?_
    · rw [Follows, stop]
      exact rest.head
    · rw [Follows, start]
      exact ⟨_, _, _, rfl, inner, stop⟩

theorem Texts.followed {src : Source} {q : Quote} {ts us : List Token} :
    Texts src q ts → Followed src us → Followed src (ts ++ us)
  | .last kind quote, h => h.cons (by rw [Follows, kind]; trivial)
  | .part kind holes, h => by
    refine (holes.followed h).cons ?_
    rw [Follows, kind]
    exact holes.head

end

theorem Whole.followed (h : Whole src ts) : Followed src ts := by
  induction h with
  | stop kind => exact followed_nil.cons (by rw [Follows, kind]; trivial)
  | brace kind rest ih =>
    rcases kind with kind | kind
    · exact ih.cons (follows_of_symbol kind)
    · exact ih.cons (follows_of_symbol kind)
  | balanced h _ ih => exact h.followed ih

end Followed

/-- Strings with expressions nest in each text without problems.  Its tokens are plain ones, braces
and whole strings, up to the end, at which no string and no expression is open.  In a string each text
that goes on is followed at once by an opening mark; between that mark and its closing mark braces
stand in pairs and strings are whole; and the closing mark is followed at once by a text of the same
string, the last of which ends with the quote that began the string. -/
theorem strings_nest (l : Language) (s : Source) (h : (lex l s).2.isEmpty = true) :
    Whole s (lex l s).1 ∧ ∀ before t after, (lex l s).1 = before ++ t :: after → Follows s t after := by
  have hahead := Lexer.ahead_lexFrom l .empty ⟨Cursor.start s.text, []⟩ s.reaches_start h
  cases hahead with
  | outside hwhole => exact ⟨hwhole, hwhole.followed⟩

/-- A string in braces in an expression of a string. -/
def stringInString : Source :=
  ⟨"nested", "\"a$\x7b\x7bb: \"c$\x7bd\x7de\"\x7d.b\x7df$\x7bg\x7d\""⟩

theorem stringInString_nests :
    (lex .formula stringInString).2.isEmpty = true ∧ (lex .script stringInString).2.isEmpty = true ∧
      Whole stringInString (lex .formula stringInString).1 := by
  have hformula : (lex .formula stringInString).2.isEmpty = true := by
    rw [stringInString, lex_ofList]
    with_unfolding_all rfl
  have hscript : (lex .script stringInString).2.isEmpty = true := by
    rw [stringInString, lex_ofList]
    with_unfolding_all rfl
  exact ⟨hformula, hscript, (strings_nest .formula stringInString hformula).1⟩

end Token
end Workbook
