/-
From characters to tokens.  A string may hold expressions, which may hold strings
in turn, so the lexer keeps a list of the strings it is inside of.

Every scanner looks at the characters ahead and says how many of them it takes;
the cursor is moved in one place only.
-/
import Workbook.Number.Word
import Workbook.Problem
import Workbook.Text.Property
import Workbook.Token.Cursor

namespace Workbook
namespace Token
namespace Lexer

/-! ## Blanks and comments -/

/-- What the characters ahead belong to while blanks are passed. -/
inductive Within
  | code
  | lineComment
  | blockComment

/-- How many characters of blanks and comments lie ahead, added to `taken`, and
the start of a block comment that the text ends in, which begins at `opened`. -/
def blanks (opened taken : Nat) : Within → List Char → Nat × Option Nat
  | .code, '/' :: '/' :: cs => blanks opened (taken + 2) .lineComment cs
  | .code, '/' :: '*' :: cs => blanks taken (taken + 2) .blockComment cs
  | .code, c :: cs =>
    if c = ' ' ∨ c = '\t' ∨ c = '\r' ∨ c = '\n' then blanks opened (taken + 1) .code cs
    else (taken, none)
  | .code, [] => (taken, none)
  | .lineComment, c :: cs =>
    blanks opened (taken + 1) (if c = '\n' then .code else .lineComment) cs
  | .lineComment, [] => (taken, none)
  | .blockComment, '*' :: '/' :: cs => blanks opened (taken + 2) .code cs
  | .blockComment, _ :: cs => blanks opened (taken + 1) .blockComment cs
  | .blockComment, [] => (taken, some opened)

/-- The cursor after blanks and comments, and the problem of a comment that is
not closed. -/
def skipBlanks (c : Cursor) : Cursor × List Problem :=
  match blanks 0 0 .code c.rest with
  | (n, none) => (c.drop n, [])
  | (n, some opened) => (c.drop n, [⟨.unterminatedComment, (c.drop opened).span (n - opened)⟩])

/-! ## Numbers and names -/

/-- How many digits lie ahead. -/
def digitsLength (cs : List Char) : Nat :=
  (cs.takeWhile Char.isDigit).length

/-- The length of a point and the digits after it, of which there must be some. -/
def fractionLength : List Char → Nat
  | '.' :: cs => if digitsLength cs = 0 then 0 else 1 + digitsLength cs
  | _ => 0

/-- The length of an exponent: its letter, a sign and digits, of which there must
be some. -/
def exponentLength : List Char → Nat
  | c :: cs =>
    let mark := if cs.head? = some '+' ∨ cs.head? = some '-' then 1 else 0
    let n := digitsLength (cs.drop mark)
    if (c = 'e' ∨ c = 'E') ∧ n ≠ 0 then 1 + mark + n else 0
  | [] => 0

/-- The length of a number: digits, a fraction and an exponent. -/
def numberLength (cs : List Char) : Nat :=
  let whole := digitsLength cs
  let fraction := fractionLength (cs.drop whole)
  whole + fraction + exponentLength (cs.drop (whole + fraction))

/-- The number that the characters write.  One that is more than digits is a
double. -/
def literal (cs : List Char) : Literal :=
  if digitsLength cs < cs.length then .float ((Number.readDecimal? cs).getD 0)
  else
    let n := Number.ofDigits cs
    if Number.fitsWord n then .integer (Int64.ofNat n)
    else .big (String.ofList (cs.dropWhile (· = '0')))

def beginsName (l : Language) (c : Char) : Bool :=
  Text.isAlphabetic c || c = '_' || (l = .script && c = '$')

def continuesName (l : Language) (c : Char) : Bool :=
  Text.isAlphanumeric c || c = '_' || (l = .script && c = '$')

/-! ## Strings -/

/-- The three ways to write a string. -/
inductive Quote
  | double
  | single
  | back
  deriving DecidableEq, Repr

namespace Quote

def char : Quote → Char
  | .double => '"'
  | .single => '\''
  | .back => '\x60'

/-- The quotes of a language. -/
def ofChar? (l : Language) (c : Char) : Option Quote :=
  if c = '"' then some .double
  else if l = .script ∧ c = '\'' then some .single
  else if l = .script ∧ c = '\x60' then some .back
  else none

/-- Whether the string may hold expressions. -/
def holdsExpressions (l : Language) : Quote → Bool
  | .double => l = .formula
  | .single => false
  | .back => true

/-- Whether the string may go on over a line break. -/
def holdsLines : Quote → Bool
  | .back => true
  | _ => false

end Quote

/-- What follows a backslash: how many characters belong to the escape, the
character it stands for and what is wrong with it. -/
structure Escape where
  length : Nat
  char : Option Char
  cause : Option Problem.Cause

/-- A code point in braces; the `u` has been passed. -/
def codePoint : List Char → Escape
  | '\x7b' :: rest =>
    let digits := rest.takeWhile fun c => (Number.digitValue? 16 c).isSome
    let closed := (rest.drop digits.length).head? = some '\x7d'
    let n := digits.foldl (fun n c => 16 * n + (Number.digitValue? 16 c).getD 0) 0
    let length := 2 + digits.length + (if closed then 1 else 0)
    if digits ≠ [] ∧ closed ∧ n.isValidChar then ⟨length, some (Char.ofNat n), none⟩
    else ⟨length, none, some (.badCodePoint (String.ofList digits))⟩
  | _ => ⟨1, none, some .escapeWithoutBrace⟩

/-- The escape whose backslash has been passed.  A character that means nothing
there stands for itself. -/
def escape : List Char → Escape
  | [] => ⟨0, none, some .endInEscape⟩
  | c :: rest =>
    if c = '"' ∨ c = '\'' ∨ c = '\x60' ∨ c = '\\' ∨ c = '$' then ⟨1, some c, none⟩
    else if c = 'n' then ⟨1, some '\n', none⟩
    else if c = 't' then ⟨1, some '\t', none⟩
    else if c = 'r' then ⟨1, some '\r', none⟩
    else if c = '0' then ⟨1, some '\x00', none⟩
    else if c = 'u' then codePoint rest
    else ⟨1, some c, some (.badEscape c)⟩

/-- How the text of a string ends. -/
inductive Ending
  | closed
  | hole
  | unterminated
  deriving DecidableEq, Repr

/-- The text of a string, up to what ends it. -/
structure Body where
  text : String
  problems : List Problem
  ending : Ending
  cursor : Cursor

/-- The text from the cursor on, up to the quote, the mark of an expression, or
the end of the line or the text; `text` and `problems` come before it. -/
def stringBody (l : Language) (q : Quote) (text : List Char) (problems : List Problem)
    (c : Cursor) : Body :=
  match hc : c.rest with
  | [] => ⟨String.ofList text.reverse, problems, .unterminated, c⟩
  | ch :: rest =>
    if ch = '\n' ∧ !q.holdsLines then ⟨String.ofList text.reverse, problems, .unterminated, c⟩
    else if ch = q.char then ⟨String.ofList text.reverse, problems, .closed, c⟩
    else if ch = '\\' then
      let e := escape rest
      let found := e.cause.toList.map fun cause => ⟨cause, c.span (1 + e.length)⟩
      stringBody l q (e.char.toList ++ text) (problems ++ found) (c.drop (1 + e.length))
    else if ch = '$' ∧ q.holdsExpressions l ∧ rest.head? = some '\x7b' then
      ⟨String.ofList text.reverse, problems, .hole, c⟩
    else stringBody l q (ch :: text) problems (c.drop 1)
termination_by c.rest.length
decreasing_by all_goals (simp only [Cursor.length_rest_drop, hc, List.length_cons]; omega)

/-- The text of a string never reaches back. -/
theorem length_stringBody_le (l : Language) (q : Quote) (text : List Char)
    (problems : List Problem) (c : Cursor) :
    (stringBody l q text problems c).cursor.rest.length ≤ c.rest.length := by
  fun_induction stringBody l q text problems c <;>
    simp_all only [Cursor.length_rest_drop, Nat.le_refl] <;> omega

/-- Where a string stops for its quote or for an expression, a character is
left. -/
theorem stringBody_rest_ne_nil (l : Language) (q : Quote) (text : List Char)
    (problems : List Problem) (c : Cursor)
    (h : (stringBody l q text problems c).ending ≠ .unterminated) :
    (stringBody l q text problems c).cursor.rest ≠ [] := by
  fun_induction stringBody l q text problems c <;> simp_all

/-! ## One step -/

/-- A string that the lexer is inside of: in its text, or in one of its
expressions with a number of braces open. -/
inductive Open
  | text (q : Quote)
  | hole (q : Quote) (braces : Nat)
  deriving DecidableEq, Repr

structure State where
  cursor : Cursor
  opens : List Open

namespace State

/-- What a step uses up: characters ahead, or a string that is given up. -/
def measure (s : State) : Nat :=
  2 * s.cursor.rest.length + s.opens.length

end State

/-- The outcome of a step: tokens and problems, and where to go on. -/
structure Step where
  tokens : List Token
  problems : List Problem
  next : State

/-- The first part of a string, whose quote has been passed and stood at `from`;
or a further part, after an expression. -/
def stringStep (l : Language) (q : Quote) (further : Bool) (origin : Position) (c : Cursor)
    (opens : List Open) : Step :=
  let body := stringBody l q [] [] c
  let whole (s : String) : Kind := if further then .stringEnd s else .string s
  match body.ending with
  | .closed =>
    let after := body.cursor.drop 1
    ⟨[⟨whole body.text, .between origin after.place⟩], body.problems, ⟨after, opens⟩⟩
  | .unterminated =>
    let span := Span.between origin body.cursor.place
    ⟨[⟨whole body.text, span⟩], body.problems ++ [⟨.unterminatedString, span⟩],
      ⟨body.cursor, opens⟩⟩
  | .hole =>
    let piece : Kind := if further then .stringPart body.text else .stringStart body.text
    ⟨[⟨piece, .between origin body.cursor.place⟩, ⟨.holeStart, body.cursor.span 2⟩],
      body.problems, ⟨body.cursor.drop 2, .hole q 0 :: opens⟩⟩

/-- A token of the given length. -/
def plainStep (kind : Kind) (n : Nat) (s : State) (opens : List Open) : Step :=
  ⟨[⟨kind, s.cursor.span n⟩], [], ⟨s.cursor.drop n, opens⟩⟩

/-- Characters that make no token.  The blanks after them are passed at once. -/
def rejectStep (cause : Problem.Cause) (n : Nat) (s : State) : Step :=
  let (c, problems) := skipBlanks (s.cursor.drop n)
  ⟨[], ⟨cause, s.cursor.span n⟩ :: problems, ⟨c, s.opens⟩⟩

/-- What is wrong with a symbol that only the other language has, where a word
takes its place. -/
def foreign? : Language → Symbol → Option Problem.Cause
  | .formula, .bang => some .bangForNot
  | .formula, .ampAmp => some .ampersandsForAnd
  | .formula, .pipePipe => some .barsForOr
  | _, _ => none

/-- A symbol as a token, and the open strings after it.  A closing brace ends the
expression in a string when no brace is open in it. -/
def track (sym : Symbol) (opens : List Open) : Kind × List Open :=
  match sym, opens with
  | .leftBrace, .hole q braces :: opens => (.symbol sym, .hole q (braces + 1) :: opens)
  | .rightBrace, .hole q 0 :: opens => (.holeEnd, .text q :: opens)
  | .rightBrace, .hole q (braces + 1) :: opens => (.symbol sym, .hole q braces :: opens)
  | _, opens => (.symbol sym, opens)

def symbolStep (l : Language) (sym : Symbol) (s : State) : Step :=
  match foreign? l sym with
  | some cause => rejectStep cause sym.text.length s
  | none => plainStep (track sym s.opens).1 sym.text.length s (track sym s.opens).2

/-- A reserved word or a name. -/
def wordKind (l : Language) (s : String) : Kind :=
  match Keyword.ofText? l s with
  | some w => .word w
  | none => .name s

/-- The step at a character that is neither part of a number nor of a name. -/
def markStep (l : Language) (ch : Char) (s : State) : Step :=
  match Quote.ofChar? l ch with
  | some q => stringStep l q false s.cursor.place (s.cursor.drop 1) s.opens
  | none =>
    match Symbol.atFront? l s.cursor.rest with
    | some sym => symbolStep l sym s
    | none => rejectStep (.unexpectedCharacter ch) 1 s

/-- The step at a character outside the text of a string. -/
def codeStep (l : Language) (ch : Char) (s : State) : Step :=
  if ch.isDigit then
    let n := numberLength s.cursor.rest
    plainStep (.number (literal (s.cursor.rest.take n))) n s s.opens
  else if beginsName l ch then
    let n := (s.cursor.rest.takeWhile (continuesName l)).length
    plainStep (wordKind l (s.cursor.take n)) n s s.opens
  else markStep l ch s

/-! ## Every step uses something up -/

theorem length_skipBlanks_le (c : Cursor) :
    (skipBlanks c).1.rest.length ≤ c.rest.length := by
  unfold skipBlanks
  split <;> simp

theorem measure_rejectStep_lt (cause : Problem.Cause) (n : Nat) (s : State) (hn : 0 < n)
    (hs : s.cursor.rest ≠ []) :
    (rejectStep cause n s).next.measure < s.measure := by
  have h := length_skipBlanks_le (s.cursor.drop n)
  have : 0 < s.cursor.rest.length := List.length_pos_iff.2 hs
  simp only [Cursor.length_rest_drop] at h
  simp only [rejectStep, State.measure]
  omega

theorem measure_plainStep_lt (kind : Kind) (n : Nat) (s : State) (opens : List Open) (hn : 0 < n)
    (hs : s.cursor.rest ≠ []) (ho : opens.length ≤ s.opens.length + 1) :
    (plainStep kind n s opens).next.measure < s.measure := by
  have : 0 < s.cursor.rest.length := List.length_pos_iff.2 hs
  simp only [plainStep, State.measure, Cursor.length_rest_drop]
  omega

/-- A string step uses up a character, or leaves the list of open strings one
shorter than a further part found it. -/
theorem measure_stringStep_lt (l : Language) (q : Quote) (further : Bool) (origin : Position)
    (c : Cursor) (opens : List Open) :
    (stringStep l q further origin c opens).next.measure
      < 2 * c.rest.length + opens.length + 1 := by
  have hle := length_stringBody_le l q [] [] c
  have hne := stringBody_rest_ne_nil l q [] [] c
  cases h : (stringBody l q [] [] c).ending
  · simp only [stringStep, h, State.measure, Cursor.length_rest_drop]
    omega
  · have : 0 < (stringBody l q [] [] c).cursor.rest.length :=
      List.length_pos_iff.2 (hne (by simp [h]))
    simp only [stringStep, h, State.measure, Cursor.length_rest_drop, List.length_cons]
    omega
  · simp only [stringStep, h, State.measure]
    omega

theorem digitsLength_pos {c : Char} {cs : List Char} (h : c.isDigit) :
    0 < digitsLength (c :: cs) := by
  simp [digitsLength, h]

theorem numberLength_pos {c : Char} {cs : List Char} (h : c.isDigit) :
    0 < numberLength (c :: cs) := by
  have : 0 < digitsLength (c :: cs) := digitsLength_pos h
  simp only [numberLength]
  omega

theorem length_text_pos (sym : Symbol) : 0 < sym.text.length := by
  cases sym <;> decide

theorem length_track (sym : Symbol) (opens : List Open) :
    (track sym opens).2.length = opens.length := by
  unfold track
  split <;> rfl

theorem measure_symbolStep_lt (l : Language) (sym : Symbol) (s : State)
    (hs : s.cursor.rest ≠ []) : (symbolStep l sym s).next.measure < s.measure := by
  have hn := length_text_pos sym
  unfold symbolStep
  split
  · exact measure_rejectStep_lt _ _ _ hn hs
  · exact measure_plainStep_lt _ _ _ _ hn hs (by rw [length_track]; omega)

theorem measure_markStep_lt (l : Language) (ch : Char) (s : State)
    (hs : s.cursor.rest ≠ []) : (markStep l ch s).next.measure < s.measure := by
  unfold markStep
  split
  · next q _ =>
    have h := measure_stringStep_lt l q false s.cursor.place (s.cursor.drop 1) s.opens
    have : 0 < s.cursor.rest.length := List.length_pos_iff.2 hs
    simp only [Cursor.length_rest_drop, State.measure] at h ⊢
    omega
  · split
    · exact measure_symbolStep_lt _ _ _ hs
    · exact measure_rejectStep_lt _ _ _ (by omega) hs

theorem continuesName_of_beginsName {l : Language} {c : Char} (h : beginsName l c) :
    continuesName l c := by
  simp only [beginsName, continuesName, Text.isAlphanumeric, Bool.or_eq_true] at h ⊢
  rcases h with (h | h) | h <;> simp [h]

theorem measure_codeStep_lt (l : Language) {ch : Char} {cs : List Char} (s : State)
    (hs : s.cursor.rest = ch :: cs) : (codeStep l ch s).next.measure < s.measure := by
  have hne : s.cursor.rest ≠ [] := by simp [hs]
  unfold codeStep
  split
  · next hd =>
    exact measure_plainStep_lt _ _ _ _ (hs ▸ numberLength_pos hd) hne (by omega)
  · split
    · next hb =>
      refine measure_plainStep_lt _ _ _ _ ?_ hne (by omega)
      simp [hs, continuesName_of_beginsName hb]
    · exact measure_markStep_lt _ _ _ hne

/-! ## The whole text -/

/-- The token that ends every text. -/
def finish (c : Cursor) : Token :=
  ⟨.endOfInput, .point c.place⟩

/-- The tokens of a step.  When it found the last problem, only the first of
them is kept. -/
def Step.kept (r : Step) (found : Problems) : List Token :=
  if found.isFull then r.tokens.take 1 else r.tokens

/-- The tokens of what lies ahead, and the problems found so far and there.  Once
enough problems have been found, the text counts as ended. -/
def lexFrom (l : Language) (problems : Problems) (s : State) : List Token × Problems :=
  if problems.isFull then ([finish s.cursor], problems)
  else match _ho : s.opens with
    | .text q :: opens =>
      let r := stringStep l q true s.cursor.place s.cursor opens
      let found := problems.pushAll r.problems
      let ahead := lexFrom l found r.next
      (r.kept found ++ ahead.1, ahead.2)
    | opens =>
      let c := (skipBlanks s.cursor).1
      let problems := problems.pushAll (skipBlanks s.cursor).2
      if problems.isFull then ([finish c], problems)
      else match _hc : c.rest with
        | [] =>
          ([finish c],
            if opens.isEmpty then problems
            else problems.push ⟨.unterminatedString, .point c.place⟩)
        | ch :: _ =>
          let r := codeStep l ch ⟨c, s.opens⟩
          let found := problems.pushAll r.problems
          let ahead := lexFrom l found r.next
          (r.kept found ++ ahead.1, ahead.2)
termination_by s.measure
decreasing_by
  · have h := measure_stringStep_lt l q true s.cursor.place s.cursor opens
    simp only [State.measure, _ho, List.length_cons] at h ⊢
    exact h
  · have h := measure_codeStep_lt l ⟨(skipBlanks s.cursor).1, s.opens⟩ _hc
    have hle := length_skipBlanks_le s.cursor
    simp only [State.measure] at h ⊢
    omega

end Lexer

/-- The tokens of a text, the last one marking its end, and the problems met. -/
def lex (l : Language) (s : Source) : List Token × Problems :=
  Lexer.lexFrom l .empty ⟨Cursor.start s.text, []⟩

end Token
end Workbook
