/-
Literals: numbers and strings.

What the lexer takes for a number begins with a digit (`Lexer.lexed_lexFrom`), so no literal has a sign:
an integer is the number that its digits write (`Lexer.integer_of_literal`), and a number with a
fraction or an exponent is read by operations that make no sign where there was none
(`Lexer.float_of_literal`).

A literal has a text of its own, by which it names a field, and its double has another one.  They are
the same for every literal that is written as its double is (`Literal.text_of_plain`).

Every text can be written as a string (`Lexer.Quote.enclose`).  Each of its characters is written as
itself or as an escape that stands for it, so the string is read as that text (`lex_enclosed`).
-/
import Mathlib
import Workbook.Proofs.Formula.Literal
import Workbook.Proofs.Number.Text
import Workbook.Proofs.Token.Layout

open Float.Model (UnpackedFloat)
open Float.Model.UnpackedFloat (Sign)

namespace Workbook

/-! ## Numbers without a sign -/

namespace Number

/-- Whether a double has a sign; one that denotes nothing has none. -/
def Exact.isSigned : Exact → Bool
  | .nan => false
  | .infinite negative => negative
  | .finite negative _ _ => negative

/-- A double without a sign. -/
def Unsigned (x : Float) : Prop :=
  (exact x).isSigned = false

/-- The same of what arithmetic works on. -/
def UnsignedParts : UnpackedFloat → Prop
  | .notANumber => True
  | .infinity sign => sign = .positive
  | .zero sign => sign = .positive
  | .finite sign _ _ _ => sign = .positive

theorem unsignedParts_unpack {x : Float} (h : Unsigned x) : UnsignedParts x.toModel.unpack := by
  rw [unpack_eq]
  unfold Unsigned at h
  cases hx : exact x with
  | nan => trivial
  | infinite negative =>
    rw [hx] at h
    cases (show negative = false from h)
    exact rfl
  | finite negative m e =>
    rw [hx] at h
    cases (show negative = false from h)
    unfold Exact.unpacked
    simp only
    split <;> rfl

theorem exists_packComponents {u : UnpackedFloat} (h : UnsignedParts u) :
    ∃ field fraction, UnpackedFloat.pack .binary64 u =
      UnpackedFloat.packComponents .binary64 (signOf false) field fraction := by
  cases u with
  | notANumber => exact ⟨_, _, rfl⟩
  | infinity sign =>
    cases (show sign = .positive from h)
    exact ⟨_, _, rfl⟩
  | zero sign =>
    cases (show sign = .positive from h)
    exact ⟨_, _, rfl⟩
  | finite sign m e pos =>
    cases (show sign = .positive from h)
    unfold UnpackedFloat.pack
    simp only
    split
    · exact ⟨_, _, rfl⟩
    · split <;> exact ⟨_, _, rfl⟩

theorem unsigned_pack {u : UnpackedFloat} (h : UnsignedParts u) : Unsigned (.ofModel (.pack u)) := by
  obtain ⟨field, fraction, hpack⟩ := exists_packComponents h
  have hlayout : (Float.ofModel (.pack u)).toBits.toNat =
      layoutBits false field.toNat fraction.toNat := by
    show (UnpackedFloat.pack .binary64 u).toNat = _
    rw [hpack]
    exact packComponents_toNat false field fraction
  unfold Unsigned
  rw [exact_of_layout field.isLt fraction.isLt hlayout]
  split
  · split <;> rfl
  · split <;> rfl

/-- Rounding keeps the sign. -/
theorem unsigned_roundWithAccuracy (m : Nat) (e : Int) (accuracy : UnpackedFloat.Accuracy) :
    UnsignedParts (UnpackedFloat.roundWithAccuracy .binary64 .positive m e accuracy) := by
  unfold UnpackedFloat.roundWithAccuracy
  simp only
  split <;> rfl

theorem unsigned_mul {u v : UnpackedFloat} (hu : UnsignedParts u) (hv : UnsignedParts v) :
    UnsignedParts (UnpackedFloat.mul .binary64 u v) := by
  cases u <;> cases v <;> cases hu <;> cases hv <;>
    first | exact rfl | exact trivial | exact unsigned_roundWithAccuracy _ _ _

theorem unsigned_div {u v : UnpackedFloat} (hu : UnsignedParts u) (hv : UnsignedParts v) :
    UnsignedParts (UnpackedFloat.div .binary64 u v) := by
  cases u <;> cases v <;> cases hu <;> cases hv <;>
    first | exact rfl | exact trivial | exact unsigned_roundWithAccuracy _ _ _

theorem unsigned_ofUInt64 (n : UInt64) : UnsignedParts (UnpackedFloat.ofUInt64 .binary64 n) := by
  show UnsignedParts (UnpackedFloat.normalize .binary64 (n.toNat : Int) 0 .positive)
  unfold UnpackedFloat.normalize
  split
  · next h => exact absurd (compare_lt_iff_lt.1 h) (by omega)
  · rfl
  · exact unsigned_roundWithAccuracy _ _ _

theorem unsigned_powerOfTen : ∀ i : Fin Float.exactlyRepresentablePowersOfTen.size,
    (exact Float.exactlyRepresentablePowersOfTen[i]).isSigned = false := by
  decide

theorem unsigned_ofScientific (m : Nat) (inverse : Bool) (e : Nat) :
    Unsigned (Float.ofScientific m inverse e) := by
  unfold Float.ofScientific
  split
  · next h =>
    have hword : UnsignedParts (Float.Model.unpack m.toUInt64.toFloat.toModel) :=
      unsignedParts_unpack (unsigned_pack (unsigned_ofUInt64 _))
    have hpower := unsignedParts_unpack (unsigned_powerOfTen ⟨e, Nat.lt_succ_of_le h.2⟩)
    simp only
    split
    · exact unsigned_pack (unsigned_div hword hpower)
    · exact unsigned_pack (unsigned_mul hword hpower)
  · refine unsigned_pack ?_
    generalize (if inverse then Int.negOfNat e else Int.ofNat e) = k
    unfold UnpackedFloat.ofScientific
    split
    · exact rfl
    · split
      · exact rfl
      · split
        · exact rfl
        · split
          · exact unsigned_mul (u := .finite .positive _ _ _) (v := .finite .positive _ _ _) rfl rfl
          · exact unsigned_div (u := .finite .positive _ _ _) (v := .finite .positive _ _ _) rfl rfl

theorem unsigned_ofDecimal (coefficient : Nat) (exponent : Int) :
    Unsigned (ofDecimal false coefficient exponent) := by
  unfold ofDecimal
  simp only [Bool.false_eq_true, if_false]
  split
  · rfl
  · split
    · rfl
    · split
      · rfl
      · exact unsigned_ofScientific _ _ _

theorem unsigned_readMagnitude {cs : List Char} {x : Float} (h : readMagnitude? false cs = some x) :
    Unsigned x := by
  unfold readMagnitude? at h
  simp only at h
  split at h
  all_goals
    split at h
    · cases h
    · obtain ⟨e, -, rfl⟩ := Option.map_eq_some_iff.1 h
      exact unsigned_ofDecimal _ _

/-- A text that begins with a digit is read as a number without a sign. -/
theorem unsigned_readDecimal {c : Char} (hc : c.isDigit = true) {rest : List Char} {x : Float}
    (h : readDecimal? (c :: rest) = some x) : Unsigned x := by
  have hsign : takeSign (c :: rest) = (false, c :: rest) := by
    unfold takeSign
    split
    · next heq =>
      cases heq
      cases hc
    · next heq =>
      cases heq
      cases hc
    · rfl
  unfold readDecimal? at h
  rw [hsign] at h
  simp only at h
  split at h
  · cases h
    rfl
  · split at h
    · cases h
      rfl
    · exact unsigned_readMagnitude h

end Number

/-! ## Literals -/

namespace Token

namespace Lexer

variable {c : Char} {cs : List Char}

/-- An integer of 64 bits is the number that its digits write. -/
theorem integer_of_literal {k : Int64} (h : literal cs = .integer k) :
    k.toInt = Number.ofDigits cs := by
  unfold literal at h
  split at h
  · cases h
  · simp only at h
    split at h
    · next fits =>
      cases h
      rw [← Int64.ofInt_eq_ofNat]
      exact (Number.toInt_ofInt_eq_iff _).2 fits
    · cases h

/-- A longer integer has digits, and no zero in front of them. -/
theorem big_of_literal {ds : String} (h : literal cs = .big ds) :
    (∀ d ∈ ds.toList, d.isDigit = true) ∧ ds.toList ≠ [] ∧ ds.toList.head? ≠ some '0' := by
  unfold literal at h
  split at h
  · cases h
  · next hall =>
    simp only at h
    split at h
    · cases h
    · next long =>
      cases h
      have hdigits : ∀ d ∈ cs, d.isDigit = true := by
        refine List.takeWhile_eq_self_iff.1 ?_
        refine (List.takeWhile_prefix _).eq_of_length_le (Nat.le_of_not_lt hall)
      rw [String.toList_ofList]
      refine ⟨fun d hd => hdigits d ((List.dropWhile_suffix _).subset hd), fun hnil => long ?_, ?_⟩
      · rw [← Number.ofDigits_dropWhile_zero, hnil]
        rfl
      · intro hzero
        have := List.head?_dropWhile_not (· = '0') cs
        rw [hzero] at this
        simp at this

/-- 64 bits do not hold a longer integer. -/
theorem not_fitsWord_of_literal {ds : String} (h : literal cs = .big ds) :
    Number.fitsWord (Number.ofDigits ds.toList) = false := by
  unfold literal at h
  split at h
  · cases h
  · simp only at h
    split at h
    · cases h
    · next long =>
      cases h
      rw [String.toList_ofList, Number.ofDigits_dropWhile_zero]
      exact Bool.eq_false_iff.2 long

/-- A number with a fraction or an exponent has no sign. -/
theorem float_of_literal {x : Float} (hc : c.isDigit = true) (h : literal (c :: cs) = .float x) :
    Number.Unsigned x := by
  unfold literal at h
  split at h
  · cases h
    cases hread : Number.readDecimal? (c :: cs) with
    | none => exact rfl
    | some x => exact Number.unsigned_readDecimal hc hread
  · simp only at h
    split at h <;> cases h

end Lexer

namespace Literal

/-- The literals that the lexer makes: it takes as much of a text as belongs to the number that a digit
begins. -/
def Lexed (n : Literal) : Prop :=
  ∃ c cs, c.isDigit = true ∧ n = Lexer.literal ((c :: cs).take (Lexer.numberLength (c :: cs)))

end Literal

/-! ## Tokens -/

namespace Lexer

section

variable {l : Language} {t : Token} {n : Literal}

theorem not_number_of_stringStep {q : Quote} {further : Bool} {origin : Position} {c : Cursor}
    {opens : List Open} (h : t ∈ (stringStep l q further origin c opens).tokens) :
    t.kind ≠ .number n := by
  have hwhole (s : String) : (if further then Kind.stringEnd s else .string s) ≠ .number n := by
    cases further <;> simp
  have hpiece (s : String) : (if further then Kind.stringPart s else .stringStart s) ≠ .number n := by
    cases further <;> simp
  unfold stringStep at h
  simp only at h
  split at h
  · obtain rfl := List.mem_singleton.1 h
    exact hwhole _
  · obtain rfl := List.mem_singleton.1 h
    exact hwhole _
  · obtain rfl | h := List.mem_cons.1 h
    · exact hpiece _
    · obtain rfl := List.mem_singleton.1 h
      simp

theorem not_number_of_markStep {ch : Char} {s : State} (h : t ∈ (markStep l ch s).tokens) :
    t.kind ≠ .number n := by
  unfold markStep at h
  split at h
  · exact not_number_of_stringStep h
  · split at h
    · unfold symbolStep at h
      split at h
      · simp [rejectStep] at h
      · simp only [plainStep, List.mem_singleton] at h
        subst h
        unfold track
        split <;> simp
    · simp [rejectStep] at h

/-- A step takes as much of the text for a number as belongs to it. -/
theorem lexed_codeStep {ch : Char} {rest : List Char} {s : State} (hs : s.cursor.rest = ch :: rest)
    (h : t ∈ (codeStep l ch s).tokens) (hn : t.kind = .number n) : n.Lexed := by
  unfold codeStep at h
  split at h
  · next hdigit =>
    simp only [plainStep, List.mem_singleton] at h
    subst h
    cases hn
    exact ⟨ch, rest, hdigit, by rw [hs]⟩
  · split at h
    · simp only [plainStep, List.mem_singleton] at h
      subst h
      unfold wordKind at hn
      simp only at hn
      split at hn <;> cases hn
    · exact absurd hn (not_number_of_markStep h)

/-- The numbers among the tokens of a text. -/
theorem lexed_lexFrom (problems : Problems) (s : State) (h : t ∈ (lexFrom l problems s).1)
    (hn : t.kind = .number n) : n.Lexed := by
  have hfinish {c : Cursor} (h : t ∈ [finish c]) : n.Lexed := by
    rw [List.mem_singleton] at h
    subst h
    cases hn
  fun_induction lexFrom l problems s with
  | case1 => exact hfinish h
  | case2 problems s _ q opens _ r found ahead ih =>
    obtain h | h := List.mem_append.1 h
    · exact absurd hn (not_number_of_stringStep (Step.mem_of_kept h))
    · exact ih h
  | case3 => exact hfinish h
  | case4 => exact hfinish h
  | case5 problems s _ c problems' _ ch rest hc r found ahead _ ih =>
    obtain h | h := List.mem_append.1 h
    · exact lexed_codeStep hc (Step.mem_of_kept h) hn
    · exact ih h

end
end Lexer

/-! ## Texts -/

namespace Literal

/-- The literals whose double is written with the digits of the literal: integers of at most 21 digits
that a double holds exactly, and other finite numbers but the integers from `2 ^ 53` up to there. -/
inductive Plain : Literal → Prop
  | integer {k : Int64} (exact : Number.value? (Number.ofInt k.toInt) = some (k.toInt : ℚ)) :
      Plain (.integer k)
  | big {ds : String} (exact : Number.value? (Number.ofInt (Number.ofDigits ds.toList)) =
      some (Number.ofDigits ds.toList : ℚ)) (short : Number.ofDigits ds.toList < 10 ^ 21) :
      Plain (.big ds)
  | float {x : Float} {q : ℚ} (finite : Number.value? x = some q)
      (outside : ∀ n : ℕ, q = n → n < 2 ^ 53 ∨ 10 ^ 21 ≤ n) : Plain (.float x)

section

variable {c : Char} {cs : List Char}

theorem text_integer {k : Int64} (h : Lexer.literal cs = .integer k)
    (exact : Number.value? (Number.ofInt k.toInt) = some (k.toInt : ℚ)) :
    (integer k).text = Number.text (integer k).toFloat := by
  have hk := Lexer.integer_of_literal h
  have hword : k.toInt < 2 ^ 63 := k.toInt_lt
  have hsign : ¬ k < 0 := by
    rw [Int64.lt_iff_toInt_lt, hk]
    exact Int.not_lt.2 (Int.natCast_nonneg _)
  rw [hk] at exact hword
  show _ = Number.text (Number.ofInt k.toInt)
  rw [hk, Number.text_of_value exact (by omega)]
  unfold Literal.text
  simp only [if_neg hsign, hk, Int.natAbs_natCast, List.nil_append]

theorem text_big {ds : String} (h : Lexer.literal cs = .big ds)
    (exact : Number.value? (Number.ofInt (Number.ofDigits ds.toList)) =
      some (Number.ofDigits ds.toList : ℚ)) (short : Number.ofDigits ds.toList < 10 ^ 21) :
    (big ds).text = Number.text (big ds).toFloat := by
  obtain ⟨digits, hne, lead⟩ := Lexer.big_of_literal h
  show ds = Number.text (Number.ofInt (Number.ofDigits ds.toList))
  rw [Number.text_of_value exact short, Number.digits_ofDigits digits hne lead, String.ofList_toList]

theorem text_float {x : Float} {q : ℚ} (hc : c.isDigit = true)
    (h : Lexer.literal (c :: cs) = .float x) (finite : Number.value? x = some q)
    (outside : ∀ n : ℕ, q = n → n < 2 ^ 53 ∨ 10 ^ 21 ≤ n) :
    (float x).text = Number.text (float x).toFloat := by
  have hunsigned := Lexer.float_of_literal hc h
  obtain ⟨negative, m, e, hexact, -, hq⟩ := Number.exists_digits finite
  unfold Number.Unsigned at hunsigned
  rw [hexact] at hunsigned
  cases (show negative = false from hunsigned)
  refine Number.literalText_eq_text hexact fun ⟨hwhole, large, small⟩ => ?_
  obtain h | h := outside (Number.Exact.whole m e) (hq.trans (Number.Exact.value_of_isWhole hwhole))
  · omega
  · omega

theorem text_of_plain {n : Literal} (lexed : n.Lexed) (plain : n.Plain) :
    n.text = Number.text n.toFloat := by
  obtain ⟨c, cs, hc, hn⟩ := lexed
  obtain ⟨length, hlength⟩ : ∃ length, Lexer.numberLength (c :: cs) = length + 1 :=
    Nat.exists_eq_succ_of_ne_zero (Lexer.numberLength_pos hc).ne'
  rw [hlength, List.take_succ_cons] at hn
  cases plain with
  | integer exact => exact text_integer hn.symm exact
  | big exact short => exact text_big hn.symm exact short
  | float finite outside => exact text_float hc hn.symm finite outside

end

end Literal

/-! ## Strings -/

namespace Lexer

namespace Quote

/-- A character as a string between such quotes has it.  The quote, the backslash and the dollar sign
stand behind a backslash, and so does a letter in place of a line feed. -/
def written (q : Quote) (c : Char) : List Char :=
  if c = '\n' then ['\\', 'n'] else if c = q.char ∨ c = '\\' ∨ c = '$' then ['\\', c] else [c]

/-- A text as a string between such quotes. -/
def enclose (q : Quote) (s : String) : String :=
  String.ofList (q.char :: (s.toList.flatMap q.written ++ [q.char]))

/-- A character is written as itself, or as an escape that stands for it. -/
theorem written_cases (q : Quote) (ch : Char) :
    (q.written ch = [ch] ∧ ch ≠ '\n' ∧ ch ≠ q.char ∧ ch ≠ '\\' ∧ ch ≠ '$') ∨
      ∃ d, q.written ch = ['\\', d] ∧ ∀ rest, escape (d :: rest) = ⟨1, some ch, none⟩ := by
  unfold written
  by_cases hline : ch = '\n'
  · exact .inr ⟨'n', if_pos hline, fun rest => by subst hline; rfl⟩
  by_cases hmark : ch = q.char ∨ ch = '\\' ∨ ch = '$'
  · refine .inr ⟨ch, by rw [if_neg hline, if_pos hmark], fun rest => ?_⟩
    have hself : ch = '"' ∨ ch = '\'' ∨ ch = '\x60' ∨ ch = '\\' ∨ ch = '$' := by
      cases q <;> grind [Quote.char]
    rw [escape, if_pos hself]
  · obtain ⟨hquote, hslash, hdollar⟩ : ch ≠ q.char ∧ ch ≠ '\\' ∧ ch ≠ '$' := by tauto
    exact .inl ⟨by rw [if_neg hline, if_neg hmark], hline, hquote, hslash, hdollar⟩

theorem char_ne (q : Quote) : q.char ≠ '\n' ∧ q.char ≠ '\\' := by
  cases q <;> decide

/-- In scripts all quotes begin a string. -/
theorem ofChar?_script (q : Quote) : ofChar? .script q.char = some q := by
  cases q <;> decide

end Quote

section Strings

variable {l : Language} {q : Quote} {text : List Char} {problems : List Problem} {c : Cursor}
  {ch : Char} {rest : List Char}

theorem stringBody_closed (hrest : c.rest = q.char :: rest) :
    stringBody l q text problems c = ⟨String.ofList text.reverse, problems, .closed, c⟩ := by
  rw [stringBody]
  split
  · rename_i hnil
    rw [hrest] at hnil
    cases hnil
  · rename_i hcons
    rw [hrest] at hcons
    cases hcons
    rw [if_neg fun h => q.char_ne.1 h.1, if_pos rfl]

/-- A character that means nothing in strings belongs to the text. -/
theorem stringBody_plain (hrest : c.rest = ch :: rest)
    (h : ch ≠ '\n' ∧ ch ≠ q.char ∧ ch ≠ '\\' ∧ ch ≠ '$') :
    stringBody l q text problems c = stringBody l q (ch :: text) problems (c.drop 1) := by
  obtain ⟨hline, hquote, hslash, hdollar⟩ := h
  rw [stringBody]
  split
  · rename_i hnil
    rw [hrest] at hnil
    cases hnil
  · rename_i hcons
    rw [hrest] at hcons
    cases hcons
    rw [if_neg fun h => hline h.1, if_neg hquote, if_neg hslash, if_neg fun h => hdollar h.1]

theorem stringBody_escape {d : Char} (hrest : c.rest = '\\' :: d :: rest)
    (h : escape (d :: rest) = ⟨1, some ch, none⟩) :
    stringBody l q text problems c = stringBody l q (ch :: text) problems (c.drop 2) := by
  rw [stringBody]
  split
  · rename_i hnil
    rw [hrest] at hnil
    cases hnil
  · rename_i hcons
    rw [hrest] at hcons
    cases hcons
    rw [if_neg fun h => absurd h.1 (by decide), if_neg q.char_ne.2.symm, if_pos rfl]
    simp only [h, Option.toList, List.map_nil, List.append_nil, List.singleton_append]

/-- The text of a string, up to the quote that closes it. -/
theorem stringBody_written (s : List Char) (hrest : c.rest = s.flatMap q.written ++ q.char :: rest) :
    stringBody l q text problems c = ⟨String.ofList (text.reverse ++ s), problems, .closed,
      c.drop (s.flatMap q.written).length⟩ := by
  induction s generalizing text c with
  | nil =>
    rw [stringBody_closed hrest, List.append_nil]
    exact congrArg _ (Cursor.drop_zero c).symm
  | cons ch s ih =>
    have hlength : ((ch :: s).flatMap q.written).length =
        (q.written ch).length + (s.flatMap q.written).length := by
      rw [List.flatMap_cons, List.length_append]
    have htext : (ch :: text).reverse ++ s = text.reverse ++ ch :: s := by simp
    rw [List.flatMap_cons, List.append_assoc] at hrest
    rw [hlength, ← Cursor.drop_drop, ← htext]
    obtain ⟨hwritten, hplain⟩ | ⟨d, hwritten, hescape⟩ := q.written_cases ch
    · rw [hwritten] at hrest ⊢
      rw [stringBody_plain hrest hplain]
      exact ih (congrArg (List.drop 1) hrest)
    · rw [hwritten] at hrest ⊢
      rw [stringBody_escape hrest (hescape _)]
      exact ih (congrArg (List.drop 2) hrest)

end Strings

/-- No quote begins a number or a name. -/
theorem codeStep_quote (l : Language) (q : Quote) (s : State) :
    codeStep l q.char s = markStep l q.char s := by
  have hdigit : q.char.isDigit = false := by cases q <;> decide
  have hname : beginsName l q.char = false := by cases q <;> cases l <;> decide
  unfold codeStep
  rw [hdigit, hname, if_neg Bool.false_ne_true, if_neg Bool.false_ne_true]

theorem blanks_quote (q : Quote) (rest : List Char) :
    blanks 0 0 .code (q.char :: rest) = (0, none) := by
  cases q <;> rfl

/-- The step over a whole string. -/
theorem stringStep_written {l : Language} {q : Quote} {origin : Position} {c : Cursor} {rest : List Char}
    {opens : List Open} (s : List Char) (hrest : c.rest = s.flatMap q.written ++ q.char :: rest) :
    stringStep l q false origin c opens =
      ⟨[⟨.string (String.ofList s), .between origin (c.drop ((s.flatMap q.written).length + 1)).place⟩], [],
        ⟨c.drop ((s.flatMap q.written).length + 1), opens⟩⟩ := by
  unfold stringStep
  rw [stringBody_written s hrest, ← Cursor.drop_drop]
  rfl

/-- The tokens of a text that is a string and nothing else. -/
theorem lexFrom_enclose {l : Language} {q : Quote} (hq : Quote.ofChar? l q.char = some q) (s : String) :
    lexFrom l .empty ⟨Cursor.start (q.enclose s), []⟩ =
      ([⟨.string s, .between .start (Cursor.start (q.enclose s)).stop⟩,
        ⟨.endOfInput, .point (Cursor.start (q.enclose s)).stop⟩], .empty) := by
  generalize hc : Cursor.start (q.enclose s) = c
  have hplace : c.place = .start := congrArg Cursor.place hc.symm
  have hrest : c.rest = q.char :: (s.toList.flatMap q.written ++ [q.char]) := by
    rw [← hc]
    exact String.toList_ofList
  have hdrop : (c.drop 1).rest = s.toList.flatMap q.written ++ [q.char] := congrArg (List.drop 1) hrest
  have hlength : c.rest.length = (s.toList.flatMap q.written).length + 2 := by
    rw [hrest]
    simp
  have hover : (c.drop ((s.toList.flatMap q.written).length + 2)).rest = [] :=
    List.drop_eq_nil_of_le (Nat.le_of_eq hlength)
  have hstop : (c.drop ((s.toList.flatMap q.written).length + 2)).place = c.stop := by
    rw [← c.stop_drop ((s.toList.flatMap q.written).length + 2)]
    unfold Cursor.stop
    rw [hover]
    rfl
  have hstep : codeStep l q.char ⟨c, []⟩ = ⟨[⟨.string s, .between c.place c.stop⟩], [],
      ⟨c.drop ((s.toList.flatMap q.written).length + 2), []⟩⟩ := by
    rw [codeStep_quote]
    unfold markStep
    rw [hq]
    simp only
    rw [stringStep_written s.toList hdrop, Cursor.drop_drop, String.ofList_toList, Nat.add_comm 1, hstop]
  rw [lexFrom_step hrest (blanks_quote q _) hstep rfl, lexFrom_nil hover]
  unfold finish
  rw [hstop, hplace]
  rfl

end Lexer

/-- Every text can be written as a string, between each kind of quotes that a language has: what is
written so is one token with the text, which spans all of it, and has no problem. -/
theorem lex_enclosed (name s : String) :
    (∀ q : Lexer.Quote, lex .script ⟨name, q.enclose s⟩ =
      ([⟨.string s, ⟨0, (q.enclose s).utf8ByteSize, 1, 1⟩⟩,
        ⟨.endOfInput, .point (Position.start.after (q.enclose s).toList)⟩], .empty)) ∧
    lex .formula ⟨name, Lexer.Quote.double.enclose s⟩ =
      ([⟨.string s, ⟨0, (Lexer.Quote.double.enclose s).utf8ByteSize, 1, 1⟩⟩,
        ⟨.endOfInput, .point (Position.start.after (Lexer.Quote.double.enclose s).toList)⟩], .empty) := by
  have hspan (text : String) : Span.between .start (Cursor.start text).stop =
      ⟨0, text.utf8ByteSize, 1, 1⟩ := by
    unfold Span.between
    rw [Cursor.offset_stop_start]
    rfl
  have hstop (text : String) : Position.start.after text.toList = (Cursor.start text).stop := rfl
  simp only [hstop, ← hspan]
  exact ⟨fun q => Lexer.lexFrom_enclose q.ofChar?_script s, Lexer.lexFrom_enclose rfl s⟩

end Token
end Workbook
