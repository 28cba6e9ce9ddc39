/-
Where tokens stand in a source text.

Every step of the lexer goes from one place of the text to a later one and puts tokens on what it
goes past, one after the other (`Laid`).  What it leaves between two tokens is blanks and comments,
as long as no problem is reported.  From this follow the order of all tokens and that nothing
between them is lost (`tokens_lie_in_order`).
-/
import Workbook.Token.Lexer

namespace Workbook

/-! ## Places -/

theorem byteSize_append (cs ds : List Char) : (String.ofList (cs ++ ds)).utf8ByteSize =
    (String.ofList cs).utf8ByteSize + (String.ofList ds).utf8ByteSize := by
  rw [String.ofList_append, String.utf8ByteSize_append]

theorem byteSize_cons (c : Char) (cs : List Char) : (String.ofList (c :: cs)).utf8ByteSize =
    c.utf8Size + (String.ofList cs).utf8ByteSize := by
  rw [String.ofList_cons, String.utf8ByteSize_append, String.utf8ByteSize_singleton]

namespace Position

/-- How many bytes characters take. -/
theorem offset_after (p : Position) (cs : List Char) :
    (p.after cs).offset = p.offset + (String.ofList cs).utf8ByteSize := by
  induction cs generalizing p with
  | nil => simp
  | cons c cs ih =>
    have hnext : (p.next c).offset = p.offset + c.utf8Size := by
      unfold next
      split <;> rfl
    rw [after_cons, ih, hnext, byteSize_cons]
    omega

end Position

namespace Cursor

/-- The place where the text ends. -/
def stop (c : Cursor) : Position :=
  c.place.after c.rest

theorem place_drop (c : Cursor) (n : Nat) : (c.drop n).place = c.place.after (c.rest.take n) := rfl

theorem rest_drop (c : Cursor) (n : Nat) : (c.drop n).rest = c.rest.drop n := rfl

@[simp] theorem stop_drop (c : Cursor) (n : Nat) : (c.drop n).stop = c.stop := by
  unfold stop
  rw [place_drop, rest_drop, ← Position.after_append, List.take_append_drop]

theorem offset_le_drop (c : Cursor) (n : Nat) : c.place.offset ≤ (c.drop n).place.offset := by
  rw [place_drop, Position.offset_after]
  omega

theorem offset_le_stop (c : Cursor) : c.place.offset ≤ c.stop.offset := by
  unfold stop
  rw [Position.offset_after]
  omega

theorem offset_stop_start (text : String) : (start text).stop.offset = text.utf8ByteSize := by
  show (Position.start.after text.toList).offset = _
  rw [Position.offset_after, String.ofList_toList]
  exact Nat.zero_add _

end Cursor

namespace Token
namespace Lexer

/-! ## Blanks -/

/-- Blanks and complete comments.  Two slashes begin a comment that goes to the end of its line; it
may be the end of the text, if that is the `last` thing of it.  A slash and a star begin one that goes
to the first star with a slash after it. -/
inductive Blank : Bool → List Char → Prop
  | nil {last : Bool} : Blank last []
  | space {last : Bool} {c : Char} {cs : List Char}
    (h : c = ' ' ∨ c = '\t' ∨ c = '\r' ∨ c = '\n') (rest : Blank last cs) : Blank last (c :: cs)
  | line {last : Bool} {body cs : List Char} (h : '\n' ∉ body) (rest : Blank last cs) :
    Blank last ('/' :: '/' :: (body ++ '\n' :: cs))
  | lastLine {body : List Char} (h : '\n' ∉ body) : Blank true ('/' :: '/' :: body)
  | block {last : Bool} {body cs : List Char} (h : ¬ ['*', '/'] <:+: body) (rest : Blank last cs) :
    Blank last ('/' :: '*' :: (body ++ '*' :: '/' :: cs))

/-- What is gone past up to the end of the blanks. -/
def Within.Passed (last : Bool) (cs : List Char) : Within → Prop
  | .code => Blank last cs
  | .lineComment => (∃ body rest, cs = body ++ '\n' :: rest ∧ '\n' ∉ body ∧ Blank last rest) ∨
      (last = true ∧ '\n' ∉ cs)
  | .blockComment =>
    ∃ body rest, cs = body ++ '*' :: '/' :: rest ∧ ¬ ['*', '/'] <:+: body ∧ Blank last rest

/-- One more character of a comment between a slash with a star and a star with a slash. -/
theorem Within.Passed.inBlock {last : Bool} {c : Char} {cs : List Char} {n : Nat}
    (h : Within.Passed last (cs.take n) .blockComment)
    (hc : ∀ ds, c = '*' → cs = '/' :: ds → False) :
    Within.Passed last (c :: cs.take n) .blockComment := by
  obtain ⟨body, rest, htake, hbody, hrest⟩ := h
  refine ⟨c :: body, rest, by rw [htake]; rfl, fun hinfix => ?_, hrest⟩
  rcases List.infix_cons_iff.1 hinfix with hprefix | hinfix
  · -- the star would be the character before, and its slash the first one of the body
    obtain ⟨hstar, hslash⟩ := List.cons_prefix_cons.1 hprefix
    cases body with
    | nil => simp at hslash
    | cons d body =>
      obtain ⟨rfl, -⟩ := List.cons_prefix_cons.1 hslash
      cases cs with
      | nil => simp at htake
      | cons d cs =>
        cases n with
        | zero => simp at htake
        | succ n =>
          rw [List.take_succ_cons] at htake
          obtain ⟨rfl, -⟩ := List.cons.inj htake
          exact hc cs hstar.symm rfl
  · exact hbody hinfix

theorem passed_blanks (opened taken : Nat) (w : Within) (cs : List Char)
    (h : (blanks opened taken w cs).2 = none) : ∃ n, (blanks opened taken w cs).1 = taken + n ∧
      w.Passed (cs.drop n).isEmpty (cs.take n) := by
  fun_induction blanks opened taken w cs with
  | case1 opened taken cs ih =>
    obtain ⟨n, hn, passed⟩ := ih h
    refine ⟨n + 2, by omega, ?_⟩
    rcases passed with ⟨body, rest, htake, hbody, hrest⟩ | ⟨hlast, hbody⟩
    · show Blank _ ('/' :: '/' :: cs.take n)
      rw [htake]
      exact .line hbody hrest
    · show Blank (cs.drop n).isEmpty ('/' :: '/' :: cs.take n)
      rw [hlast]
      exact .lastLine hbody
  | case2 opened taken cs ih =>
    obtain ⟨n, hn, body, rest, htake, hbody, hrest⟩ := ih h
    refine ⟨n + 2, by omega, ?_⟩
    show Blank _ ('/' :: '*' :: cs.take n)
    rw [htake]
    exact .block hbody hrest
  | case3 opened taken c cs _ _ hc ih =>
    obtain ⟨n, hn, passed⟩ := ih h
    exact ⟨n + 1, by omega, .space hc passed⟩
  | case4 => exact ⟨0, rfl, .nil⟩
  | case5 => exact ⟨0, rfl, .nil⟩
  | case6 opened taken c cs ih =>
    obtain ⟨n, hn, passed⟩ := ih h
    refine ⟨n + 1, by omega, ?_⟩
    by_cases hc : c = '\n'
    · rw [if_pos hc] at passed
      subst hc
      exact .inl ⟨[], _, rfl, List.not_mem_nil, passed⟩
    · rw [if_neg hc] at passed
      rcases passed with ⟨body, rest, htake, hbody, hrest⟩ | ⟨hlast, hbody⟩
      · refine .inl ⟨c :: body, rest, ?_, ?_, hrest⟩
        · rw [List.take_succ_cons, htake]
          rfl
        · simpa [Ne.symm hc] using hbody
      · refine .inr ⟨hlast, ?_⟩
        rw [List.take_succ_cons]
        simpa [Ne.symm hc] using hbody
  | case7 => exact ⟨0, rfl, .inr ⟨rfl, List.not_mem_nil⟩⟩
  | case8 opened taken cs ih =>
    obtain ⟨n, hn, passed⟩ := ih h
    exact ⟨n + 2, by omega, [], _, rfl, by simp, passed⟩
  | case9 opened taken c cs hc ih =>
    obtain ⟨n, hn, passed⟩ := ih h
    exact ⟨n + 1, by omega, passed.inBlock hc⟩
  | case10 => cases h

/-- Going past blanks ends at a later place.  What has been gone past is blank, unless a comment is
not closed. -/
theorem skipBlanks_drop (c : Cursor) : ∃ n, (skipBlanks c).1 = c.drop n ∧
    ((skipBlanks c).2 = [] → Blank (c.rest.drop n).isEmpty (c.rest.take n)) := by
  unfold skipBlanks
  have hpassed := passed_blanks 0 0 .code c.rest
  split
  · rename_i n heq
    rw [heq] at hpassed
    obtain ⟨m, hm, passed⟩ := hpassed rfl
    obtain rfl : n = m := by omega
    exact ⟨n, rfl, fun _ => passed⟩
  · exact ⟨_, rfl, fun h => by cases h⟩

/-! ## Tokens on a text -/

/-- Tokens on the text between two cursors, each on the characters from where it is reached.  Between
them is what may be a `gap`, where what comes after it may matter. -/
inductive Laid (gap : List Char → List Char → Prop) : Cursor → List Token → Cursor → Prop
  | nil (c : Cursor) : Laid gap c [] c
  | skip {c d : Cursor} {ts : List Token} (n : Nat) (h : gap (c.rest.take n) (c.rest.drop n))
    (rest : Laid gap (c.drop n) ts d) : Laid gap c ts d
  | token {c d : Cursor} {t : Token} {ts : List Token} (n : Nat) (span : t.span = c.span n)
    (kind : t.kind ≠ .endOfInput) (rest : Laid gap (c.drop n) ts d) : Laid gap c (t :: ts) d

namespace Laid

variable {gap gap' : List Char → List Char → Prop} {c d e : Cursor} {t : Token} {ts us : List Token}

theorem imp (h : Laid gap c ts d) (hgap : ∀ cs ds, gap cs ds → gap' cs ds) : Laid gap' c ts d := by
  induction h with
  | nil c => exact .nil c
  | skip n h _ ih => exact .skip n (hgap _ _ h) ih
  | token n span kind _ ih => exact .token n span kind ih

theorem append (h : Laid gap c ts d) (h' : Laid gap d us e) : Laid gap c (ts ++ us) e := by
  induction h with
  | nil => exact h'
  | skip n h _ ih => exact .skip n h (ih h')
  | token n span kind _ ih => exact .token n span kind (ih h')

/-- Where anything may be a gap, a token may be left out. -/
theorem take (h : Laid gap c ts d) (hgap : ∀ cs ds, gap cs ds) (n : Nat) :
    Laid gap c (ts.take n) d := by
  induction h generalizing n with
  | nil c =>
    rw [List.take_nil]
    exact .nil c
  | skip m h _ ih => exact .skip m h (ih n)
  | token m span kind _ ih =>
    cases n with
    | zero => exact .skip m (hgap _ _) (ih 0)
    | succ n => exact .token m span kind (ih n)

theorem stop_eq (h : Laid gap c ts d) : d.stop = c.stop := by
  induction h with
  | nil => rfl
  | skip n _ _ ih => rw [ih, Cursor.stop_drop]
  | token n _ _ _ ih => rw [ih, Cursor.stop_drop]

theorem offset_le (h : Laid gap c ts d) : c.place.offset ≤ d.place.offset := by
  induction h with
  | nil => exact Nat.le_refl _
  | skip n _ _ ih => exact Nat.le_trans (Cursor.offset_le_drop _ n) ih
  | token n _ _ _ ih => exact Nat.le_trans (Cursor.offset_le_drop _ n) ih

theorem kind_ne (h : Laid gap c ts d) (ht : t ∈ ts) : t.kind ≠ .endOfInput := by
  induction h with
  | nil => cases ht
  | skip _ _ _ ih => exact ih ht
  | token _ _ kind _ ih =>
    rcases List.mem_cons.1 ht with rfl | ht
    · exact kind
    · exact ih ht

/-- Every token is on the text between the cursors. -/
theorem inside (h : Laid gap c ts d) (ht : t ∈ ts) : c.place.offset ≤ t.span.start ∧
    t.span.start ≤ t.span.stop ∧ t.span.stop ≤ d.place.offset := by
  induction h with
  | nil => cases ht
  | @skip c d ts n _ _ ih =>
    have hle := c.offset_le_drop n
    have hinside := ih ht
    omega
  | @token c d u ts n span _ rest ih =>
    have hle := c.offset_le_drop n
    have hrest := rest.offset_le
    rcases List.mem_cons.1 ht with rfl | ht
    · rw [span]
      show c.place.offset ≤ c.place.offset ∧ c.place.offset ≤ (c.drop n).place.offset ∧
        (c.drop n).place.offset ≤ d.place.offset
      omega
    · have hinside := ih ht
      omega

/-- Every token ends before the next ones begin. -/
theorem pairwise (h : Laid gap c ts d) : ts.Pairwise fun t u => t.span.stop ≤ u.span.start := by
  induction h with
  | nil => exact .nil
  | skip _ _ _ ih => exact ih
  | token n span _ rest ih =>
    refine List.pairwise_cons.2 ⟨fun u hu => ?_, ih⟩
    rw [span]
    exact (rest.inside hu).1

/-- A byte between the cursors is part of a token or of a gap. -/
theorem token_or_gap (h : Laid gap c ts d) {i : Nat} (hc : c.place.offset ≤ i)
    (hd : i < d.place.offset) : (∃ t ∈ ts, t.span.start ≤ i ∧ i < t.span.stop) ∨
      ∃ m n, gap ((c.drop m).rest.take n) ((c.drop m).rest.drop n) ∧
        (c.drop m).place.offset ≤ i ∧ i < ((c.drop m).drop n).place.offset := by
  induction h with
  | nil => omega
  | @skip c d ts n h _ ih =>
    by_cases hi : i < (c.drop n).place.offset
    · refine .inr ⟨0, n, ?_⟩
      rw [Cursor.drop_zero]
      exact ⟨h, hc, hi⟩
    · rcases ih (by omega) hd with htoken | ⟨m, k, hgap⟩
      · exact .inl htoken
      · rw [Cursor.drop_drop] at hgap
        exact .inr ⟨n + m, k, hgap⟩
  | @token c d t ts n span _ _ ih =>
    by_cases hi : i < (c.drop n).place.offset
    · refine .inl ⟨t, List.mem_cons_self, ?_⟩
      rw [span]
      exact ⟨hc, hi⟩
    · rcases ih (by omega) hd with ⟨u, hu, hspan⟩ | ⟨m, k, hgap⟩
      · exact .inl ⟨u, List.mem_cons_of_mem t hu, hspan⟩
      · rw [Cursor.drop_drop] at hgap
        exact .inr ⟨n + m, k, hgap⟩

end Laid

/-! ## Steps -/

section Steps

variable {gap : List Char → List Char → Prop}

theorem stringBody_drop (l : Language) (q : Quote) (text : List Char) (problems : List Problem)
    (c : Cursor) : ∃ n, (stringBody l q text problems c).cursor = c.drop n := by
  fun_induction stringBody l q text problems c with
  | case1 => exact ⟨0, (Cursor.drop_zero _).symm⟩
  | case2 => exact ⟨0, (Cursor.drop_zero _).symm⟩
  | case3 => exact ⟨0, (Cursor.drop_zero _).symm⟩
  | case4 _ _ _ _ _ _ _ _ _ ih =>
    obtain ⟨n, hn⟩ := ih
    exact ⟨_, hn.trans (Cursor.drop_drop _ _ _)⟩
  | case5 => exact ⟨0, (Cursor.drop_zero _).symm⟩
  | case6 _ _ _ _ _ _ _ _ _ _ ih =>
    obtain ⟨n, hn⟩ := ih
    exact ⟨_, hn.trans (Cursor.drop_drop _ _ _)⟩

/-- The tokens of a string follow each other, from `k` characters before its text on. -/
theorem laid_stringStep (l : Language) (q : Quote) (further : Bool) (c : Cursor) (k : Nat)
    (opens : List Open) :
    Laid gap c (stringStep l q further c.place (c.drop k) opens).tokens
      (stringStep l q further c.place (c.drop k) opens).next.cursor := by
  obtain ⟨n, hn⟩ := stringBody_drop l q [] [] (c.drop k)
  rw [Cursor.drop_drop] at hn
  have hwhole (s : String) : (if further then Kind.stringEnd s else .string s) ≠ .endOfInput := by
    cases further <;> simp
  have hpiece (s : String) : (if further then Kind.stringPart s else .stringStart s) ≠
      .endOfInput := by
    cases further <;> simp
  unfold stringStep
  simp only [hn]
  split
  · refine .token (k + n + 1) ?_ (hwhole _) ?_
    · rw [Cursor.drop_drop]
      rfl
    · rw [Cursor.drop_drop]
      exact .nil _
  · exact .token (k + n) rfl (hwhole _) (.nil _)
  · exact .token (k + n) rfl (hpiece _) (.token 2 rfl (by simp) (.nil _))

theorem laid_plainStep {kind : Kind} (hk : kind ≠ .endOfInput) (n : Nat) (s : State)
    (opens : List Open) :
    Laid gap s.cursor (plainStep kind n s opens).tokens (plainStep kind n s opens).next.cursor :=
  .token n rfl hk (.nil _)

/-- Characters that make no token are a gap, and a problem. -/
theorem laid_rejectStep (cause : Problem.Cause) (n : Nat) (s : State)
    (hgap : (rejectStep cause n s).problems ≠ [] → ∀ cs ds, gap cs ds) :
    Laid gap s.cursor (rejectStep cause n s).tokens (rejectStep cause n s).next.cursor := by
  have hgap : ∀ cs ds, gap cs ds := hgap (by simp [rejectStep])
  obtain ⟨m, hm, -⟩ := skipBlanks_drop (s.cursor.drop n)
  unfold rejectStep
  simp only [hm]
  exact .skip n (hgap _ _) (.skip m (hgap _ _) (.nil _))

theorem kind_track_ne (sym : Symbol) (opens : List Open) : (track sym opens).1 ≠ .endOfInput := by
  unfold track
  split <;> simp

theorem wordKind_ne (l : Language) (s : String) : wordKind l s ≠ .endOfInput := by
  unfold wordKind
  split <;> simp

/-- A step outside of the text of a string. -/
theorem laid_codeStep (l : Language) (ch : Char) (s : State)
    (hgap : (codeStep l ch s).problems ≠ [] → ∀ cs ds, gap cs ds) :
    Laid gap s.cursor (codeStep l ch s).tokens (codeStep l ch s).next.cursor := by
  revert hgap
  unfold codeStep markStep symbolStep
  intro hgap
  split
  · exact laid_plainStep (by simp) _ _ _
  · split
    · exact laid_plainStep (wordKind_ne _ _) _ _ _
    · split
      · exact laid_stringStep _ _ _ _ _ _
      · split
        · split
          · exact laid_rejectStep _ _ _ (by simp_all)
          · exact laid_plainStep (kind_track_ne _ _) _ _ _
        · exact laid_rejectStep _ _ _ (by simp_all)

end Steps

/-! ## One token after the other -/

/-- A text that is over is only marked as that. -/
theorem lexFrom_nil {l : Language} {c : Cursor} (h : c.rest = []) :
    lexFrom l .empty ⟨c, []⟩ = ([finish c], .empty) := by
  have hskip : skipBlanks c = (c, []) := by
    unfold skipBlanks
    rw [h]
    simp only [blanks, Cursor.drop_zero]
  rw [lexFrom, if_neg (by decide)]
  simp only [hskip]
  rw [if_neg (by decide)]
  split
  · rfl
  · rename_i hcons
    rw [hskip, h] at hcons
    cases hcons

/-- The tokens of a step with no blanks before it and no problem are followed by those of the text after
it. -/
theorem lexFrom_step {l : Language} {c : Cursor} {ch : Char} {rest : List Char} {r : Step}
    (hrest : c.rest = ch :: rest) (hblanks : blanks 0 0 .code (ch :: rest) = (0, none))
    (hstep : codeStep l ch ⟨c, []⟩ = r) (hproblems : r.problems = []) :
    lexFrom l .empty ⟨c, []⟩ =
      (r.tokens ++ (lexFrom l .empty r.next).1, (lexFrom l .empty r.next).2) := by
  have hskip : skipBlanks c = (c, []) := by
    unfold skipBlanks
    rw [hrest, hblanks]
    simp only [Cursor.drop_zero]
  rw [lexFrom, if_neg (by decide)]
  simp only [hskip]
  rw [if_neg (by decide)]
  split
  · rename_i hnil
    rw [hskip, hrest] at hnil
    cases hnil
  · rename_i hcons
    rw [hskip, hrest] at hcons
    cases hcons
    rw [hstep, hproblems]
    rfl

/-- A token with no blanks before it is followed by those of the text after it. -/
theorem lexFrom_plain {l : Language} {c : Cursor} {ch : Char} {rest : List Char} {kind : Kind} {n : Nat}
    (hrest : c.rest = ch :: rest) (hblanks : blanks 0 0 .code (ch :: rest) = (0, none))
    (hstep : codeStep l ch ⟨c, []⟩ = plainStep kind n ⟨c, []⟩ []) :
    lexFrom l .empty ⟨c, []⟩ = (⟨kind, c.span n⟩ :: (lexFrom l .empty ⟨c.drop n, []⟩).1,
      (lexFrom l .empty ⟨c.drop n, []⟩).2) :=
  lexFrom_step hrest hblanks hstep rfl

/-! ## The whole text -/

/-- What may stand between tokens: blanks, if no problem has been reported. -/
def Gap (problems : Problems) (cs ds : List Char) : Prop :=
  problems.isEmpty = true → Blank ds.isEmpty cs

theorem Step.mem_of_kept {r : Step} {found : Problems} {t : Token} (h : t ∈ r.kept found) :
    t ∈ r.tokens := by
  unfold Step.kept at h
  split at h
  · exact List.mem_of_mem_take h
  · exact h

/-- The tokens that are kept of a step. -/
theorem Laid.kept {found problems : Problems} {r : Step} {c d : Cursor}
    (h : Laid (Gap problems) c r.tokens d)
    (hfound : problems.isEmpty = true → found.isEmpty = true) :
    Laid (Gap problems) c (r.kept found) d := by
  unfold Step.kept
  split
  · rename_i hfull
    refine h.take (fun cs ds hempty => ?_) 1
    exact absurd (hfound hempty) (Problems.not_isEmpty_of_isFull hfull)
  · exact h

/-- The tokens ahead are laid on the text from the cursor on.  The last one stands where they end:
at the end of the text, if there are no problems. -/
theorem laid_lexFrom (l : Language) (problems : Problems) (s : State) :
    ∃ ts c, (lexFrom l problems s).1 = ts ++ [finish c] ∧
      Laid (Gap (lexFrom l problems s).2) s.cursor ts c ∧
      ((lexFrom l problems s).2.isEmpty = true → c.rest = [] ∧ problems.isEmpty = true) := by
  fun_induction lexFrom l problems s with
  | case1 problems s hfull =>
    exact ⟨[], s.cursor, rfl, .nil _, fun h => absurd h (Problems.not_isEmpty_of_isFull hfull)⟩
  | case2 problems s _ q opens hopens r found ahead ih =>
    obtain ⟨ts, c, htokens, laid, hend⟩ := ih
    have hstep : Laid (Gap ahead.2) s.cursor r.tokens r.next.cursor :=
      laid_stringStep l q true s.cursor 0 opens
    refine ⟨r.kept found ++ ts, c, ?_, ?_, fun h => ?_⟩
    · show r.kept found ++ (lexFrom l found r.next).1 = _
      rw [htokens, List.append_assoc]
    · exact (hstep.kept fun h => (hend h).2).append laid
    · exact ⟨(hend h).1, (Problems.isEmpty_of_pushAll (hend h).2).1⟩
  | case3 problems s _ c problems' hfull =>
    obtain ⟨n, hn, -⟩ := skipBlanks_drop s.cursor
    have hproblems : ¬ problems'.isEmpty = true := Problems.not_isEmpty_of_isFull hfull
    refine ⟨[], c, rfl, .skip n (fun h => absurd h hproblems) ?_, fun h => absurd h hproblems⟩
    show Laid _ (s.cursor.drop n) [] (skipBlanks s.cursor).1
    rw [hn]
    exact .nil _
  | case4 problems s _ c problems' _ hc _ =>
    obtain ⟨n, hn, hblank⟩ := skipBlanks_drop s.cursor
    -- a string that is still open is a problem
    have hempty (h : (if s.opens.isEmpty = true then problems'
        else problems'.push ⟨.unterminatedString, .point c.place⟩).isEmpty = true) :
        problems'.isEmpty = true := by
      split at h
      · exact h
      · simp [Problems.isEmpty, Problems.push] at h
    refine ⟨[], c, rfl, .skip n (fun h => ?_) ?_, fun h => ⟨hc, ?_⟩⟩
    · exact hblank (Problems.isEmpty_of_pushAll (hempty h)).2
    · show Laid _ (s.cursor.drop n) [] (skipBlanks s.cursor).1
      rw [hn]
      exact .nil _
    · exact (Problems.isEmpty_of_pushAll (hempty h)).1
  | case5 problems s _ c problems' _ ch rest hc r found ahead _ ih =>
    obtain ⟨ts, d, htokens, laid, hend⟩ := ih
    obtain ⟨n, hn, hblank⟩ := skipBlanks_drop s.cursor
    have hbefore (h : ahead.2.isEmpty = true) : problems'.isEmpty = true ∧ r.problems = [] :=
      Problems.isEmpty_of_pushAll (hend h).2
    have hstep : Laid (Gap ahead.2) c r.tokens r.next.cursor :=
      laid_codeStep l ch ⟨c, s.opens⟩ fun hne cs ds h => absurd (hbefore h).2 hne
    refine ⟨r.kept found ++ ts, d, ?_, .skip n (fun h => ?_) ?_, fun h => ?_⟩
    · show r.kept found ++ (lexFrom l found r.next).1 = _
      rw [htokens, List.append_assoc]
    · exact hblank (Problems.isEmpty_of_pushAll (hbefore h).1).2
    · rw [← hn]
      exact (hstep.kept fun h => (hend h).2).append laid
    · exact ⟨(hend h).1, (Problems.isEmpty_of_pushAll (hbefore h).1).1⟩

/-- Problems that have been found stay. -/
theorem problems_lexFrom (l : Language) (problems : Problems) (s : State) :
    ∃ ps, (lexFrom l problems s).2 = problems.pushAll ps := by
  fun_induction lexFrom l problems s with
  | case1 problems => exact ⟨[], rfl⟩
  | case2 problems s _ q opens _ r found ahead ih =>
    obtain ⟨ps, hps⟩ := ih
    exact ⟨r.problems ++ ps, hps.trans (Problems.pushAll_append _ _ _)⟩
  | case3 problems s => exact ⟨(skipBlanks s.cursor).2, rfl⟩
  | case4 problems s _ c =>
    refine ⟨(skipBlanks s.cursor).2 ++
      if s.opens.isEmpty then [] else [⟨.unterminatedString, .point c.place⟩], ?_⟩
    rw [← Problems.pushAll_append]
    split <;> rfl
  | case5 problems s _ c _ _ ch _ _ r found ahead _ ih =>
    obtain ⟨ps, hps⟩ := ih
    refine ⟨(skipBlanks s.cursor).2 ++ (r.problems ++ ps), hps.trans ?_⟩
    rw [← Problems.pushAll_append, ← Problems.pushAll_append]

/-- The byte at an offset is part of blanks or of a complete comment. -/
def BlankAt (s : Source) (i : Nat) : Prop :=
  ∃ before blank after, s.text.toList = before ++ blank ++ after ∧ Blank after.isEmpty blank ∧
    (String.ofList before).utf8ByteSize ≤ i ∧ i < (String.ofList (before ++ blank)).utf8ByteSize

/-- A gap between tokens on a whole text. -/
theorem blankAt_of_gap {s : Source} {problems : Problems} (h : problems.isEmpty = true) {i m n : Nat}
    (hgap : Gap problems (((Cursor.start s.text).drop m).rest.take n)
      (((Cursor.start s.text).drop m).rest.drop n))
    (hm : ((Cursor.start s.text).drop m).place.offset ≤ i)
    (hn : i < (((Cursor.start s.text).drop m).drop n).place.offset) : BlankAt s i := by
  have hoffset (k : Nat) : ((Cursor.start s.text).drop k).place.offset =
      (String.ofList (s.text.toList.take k)).utf8ByteSize := by
    rw [Cursor.place_drop, Position.offset_after]
    exact Nat.zero_add _
  have htake : s.text.toList.take m ++ (s.text.toList.drop m).take n = s.text.toList.take (m + n) :=
    List.take_add.symm
  rw [Cursor.drop_drop, hoffset] at hn
  rw [hoffset] at hm
  refine ⟨s.text.toList.take m, (s.text.toList.drop m).take n, (s.text.toList.drop m).drop n, ?_,
    hgap h, hm, by rw [htake]; exact hn⟩
  rw [htake, List.drop_drop, List.take_append_drop]

end Lexer

/-- A text that is written out is lexed from its characters, without going through their bytes. -/
theorem lex_ofList (l : Language) (path : String) (cs : List Char) :
    lex l ⟨path, String.ofList cs⟩ = Lexer.lexFrom l .empty ⟨⟨cs, .start⟩, []⟩ := by
  unfold lex Cursor.start
  rw [String.toList_ofList]

/-- The last token marks the end, and no other one does. -/
theorem lex_eq_concat (l : Language) (s : Source) :
    ∃ (ts : List Token) (final : Token), (lex l s).1 = ts ++ [final] ∧ final.kind = .endOfInput ∧
      ∀ t ∈ ts, t.kind ≠ .endOfInput := by
  obtain ⟨ts, c, htokens, laid, -⟩ := Lexer.laid_lexFrom l .empty ⟨Cursor.start s.text, []⟩
  exact ⟨ts, Lexer.finish c, htokens, rfl, fun t ht => laid.kind_ne ht⟩

/-- Every text has its tokens: one that marks the end, and before it tokens of other kinds.  They lie
inside of the text, and each of them ends before the next ones begin.  If no problem is reported, the
end is the end of the text, and every byte that is in no token is in a blank or in a comment. -/
theorem tokens_lie_in_order (l : Language) (s : Source) :
    ∃ ts final, (lex l s).1 = ts ++ [final] ∧
      final.kind = .endOfInput ∧ (∀ t ∈ ts, t.kind ≠ .endOfInput) ∧
      (∀ t ∈ ts ++ [final], t.span.start ≤ t.span.stop ∧ t.span.stop ≤ s.text.utf8ByteSize) ∧
      (ts ++ [final]).Pairwise (fun t u => t.span.stop ≤ u.span.start) ∧
      ((lex l s).2.isEmpty = true → final.span.start = s.text.utf8ByteSize ∧
        ∀ i < s.text.utf8ByteSize,
          (∃ t ∈ ts, t.span.start ≤ i ∧ i < t.span.stop) ∨ Lexer.BlankAt s i) := by
  obtain ⟨ts, c, htokens, laid, hend⟩ := Lexer.laid_lexFrom l .empty ⟨Cursor.start s.text, []⟩
  have hstop : c.stop.offset = s.text.utf8ByteSize := by
    rw [laid.stop_eq]
    exact Cursor.offset_stop_start s.text
  have hle : c.place.offset ≤ s.text.utf8ByteSize := hstop ▸ c.offset_le_stop
  refine ⟨ts, Lexer.finish c, htokens, rfl, fun t ht => laid.kind_ne ht, fun t ht => ?_, ?_,
    fun hempty => ?_⟩
  · rcases List.mem_append.1 ht with ht | ht
    · have hinside := laid.inside ht
      omega
    · obtain rfl := List.mem_singleton.1 ht
      exact ⟨Nat.le_refl _, hle⟩
  · refine List.pairwise_append.2 ⟨laid.pairwise, List.pairwise_singleton _ _, fun t ht u hu => ?_⟩
    obtain rfl := List.mem_singleton.1 hu
    exact (laid.inside ht).2.2
  · have hplace : c.place.offset = s.text.utf8ByteSize := by
      rw [← hstop]
      unfold Cursor.stop
      rw [(hend hempty).1]
      rfl
    refine ⟨hplace, fun i hi => ?_⟩
    rcases laid.token_or_gap (Nat.zero_le i) (by omega) with htoken | ⟨m, n, hgap, hm, hn⟩
    · exact .inl htoken
    · exact .inr (Lexer.blankAt_of_gap hempty hgap hm hn)

end Token
end Workbook
