/-
Where the tokens and the problems of a text lie.

The tokens lie one after the other on sound spans, the last of which is empty (`ordered_lex`).  The
problems with characters have sound spans too (`sound_lex`), also where the text is given up, and they
are in order as far as none is inside of another one (`before_lex`).
-/
import Workbook.Proofs.Source

namespace Workbook

/-! ## Problems at sound spans -/

namespace Problems

/-- The problems that are kept are at sound spans. -/
def Sound (src : Source) (ps : Problems) : Prop :=
  ∀ p ∈ ps.kept, src.Sound p.span

variable {src : Source} {ps qs : Problems} {p : Problem} {found : List Problem}

theorem Sound.push (h : ps.Sound src) (hp : src.Sound p.span) : (ps.push p).Sound src := by
  intro q hq
  unfold Problems.push at hq
  split at hq
  · rcases List.mem_append.1 hq with hq | hq
    · exact h q hq
    · obtain rfl := List.mem_singleton.1 hq
      exact hp
  · exact h q hq

theorem Sound.pushAll (h : ps.Sound src) (hfound : ∀ p ∈ found, src.Sound p.span) :
    (ps.pushAll found).Sound src := by
  induction found generalizing ps with
  | nil => exact h
  | cons p found ih =>
    exact ih (h.push (hfound p List.mem_cons_self)) fun q hq => hfound q (List.mem_cons_of_mem p hq)

theorem Sound.append (h : ps.Sound src) (hqs : qs.Sound src) : (ps.append qs).Sound src :=
  h.pushAll hqs

theorem sound_empty : empty.Sound src :=
  fun _ hp => by cases hp

end Problems

/-- The first problem ends before the second one begins.  But the second one may be a string without an
end: it is found where the string breaks off, and spans what is wrong inside of it. -/
def Problem.Before (p q : Problem) : Prop :=
  p.span.stop ≤ q.span.stop ∧ (p.span.stop ≤ q.span.start ∨ q.cause = .unterminatedString)

namespace Token

/-- Tokens at sound spans, one after the other, from the end of a span on.  The last span is empty. -/
inductive Ordered (src : Source) : Span → List Token → Prop
  | nil {p : Span} (h : p.start = p.stop) : Ordered src p []
  | cons {p : Span} {t : Token} {ts : List Token} (h : p.stop ≤ t.span.start)
    (sound : src.Sound t.span) (rest : Ordered src t.span ts) : Ordered src p (t :: ts)

namespace Lexer

section

variable {src : Source} {gap : List Char → List Char → Prop} {c d : Cursor} {ts : List Token}

/-- Tokens on a text are in order, with the end behind them. -/
theorem Laid.ordered (h : Laid gap c ts d) (hc : src.Reaches c) {p : Span}
    (hp : p.stop ≤ c.place.offset) : Ordered src p (ts ++ [finish d]) := by
  induction h generalizing p with
  | nil c => exact .cons hp hc.sound_point (.nil rfl)
  | @skip c d ts n _ _ ih => exact ih (hc.drop n) (Nat.le_trans hp (c.offset_le_drop n))
  | @token c d t ts n span _ _ ih =>
    refine .cons (span ▸ hp) (span ▸ hc.sound n) (ih (hc.drop n) ?_)
    rw [span]
    exact Nat.le_refl _

end

/-! ## The problems of a step -/

section Steps

variable {src : Source} {p : Problem}

theorem sound_skipBlanks {c : Cursor} (hc : src.Reaches c) (hp : p ∈ (skipBlanks c).2) :
    src.Sound p.span := by
  unfold skipBlanks at hp
  split at hp
  · cases hp
  · obtain rfl := List.mem_singleton.1 hp
    exact (hc.drop _).sound _

theorem sound_stringBody {l : Language} {q : Quote} {text : List Char} {problems : List Problem}
    {c : Cursor} (hc : src.Reaches c) (hproblems : ∀ p ∈ problems, src.Sound p.span)
    (hp : p ∈ (stringBody l q text problems c).problems) : src.Sound p.span := by
  fun_induction stringBody l q text problems c with
  | case1 => exact hproblems p hp
  | case2 => exact hproblems p hp
  | case3 => exact hproblems p hp
  | case4 text problems c rest _ _ _ e found ih =>
    refine ih (hc.drop _) (fun p hp => ?_) hp
    rcases List.mem_append.1 hp with hp | hp
    · exact hproblems p hp
    · obtain ⟨cause, -, rfl⟩ := List.mem_map.1 hp
      exact hc.sound _
  | case5 => exact hproblems p hp
  | case6 text problems c _ _ _ _ _ _ _ ih => exact ih (hc.drop 1) hproblems hp

theorem sound_stringStep {l : Language} {q : Quote} {further : Bool} {c : Cursor} {k : Nat}
    {opens : List Open} (hc : src.Reaches c)
    (hp : p ∈ (stringStep l q further c.place (c.drop k) opens).problems) : src.Sound p.span := by
  obtain ⟨n, hn⟩ := stringBody_drop l q [] [] (c.drop k)
  rw [Cursor.drop_drop] at hn
  have hbody (h : p ∈ (stringBody l q [] [] (c.drop k)).problems) : src.Sound p.span :=
    sound_stringBody (hc.drop k) (fun _ hp => by cases hp) h
  unfold stringStep at hp
  simp only [hn] at hp
  split at hp
  · exact hbody hp
  · rcases List.mem_append.1 hp with hp | hp
    · exact hbody hp
    · obtain rfl := List.mem_singleton.1 hp
      exact hc.sound (k + n)
  · exact hbody hp

theorem sound_rejectStep {cause : Problem.Cause} {n : Nat} {s : State} (hs : src.Reaches s.cursor)
    (hp : p ∈ (rejectStep cause n s).problems) : src.Sound p.span := by
  rcases List.mem_cons.1 hp with rfl | hp
  · exact hs.sound n
  · exact sound_skipBlanks (hs.drop n) hp

theorem sound_codeStep {l : Language} {ch : Char} {s : State} (hs : src.Reaches s.cursor) :
    p ∈ (codeStep l ch s).problems → src.Sound p.span := by
  unfold codeStep markStep symbolStep
  split
  · exact fun hp => by cases hp
  · split
    · exact fun hp => by cases hp
    · split
      · exact fun hp => sound_stringStep hs hp
      · split
        · split
          · exact fun hp => sound_rejectStep hs hp
          · exact fun hp => by cases hp
        · exact fun hp => sound_rejectStep hs hp

end Steps

/-! ## The whole text -/

theorem sound_lexFrom {src : Source} (l : Language) (problems : Problems) (s : State)
    (hs : src.Reaches s.cursor) (h : problems.Sound src) : (lexFrom l problems s).2.Sound src := by
  have hblanks (c : Cursor) (hc : src.Reaches c) : src.Reaches (skipBlanks c).1 := by
    obtain ⟨n, hn, -⟩ := skipBlanks_drop c
    rw [hn]
    exact hc.drop n
  fun_induction lexFrom l problems s with
  | case1 problems s hfull => exact h
  | case2 problems s _ q opens hopens r found ahead ih =>
    have hlaid : Laid (fun _ _ => True) s.cursor r.tokens r.next.cursor :=
      laid_stringStep l q true s.cursor 0 opens
    exact ih (hs.laid hlaid) (h.pushAll fun p hp => sound_stringStep (k := 0) hs hp)
  | case3 problems s _ c problems' hfull => exact h.pushAll fun p hp => sound_skipBlanks hs hp
  | case4 problems s _ c problems' _ hc hcode =>
    have hproblems' : problems'.Sound src := h.pushAll fun p hp => sound_skipBlanks hs hp
    split
    · exact hproblems'
    · exact hproblems'.push (hblanks _ hs).sound_point
  | case5 problems s _ c problems' _ ch rest hc r found ahead hcode ih =>
    have hproblems' : problems'.Sound src := h.pushAll fun p hp => sound_skipBlanks hs hp
    have hlaid : Laid (fun _ _ => True) c r.tokens r.next.cursor :=
      laid_codeStep l ch ⟨c, s.opens⟩ fun _ _ _ => trivial
    refine ih ((hblanks _ hs).laid hlaid) (hproblems'.pushAll fun p hp => ?_)
    exact sound_codeStep (s := ⟨c, s.opens⟩) (hblanks _ hs) hp

/-! ## The texts of symbols -/

section Symbols

variable {src : Source} {l : Language} {t : Token} {x : Symbol}

theorem not_symbol_of_stringStep {q : Quote} {further : Bool} {origin : Position} {c : Cursor}
    {opens : List Open} (h : t ∈ (stringStep l q further origin c opens).tokens) :
    t.kind ≠ .symbol x := by
  have hwhole (s : String) : (if further then Kind.stringEnd s else .string s) ≠ .symbol x := by
    cases further <;> simp
  have hpiece (s : String) : (if further then Kind.stringPart s else .stringStart s) ≠ .symbol x := by
    cases further <;> simp
  unfold stringStep at h
  simp only at h
  split at h
  · obtain rfl := List.mem_singleton.1 h
    exact hwhole _
  · obtain rfl := List.mem_singleton.1 h
    exact hwhole _
  · obtain rfl | h := List.mem_cons.1 h
    · exact hpiece _
    · obtain rfl := List.mem_singleton.1 h
      simp

theorem kind_track {y : Symbol} {opens : List Open} (h : (track y opens).1 = .symbol x) : y = x := by
  unfold track at h
  split at h <;> cases h <;> rfl

theorem take_of_atFront {cs : List Char} (h : Symbol.atFront? l cs = some x) :
    cs.take x.text.length = x.text.toList := by
  have hfound : x.text.toList.isPrefixOf cs = true :=
    List.find?_some (p := fun y : Symbol => y.text.toList.isPrefixOf cs) h
  have hprefix := List.isPrefixOf_iff_prefix.1 hfound
  rw [← String.length_toList]
  exact (List.prefix_iff_eq_take.1 hprefix).symm

theorem covers_codeStep {ch : Char} {s : State} (hs : src.Reaches s.cursor)
    (h : t ∈ (codeStep l ch s).tokens) (hx : t.kind = .symbol x) :
    src.Covers t.span x.text.toList := by
  unfold codeStep markStep symbolStep at h
  split at h
  · obtain rfl := List.mem_singleton.1 h
    cases hx
  · split at h
    · obtain rfl := List.mem_singleton.1 h
      simp only [wordKind] at hx
      split at hx <;> cases hx
    · split at h
      · exact absurd hx (not_symbol_of_stringStep h)
      · split at h
        · rename_i y hfront
          split at h
          · simp [rejectStep] at h
          · obtain rfl := List.mem_singleton.1 h
            obtain rfl := kind_track hx
            have hcovers := hs.covers y.text.length
            rwa [take_of_atFront hfront] at hcovers
        · simp [rejectStep] at h

theorem covers_lexFrom (problems : Problems) (s : State) (hs : src.Reaches s.cursor)
    (h : t ∈ (lexFrom l problems s).1) (hx : t.kind = .symbol x) :
    src.Covers t.span x.text.toList := by
  have hfinish {c : Cursor} (h : t ∈ [finish c]) : src.Covers t.span x.text.toList := by
    obtain rfl := List.mem_singleton.1 h
    cases hx
  fun_induction lexFrom l problems s with
  | case1 => exact hfinish h
  | case2 problems s _ q opens hopens r found ahead ih =>
    have hlaid : Laid (fun _ _ => True) s.cursor r.tokens r.next.cursor :=
      laid_stringStep l q true s.cursor 0 opens
    obtain h | h := List.mem_append.1 h
    · exact absurd hx (not_symbol_of_stringStep (Step.mem_of_kept h))
    · exact ih (hs.laid hlaid) h
  | case3 => exact hfinish h
  | case4 => exact hfinish h
  | case5 problems s _ c problems' _ ch rest hc r found ahead hcode ih =>
    obtain ⟨n, hn, -⟩ := skipBlanks_drop s.cursor
    have hreaches : src.Reaches c := by
      show src.Reaches (skipBlanks s.cursor).1
      rw [hn]
      exact hs.drop n
    have hlaid : Laid (fun _ _ => True) c r.tokens r.next.cursor :=
      laid_codeStep l ch ⟨c, s.opens⟩ fun _ _ _ => trivial
    obtain h | h := List.mem_append.1 h
    · exact covers_codeStep (s := ⟨c, s.opens⟩) hreaches (Step.mem_of_kept h) hx
    · exact ih (hreaches.laid hlaid) h

end Symbols

/-! ## The order of problems -/

/-- Problems between two offsets, in order. -/
structure Found (lo : Nat) (ps : List Problem) (hi : Nat) : Prop where
  le : lo ≤ hi
  inside : ∀ p ∈ ps, lo ≤ p.span.start ∧ p.span.start ≤ p.span.stop ∧ p.span.stop ≤ hi
  order : ps.Pairwise Problem.Before

namespace Found

variable {lo m hi : Nat} {ps qs : List Problem}

theorem nil (h : lo ≤ hi) : Found lo [] hi :=
  ⟨h, fun _ hp => (List.not_mem_nil hp).elim, .nil⟩

theorem singleton {p : Problem} (h : lo ≤ p.span.start) (h' : p.span.start ≤ p.span.stop)
    (h'' : p.span.stop ≤ hi) : Found lo [p] hi := by
  refine ⟨by omega, fun q hq => ?_, List.pairwise_singleton _ _⟩
  obtain rfl := List.mem_singleton.1 hq
  exact ⟨h, h', h''⟩

/-- A problem with the next characters. -/
theorem span (cause : Problem.Cause) (c : Cursor) (n : Nat) :
    Found c.place.offset [⟨cause, c.span n⟩] (c.drop n).place.offset :=
  .singleton (Nat.le_refl _) (c.offset_le_drop n) (Nat.le_refl _)

theorem append (h : Found lo ps m) (h' : Found m qs hi) : Found lo (ps ++ qs) hi where
  le := Nat.le_trans h.le h'.le
  inside p hp := by
    have hlo := h.le
    have hhi := h'.le
    obtain hp | hp := List.mem_append.1 hp
    · have hinside := h.inside p hp
      omega
    · have hinside := h'.inside p hp
      omega
  order := by
    refine List.pairwise_append.2 ⟨h.order, h'.order, fun p hp q hq => ?_⟩
    have hfirst := h.inside p hp
    have hsecond := h'.inside q hq
    exact ⟨by omega, .inl (by omega)⟩

theorem mono {lo' hi' : Nat} (h : Found lo ps hi) (hlo : lo' ≤ lo) (hhi : hi ≤ hi') :
    Found lo' ps hi' where
  le := by
    have hle := h.le
    omega
  inside p hp := by
    have hinside := h.inside p hp
    omega
  order := h.order

end Found

section Steps

variable {l : Language} {c : Cursor} {lo : Nat}

/-- A comment that is not closed has been opened before. -/
theorem opened_le_blanks {opened taken n o : Nat} {w : Within} {cs : List Char} (hle : opened ≤ taken)
    (h : blanks opened taken w cs = (n, some o)) : o ≤ n := by
  fun_induction blanks opened taken w cs with
  | case1 _ _ _ ih => exact ih (by omega) h
  | case2 _ _ _ ih => exact ih (by omega) h
  | case3 _ _ _ _ _ _ _ ih => exact ih (by omega) h
  | case4 => cases h
  | case5 => cases h
  | case6 _ _ _ _ ih => exact ih (by omega) h
  | case7 => cases h
  | case8 _ _ _ ih => exact ih (by omega) h
  | case9 _ _ _ _ _ ih => exact ih (by omega) h
  | case10 =>
    cases h
    exact hle

theorem found_skipBlanks (c : Cursor) :
    Found c.place.offset (skipBlanks c).2 (skipBlanks c).1.place.offset := by
  unfold skipBlanks
  split
  · exact .nil (c.offset_le_drop _)
  · rename_i n opened hblanks
    have hopened : opened + (n - opened) = n := by
      have hle := opened_le_blanks (Nat.le_refl 0) hblanks
      omega
    have hspan := Found.span .unterminatedComment (c.drop opened) (n - opened)
    rw [Cursor.drop_drop, hopened] at hspan
    exact hspan.mono (c.offset_le_drop opened) (Nat.le_refl _)

theorem found_stringBody (q : Quote) (text : List Char) (problems : List Problem)
    (h : Found lo problems c.place.offset) :
    Found lo (stringBody l q text problems c).problems
      (stringBody l q text problems c).cursor.place.offset := by
  fun_induction stringBody l q text problems c with
  | case1 => exact h
  | case2 => exact h
  | case3 => exact h
  | case4 text problems c rest e found _ _ _ ih =>
    refine ih (h.append ?_)
    cases hcause : e.cause with
    | none =>
      have hfound : found = [] := by simp [found, hcause]
      rw [hfound]
      exact .nil (c.offset_le_drop _)
    | some cause =>
      have hfound : found = [⟨cause, c.span (1 + e.length)⟩] := by simp [found, hcause]
      rw [hfound]
      exact .span cause c _
  | case5 => exact h
  | case6 text problems c _ _ _ _ _ _ _ ih => exact ih (h.mono (Nat.le_refl _) (c.offset_le_drop 1))

/-- A string that is given up spans its text, with what is wrong inside of it. -/
theorem found_stringStep (q : Quote) (further : Bool) (c : Cursor) (k : Nat) (opens : List Open) :
    Found c.place.offset (stringStep l q further c.place (c.drop k) opens).problems
      (stringStep l q further c.place (c.drop k) opens).next.cursor.place.offset := by
  have hbody := found_stringBody (l := l) q [] [] (c := c.drop k) (.nil (c.offset_le_drop k))
  unfold stringStep
  simp only
  split
  · exact hbody.mono (Nat.le_refl _) (Cursor.offset_le_drop _ 1)
  · refine ⟨hbody.le, fun p hp => ?_, ?_⟩
    · obtain hp | hp := List.mem_append.1 hp
      · exact hbody.inside p hp
      · obtain rfl := List.mem_singleton.1 hp
        exact ⟨Nat.le_refl _, hbody.le, Nat.le_refl _⟩
    · refine List.pairwise_append.2 ⟨hbody.order, List.pairwise_singleton _ _, fun p hp r hr => ?_⟩
      obtain rfl := List.mem_singleton.1 hr
      exact ⟨(hbody.inside p hp).2.2, .inr rfl⟩
  · exact hbody.mono (Nat.le_refl _) (Cursor.offset_le_drop _ 2)

theorem found_rejectStep (cause : Problem.Cause) (n : Nat) (s : State) :
    Found s.cursor.place.offset (rejectStep cause n s).problems
      (rejectStep cause n s).next.cursor.place.offset :=
  (Found.span cause s.cursor n).append (found_skipBlanks (s.cursor.drop n))

theorem found_plainStep (kind : Kind) (n : Nat) (s : State) (opens : List Open) :
    Found s.cursor.place.offset (plainStep kind n s opens).problems
      (plainStep kind n s opens).next.cursor.place.offset :=
  .nil (s.cursor.offset_le_drop n)

theorem found_codeStep (ch : Char) (s : State) :
    Found s.cursor.place.offset (codeStep l ch s).problems
      (codeStep l ch s).next.cursor.place.offset := by
  unfold codeStep markStep symbolStep
  split
  · exact found_plainStep _ _ _ _
  · split
    · exact found_plainStep _ _ _ _
    · split
      · exact found_stringStep _ _ _ _ _
      · split
        · split
          · exact found_rejectStep _ _ _
          · exact found_plainStep _ _ _ _
        · exact found_rejectStep _ _ _

end Steps

/-- The problems that are found from a place on are in order. -/
theorem found_lexFrom (l : Language) (problems : Problems) (s : State) :
    ∃ ps hi, (lexFrom l problems s).2 = problems.pushAll ps ∧ Found s.cursor.place.offset ps hi := by
  fun_induction lexFrom l problems s with
  | case1 problems s _ => exact ⟨[], _, rfl, .nil (Nat.le_refl _)⟩
  | case2 problems s _ q opens _ r found ahead ih =>
    obtain ⟨ps, hi, hps, hfound⟩ := ih
    have hstep : Found s.cursor.place.offset r.problems r.next.cursor.place.offset :=
      found_stringStep q true s.cursor 0 opens
    exact ⟨r.problems ++ ps, hi, hps.trans (Problems.pushAll_append _ _ _), hstep.append hfound⟩
  | case3 problems s => exact ⟨(skipBlanks s.cursor).2, _, rfl, found_skipBlanks s.cursor⟩
  | case4 problems s _ c =>
    have hblanks : Found s.cursor.place.offset (skipBlanks s.cursor).2 c.place.offset :=
      found_skipBlanks s.cursor
    split
    · exact ⟨_, _, rfl, hblanks⟩
    · refine ⟨(skipBlanks s.cursor).2 ++ [⟨.unterminatedString, .point c.place⟩], _, ?_,
        hblanks.append (.singleton (Nat.le_refl _) (Nat.le_refl _) (Nat.le_refl _))⟩
      exact Problems.pushAll_append problems _ [_]
  | case5 problems s _ c _ _ ch _ _ r found ahead _ ih =>
    obtain ⟨ps, hi, hps, hfound⟩ := ih
    have hblanks : Found s.cursor.place.offset (skipBlanks s.cursor).2 c.place.offset :=
      found_skipBlanks s.cursor
    have hstep : Found c.place.offset r.problems r.next.cursor.place.offset :=
      found_codeStep ch ⟨c, s.opens⟩
    refine ⟨(skipBlanks s.cursor).2 ++ (r.problems ++ ps), hi, hps.trans ?_,
      hblanks.append (hstep.append hfound)⟩
    rw [← Problems.pushAll_append, ← Problems.pushAll_append]

end Lexer

/-- A symbol among the tokens of a text stands on its characters. -/
theorem covers_symbol {l : Language} {s : Source} {t : Token} {x : Symbol} (ht : t ∈ (lex l s).1)
    (hx : t.kind = .symbol x) : s.Covers t.span x.text.toList :=
  Lexer.covers_lexFrom .empty ⟨Cursor.start s.text, []⟩ s.reaches_start ht hx

/-- The tokens of a text are in order. -/
theorem ordered_lex (l : Language) (s : Source) : Ordered s (.point .start) (lex l s).1 := by
  obtain ⟨ts, c, htokens, laid, -⟩ := Lexer.laid_lexFrom l .empty ⟨Cursor.start s.text, []⟩
  have hordered := laid.ordered s.reaches_start (p := .point .start) (Nat.le_refl _)
  rw [← htokens] at hordered
  exact hordered

/-- The problems with the characters of a text are at sound spans. -/
theorem sound_lex (l : Language) (s : Source) : (lex l s).2.Sound s :=
  Lexer.sound_lexFrom l .empty ⟨Cursor.start s.text, []⟩ s.reaches_start Problems.sound_empty

/-- The problems with the characters of a text are in order. -/
theorem before_lex (l : Language) (s : Source) :
    ∃ ps, (lex l s).2 = .pushAll .empty ps ∧ ps.Pairwise Problem.Before := by
  obtain ⟨ps, _, hps, found⟩ := Lexer.found_lexFrom l .empty ⟨Cursor.start s.text, []⟩
  exact ⟨ps, hps, found.order⟩

theorem Ordered.sound {src : Source} {p : Span} {ts : List Token} (h : Ordered src p ts) {t : Token}
    (ht : t ∈ ts) : src.Sound t.span := by
  induction h with
  | nil => cases ht
  | cons _ sound _ ih =>
    rcases List.mem_cons.1 ht with rfl | ht
    · exact sound
    · exact ih ht

theorem Ordered.le {src : Source} {p : Span} {ts : List Token} (h : Ordered src p ts) {t : Token}
    (ht : t ∈ ts) : p.stop ≤ t.span.start := by
  induction h with
  | nil => cases ht
  | cons hle sound _ ih =>
    rcases List.mem_cons.1 ht with rfl | ht
    · exact hle
    · have hspan := sound.le
      have hrest := ih ht
      omega

/-- Every token ends before the next ones begin. -/
theorem Ordered.pairwise {src : Source} {p : Span} {ts : List Token} (h : Ordered src p ts) :
    ts.Pairwise fun t u => t.span.stop ≤ u.span.start := by
  induction h with
  | nil => exact .nil
  | cons _ _ rest ih => exact List.pairwise_cons.2 ⟨fun u hu => rest.le hu, ih⟩

end Token
end Workbook
