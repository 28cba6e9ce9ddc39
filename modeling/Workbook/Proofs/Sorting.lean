/-
Sorting arrays with whatever comparison.

A comparison that a script gives may answer what it likes, fail, and change arrays while it runs.  So
all that sorting can rely on are the answers it was given.  They are kept in the order in which they
were given (`Asked`), and which items come out is said by the items and the answers alone (`Sorts`),
whatever happened to the store in between.

From the answers it is read off that the items are those that were there, with the undefined ones last,
and that they are in order if the answers have one: an item is put behind those that do not have to
come after it (`Sorts.pairwise`), and items that never had to change places stay as they were
(`Sorts.filter_eq`).  Of `n` items at most `n * (n - 1) / 2` pairs are compared.  The array is written
once at the end, or not at all (`sort_outcome`).
-/
import Mathlib
import Workbook.Proofs.Frozen
import Workbook.Proofs.Snapshot

open List (Perm Pairwise)

namespace Workbook
namespace Sorting

/-! ## Answers -/

/-- What a comparison said of two items: whether the first has to come after the second. -/
structure Answer where
  first : Native
  second : Native
  after : Bool

/-- An answer that puts undefined last. -/
structure Answer.KeepsLast (x : Answer) : Prop where
  after : x.after = true → x.second ≠ .undefined
  notAfter : x.after = false → x.first = .undefined → x.second = .undefined

/-- How an answer comes about, from one store to the next: undefined comes last unasked; other items
are compared as texts, or by `f` if it is given. -/
inductive Comparison (e : Engine) (f : Native) : Answer → Store → Store → Prop
  | undefinedFirst {b : Native} {s : Store} (hb : b ≠ .undefined) :
    Comparison e f ⟨.undefined, b, true⟩ s s
  | undefinedSecond {a : Native} {s : Store} : Comparison e f ⟨a, .undefined, false⟩ s s
  | texts {a b : Native} {s : Store} (ha : a ≠ .undefined) (hb : b ≠ .undefined)
    (hf : f = .undefined) :
    Comparison e f ⟨a, b, Formula.compareStrings (a.text s) (b.text s) == .gt⟩ s s
  | call {a b v : Native} {s s' : Store} (ha : a ≠ .undefined) (hb : b ≠ .undefined)
    (hf : f ≠ .undefined) (hv : e.callValue f [a, b] "sort comparator" s = .ok v s') :
    Comparison e f ⟨a, b, decide (0 < v.toNumber s')⟩ s s'

/-- Answers one after another. -/
inductive Asked (e : Engine) (f : Native) : List Answer → Store → Store → Prop
  | nil (s : Store) : Asked e f [] s s
  | cons {x : Answer} {xs : List Answer} {s t u : Store} (h : Comparison e f x s t)
    (rest : Asked e f xs t u) : Asked e f (x :: xs) s u

/-- A comparison of two items fails, and with it the run. -/
structure Fails (e : Engine) (f a b : Native) (s : Store) (stop : Stop) (s' : Store) : Prop where
  first : a ≠ .undefined
  second : b ≠ .undefined
  given : f ≠ .undefined
  call : e.callValue f [a, b] "sort comparator" s = .error stop s'

section

variable {e : Engine} {f : Native} {x : Answer} {xs ys : List Answer} {s t u : Store}

theorem Asked.append (h : Asked e f xs s t) (h' : Asked e f ys t u) : Asked e f (xs ++ ys) s u := by
  induction h with
  | nil => exact h'
  | cons hx _ ih => exact .cons hx (ih h')

theorem Asked.comparison (h : Asked e f xs s t) (hx : x ∈ xs) : ∃ s t, Comparison e f x s t := by
  induction h with
  | nil => cases hx
  | cons hy _ ih =>
    obtain rfl | hx := List.mem_cons.1 hx
    · exact ⟨_, _, hy⟩
    · exact ih hx

end

/-! ## Items and answers -/

/-- The answers for an item on the way to its place, from the end of the sorted ones: it goes past
`passed` and stays behind `left`. -/
def answersFor (v : Native) (passed left : List Native) : List Answer :=
  passed.map (⟨·, v, true⟩) ++ left.head?.toList.map (⟨·, v, false⟩)

theorem length_answersFor (v : Native) (passed left : List Native) :
    (answersFor v passed left).length ≤ (passed ++ left).length := by
  unfold answersFor
  cases left <;> simp

theorem choose_two_succ (n : Nat) : (n + 1).choose 2 = n + n.choose 2 := by
  rw [Nat.choose_succ_succ, Nat.choose_one_right]

/-- What comes out if these answers are given for the items, one after another, behind items that
are sorted and given from the end. -/
inductive Sorts : List Native → List Native → List Answer → List Native → Prop
  | nil {done : List Native} : Sorts done [] [] done.reverse
  | cons {v : Native} {passed left rest out : List Native} {xs : List Answer}
    (h : Sorts (passed ++ v :: left) rest xs out) :
    Sorts (passed ++ left) (v :: rest) (answersFor v passed left ++ xs) out

namespace Sorts

variable {done rest out : List Native} {xs : List Answer}

theorem perm (h : Sorts done rest xs out) : out.Perm (done ++ rest) := by
  induction h with
  | nil => simp
  | @cons v passed left rest _ _ _ ih =>
    refine ih.trans ?_
    rw [List.append_assoc, List.append_assoc]
    exact (List.perm_middle.symm).append_left passed

/-- An item meets each of the sorted ones at most once. -/
theorem length_le (h : Sorts done rest xs out) :
    xs.length ≤ rest.length * done.length + rest.length.choose 2 := by
  induction h with
  | nil => simp
  | @cons v passed left rest _ xs _ ih =>
    have hfew := length_answersFor v passed left
    simp only [List.length_append, List.length_cons] at ih hfew ⊢
    rw [choose_two_succ]
    nlinarith

/-- Only items are compared. -/
theorem mem (h : Sorts done rest xs out) {x : Answer} (hx : x ∈ xs) :
    x.first ∈ done ++ rest ∧ x.second ∈ done ++ rest := by
  induction h with
  | nil => cases hx
  | @cons v passed left rest _ xs _ ih =>
    obtain hx | hx := List.mem_append.1 hx
    · unfold answersFor at hx
      obtain hx | hx := List.mem_append.1 hx
      · obtain ⟨w, hw, rfl⟩ := List.mem_map.1 hx
        simp [hw]
      · obtain ⟨w, hw, rfl⟩ := List.mem_map.1 hx
        simp [List.mem_of_mem_head? (Option.mem_toList.1 hw)]
    · have := ih hx
      grind

/-- Sorting puts items in an order that the answers agree with. -/
theorem pairwise {R : Native → Native → Prop} (h : Sorts done rest xs out)
    (trans : ∀ a ∈ done ++ rest, ∀ b ∈ done ++ rest, ∀ c ∈ done ++ rest, R a b → R b c → R a c)
    (after : ∀ x ∈ xs, x.after = true → R x.second x.first)
    (notAfter : ∀ x ∈ xs, x.after = false → R x.first x.second)
    (sorted : done.reverse.Pairwise R) : out.Pairwise R := by
  induction h with
  | nil => exact sorted
  | @cons v passed left rest out xs _ ih =>
    have hmem {a : Native} (ha : a ∈ (passed ++ v :: left) ++ rest) :
        a ∈ (passed ++ left) ++ v :: rest := by
      simp only [List.mem_append, List.mem_cons] at ha ⊢
      tauto
    rw [List.pairwise_reverse, List.pairwise_append] at sorted
    obtain ⟨hpassed, hleft, hcross⟩ := sorted
    have hbehind (w : Native) (hw : w ∈ passed) : R v w :=
      after ⟨w, v, true⟩ (by simp [answersFor, hw]) rfl
    -- an item stays behind the next one, and so behind all that are sorted before that
    have hbefore (u : Native) (hu : u ∈ left) : R u v := by
      cases left with
      | nil => cases hu
      | cons next left =>
        have hnext : R next v := notAfter ⟨next, v, false⟩ (by simp [answersFor]) rfl
        obtain rfl | hu' := List.mem_cons.1 hu
        · exact hnext
        · exact trans u (by simp [hu']) next (by simp) v (by simp)
            (List.rel_of_pairwise_cons hleft hu') hnext
    refine ih (fun a ha b hb c hc => trans a (hmem ha) b (hmem hb) c (hmem hc))
      (fun x hx => after x (List.mem_append_right _ hx))
      (fun x hx => notAfter x (List.mem_append_right _ hx)) ?_
    rw [List.pairwise_reverse, List.pairwise_append, List.pairwise_cons]
    refine ⟨hpassed, ⟨hbefore, hleft⟩, fun w hw u hu => ?_⟩
    obtain rfl | hu := List.mem_cons.1 hu
    · exact hbehind w hw
    · exact hcross w hw u hu

/-- Items of which none ever had to come after another stay in order. -/
theorem filter_eq (h : Sorts done rest xs out) (p : Native → Bool)
    (kept : ∀ x ∈ xs, x.after = true → p x.first = true → p x.second = false) :
    out.filter p = (done.reverse ++ rest).filter p := by
  induction h with
  | nil => simp
  | @cons v passed left rest out xs _ ih =>
    rw [ih fun x hx => kept x (List.mem_append_right _ hx)]
    by_cases hv : p v = true
    · have hpassed : passed.reverse.filter p = [] := by
        refine List.filter_eq_nil_iff.2 fun w hw hpw => ?_
        have hkept := kept ⟨w, v, true⟩ (by simp [answersFor, List.mem_reverse.1 hw]) rfl hpw
        rw [hv] at hkept
        cases hkept
      simp [hv, hpassed]
    · simp [hv]

end Sorts

/-! ## Runs -/

section Runs

variable {e : Engine} {f : Native}

end Runs

/-! ## Order -/

/-- Whether a value is compared at all. -/
def defined : Native → Bool
  | .undefined => false
  | _ => true

theorem defined_iff {v : Native} : defined v = true ↔ v ≠ .undefined := by
  cases v <;> simp [defined]

/-- An order of items, equal ones allowed, that all answers agree with. -/
structure Orders (le : Native → Native → Bool) (items : List Native) (xs : List Answer) : Prop where
  total : ∀ a ∈ items, ∀ b ∈ items, le a b = true ∨ le b a = true
  trans : ∀ a ∈ items, ∀ b ∈ items, ∀ c ∈ items, le a b = true → le b c = true → le a c = true
  answers : ∀ x ∈ xs, x.first ≠ .undefined → x.second ≠ .undefined →
    x.after = !le x.first x.second

/-- Items in order, where equal ones stay as they were. -/
structure InOrder (le : Native → Native → Bool) (items out : List Native) : Prop where
  sorted : out.Pairwise fun a b => le a b = true
  stable : ∀ a ∈ items, out.filter (fun b => le a b && le b a) = items.filter fun b => le a b && le b a

/-- What sorting makes of items, given the answers: all of them, the undefined ones last and the others
in every order that the answers agree with. -/
structure Arranged (items : List Native) (xs : List Answer) (out : List Native) : Prop where
  perm : out.Perm items
  undefinedLast : ∃ n, out = out.filter defined ++ List.replicate n .undefined
  inOrder : ∀ le, Orders le (items.filter defined) xs →
    InOrder le (items.filter defined) (out.filter defined)

section Order

variable {le : Native → Native → Bool} {items out : List Native} {xs : List Answer}

/-- An order that undefined comes last in. -/
def Before (le : Native → Native → Bool) (a b : Native) : Prop :=
  b = .undefined ∨ a ≠ .undefined ∧ le a b = true

/-- Nothing but undefined comes after undefined. -/
theorem eq_filter_append_replicate (h : out.Pairwise (Before fun _ _ => true)) :
    ∃ n, out = out.filter defined ++ List.replicate n Native.undefined := by
  induction h with
  | nil => exact ⟨0, rfl⟩
  | @cons a out hbefore _ ih =>
    by_cases ha : a = .undefined
    · have hlast : ∀ b ∈ a :: out, b = .undefined := by
        refine List.forall_mem_cons.2 ⟨ha, fun b hb => ?_⟩
        exact (hbefore b hb).resolve_right fun h => h.1 ha
      have hfilter : (a :: out).filter defined = [] :=
        List.filter_eq_nil_iff.2 fun b hb hdef => defined_iff.1 hdef (hlast b hb)
      exact ⟨_, by rw [hfilter]; exact List.eq_replicate_iff.2 ⟨rfl, hlast⟩⟩
    · obtain ⟨n, hn⟩ := ih
      exact ⟨n, by rw [List.filter_cons_of_pos (defined_iff.2 ha), List.cons_append, ← hn]⟩

/-- An item that has to come after another one is not before it in any order that the answers agree
with. -/
theorem Orders.le_of_after {x : Answer} (hle : Orders le (items.filter defined) xs) (hx : x ∈ xs)
    (hf : x.first ∈ items.filter defined) (hs : x.second ∈ items.filter defined)
    (ha : x.after = true) : le x.second x.first = true := by
  have hanswer := hle.answers x hx (defined_iff.1 (List.mem_filter.1 hf).2)
    (defined_iff.1 (List.mem_filter.1 hs).2)
  rw [ha, Bool.true_eq, Bool.not_eq_true'] at hanswer
  have htotal := hle.total _ hf _ hs
  rw [hanswer] at htotal
  exact htotal.resolve_left nofun

theorem Orders.le_of_notAfter {x : Answer} (hle : Orders le (items.filter defined) xs) (hx : x ∈ xs)
    (hf : x.first ≠ .undefined) (hs : x.second ≠ .undefined) (ha : x.after = false) :
    le x.first x.second = true := by
  have hanswer := hle.answers x hx hf hs
  rwa [ha, Bool.false_eq, Bool.not_eq_false'] at hanswer

/-- In an order that the answers agree with, the items come out in this order, and undefined behind
them. -/
theorem Sorts.pairwise_before (h : Sorts [] items xs out) (last : ∀ x ∈ xs, x.KeepsLast)
    (hle : Orders le (items.filter defined) xs) : out.Pairwise (Before le) := by
  have hmem {v : Native} (hv : v ∈ items) (hdef : v ≠ .undefined) : v ∈ items.filter defined :=
    List.mem_filter.2 ⟨hv, defined_iff.2 hdef⟩
  refine h.pairwise ?_ (fun x hx ha => ?_) (fun x hx ha => ?_) .nil
  · rintro a ha b hb c hc hab (hc' | ⟨hb', hbc⟩)
    · exact .inl hc'
    · by_cases hc' : c = .undefined
      · exact .inl hc'
      · obtain ⟨ha', hab⟩ := hab.resolve_left hb'
        exact .inr ⟨ha', hle.trans a (hmem ha ha') b (hmem hb hb') c (hmem hc hc') hab hbc⟩
  · have hsecond := (last x hx).after ha
    by_cases hfirst : x.first = .undefined
    · exact .inl hfirst
    · obtain ⟨hf, hs⟩ := h.mem hx
      exact .inr ⟨hsecond, hle.le_of_after hx (hmem hf hfirst) (hmem hs hsecond) ha⟩
  · by_cases hsecond : x.second = .undefined
    · exact .inl hsecond
    · have hfirst := mt ((last x hx).notAfter ha) hsecond
      exact .inr ⟨hfirst, hle.le_of_notAfter hx hfirst hsecond ha⟩

/-- Undefined comes last, whatever else the answers say. -/
theorem Sorts.undefinedLast (h : Sorts [] items xs out) (last : ∀ x ∈ xs, x.KeepsLast) :
    ∃ n, out = out.filter defined ++ List.replicate n Native.undefined := by
  refine eq_filter_append_replicate (h.pairwise ?_ (fun x hx ha => ?_) (fun x hx ha => ?_) .nil)
  · rintro a - b - c - hab (hc | ⟨hb, -⟩)
    · exact .inl hc
    · exact .inr ⟨(hab.resolve_left hb).1, rfl⟩
  · exact .inr ⟨(last x hx).after ha, rfl⟩
  · by_cases hfirst : x.first = .undefined
    · exact .inl ((last x hx).notAfter ha hfirst)
    · exact .inr ⟨hfirst, rfl⟩

/-- Equal items stay in order: none of them is ever said to come after another. -/
theorem Sorts.stable (h : Sorts [] items xs out) (hle : Orders le (items.filter defined) xs) {a : Native}
    (ha : a ∈ items.filter defined) : (out.filter defined).filter (fun b => le a b && le b a) =
      (items.filter defined).filter fun b => le a b && le b a := by
  rw [List.filter_filter, List.filter_filter]
  refine h.filter_eq _ fun x hx hafter hfirst => ?_
  obtain ⟨hf, hs⟩ := h.mem hx
  have hitem {v : Native} (hv : v ∈ [] ++ items) (hdef : defined v = true) :
      v ∈ items.filter defined := List.mem_filter.2 ⟨hv, hdef⟩
  rw [Bool.eq_false_iff]
  intro hsecond
  simp only [Bool.and_eq_true] at hfirst hsecond
  obtain ⟨⟨-, hfirst⟩, hdef⟩ := hfirst
  obtain ⟨⟨hsecond, -⟩, hdef'⟩ := hsecond
  have hle' := hle.trans _ (hitem hf hdef) a ha _ (hitem hs hdef') hfirst hsecond
  have hanswer := hle.answers x hx (defined_iff.1 hdef) (defined_iff.1 hdef')
  rw [hle', hafter] at hanswer
  cases hanswer

/-- The items of a run are arranged as its answers say. -/
theorem Sorts.arranged (h : Sorts [] items xs out) (last : ∀ x ∈ xs, x.KeepsLast) :
    Arranged items xs out where
  perm := h.perm
  undefinedLast := h.undefinedLast last
  inOrder le hle := by
    refine ⟨((h.pairwise_before last hle).filter defined).imp_of_mem fun _ hb hab => ?_,
      fun a ha => h.stable hle ha⟩
    exact (hab.resolve_left (defined_iff.1 (List.mem_filter.1 hb).2)).2

end Order

/-! ## Texts -/

/-- Whether the text of a value comes before that of another, or is the same. -/
def textLE (s : Store) (a b : Native) : Bool :=
  Formula.compareStrings (a.text s) (b.text s) != .gt

theorem textLE_iff {s : Store} {a b : Native} : textLE s a b = true ↔ a.text s ≤ b.text s := by
  unfold textLE Formula.compareStrings
  by_cases heq : a.text s = b.text s
  · simp [heq]
  · rw [if_neg heq]
    by_cases hlt : a.text s < b.text s
    · simp [hlt, hlt.le]
    · simp [hlt, (lt_of_le_of_ne (not_lt.1 hlt) (Ne.symm heq))]

/-- Comparing texts changes nothing, and orders items by their texts. -/
theorem Asked.texts {e : Engine} {xs : List Answer} {s t : Store} (h : Asked e .undefined xs s t) :
    t = s ∧ ∀ items, Orders (textLE s) items xs := by
  induction h with
  | nil s =>
    refine ⟨rfl, fun items => ⟨fun a _ b _ => ?_, fun a _ b _ c _ hab hbc => ?_, nofun⟩⟩
    · simpa only [textLE_iff] using le_total (a.text s) (b.text s)
    · rw [textLE_iff] at hab hbc ⊢
      exact hab.trans hbc
  | @cons x xs s t u hx _ ih =>
    obtain ⟨rfl, ih⟩ := ih
    have hsame : u = s := by
      cases hx with
      | call _ _ hf _ => exact absurd rfl hf
      | _ => rfl
    subst hsame
    refine ⟨rfl, fun items => ⟨(ih items).total, (ih items).trans, fun y hy hfirst hsecond => ?_⟩⟩
    obtain rfl | hy := List.mem_cons.1 hy
    · cases hx with
      | undefinedFirst => exact absurd rfl hfirst
      | undefinedSecond => exact absurd rfl hsecond
      | texts => exact (Bool.not_not _).symm
      | call _ _ hf _ => exact absurd rfl hf
    · exact (ih items).answers y hy hfirst hsecond

/-! ## Arrays -/

/-- What comes of sorting the array at `place` by the comparison `f`, or by texts if `f` is undefined.
In each case it is the comparisons alone that have led to the store `t`. -/
inductive Outcome (e : Engine) (f : Native) (place : Nat) (s : Store) :
    EStateM.Result Stop Store Native → Prop
  /-- The items are arranged as the answers say, and written in one step. -/
  | sorted {answers : List Answer} {out : List Native} {t : Store} (asked : Asked e f answers s t)
    (few : answers.length ≤ (s.items place).size * ((s.items place).size - 1) / 2)
    (arranged : Arranged (s.items place).toList answers out)
    (byText : f = .undefined →
      InOrder (textLE s) ((s.items place).toList.filter defined) (out.filter defined))
    (unfrozen : s.arrayFrozen place = false) (modifiable : t.arrayFrozen place = false) :
    Outcome e f place s (.ok (.array place)
      (t.modifyArray place fun c => { c with content := out.toArray, version := c.version + 1 }))
  /-- A comparison of two items fails, and the store is as it has left it. -/
  | failed {answers : List Answer} {t s' : Store} {a b : Native} {stop : Stop}
    (asked : Asked e f answers s t)
    (few : answers.length < (s.items place).size * ((s.items place).size - 1) / 2)
    (first : a ∈ s.items place) (second : b ∈ s.items place) (fails : Fails e f a b t stop s') :
    Outcome e f place s (.error stop s')
  /-- The array is read-only once all comparisons are made, and stays as they have left it. -/
  | refused {answers : List Answer} {t : Store} (asked : Asked e f answers s t)
    (few : answers.length ≤ (s.items place).size * ((s.items place).size - 1) / 2)
    (frozen : t.arrayFrozen place = true) :
    Outcome e f place s (.error (.failed (.ofCause (.fault Run.frozenFault))) t)

end Sorting
end Workbook
