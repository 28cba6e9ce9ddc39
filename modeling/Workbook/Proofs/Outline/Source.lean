/-
Which call an expression comes from, and which call its text comes from.

An expression of the outline has the name, the language and the time of the first call that adds an
expression of its name, up to case, to its folder.  Its text is that of the last call for exactly its
path (`origin_of_expression`).  So where a path is added twice, the text of the second call is read
as what the first call says it is (`text_of_another_call`).
-/
import Mathlib
import Workbook.Proofs.Outline.Index

namespace Workbook
namespace Tree

variable {t : Tree} {calls before after : List Call} {c : Call} {i : Item} {p parent : String}
  {ns : List String}

/-! ## What a call changes -/

theorem built_concat (calls : List Call) (c : Call) : built (calls ++ [c]) = c.on (built calls) := by
  rw [built, List.foldl_append]
  rfl

theorem expression_mem_addFolders (hi : i.kind = .expression) (names : List String) :
    i ∈ (t.addFolders parent names).itemsAt p ↔ i ∈ t.itemsAt p := by
  induction names generalizing t parent with
  | nil => exact Iff.rfl
  | cons name rest ih =>
    rw [addFolders, ih, addSubfolder_eq, itemsAt_addListing]
    split
    · exact Iff.rfl
    · rw [itemsAt_addItem]
      split
      · rename_i hp
        have hne : i ≠ ⟨.folder, name, t.clock + 1, none⟩ := by
          rintro rfl
          cases hi
        rw [hp, List.mem_append, List.mem_singleton, or_iff_left hne]
      · exact Iff.rfl

theorem sources_addFolders (names : List String) :
    (t.addFolders parent names).sources = t.sources := by
  induction names generalizing t parent with
  | nil => rfl
  | cons name rest ih =>
    rw [addFolders, ih, addSubfolder_eq, addListing]
    split <;> split <;> rfl

theorem clock_le_addFolders (names : List String) : t.clock ≤ (t.addFolders parent names).clock := by
  induction names generalizing t parent with
  | nil => exact Nat.le_refl _
  | cons name rest ih =>
    refine Nat.le_trans ?_ ih
    rw [addSubfolder_eq, clock_addListing]
    split
    · exact Nat.le_refl _
    · exact Nat.le_succ _

section Expression

variable {path n source : String} {language : Language}

/-- The tree with the folders around an expression. -/
def around (t : Tree) (ns : List String) : Tree :=
  t.addFolder (Tree.path ns)

theorem addExpression_eq (h : pathParts path = ns ++ [n]) :
    t.addExpression path language source =
      { (t.around ns).addItem (Tree.path ns) .expression n (some language) with
        sources := Keyed.put (Tree.path (ns ++ [n])) (some source) t.sources } := by
  have hnames (m : String) (hm : m ∈ ns) : Outline.isName m = true :=
    isName_of_mem_pathParts (h ▸ List.mem_append_left _ hm)
  have hsources : (t.addFolder (Tree.path ns)).sources = t.sources := sources_addFolders _
  unfold addExpression
  rw [h, List.getLast?_concat]
  simp only [List.dropLast_concat]
  rw [joinPath_path hnames, addItem, hsources]
  rfl

theorem addExpression_of_nil (h : pathParts path = []) : t.addExpression path language source = t := by
  unfold addExpression
  rw [h]
  rfl

end Expression

/-- A call lists an expression as an item of a folder. -/
inductive Call.Lists (t : Tree) : Call → List String → Item → Prop
  | mk {path n source : String} {ns : List String} {language : Language}
    (parts : pathParts path = ns ++ [n]) :
    Lists t (.expression path language source) ns
      ⟨.expression, n, (t.addExpression path language source).clock, some language⟩

theorem clock_le_on (t : Tree) (c : Call) : t.clock ≤ (c.on t).clock := by
  cases c with
  | folder path => exact clock_le_addFolders _
  | expression path language source =>
    obtain hnil | ⟨ns, n, hparts⟩ := List.eq_nil_or_concat (pathParts path)
    · rw [Call.on, addExpression_of_nil hnil]
    · rw [List.concat_eq_append] at hparts
      rw [Call.on, addExpression_eq hparts]
      exact Nat.le_succ_of_le (clock_le_addFolders _)

theorem clock_le_built (calls after : List Call) : (built calls).clock ≤ (built (calls ++ after)).clock := by
  induction after using List.reverseRecOn with
  | nil => rw [List.append_nil]
  | append_singleton after c ih =>
    rw [← List.append_assoc, built_concat]
    exact ih.trans (clock_le_on _ c)

/-- An item that a call lists is later than all before. -/
theorem Call.Lists.clock_lt {c : Call} (h : c.Lists t ns i) : (t.clock : Int) < i.createdAt := by
  cases h with
  | @mk path n source ns language hparts =>
    rw [addExpression_eq hparts]
    have hle : t.clock ≤ (t.around ns).clock := clock_le_addFolders _
    exact Int.ofNat_lt.2 (Nat.lt_succ_of_le hle)

/-- The expressions of a listing are those that were in it, and the one that the call lists. -/
theorem expression_mem_on (hi : i.kind = .expression) :
    i ∈ (c.on t).itemsAt p ↔ i ∈ t.itemsAt p ∨ ∃ ns, c.Lists t ns i ∧ p = Tree.path ns := by
  cases c with
  | folder path =>
    rw [Call.on, addFolder, expression_mem_addFolders hi]
    refine (or_iff_left ?_).symm
    rintro ⟨ns, hlists, -⟩
    cases hlists
  | expression path language source =>
    obtain hnil | ⟨ns, n, hparts⟩ := List.eq_nil_or_concat (pathParts path)
    · rw [Call.on, addExpression_of_nil hnil]
      refine (or_iff_left ?_).symm
      rintro ⟨ns, ⟨hparts⟩, -⟩
      rw [hnil] at hparts
      exact absurd hparts.symm (List.append_ne_nil_of_right_ne_nil _ (List.cons_ne_nil _ _))
    · rw [List.concat_eq_append] at hparts
      have hlists : (∃ ms, (Call.expression path language source).Lists t ms i ∧ p = Tree.path ms) ↔
          i = ⟨.expression, n, (t.addExpression path language source).clock, some language⟩ ∧
            p = Tree.path ns := by
        constructor
        · rintro ⟨ms, ⟨hparts'⟩, rfl⟩
          rw [hparts] at hparts'
          obtain ⟨rfl, hn⟩ := List.append_inj' hparts' rfl
          obtain rfl := List.singleton_inj.1 hn
          exact ⟨rfl, rfl⟩
        · rintro ⟨rfl, rfl⟩
          exact ⟨ns, ⟨hparts⟩, rfl⟩
      rw [hlists, Call.on, addExpression_eq hparts]
      show i ∈ ((t.around ns).addItem (Tree.path ns) .expression n (some language)).itemsAt p ↔ _
      have haround {q : String} : i ∈ (t.around ns).itemsAt q ↔ i ∈ t.itemsAt q :=
        expression_mem_addFolders hi _
      rw [itemsAt_addItem]
      split
      · rename_i hp
        rw [List.mem_append, List.mem_singleton, hp, haround, and_iff_left rfl]
        rfl
      · rename_i hp
        rw [haround, or_iff_left fun h => hp h.2]

/-- The expressions of a listing come from the calls that list them. -/
theorem expression_mem_built (hi : i.kind = .expression) : i ∈ (built calls).itemsAt p ↔
    ∃ (before : List Call) (c : Call) (after : List Call) (ns : List String),
      calls = before ++ c :: after ∧ c.Lists (built before) ns i ∧ p = Tree.path ns := by
  induction calls using List.reverseRecOn with
  | nil =>
    constructor
    · intro h
      have hnone : empty.itemsAt p = [] := by
        unfold itemsAt empty
        rw [List.lookup_cons]
        cases p == "" <;> rfl
      rw [built, List.foldl_nil, hnone] at h
      exact absurd h List.not_mem_nil
    · rintro ⟨before, c, after, ns, hcalls, -⟩
      exact absurd hcalls.symm (List.append_ne_nil_of_right_ne_nil _ (List.cons_ne_nil _ _))
  | append_singleton calls d ih =>
    rw [built_concat, expression_mem_on hi, ih]
    constructor
    · rintro (⟨before, c, after, ns, rfl, hlists, rfl⟩ | ⟨ns, hlists, rfl⟩)
      · exact ⟨before, c, after ++ [d], ns, by simp, hlists, rfl⟩
      · exact ⟨calls, d, [], ns, rfl, hlists, rfl⟩
    · rintro ⟨before, c, after, ns, hcalls, hlists, rfl⟩
      obtain rfl | ⟨after, e, rfl⟩ := List.eq_nil_or_concat after
      · obtain ⟨rfl, hd⟩ := List.append_inj' hcalls rfl
        obtain rfl := List.singleton_inj.1 hd
        exact .inr ⟨ns, hlists, rfl⟩
      · rw [List.concat_eq_append, ← List.cons_append, ← List.append_assoc] at hcalls
        obtain ⟨rfl, -⟩ := List.append_inj' hcalls rfl
        exact .inl ⟨before, c, after, ns, rfl, hlists, rfl⟩

/-! ## Texts -/

/-- The text that a call gives for a path. -/
def Call.source? (ns : List String) : Call → Option String
  | folder _ => none
  | expression path _ source => if pathParts path = ns then some source else none

/-- The text that the last of some calls for a path gives. -/
def lastSource? (ns : List String) (calls : List Call) : Option String :=
  (calls.filterMap (Call.source? ns)).getLast?

theorem lastSource?_append (ns : List String) (before after : List Call) :
    lastSource? ns (before ++ after) = (lastSource? ns after).or (lastSource? ns before) := by
  rw [lastSource?, List.filterMap_append, List.getLast?_append]
  rfl

theorem lastSource?_cons (ns : List String) (c : Call) (after : List Call) :
    lastSource? ns (c :: after) = (lastSource? ns after).or (c.source? ns) := by
  have happend := lastSource?_append ns [c] after
  rw [List.singleton_append] at happend
  rw [happend, lastSource?, lastSource?]
  cases hc : c.source? ns <;> simp [hc]

/-- The text under a path is the one that was given last. -/
theorem lookup_sources_built (hns : ∀ n ∈ ns, Outline.isName n = true) (hne : ns ≠ []) (calls : List Call) :
    (built calls).sources.lookup (Tree.path ns) = (lastSource? ns calls).map some := by
  induction calls using List.reverseRecOn with
  | nil => rfl
  | append_singleton calls c ih =>
    have hlast : lastSource? ns (calls ++ [c]) = (c.source? ns).or (lastSource? ns calls) := by
      rw [lastSource?_append, lastSource?_cons]
      rfl
    rw [built_concat, hlast]
    cases c with
    | folder path =>
      rw [Call.on, addFolder, sources_addFolders, ih]
      rfl
    | expression path language source =>
      obtain hnil | ⟨ms, n, hparts⟩ := List.eq_nil_or_concat (pathParts path)
      · have hother : Call.source? ns (.expression path language source) = none :=
          if_neg fun he : pathParts path = ns => hne (he.symm.trans hnil)
        rw [Call.on, addExpression_of_nil hnil, ih, hother]
        rfl
      · rw [List.concat_eq_append] at hparts
        rw [Call.on, addExpression_eq hparts]
        by_cases he : ms ++ [n] = ns
        · have hown : Call.source? ns (.expression path language source) = some source :=
            if_pos (hparts.trans he)
          rw [he, Keyed.lookup_put, hown]
          rfl
        · have hother : Call.source? ns (.expression path language source) = none :=
            if_neg fun h => he (hparts.symm.trans h)
          have hms : ∀ m ∈ ms ++ [n], Outline.isName m = true :=
            fun m hm => isName_of_mem_pathParts (hparts ▸ hm)
          rw [Keyed.lookup_put_of_ne fun h => he (path_inj hns hms h).symm, ih, hother]
          rfl

end Tree

namespace Outline

open Workbook.Tree (built Call lastSource?)

/-! ## Expressions and their calls -/

/-- The call that an expression has its name, its language and its time from, between the calls before
it and those after it. -/
structure Origin (x : Expression) (calls before : List Call) (path : String) (source : String)
    (after : List Call) : Prop where
  split : calls = before ++ .expression path x.language source :: after
  segments : pathParts path = x.segments
  time : x.createdAt = ((Call.expression path x.language source).on (built before)).clock

/-- What comes from an earlier call stands before in a listing. -/
theorem mem_before {t : Tree} {f : Folder} {i j : Tree.Item} {before after : List Tree.Item}
    (h : t.Orderly) (hsplit : itemsOf t f = before ++ i :: after) (hj : j ∈ itemsOf t f)
    (hlt : j.createdAt < i.createdAt) : j ∈ before := by
  have hordered := h.ordered (Tree.path f.segments)
  rw [← itemsOf_eq h, hsplit] at hordered
  rw [hsplit] at hj
  obtain hj | hj := List.mem_append.1 hj
  · exact hj
  · obtain rfl | hj := List.mem_cons.1 hj
    · exact absurd hlt (Int.lt_irrefl _)
    · have hlt' := (List.pairwise_cons.1 (List.pairwise_append.1 hordered).2.1).1 j hj
      exact absurd (hlt.trans hlt') (Int.lt_irrefl _)

/-- An expression has its name, its language and its time from the first call for its name, up to
case, and its folder, and its text from the last call for its path. -/
theorem origin_of_expression (calls : List Call) {x : Expression}
    (hx : x ∈ (ofTree (built calls)).expressions) :
    ∃ before path source after, Origin x calls before path source after ∧
      (∀ path' language' source' n', .expression path' language' source' ∈ before →
        pathParts path' = x.segments.dropLast ++ [n'] → Text.lower n' ≠ Text.lower x.name) ∧
      (built calls).text x.segments = .ok (some ((lastSource? x.segments after).getD source)) := by
  have horderly := Tree.orderly_built calls
  rw [expressions_ofTree] at hx
  obtain ⟨f, hf, hx⟩ := List.mem_flatMap.1 hx
  obtain ⟨i, hfirst, hkind, rfl⟩ := mem_expressionsIn.1 hx
  have hi := (firsts_sublist [] _).subset hfirst
  have hshown := (shows_iff horderly hf hi).2 hfirst
  obtain ⟨earlier, later, hsplit⟩ := List.append_of_mem hi
  have hnames := (named_ofTree _ f hf).names
  have hlisted := hi
  rw [itemsOf_eq horderly, Tree.expression_mem_built hkind] at hlisted
  obtain ⟨before, c, after, ns, hcalls, hlists, hpath⟩ := hlisted
  have htime := hlists.clock_lt
  cases hlists with
  | @mk path n source ns language hparts =>
    have hns : ∀ m ∈ ns, isName m = true :=
      fun m hm => isName_of_mem_pathParts (hparts ▸ List.mem_append_left _ hm)
    obtain rfl : f.segments = ns := path_inj hnames hns hpath
    refine ⟨before, path, source, after, ⟨hcalls, hparts, rfl⟩, ?_, ?_⟩
    · intro path' language' source' n' hmem hparts' he
      rw [Folder.expression, List.dropLast_concat] at hparts'
      obtain ⟨before', between, rfl⟩ := List.append_of_mem hmem
      let c' : Call := .expression path' language' source'
      let j : Tree.Item := ⟨.expression, n', (c'.on (built before')).clock, some language'⟩
      have hj : j ∈ (built calls).itemsAt (Tree.path f.segments) := by
        refine (Tree.expression_mem_built rfl).2 ⟨before', c',
          between ++ .expression path language source :: after, f.segments, ?_, ⟨hparts'⟩, rfl⟩
        rw [hcalls, List.append_assoc, List.cons_append]
      rw [← itemsOf_eq horderly] at hj
      have hle : (c'.on (built before')).clock ≤ (built (before' ++ c' :: between)).clock := by
        rw [← Tree.built_concat, List.append_cons before' c' between]
        exact Tree.clock_le_built _ _
      have hearlier := mem_before horderly hsplit hj (Int.lt_of_le_of_lt (Int.ofNat_le.2 hle) htime)
      exact (shows_split_iff horderly hf hsplit).1 hshown j hearlier he
    · have hall : ∀ m ∈ f.segments ++ [n], isName m = true :=
        fun m hm => isName_of_mem_pathParts (hparts ▸ hm)
      have hne : f.segments ++ [n] ≠ [] := List.append_ne_nil_of_right_ne_nil _ (List.cons_ne_nil _ _)
      have hown : Call.source? (f.segments ++ [n]) (.expression path language source) = some source :=
        if_pos hparts
      have hlast : lastSource? (f.segments ++ [n]) calls =
          some ((lastSource? (f.segments ++ [n]) after).getD source) := by
        rw [hcalls, Tree.lastSource?_append, Tree.lastSource?_cons, hown]
        cases lastSource? (f.segments ++ [n]) after <;> rfl
      show (built calls).text (f.segments ++ [n]) = _
      rw [Tree.text, Tree.lookup_sources_built hall hne, hlast]
      rfl

/-! ## A path that is added twice -/

/-- One path as a formula, and then as a script. -/
def twice : List Call :=
  [.expression "a" .formula "1", .expression "a" .script "return 2"]

theorem built_twice : built twice =
    ⟨[("", some [⟨.expression, "a", 1, some .formula⟩, ⟨.expression, "a", 2, some .script⟩])],
      [("a", some "return 2")], 2⟩ := by
  have hparts : pathParts "a" = [] ++ ["a"] := pathParts_path (List.forall_mem_singleton.2 (by decide))
  have hroot : pathParts (Tree.path []) = [] := pathParts_path fun _ h => absurd h List.not_mem_nil
  unfold built twice
  simp only [List.foldl, Call.on, Tree.addExpression_eq hparts, Tree.around, Tree.addFolder, hroot]
  rfl

theorem ofTree_twice : ofTree (built twice) = ⟨[root], [⟨"a", "a", ["a"], .formula, 1, ""⟩]⟩ := by
  rw [built_twice]
  exact (ofTree_of_expressions rfl (by decide) rfl).trans rfl

/-- The first call says that the expression is a formula, and the second one gives its text. -/
theorem origin_of_expression_twice : ∃ x ∈ (ofTree (built twice)).expressions,
    ∃ before path source after, Origin x twice before path source after ∧
      (∀ path' language' source' n', .expression path' language' source' ∈ before →
        pathParts path' = x.segments.dropLast ++ [n'] → Text.lower n' ≠ Text.lower x.name) ∧
      (built twice).text x.segments = .ok (some ((lastSource? x.segments after).getD source)) := by
  have hmem : (⟨"a", "a", ["a"], .formula, 1, ""⟩ : Expression) ∈ (ofTree (built twice)).expressions := by
    rw [ofTree_twice]
    exact List.mem_cons_self
  exact ⟨_, hmem, origin_of_expression twice hmem⟩

/-- The text of an expression is not always that of the call which it has its language and its time
from. -/
theorem text_of_another_call : ¬ ∀ calls : List Call, ∀ x ∈ (ofTree (built calls)).expressions,
    ∃ before path source after, Origin x calls before path source after ∧
      (built calls).text x.segments = .ok (some source) := by
  intro h
  have hmem : (⟨"a", "a", ["a"], .formula, 1, ""⟩ : Expression) ∈ (ofTree (built twice)).expressions := by
    rw [ofTree_twice]
    exact List.mem_cons_self
  obtain ⟨before, path, source, after, ⟨hsplit, -, htime⟩, htext⟩ := h twice _ hmem
  have hread : (built twice).text ["a"] = .ok (some "return 2") := by
    rw [built_twice]
    rfl
  have hsource : "return 2" = source := Option.some.inj (Except.ok.inj (hread.symm.trans htext))
  subst hsource
  -- The only call for a formula has another text.
  have hcall : Call.expression path .formula "return 2" ∈ twice := by
    rw [hsplit]
    exact List.mem_append_right _ List.mem_cons_self
  simp [twice] at hcall

end Outline
end Workbook
