/-
What the functions of a result have captured.

A result is frozen with the arrays and objects that it is made of, for others will share it.  What
a function among them has captured is not reached in this way and stays as it is: whoever calls the
function may modify it (`sameAt_freeze`).  So a value may depend on who called the function before,
and with it on the order in which expressions are asked for; `answers_depend_on_order` is an
example.
-/
import Mathlib
import Workbook.Proofs.Coupling.Depth
import Workbook.Proofs.Session.Result

namespace Workbook
namespace Store

/-! ## What freezing reaches -/

/-- Two stores in which the arrays and objects have the same contents. -/
structure SameContents (s t : Store) : Prop where
  arrays : ∀ place : Nat, (t.arrays[place]?).map Container.content = (s.arrays[place]?).map Container.content
  objects : ∀ place : Nat, (t.objects[place]?).map Container.content = (s.objects[place]?).map Container.content

namespace SameContents

variable {s t u : Store}

theorem refl (s : Store) : s.SameContents s :=
  ⟨fun _ => rfl, fun _ => rfl⟩

theorem symm (h : s.SameContents t) : t.SameContents s :=
  ⟨fun place => (h.arrays place).symm, fun place => (h.objects place).symm⟩

theorem trans (h : s.SameContents t) (h' : t.SameContents u) : s.SameContents u :=
  ⟨fun place => (h'.arrays place).trans (h.arrays place),
    fun place => (h'.objects place).trans (h.objects place)⟩

/-- What is found in a value depends on nothing but contents. -/
theorem reaches (h : s.SameContents t) {u v : Native} (hr : s.Reaches v u) : t.Reaches v u := by
  induction hr with
  | refl v => exact .refl v
  | @item place c _ _ hc hu _ ih =>
    have hcontent := h.arrays place
    rw [hc] at hcontent
    obtain ⟨d, hd, hdc⟩ := Option.map_eq_some_iff.1 hcontent
    exact .item hd (hdc ▸ hu) ih
  | @field place c _ _ hc hf _ ih =>
    have hcontent := h.objects place
    rw [hc] at hcontent
    obtain ⟨d, hd, hdc⟩ := Option.map_eq_some_iff.1 hcontent
    exact .field hd (hdc ▸ hf) ih

end SameContents

/-- Changes that keep the content of a container keep all contents. -/
theorem content_modify {α : Type} (cs : Array (Container α)) (place other : Nat)
    {f : Container α → Container α} (hf : ∀ c, (f c).content = c.content) :
    ((cs.modify place f)[other]?).map Container.content = (cs[other]?).map Container.content := by
  rw [Array.getElem?_modify]
  split
  · rw [Option.map_map]
    exact congrArg (Option.map · _) (funext hf)
  · rfl

theorem sameContents_freezeOne (s : Store) (v : Native) : s.SameContents (s.freezeOne v).1 := by
  obtain h | ⟨place, c, -, -, -, h⟩ | ⟨place, c, -, -, -, h⟩ := s.freezeOne_shape v
  · rw [h]
    exact .refl s
  · rw [h]
    exact ⟨fun other => content_modify s.arrays place other fun _ => rfl, fun _ => rfl⟩
  · rw [h]
    exact ⟨fun _ => rfl, fun other => content_modify s.objects place other fun _ => rfl⟩

theorem sameContents_freezeAll (fuel : Nat) (s : Store) (vs : List Native) :
    s.SameContents (freezeAll fuel s vs) :=
  freezeAll_of_freezeOne .refl .trans sameContents_freezeOne fuel s vs

theorem SameAt.refl (s : Store) (u : Native) : s.SameAt s u := by
  cases u <;> trivial

theorem SameAt.trans {s t r : Store} {u : Native} (h : s.SameAt t u) (h' : t.SameAt r u) :
    s.SameAt r u := by
  cases u with
  | array place => exact Eq.trans h' h
  | object place => exact Eq.trans h' h
  | _ => trivial

variable {s : Store} {u v : Native}

/-- Freezing one value leaves other values as they are. -/
theorem sameAt_freezeOne (h : ¬ s.Reaches v u) : s.SameAt (s.freezeOne v).1 u := by
  have hne : u ≠ v := by
    rintro rfl
    exact h (.refl u)
  obtain hf | ⟨place, c, rfl, -, -, hf⟩ | ⟨place, c, rfl, -, -, hf⟩ := s.freezeOne_shape v
  · rw [hf]
    exact .refl s u
  · rw [hf]
    cases u with
    | array other =>
      have hplace : place ≠ other := fun he => hne (congrArg Native.array he.symm)
      show (s.arrays.modify place _)[other]? = _
      rw [Array.getElem?_modify, if_neg hplace]
    | object other => rfl
    | _ => trivial
  · rw [hf]
    cases u with
    | object other =>
      have hplace : place ≠ other := fun he => hne (congrArg Native.object he.symm)
      show (s.objects.modify place _)[other]? = _
      rw [Array.getElem?_modify, if_neg hplace]
    | array other => rfl
    | _ => trivial

/-- What is found in the contents that are still to come is found in the value. -/
theorem reaches_of_freezeOne {w : Native} (hw : w ∈ (s.freezeOne v).2) (h : s.Reaches w u) :
    s.Reaches v u := by
  obtain hf | ⟨place, c, rfl, hc, -, hf⟩ | ⟨place, c, rfl, hc, -, hf⟩ := s.freezeOne_shape v
  · rw [hf] at hw
    cases hw
  · rw [hf] at hw
    exact .item hc (Array.mem_toList_iff.1 hw) h
  · rw [hf] at hw
    obtain ⟨f, hfield, rfl⟩ := List.mem_map.1 hw
    exact .field hc hfield h

theorem sameAt_freezeAll (fuel : Nat) {vs : List Native} (h : ∀ v ∈ vs, ¬ s.Reaches v u) :
    s.SameAt (freezeAll fuel s vs) u := by
  induction fuel generalizing s vs with
  | zero => exact .refl s u
  | succ fuel ih =>
    induction vs generalizing s with
    | nil => exact .refl s u
    | cons v vs ihv =>
      have hv := h v List.mem_cons_self
      have hone := s.sameContents_freezeOne v
      have hinner := sameContents_freezeAll fuel (s.freezeOne v).1 (s.freezeOne v).2
      rw [freezeAll_cons]
      refine ((sameAt_freezeOne hv).trans (ih fun w hw hr => ?_)).trans (ihv fun w hw hr => ?_)
      · exact hv (reaches_of_freezeOne hw (hone.symm.reaches hr))
      · exact h w (List.mem_cons_of_mem _ hw) ((hone.trans hinner).symm.reaches hr)

/-- Freezing a value leaves an array or object as it is that is not found in the value by going
through arrays and objects, so what its functions have captured. -/
theorem sameAt_freeze (s : Store) (u v : Native) : s.Reaches v u ∨ s.SameAt (s.freeze v) u := by
  by_cases h : s.Reaches v u
  · exact .inl h
  · refine .inr (sameAt_freezeAll _ fun w hw => ?_)
    rw [List.mem_singleton.1 hw]
    exact h

end Store

/-! ## A function that modifies what it has captured -/

/-- A workbook with a script, which returns a function that modifies an object, and two formulas
that call the function. -/
def flipping : Tree :=
  ⟨[("", some [⟨.expression, "s", 1, some .script⟩, ⟨.expression, "a", 2, some .formula⟩,
      ⟨.expression, "b", 3, some .formula⟩])],
    [("s", some "const c = { on: false }; return () => { c.on = !c.on; return c.on }"),
      ("a", some "s()"), ("b", some "s()")], 3⟩

theorem ofTree_flipping : Outline.ofTree flipping =
    ⟨[Outline.root], [⟨"s", "s", ["s"], .script, 1, ""⟩, ⟨"a", "a", ["a"], .formula, 2, ""⟩,
      ⟨"b", "b", ["b"], .formula, 3, ""⟩]⟩ :=
  (Outline.ofTree_of_expressions rfl (by decide) rfl).trans rfl

/-- The truth value that the first session keeps for an expression, if it has found no circular
reference. -/
def Store.truth? (s : Store) (key : String) : Option Bool :=
  match s.sessions[0]? with
  | some σ =>
    match σ.stats.circularDetections, σ.results.lookup key with
    | 0, some ⟨_, .value _ (.boolean b)⟩ => some b
    | _, _ => none
  | none => none

/-- What the session keeps for `a` depends on whether it was asked for `b` before or after. -/
theorem answers_depend_on_order :
    (((Engine.ofFuel 10).consult flipping ⟨.standard, [], []⟩ 0
      [.expression "a", .expression "b"]).last .empty).truth? "a" = some true ∧
    (((Engine.ofFuel 10).consult flipping ⟨.standard, [], []⟩ 0
      [.expression "b", .expression "a"]).last .empty).truth? "a" = some false := by
  have hb : pathKey "b" = "b" := pathKey_of_name (by decide) (by decide)
  rw [Engine.last_consult, Engine.last_consult]
  unfold Engine.query Store.opened Store.opening Session.start
  rw [ofTree_flipping]
  simp only [pathKey_arrayWorkbook, hb, List.mapM_cons, List.mapM_nil]
  constructor
  · decide +kernel
  · decide +kernel

end Workbook
