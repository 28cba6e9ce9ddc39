/-
The outline of a tree: every item has the key of its name in its folder, and no two items
have one key.
-/
import Workbook.Outline
import Mathlib.Data.List.Nodup

namespace Workbook
namespace Outline

/-- Keys agree with names and tell items apart. -/
structure WellFormed (o : Outline) : Prop where
  expressionKey : ∀ x ∈ o.expressions, x.key = childKey x.parent x.name
  folderKey : ∀ f ∈ o.folders, ∀ parent, f.parent = some parent → f.key = childKey parent f.name
  distinct : (o.expressions.map (·.key)).Nodup
  apart : ∀ x ∈ o.expressions, ∀ f ∈ o.folders, x.key ≠ f.key

theorem folder?_eq_none {o : Outline} {key : String} :
    o.folder? key = none ↔ ∀ f ∈ o.folders, f.key ≠ key := by
  simp [folder?]

theorem expression?_eq_none {o : Outline} {key : String} :
    o.expression? key = none ↔ ∀ x ∈ o.expressions, x.key ≠ key := by
  simp [expression?]

theorem wellFormed_root : (⟨[root], []⟩ : Outline).WellFormed where
  expressionKey _ h := absurd h List.not_mem_nil
  folderKey f hf parent hp := by
    rw [List.mem_singleton.1 hf] at hp
    cases hp
  distinct := List.nodup_nil
  apart _ h := absurd h List.not_mem_nil

theorem WellFormed.add {o : Outline} (h : o.WellFormed) (f : Folder) (i : Tree.Item) :
    (o.add f i).WellFormed := by
  unfold Outline.add
  simp only
  split
  · exact h
  · rename_i hfree
    simp only [Bool.or_eq_true, not_or, Option.not_isSome_iff_eq_none] at hfree
    obtain ⟨⟨-, hfolder⟩, hexpression⟩ := hfree
    rw [folder?_eq_none] at hfolder
    rw [expression?_eq_none] at hexpression
    split
    · refine ⟨h.expressionKey, fun g hg parent hp => ?_, h.distinct, fun x hx g hg => ?_⟩
      · obtain hg | hg := List.mem_append.1 hg
        · exact h.folderKey g hg parent hp
        · obtain rfl := List.mem_singleton.1 hg
          cases hp
          rfl
      · obtain hg | hg := List.mem_append.1 hg
        · exact h.apart x hx g hg
        · obtain rfl := List.mem_singleton.1 hg
          exact hexpression x hx
    · refine ⟨fun x hx => ?_, h.folderKey, ?_, fun x hx g hg => ?_⟩
      · obtain hx | hx := List.mem_append.1 hx
        · exact h.expressionKey x hx
        · obtain rfl := List.mem_singleton.1 hx
          rfl
      · rw [List.map_append, List.nodup_append]
        refine ⟨h.distinct, List.nodup_singleton _, fun key hk key' hk' heq => ?_⟩
        obtain ⟨x, hx, rfl⟩ := List.mem_map.1 hk
        obtain rfl := List.mem_singleton.1 hk'
        exact hexpression x hx heq
      · obtain hx | hx := List.mem_append.1 hx
        · exact h.apart x hx g hg
        · obtain rfl := List.mem_singleton.1 hx
          exact (hfolder g hg).symm

theorem WellFormed.addAll {o : Outline} (h : o.WellFormed) (f : Folder) (items : List Tree.Item) :
    (items.foldl (Outline.add f) o).WellFormed := by
  induction items generalizing o with
  | nil => exact h
  | cons i rest ih => exact ih (h.add f i)

theorem WellFormed.explore {t : Tree} {o : Outline} (h : o.WellFormed) (fuel next : Nat) :
    (Outline.explore t fuel next o).WellFormed := by
  induction fuel generalizing next o with
  | zero => exact h
  | succ fuel ih =>
    unfold Outline.explore
    split
    · exact h
    · rename_i f _
      exact ih (h.addAll f _) (next + 1)

theorem wellFormed_ofTree (t : Tree) : (ofTree t).WellFormed :=
  wellFormed_root.explore _ _

variable {o : Outline} (h : o.WellFormed)
include h

/-- An expression is found under its key. -/
theorem WellFormed.find {x : Expression} (hx : x ∈ o.expressions) :
    o.expression? x.key = some x := by
  cases hf : o.expression? x.key with
  | none => exact absurd rfl (expression?_eq_none.1 hf x hx)
  | some y =>
    have hy : y ∈ o.expressions := List.mem_of_find?_eq_some hf
    have hkey : y.key = x.key := by simpa using List.find?_some hf
    rw [List.inj_on_of_nodup_map h.distinct hy hx hkey]

/-- Expressions of one folder whose names agree up to case are the same. -/
theorem WellFormed.eq_of_name {x y : Expression} {key : String} (hx : x ∈ o.childExpressions key)
    (hy : y ∈ o.childExpressions key) (hn : Text.lower x.name = Text.lower y.name) : x = y := by
  obtain ⟨hx, hpx⟩ := List.mem_filter.1 hx
  obtain ⟨hy, hpy⟩ := List.mem_filter.1 hy
  refine List.inj_on_of_nodup_map h.distinct hx hy ?_
  rw [h.expressionKey x hx, h.expressionKey y hy, eq_of_beq hpx, eq_of_beq hpy]
  unfold childKey
  rw [hn]

/-- No folder has the name of an expression of the same folder. -/
theorem WellFormed.name_ne {x : Expression} {f : Folder} {key : String}
    (hx : x ∈ o.childExpressions key) (hf : f ∈ o.childFolders key) :
    Text.lower x.name ≠ Text.lower f.name := by
  obtain ⟨hx, hpx⟩ := List.mem_filter.1 hx
  obtain ⟨hf, hpf⟩ := List.mem_filter.1 hf
  intro hn
  refine h.apart x hx f hf ?_
  rw [h.expressionKey x hx, h.folderKey f hf key (eq_of_beq hpf), eq_of_beq hpx]
  unfold childKey
  rw [hn]

end Outline
end Workbook
