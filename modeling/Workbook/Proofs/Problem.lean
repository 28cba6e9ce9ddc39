/-
Collections of problems.

A collection keeps the first problems that it is given, up to a limit, and counts all of them
(`kept_pushAll`, `total_pushAll`).  It is given another collection by the problems that this one keeps,
one after the other, and the number of those that it does not keep.

No problem is lost or counted twice on the way: however collections are put together (`Gathering`), what
comes of it is the collection that is given all of their problems one by one (`collected_eq`).  The
reason is that a collection never keeps more problems than it counts, and as many as it can.
-/
import Workbook.Problem

namespace Workbook
namespace Problems

/-! ## Problems that are kept -/

/-- The first problems are kept. -/
theorem kept_pushAll {ps : Problems} {qs : List Problem} (h : ps.kept.length ≤ limit) :
    (ps.pushAll qs).kept = (ps.kept ++ qs).take limit := by
  induction qs generalizing ps with
  | nil => rw [List.append_nil, List.take_of_length_le h, pushAll_nil]
  | cons q qs ih =>
    show ((ps.push q).pushAll qs).kept = _
    by_cases hroom : ps.kept.length < limit
    · have hkept : (ps.push q).kept = ps.kept ++ [q] := if_pos hroom
      rw [ih (by rw [hkept, List.length_append]; exact hroom), hkept, List.append_assoc]
      rfl
    · have hkept : (ps.push q).kept = ps.kept := if_neg hroom
      have hfull : limit ≤ ps.kept.length := Nat.le_of_not_lt hroom
      rw [ih (by rw [hkept]; exact h), hkept, List.take_append_of_le_length hfull,
        List.take_append_of_le_length hfull]

theorem kept_pushAll_empty (qs : List Problem) : (empty.pushAll qs).kept = qs.take limit :=
  kept_pushAll (Nat.zero_le _)

theorem total_pushAll_empty (qs : List Problem) : (empty.pushAll qs).total = qs.length := by
  rw [total_pushAll]
  exact Nat.zero_add _

/-- Of two sorts of problems, the first ones are kept of both together. -/
theorem kept_append_pushAll (qs rs : List Problem) :
    ((empty.pushAll qs).append (empty.pushAll rs)).kept = (qs ++ rs).take limit := by
  have hlength : (empty.pushAll qs).kept.length ≤ limit := by
    rw [kept_pushAll_empty, List.length_take]
    exact Nat.min_le_left _ _
  show ((empty.pushAll qs).pushAll (empty.pushAll rs).kept).kept = _
  rw [kept_pushAll hlength, kept_pushAll_empty, kept_pushAll_empty, List.take_append, List.take_append,
    List.take_take, List.take_take, List.length_take, Nat.min_self]
  congr 2
  omega

/-- Where problems have been found, one of them is kept. -/
theorem kept_append {qs rs : List Problem} (h : qs ≠ [] ∨ rs ≠ []) :
    ((empty.pushAll qs).append (empty.pushAll rs)).kept ≠ [] := by
  rw [kept_append_pushAll]
  intro hnil
  obtain hlimit | hempty := List.take_eq_nil_iff.1 hnil
  · cases hlimit
  · obtain ⟨hqs, hrs⟩ := List.append_eq_nil_iff.1 hempty
    exact h.elim (fun hne => hne hqs) fun hne => hne hrs

/-! ## Problems that are counted -/

/-- No more problems are kept than are counted, so that those that are not kept can be counted too. -/
theorem length_kept_le (qs : List Problem) :
    (empty.pushAll qs).kept.length ≤ (empty.pushAll qs).total := by
  rw [kept_pushAll_empty, total_pushAll_empty, List.length_take]
  exact Nat.min_le_right _ _

theorem total_append_pushAll (qs rs : List Problem) :
    ((empty.pushAll qs).append (empty.pushAll rs)).total = (qs ++ rs).length := by
  have hkept := length_kept_le rs
  have htotal : ((empty.pushAll qs).append (empty.pushAll rs)).total =
      ((empty.pushAll qs).pushAll (empty.pushAll rs).kept).total +
        ((empty.pushAll rs).total - (empty.pushAll rs).kept.length) := rfl
  rw [htotal, total_pushAll, Nat.add_assoc, Nat.add_sub_of_le hkept, total_pushAll_empty,
    total_pushAll_empty, List.length_append]

/-- Two sorts of problems, collected apart and then put together, are those of both in a row. -/
theorem append_pushAll (qs rs : List Problem) :
    (empty.pushAll qs).append (empty.pushAll rs) = empty.pushAll (qs ++ rs) := by
  have hkept := (kept_append_pushAll qs rs).trans (kept_pushAll_empty (qs ++ rs)).symm
  have htotal := (total_append_pushAll qs rs).trans (total_pushAll_empty (qs ++ rs)).symm
  exact Eq.mpr (Problems.mk.injEq ..) ⟨hkept, htotal⟩

theorem total_append (ps qs : Problems) (h : (ps.append qs).isEmpty = true) :
    ps.total = 0 ∧ qs.total = 0 := by
  rw [isEmpty_iff] at h
  have htotal : (ps.pushAll qs.kept).total + (qs.total - qs.kept.length) = 0 := h
  rw [total_pushAll] at htotal
  omega

/-! ## Ways to collect -/

/-- How a collection is put together: from nothing, by one more problem, or of two collections. -/
inductive Gathering
  | empty
  | push (g : Gathering) (p : Problem)
  | append (g h : Gathering)

namespace Gathering

/-- The problems that are given, in their order. -/
def problems : Gathering → List Problem
  | empty => []
  | push g p => g.problems ++ [p]
  | append g h => g.problems ++ h.problems

/-- What comes of it. -/
def collected : Gathering → Problems
  | empty => .empty
  | push g p => g.collected.push p
  | append g h => g.collected.append h.collected

/-- How problems have been collected cannot be seen. -/
theorem collected_eq (g : Gathering) : g.collected = Problems.empty.pushAll g.problems := by
  induction g with
  | empty => rfl
  | push g p ih =>
    rw [collected, problems, ih, ← pushAll_append]
    rfl
  | append g h ihg ihh => rw [collected, problems, ihg, ihh, append_pushAll]

/-- Problems that are collected apart, in whatever ways, and then put together come to the same
collection as if they were all added one by one: it counts all of them and keeps the first twenty, in
their order.  The problems that a collection does not keep are counted by a difference, which is never
cut off at zero. -/
theorem gathered_together (g h : Gathering) :
    g.collected.append h.collected = Problems.empty.pushAll (g.problems ++ h.problems) ∧
    (g.collected.append h.collected).total = (g.problems ++ h.problems).length ∧
    (g.collected.append h.collected).kept = (g.problems ++ h.problems).take 20 ∧
    h.collected.kept.length ≤ h.collected.total := by
  rw [g.collected_eq, h.collected_eq]
  exact ⟨append_pushAll _ _, total_append_pushAll _ _, kept_append_pushAll _ _, length_kept_le _⟩

end Gathering

end Problems
end Workbook
