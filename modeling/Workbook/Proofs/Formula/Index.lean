/-
Items of values in formulas.

A list, a string and bytes have the item at each position, counted in values, characters and bytes, and
null at every other; a double that stands for an integer designates the same item as that integer; and
null, failures and other values fail (`index_laws`).  The position is looked at before the value is,
though, so that what has no items at all still has null at a negative one (`negative_item`).
-/
import Mathlib
import Workbook.Engine
import Workbook.Proofs.Number.Order

namespace Workbook

/-- The items of a value that has a sequence of them. -/
def Value.items? : Value → Option (List Value)
  | .list items _ => some items
  | .string s => some (Formula.characters s.toList)
  | .bytes b => some (b.data.map fun x => .ofInt x.toNat)
  | _ => none

/-- Whether a value has neither items nor entries, and is neither null nor a failure. -/
def Value.Itemless : Value → Prop
  | .boolean _ | .integer _ | .float _ | .big _ | .date _ | .function _ | .signal _ => True
  | _ => False

namespace Formula

/-- Whether an index is an integer of 64 bits, or a double that stands for it. -/
def Designates (index : Value) (n : Int64) : Prop :=
  index = .integer n ∨ ∃ x, index = .float x ∧ Number.value? x = some (n.toInt : ℚ)

/-- What the items of values are at an index with the number `n`. -/
structure IndexLaws (e : Engine) (index : Value) (n : Int) : Prop where
  sequence : ∀ (v : Value) (items : List Value), v.items? = some items →
    e.item v index = pure (if 0 ≤ n then items[n.toNat]?.getD .null else .null)
  null : ∃ name, e.item .null index = Run.fail (.nullAccess name)
  failed : ∀ kind message payload, ∃ name,
    e.item (.error kind message payload) index = Run.fail (failedRead name kind message)
  itemless : ∀ v : Value, v.Itemless → 0 ≤ n →
    e.item v index = Run.mismatch ("cannot index " ++ v.typeName ++ " with a number")

section

variable {e : Engine} {v index : Value} {n : Int64}

/-- A position that is not negative is as it is; 64 bits hold it. -/
theorem position_eq (h : Designates index n) :
    e.position index = pure (if 0 ≤ n.toInt then some n.toInt.toNat else none) := by
  have hbound : n.toInt < 2 ^ 63 := n.toInt_lt
  have hnatural : (if 0 ≤ n.toInt ∧ n.toInt < UInt64.size then some n.toInt.toNat else none) =
      if 0 ≤ n.toInt then some n.toInt.toNat else none := by
    have hword : (2 : Int) ^ 63 < UInt64.size := by decide
    simp only [and_iff_left (hbound.trans hword)]
  obtain rfl | ⟨x, rfl, hx⟩ := h
  · exact congrArg pure hnatural
  · obtain ⟨hwhole, hpart⟩ := Number.truncated?_of_value hx
    unfold Engine.position
    simp only [hwhole, if_true, hpart]
    exact congrArg pure hnatural

/-- Values other than null, failures and mappings have the item at the position. -/
theorem item_eq (h : Designates index n) (hv : v.items?.isSome ∨ v.Itemless) :
    e.item v index = Engine.itemAt v (if 0 ≤ n.toInt then some n.toInt.toNat else none) := by
  have hitem : e.item v index = e.position index >>= fun i => Engine.itemAt v i := by
    obtain rfl | ⟨x, rfl, -⟩ := h <;> cases v <;> first | rfl | (rcases hv with hv | hv <;> cases hv)
  rw [hitem, position_eq h]
  rfl

theorem itemAt_items {items : List Value} (h : v.items? = some items) (i : Nat) :
    Engine.itemAt v (some i) = pure (items[i]?.getD .null) := by
  cases v <;> cases h
  case list => rfl
  case string s =>
    unfold characters
    rw [List.getElem?_map]
    rfl
  case bytes b =>
    rw [List.getElem?_map]
    rfl

theorem itemAt_itemless (h : v.Itemless) (i : Nat) : Engine.itemAt v (some i) =
    Run.mismatch ("cannot index " ++ v.typeName ++ " with a number") := by
  cases v <;> first | rfl | cases h

/-- The name of an index in messages, which every engine has that nests requests at all. -/
theorem exists_text (fuel : Nat) (h : Designates index n) :
    ∃ name, (Engine.ofFuel (fuel + 1)).ask (.text index false) = pure name := by
  obtain rfl | ⟨x, rfl, -⟩ := h <;> exact ⟨_, rfl⟩

/-- Items are found under integers, and under doubles that stand for them. -/
theorem index_laws (fuel : Nat) (h : Designates index n) :
    IndexLaws (Engine.ofFuel (fuel + 1)) index n.toInt where
  sequence v items hv := by
    rw [item_eq h (.inl (by rw [hv]; rfl))]
    split
    · exact itemAt_items hv _
    · rfl
  null := by
    obtain ⟨name, hname⟩ := exists_text fuel h
    refine ⟨"[" ++ name ++ "]", ?_⟩
    unfold Engine.item
    simp only
    rw [hname]
    rfl
  failed kind message payload := by
    obtain ⟨name, hname⟩ := exists_text fuel h
    refine ⟨"[" ++ name ++ "]", ?_⟩
    unfold Engine.item
    simp only
    rw [hname]
    rfl
  itemless v hv hn := by
    rw [item_eq h (.inr hv), if_pos hn]
    exact itemAt_itemless hv _

/-- Whatever the value, a negative position has nothing. -/
theorem negative_item (h : Designates index n) (hv : v.items?.isSome ∨ v.Itemless) (hn : n.toInt < 0) :
    e.item v index = pure .null := by
  rw [item_eq h hv, if_neg (not_le.2 hn)]
  rfl

theorem designates_one : Designates (.float 1) 1 := by
  have hexact : Number.exact 1 = .finite false (2 ^ 52) (-52) := rfl
  refine .inr ⟨1, rfl, ?_⟩
  rw [Number.value?_of_exact hexact]
  norm_num
  rfl

/-- The second item of a list, under a double. -/
theorem second_item : Designates (.float 1) 1 ∧
    (Engine.ofFuel 1).item (.list [.null, .boolean true] none) (.float 1) = pure (.boolean true) :=
  ⟨designates_one, (index_laws 0 designates_one).sequence (.list [.null, .boolean true] none)
    [.null, .boolean true] rfl⟩

/-- A truth value has no items, but null at a negative position. -/
theorem boolean_has_null :
    Engine.standard.item (.boolean true) (.integer (-1)) = pure .null ∧
      Engine.standard.item (.boolean true) (.integer 1) =
        Run.mismatch "cannot index boolean with a number" :=
  ⟨rfl, rfl⟩

end

end Formula
end Workbook
