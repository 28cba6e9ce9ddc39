/-
Points that are moved.

A value whose entries are read is a tree: leaves, and nodes with parts under keys or without
(`Shape`).  A point is a node with numbers under `x` and `y`; moving it adds an offset to these and moves
the other parts (`Shape.moved`).  Which parts are coordinates is seen from the keys and from which parts
are numbers, and neither is changed by moving, so moves add up (`Shape.moved_moved`).

The function `translate` moves a value so, as long as all coordinates are integers and their sums fit
into 64 bits (`follows`).  At every place of the result there is what was there before, with the offset
added if it is a coordinate (`Shape.moved_at`).  So translations compose (`translations_compose`).
-/
import Workbook.Proofs.Json

open List (Forall₂)

namespace Workbook
namespace Formula

/-! ## Shapes -/

inductive Axis
  | x | y
  deriving DecidableEq

namespace Axis

def name : Axis → String
  | x => "x"
  | y => "y"

/-- The axis that a key is for, in any spelling. -/
def ofKey? (key : String) : Option Axis :=
  if Text.lower key = "x" then some x
  else if Text.lower key = "y" then some y
  else none

end Axis

/-- A value with its entries read.  The parts of a list are under no keys. -/
inductive Shape
  | leaf (v : Value)
  | node (keys : Option (List String)) (parts : List Shape)

namespace Shape

theorem induct {P : Shape → Prop} (leaf : ∀ v, P (.leaf v))
    (node : ∀ keys parts, (∀ s ∈ parts, P s) → P (.node keys parts)) (s : Shape) : P s :=
  s.rec (motive_1 := P) (motive_2 := fun parts => ∀ s ∈ parts, P s) leaf
    (fun keys parts ih => node keys parts ih) (fun _ h => absurd h List.not_mem_nil)
    fun _ _ here rest => List.forall_mem_cons.2 ⟨here, rest⟩

mutual

/-- The value of a shape, made anew. -/
def value : Shape → Value
  | leaf v => v
  | node none parts => .ofItems (values parts)
  | node (some keys) parts => .ofEntries (Entries.ofPairs (keys.zip (values parts)))

def values : List Shape → List Value
  | [] => []
  | s :: parts => s.value :: values parts

end

theorem values_eq (parts : List Shape) : values parts = parts.map value := by
  induction parts with
  | nil => rfl
  | cons s parts ih => exact congrArg (_ :: ·) ih

/-- Whether a shape can be a coordinate. -/
def isNumeric : Shape → Bool
  | leaf v => isCoordinate (some v)
  | node .. => false

/-- The parts that are numbers under a key for an axis; `numeric` says which parts are numbers. -/
def candidates (keys : List String) (numeric : List Bool) : List (Option Axis) :=
  (keys.zip numeric).map fun e => if e.2 then Axis.ofKey? e.1 else none

/-- Which parts of a node are coordinates.  A point has numbers for both axes. -/
def axes (keys : Option (List String)) (numeric : List Bool) : List (Option Axis) :=
  match keys with
  | some keys =>
    if some .x ∈ candidates keys numeric ∧ some .y ∈ candidates keys numeric then
      candidates keys numeric
    else []
  | none => []

/-! ## Moving -/

/-- An integer with an offset added. -/
def shifted (k : Int64) : Shape → Shape
  | leaf (.integer n) => leaf (.integer (n + k))
  | s => s

mutual

/-- A shape with the coordinates of all points in it moved, by an offset for each axis. -/
def moved (d : Axis → Int64) : Shape → Shape
  | leaf v => leaf v
  | node keys parts => node keys (movedAll d (axes keys (parts.map isNumeric)) parts)

def movedAll (d : Axis → Int64) : List (Option Axis) → List Shape → List Shape
  | _, [] => []
  | axes, s :: parts =>
    (match axes.head?.join with
      | some axis => s.shifted (d axis)
      | none => s.moved d) :: movedAll d axes.tail parts

end

variable {d e : Axis → Int64} {axes : List (Option Axis)} {parts : List Shape}

/-- A part as it is after the move. -/
def movedPart (d : Axis → Int64) (axis : Option Axis) (s : Shape) : Shape :=
  match axis with
  | some axis => s.shifted (d axis)
  | none => s.moved d

theorem moved_node {keys : Option (List String)} : (node keys parts).moved d =
    node keys (movedAll d (Shape.axes keys (parts.map isNumeric)) parts) :=
  rfl

theorem movedAll_cons (s : Shape) :
    movedAll d axes (s :: parts) = movedPart d axes.head?.join s :: movedAll d axes.tail parts :=
  rfl

theorem getElem?_movedAll (i : Nat) :
    (movedAll d axes parts)[i]? = parts[i]?.map (movedPart d axes[i]?.join) := by
  induction parts generalizing axes i with
  | nil => rfl
  | cons s parts ih =>
    rw [movedAll_cons]
    cases i with
    | zero => rw [List.getElem?_cons_zero, List.getElem?_cons_zero, List.head?_eq_getElem?]; rfl
    | succ i => rw [List.getElem?_cons_succ, List.getElem?_cons_succ, ih, List.getElem?_tail]

theorem length_movedAll : (movedAll d axes parts).length = parts.length := by
  induction parts generalizing axes with
  | nil => rfl
  | cons s parts ih => exact congrArg Nat.succ ih

theorem shifted_isNumeric (k : Int64) (s : Shape) : (s.shifted k).isNumeric = s.isNumeric := by
  unfold shifted
  split <;> rfl

theorem moved_isNumeric (d : Axis → Int64) (s : Shape) : (s.moved d).isNumeric = s.isNumeric := by
  cases s <;> rfl

/-- What is a number stays one, and nothing else becomes one. -/
theorem movedAll_isNumeric :
    (movedAll d axes parts).map isNumeric = parts.map isNumeric := by
  induction parts generalizing axes with
  | nil => rfl
  | cons s parts ih =>
    rw [movedAll_cons, List.map_cons, List.map_cons, ih]
    cases axes.head?.join with
    | some axis => rw [← shifted_isNumeric (d axis) s]; rfl
    | none => rw [← moved_isNumeric d s]; rfl

theorem shifted_zero (s : Shape) : s.shifted 0 = s := by
  unfold shifted
  split
  · rw [Int64.add_zero]
  · rfl

theorem shifted_shifted (k l : Int64) (s : Shape) : (s.shifted k).shifted l = s.shifted (k + l) := by
  cases s with
  | node => rfl
  | leaf v =>
    cases v with
    | integer n => exact congrArg (leaf <| .integer ·) (Int64.add_assoc n k l)
    | _ => rfl

theorem movedPart_zero {s : Shape} (h : s.moved 0 = s) (axis : Option Axis) : movedPart 0 axis s = s := by
  cases axis with
  | none => exact h
  | some axis => exact shifted_zero s

theorem movedPart_movedPart {s : Shape} (h : (s.moved d).moved e = s.moved (d + e))
    (axis : Option Axis) : movedPart e axis (movedPart d axis s) = movedPart (d + e) axis s := by
  cases axis with
  | none => exact h
  | some axis => exact shifted_shifted _ _ s

/-- Moving by nothing. -/
theorem moved_zero (s : Shape) : s.moved 0 = s := by
  induction s using induct with
  | leaf v => rfl
  | node keys parts ih =>
    rw [moved_node]
    refine congrArg (node keys) (List.ext_getElem? fun i => ?_)
    rw [getElem?_movedAll]
    cases hs : parts[i]? with
    | none => rfl
    | some s => exact congrArg some (movedPart_zero (ih s (List.mem_of_getElem? hs)) _)

/-- Moves add up. -/
theorem moved_moved (d e : Axis → Int64) (s : Shape) : (s.moved d).moved e = s.moved (d + e) := by
  induction s using induct with
  | leaf v => rfl
  | node keys parts ih =>
    rw [moved_node, moved_node, moved_node, movedAll_isNumeric]
    refine congrArg (node keys) (List.ext_getElem? fun i => ?_)
    rw [getElem?_movedAll, getElem?_movedAll, getElem?_movedAll]
    cases hs : parts[i]? with
    | none => rfl
    | some s => exact congrArg some (movedPart_movedPart (ih s (List.mem_of_getElem? hs)) _)

/-! ## Places -/

/-- What is at a place of a value besides its parts. -/
inductive Label
  | leaf (v : Value)
  | node (keys : Option (List String)) (length : Nat)

/-- An integer with an offset added, if there is one. -/
def Label.shifted : Option Int64 → Label → Label
  | some k, .leaf (.integer n) => .leaf (.integer (n + k))
  | _, l => l

def label : Shape → Label
  | leaf v => .leaf v
  | node keys parts => .node keys parts.length

/-- The part at a place, which is a position for each node on the way. -/
def at? : Shape → List Nat → Option Shape
  | s, [] => some s
  | leaf _, _ :: _ => none
  | node _ parts, i :: place => parts[i]?.bind (·.at? place)

/-- The axis that a part is the coordinate of a point for. -/
def axisAt? : Shape → List Nat → Option Axis
  | node keys parts, [i] => (Shape.axes keys (parts.map isNumeric))[i]?.join
  | node _ parts, i :: place => parts[i]?.bind (·.axisAt? place)
  | _, _ => none

section

variable {keys : Option (List String)} {i j : Nat} {place : List Nat}

theorem at?_cons : (node keys parts).at? (i :: place) = parts[i]?.bind (·.at? place) := rfl

theorem axisAt?_singleton :
    (node keys parts).axisAt? [i] = (Shape.axes keys (parts.map isNumeric))[i]?.join := rfl

theorem axisAt?_cons : (node keys parts).axisAt? (i :: j :: place) =
    parts[i]?.bind (·.axisAt? (j :: place)) := rfl

end

theorem label_shifted (k : Int64) (s : Shape) : (s.shifted k).label = s.label.shifted (some k) := by
  cases s with
  | node => rfl
  | leaf v => cases v <;> rfl

theorem label_moved (d : Axis → Int64) (s : Shape) : (s.moved d).label = s.label.shifted none := by
  cases s with
  | node keys parts => exact congrArg (Label.node keys) length_movedAll
  | leaf v => rfl

/-- Only numbers are coordinates. -/
theorem exists_of_axes {keys : Option (List String)} {i : Nat} {axis : Axis}
    (h : (Shape.axes keys (parts.map isNumeric))[i]?.join = some axis) :
    ∃ s, parts[i]? = some s ∧ s.isNumeric = true := by
  unfold Shape.axes at h
  split at h
  · split at h
    · obtain ⟨e, he, haxis⟩ := Option.map_eq_some_iff.1
        (List.getElem?_map .. ▸ Option.join_eq_some_iff.1 h)
      obtain ⟨-, hnumeric⟩ := List.getElem?_zip_eq_some.1 he
      rw [List.getElem?_map] at hnumeric
      obtain ⟨s, hs, hsame⟩ := Option.map_eq_some_iff.1 hnumeric
      refine ⟨s, hs, hsame.trans (of_not_not fun hno => ?_)⟩
      exact nomatch (if_neg hno).symm.trans haxis
    · cases h
  · cases h

theorem isNumeric_of_axes {keys : Option (List String)} {i : Nat} {s : Shape} (hs : parts[i]? = some s)
    (h : (Shape.axes keys (parts.map isNumeric))[i]?.join.isSome = true) : s.isNumeric = true := by
  obtain ⟨axis, haxis⟩ := Option.isSome_iff_exists.1 h
  obtain ⟨_, hs', hnumeric⟩ := exists_of_axes haxis
  cases hs.symm.trans hs'
  exact hnumeric

/-- Nothing is below a coordinate. -/
theorem movedPart_below {axis : Option Axis} {s : Shape} {i : Nat} {place : List Nat}
    (h : axis.isSome = true → s.isNumeric = true) :
    (movedPart d axis s).at? (i :: place) = (s.moved d).at? (i :: place) ∧
    (movedPart d axis s).axisAt? (i :: place) = (s.moved d).axisAt? (i :: place) := by
  cases axis with
  | none => exact ⟨rfl, rfl⟩
  | some axis =>
    have hnumeric := h rfl
    cases s with
    | node => cases hnumeric
    | leaf v => cases v <;> exact ⟨rfl, rfl⟩

/-- At each place is what was there, with the offset for its axis if it is a coordinate. -/
theorem moved_at (d : Axis → Int64) (s : Shape) (place : List Nat) :
    ((s.moved d).at? place).map label =
      (s.at? place).map fun t => t.label.shifted ((s.axisAt? place).map d) := by
  induction place generalizing s with
  | nil =>
    rw [at?, at?, Option.map_some, Option.map_some, label_moved]
    cases s <;> rfl
  | cons i place ih =>
    cases s with
    | leaf v => rfl
    | node keys parts =>
      rw [moved_node, at?_cons, at?_cons, getElem?_movedAll]
      cases ht : parts[i]? with
      | none => rfl
      | some t =>
        rw [Option.map_some, Option.bind_some, Option.bind_some]
        cases place with
        | nil =>
          rw [at?, at?, Option.map_some, Option.map_some, axisAt?_singleton]
          cases (Shape.axes keys (parts.map isNumeric))[i]?.join with
          | some axis => exact congrArg some (label_shifted _ t)
          | none => exact congrArg some (label_moved d t)
        | cons j place =>
          rw [axisAt?_cons, ht, Option.bind_some, (movedPart_below (isNumeric_of_axes ht)).1]
          exact ih t

/-- A shape in which all coordinates are integers, to which the offsets can be added. -/
def Movable (d : Axis → Int64) (s : Shape) : Prop :=
  ∀ place axis, s.axisAt? place = some axis →
    ∃ n : Int64, s.at? place = some (.leaf (.integer n)) ∧
      Number.fitsWord (n.toInt + (d axis).toInt) = true

theorem Movable.part {keys : Option (List String)} (h : (node keys parts).Movable d) {i : Nat}
    {t : Shape} (ht : parts[i]? = some t) : t.Movable d := by
  intro place axis haxis
  cases place with
  | nil => cases t <;> cases haxis
  | cons j place =>
    have hinner := h (i :: j :: place) axis
    rw [axisAt?_cons, at?_cons, ht] at hinner
    exact hinner haxis

theorem Movable.coordinate {keys : Option (List String)} (h : (node keys parts).Movable d) {i : Nat}
    {t : Shape} (ht : parts[i]? = some t) {axis : Axis}
    (haxis : (Shape.axes keys (parts.map isNumeric))[i]?.join = some axis) :
    ∃ n : Int64, t = .leaf (.integer n) ∧ Number.fitsWord (n.toInt + (d axis).toInt) = true := by
  obtain ⟨n, hn, hfits⟩ := h [i] axis haxis
  rw [at?_cons, ht] at hn
  exact ⟨n, Option.some.inj hn, hfits⟩

theorem movable_leaf (v : Value) : (leaf v).Movable d := by
  intro place axis haxis
  cases place <;> cases haxis

/-- A node is movable if its coordinates are integers that the offsets can be added to, and its parts are
movable. -/
theorem movable_node {keys : Option (List String)}
    (coordinates : ∀ axis t, (some axis, t) ∈ (Shape.axes keys (parts.map isNumeric)).zip parts →
      ∃ n : Int64, t = .leaf (.integer n) ∧ Number.fitsWord (n.toInt + (d axis).toInt) = true)
    (inner : ∀ t ∈ parts, t.Movable d) : (node keys parts).Movable d := by
  intro place axis haxis
  cases place with
  | nil => cases haxis
  | cons i place =>
    rw [at?_cons]
    cases place with
    | nil =>
      obtain ⟨t, ht, -⟩ := exists_of_axes haxis
      obtain ⟨n, rfl, hfits⟩ := coordinates axis t (List.mem_of_getElem?
        (List.getElem?_zip_eq_some.2 ⟨Option.join_eq_some_iff.1 haxis, ht⟩))
      exact ⟨n, by rw [ht]; rfl, hfits⟩
    | cons j place =>
      rw [axisAt?_cons] at haxis
      obtain ⟨t, ht, haxis⟩ := Option.bind_eq_some_iff.1 haxis
      rw [ht]
      exact inner t (List.mem_of_getElem? ht) _ _ haxis

/-- Moving makes no part a coordinate, and leaves none out. -/
theorem axisAt?_moved (d : Axis → Int64) (s : Shape) (place : List Nat) :
    (s.moved d).axisAt? place = s.axisAt? place := by
  induction place generalizing s with
  | nil => cases s <;> rfl
  | cons i place ih =>
    cases s with
    | leaf v => rfl
    | node keys parts =>
      rw [moved_node]
      cases place with
      | nil => rw [axisAt?_singleton, axisAt?_singleton, movedAll_isNumeric]
      | cons j place =>
        rw [axisAt?_cons, axisAt?_cons, getElem?_movedAll]
        cases ht : parts[i]? with
        | none => rfl
        | some t => exact (movedPart_below (isNumeric_of_axes ht)).2.trans (ih t)

theorem Movable.zero {s : Shape} (h : s.Movable d) : s.Movable 0 := by
  intro place axis haxis
  obtain ⟨n, hn, -⟩ := h place axis haxis
  refine ⟨n, hn, ?_⟩
  show Number.fitsWord (n.toInt + (0 : Int64).toInt) = true
  rw [Int64.toInt_zero, Int.add_zero]
  exact Number.fitsWord_toInt n

/-- The second of two moves finds the sums of the first one. -/
theorem Movable.moved {f : Axis → Int64} {s : Shape}
    (sum : ∀ axis, (f axis).toInt = (d axis).toInt + (e axis).toInt) (hd : s.Movable d)
    (hf : s.Movable f) : (s.moved d).Movable e := by
  intro place axis haxis
  rw [axisAt?_moved] at haxis
  obtain ⟨n, hn, hfits⟩ := hd place axis haxis
  obtain ⟨m, hm, hfits'⟩ := hf place axis haxis
  cases hn.symm.trans hm
  refine ⟨n + d axis, ?_, ?_⟩
  · have hlabel := moved_at d s place
    rw [hn, haxis] at hlabel
    obtain ⟨t, ht, hleaf⟩ := Option.map_eq_some_iff.1 hlabel
    rw [ht]
    cases t with
    | node => cases hleaf
    | leaf v =>
      cases hleaf
      rfl
  · have htotal : (n + d axis).toInt = n.toInt + (d axis).toInt := by
      rw [← (Number.toInt_ofInt_eq_iff _).2 hfits, Int64.ofInt_add, Int64.ofInt_toInt, Int64.ofInt_toInt]
    rw [htotal, Int.add_assoc, ← sum]
    exact hfits'

end Shape
end Formula

/-! ## Values that are moved -/

/-- Whether there are no values in a value that a walk over it visits. -/
def Value.isLeaf : Value → Bool
  | list .. | mapping .. => false
  | _ => true

/-- The shape that a value has in all of these stores. -/
inductive Value.HasShape (I : Store → Prop) : Value → Formula.Shape → Prop
  | leaf {v : Value} (flat : v.isLeaf = true) : HasShape I v (.leaf v)
  | list {items : List Value} {us : List Formula.Shape} (origin : Option Origin)
    (inner : Forall₂ (HasShape I) items us) : HasShape I (.list items origin) (.node none us)
  | mapping {entries : Entries} {vs : List Value} {us : List Formula.Shape} (origin : Option Origin)
    (distinct : entries.forms.Nodup)
    (read : Forall₂ (fun e v => Throughout I (fun eng => eng.read e.2) v) entries vs)
    (inner : Forall₂ (HasShape I) vs us) :
    HasShape I (.mapping entries origin) (.node (some entries.keys) us)

/-- What holds of the second ones of related members holds of all members of the second list. -/
theorem forall_of_forall₂ {α β : Type} {P : β → Prop} {as : List α} {bs : List β}
    (h : Forall₂ (fun _ b => P b) as bs) : ∀ b ∈ bs, P b := by
  induction h with
  | nil => exact List.forall_mem_nil _
  | cons here _ ih => exact List.forall_mem_cons.2 ⟨here, ih⟩

namespace Value.HasShape

variable {I : Store → Prop}

/-- One case for leaves, lists and mappings each. -/
theorem induct {P : Value → Formula.Shape → Prop} (leaf : ∀ {v : Value}, v.isLeaf = true → P v (.leaf v))
    (list : ∀ {items us} (origin : Option Origin), Forall₂ (HasShape I) items us → Forall₂ P items us →
      P (.list items origin) (.node none us))
    (mapping : ∀ {entries : Entries} {vs us} (origin : Option Origin), entries.forms.Nodup →
      Forall₂ (fun e v => Throughout I (fun eng => eng.read e.2) v) entries vs →
      Forall₂ (HasShape I) vs us → Forall₂ P vs us →
      P (.mapping entries origin) (.node (some entries.keys) us))
    {v : Value} {u : Formula.Shape} (h : v.HasShape I u) : P v u := by
  refine h.rec (motive_1 := fun v u _ => P v u) (motive_2 := fun vs us _ => Forall₂ P vs us) leaf ?list
    ?mapping .nil fun _ _ here rest => .cons here rest
  case list => exact fun origin inner ih => list origin inner ih
  case mapping => exact fun origin distinct read inner ih => mapping origin distinct read inner ih

theorem isNumeric_eq {v : Value} {u : Formula.Shape} (h : v.HasShape I u) :
    u.isNumeric = Formula.isCoordinate (some v) := by
  cases h <;> rfl

theorem map_isNumeric_eq {vs : List Value} {us : List Formula.Shape} (h : Forall₂ (HasShape I) vs us) :
    us.map Formula.Shape.isNumeric = vs.map fun v => Formula.isCoordinate (some v) := by
  induction h with
  | nil => rfl
  | cons here _ ih => exact congrArg₂ List.cons here.isNumeric_eq ih

variable {keys : Option (List String)} {u : Formula.Shape} {us : List Formula.Shape}

/-- A node is the shape of the value that is made of its parts. -/
theorem node (distinct : ∀ ks ∈ keys, ks.length = us.length ∧ (ks.map Text.lower).Nodup)
    (inner : ∀ u ∈ us, u.value.HasShape I u) :
    (Formula.Shape.node keys us).value.HasShape I (.node keys us) := by
  have hall : Forall₂ (HasShape I) (Formula.Shape.values us) us := by
    rw [Formula.Shape.values_eq]
    exact List.forall₂_map_left_iff.2 (List.forall₂_same.2 inner)
  cases keys with
  | none => exact .list none hall
  | some keys =>
    obtain ⟨hlength, hnodup⟩ := distinct keys rfl
    rw [← hall.length_eq] at hlength
    have hread := Entries.throughout_ofPairs (I := I) (keys.zip (Formula.Shape.values us))
    have hkeys : (Entries.ofPairs (keys.zip (Formula.Shape.values us))).keys = keys := by
      rw [Entries.keys, Entries.ofPairs, List.map_map]
      exact List.map_fst_zip hlength.le
    have hforms : (Entries.ofPairs (keys.zip (Formula.Shape.values us))).forms.Nodup := by
      rw [← Entries.map_lower_keys, hkeys]
      exact hnodup
    rw [List.map_snd_zip hlength.ge] at hread
    have hmapping := HasShape.mapping none hforms hread hall
    rw [hkeys] at hmapping
    exact hmapping

theorem shifted (h : u.value.HasShape I u) (k : Int64) :
    (u.shifted k).value.HasShape I (u.shifted k) := by
  cases u with
  | node => exact h
  | leaf v =>
    cases v with
    | integer n => exact .leaf rfl
    | _ => exact h

/-- The parts that a node has after the move. -/
theorem movedAll {d : Formula.Axis → Int64} {axes : List (Option Formula.Axis)}
    (h : ∀ u ∈ us, ∀ d, (u.moved d).value.HasShape I (u.moved d)) :
    ∀ t ∈ Formula.Shape.movedAll d axes us, t.value.HasShape I t := by
  intro t ht
  obtain ⟨i, hi⟩ := List.getElem?_of_mem ht
  rw [Formula.Shape.getElem?_movedAll] at hi
  obtain ⟨u, hu, rfl⟩ := Option.map_eq_some_iff.1 hi
  have hu := h u (List.mem_of_getElem? hu)
  cases axes[i]?.join with
  | none => exact hu d
  | some axis =>
    have hzero := hu 0
    rw [Formula.Shape.moved_zero] at hzero
    exact hzero.shifted (d axis)

/-- What is made of a moved shape has that shape. -/
theorem moved {v : Value} (h : v.HasShape I u) (d : Formula.Axis → Int64) :
    (u.moved d).value.HasShape I (u.moved d) := by
  refine Value.HasShape.induct (P := fun _ u => ∀ d, (u.moved d).value.HasShape I (u.moved d))
    ?leaf ?list ?mapping h d
  case leaf => exact fun flat _ => .leaf flat
  case list =>
    exact fun _ _ ih _ => node (fun _ hks => nomatch hks) (movedAll (forall_of_forall₂ ih))
  case mapping =>
    intro entries vs us _ distinct read inner ih d
    refine node (fun ks hks => ?_) (movedAll (forall_of_forall₂ ih))
    cases hks
    refine ⟨?_, Entries.map_lower_keys entries ▸ distinct⟩
    rw [Formula.Shape.length_movedAll, ← inner.length_eq, ← read.length_eq]
    exact List.length_map _

end Value.HasShape

namespace Formula

variable {I : Store → Prop} {vs ws : List Value} {d : Axis → Int64}

/-- What is under a key. -/
theorem throughout_readKey? {entries : Entries}
    (read : Forall₂ (fun e v => Throughout I (fun eng => eng.read e.2) v) entries vs)
    (key : String) : Throughout I (fun e => e.readKey? entries key)
      (((entries.keys.zip vs).find? fun e => Text.lower e.1 == Text.lower key).map (·.2)) := by
  induction read with
  | nil => exact .pure
  | @cons e v entries vs here _ ih =>
    unfold Engine.readKey? Entries.find? at ih ⊢
    show Throughout I _ ((((e.1, v) :: (Entries.keys entries).zip vs).find? _).map (·.2))
    rw [List.find?_cons]
    simp only [List.find?_cons]
    cases Text.lower e.1 == Text.lower key with
    | true => exact here.map some
    | false => exact ih

/-- What an entry becomes: a new coordinate of the point, if the mapping is one and the entry is under
the key, or else its value moved. -/
def Placed (I : Store → Prop) (m : Motion) (point : Option (Value × Value)) (e : String × Value)
    (w : Value) : Prop :=
  match point, Axis.ofKey? e.1 with
  | some p, some .x => w = p.1
  | some p, some .y => w = p.2
  | _, _ => Throughout I (fun eng => eng.ask (.move m e.2)) w

theorem throughout_moveEntries {entries : Entries} {m : Motion} {point : Option (Value × Value)}
    (read : Forall₂ (fun e v => Throughout I (fun eng => eng.read e.2) v) entries vs)
    (placed : Forall₂ (Placed I m point) (entries.keys.zip vs) ws) :
    Throughout I (fun e => e.moveEntries m point entries) (entries.keys.zip ws) := by
  induction read generalizing ws with
  | nil =>
    cases placed
    exact .pure
  | @cons e v entries vs here _ ih =>
    cases placed with
    | @cons _ w _ ws hplaced rest =>
      have hrest : Throughout I (fun eng => eng.moveEntries m point entries >>= fun es =>
          pure ((e.1, w) :: es)) ((e.1, w) :: (Entries.keys entries).zip ws) :=
        (ih rest).bind (k := fun _ es => pure ((e.1, w) :: es)) .pure
      refine here.bind ?_
      cases point with
      | none => exact Throughout.bind hplaced hrest
      | some p =>
        unfold Placed Axis.ofKey? at hplaced
        by_cases hx : Text.lower e.1 = "x"
        · simp only [if_pos hx] at hplaced ⊢
          subst hplaced
          exact Throughout.pure.bind hrest
        · by_cases hy : Text.lower e.1 = "y"
          · simp only [if_neg hx, if_pos hy] at hplaced ⊢
            subst hplaced
            exact Throughout.pure.bind hrest
          · simp only [if_neg hx, if_neg hy] at hplaced ⊢
            exact Throughout.bind hplaced hrest

/-! ### Points -/

section

variable {keys : List String} {us : List Shape} {axis : Axis}

theorem Axis.ofKey?_eq_some_iff {key : String} :
    ofKey? key = some axis ↔ Text.lower key = Text.lower axis.name := by
  have hlower : Text.lower axis.name = axis.name := by cases axis <;> decide
  rw [hlower]
  unfold ofKey? name
  split
  · next h => rw [h]; cases axis <;> simp
  · next h =>
    split
    · next h' => rw [h']; cases axis <;> simp
    · next h' => cases axis <;> simp [h, h']

/-- What is under the key for an axis. -/
def found (keys : List String) (vs : List Value) (axis : Axis) : Option Value :=
  ((keys.zip vs).find? fun e => Text.lower e.1 == Text.lower axis.name).map (·.2)

theorem mem_of_found {v : Value} (h : found keys vs axis = some v) :
    ∃ key, (key, v) ∈ keys.zip vs ∧ Axis.ofKey? key = some axis := by
  obtain ⟨e, he, rfl⟩ := Option.map_eq_some_iff.1 h
  exact ⟨e.1, List.mem_of_find?_eq_some he,
    Axis.ofKey?_eq_some_iff.2 (by simpa using List.find?_some he)⟩

theorem found_of_mem (distinct : ((keys.zip vs).map fun e => Text.lower e.1).Nodup) {key : String}
    {v : Value} (hmem : (key, v) ∈ keys.zip vs) (hkey : Axis.ofKey? key = some axis) :
    found keys vs axis = some v := by
  rw [Axis.ofKey?_eq_some_iff] at hkey
  unfold found
  cases hfind : (keys.zip vs).find? fun e => Text.lower e.1 == Text.lower axis.name with
  | none => exact absurd (beq_iff_eq.2 hkey) (List.find?_eq_none.1 hfind (key, v) hmem)
  | some e =>
    have hform : Text.lower e.1 = Text.lower axis.name := by simpa using List.find?_some hfind
    obtain rfl := List.inj_on_of_nodup_map distinct (List.mem_of_find?_eq_some hfind) hmem
      (hform.trans hkey.symm)
    rfl

/-- The keys under which there are numbers are the keys of coordinates. -/
theorem mem_candidates_iff (distinct : ((keys.zip vs).map fun e => Text.lower e.1).Nodup) :
    some axis ∈ Shape.candidates keys (vs.map fun v => isCoordinate (some v)) ↔
      isCoordinate (found keys vs axis) = true := by
  rw [Shape.candidates, List.zip_map_right, List.map_map, List.mem_map]
  constructor
  · rintro ⟨⟨key, v⟩, hmem, haxis⟩
    obtain ⟨hnumeric, hkey⟩ : isCoordinate (some v) = true ∧ Axis.ofKey? key = some axis := by
      by_cases hnumeric : isCoordinate (some v) = true
      · exact ⟨hnumeric, (if_pos hnumeric).symm.trans haxis⟩
      · exact nomatch (if_neg hnumeric).symm.trans haxis
    rw [found_of_mem distinct hmem hkey]
    exact hnumeric
  · intro hfound
    cases hv : found keys vs axis with
    | none =>
      rw [hv] at hfound
      cases hfound
    | some v =>
      rw [hv] at hfound
      obtain ⟨key, hmem, hkey⟩ := mem_of_found hv
      exact ⟨(key, v), hmem, (if_pos hfound).trans hkey⟩

theorem candidates_at {i : Nat} {key : String} {u : Shape} (hkey : keys[i]? = some key)
    (hu : us[i]? = some u) : (Shape.candidates keys (us.map Shape.isNumeric))[i]?.join =
      if u.isNumeric then Axis.ofKey? key else none := by
  have hpart : (keys.zip (us.map Shape.isNumeric))[i]? = some (key, u.isNumeric) :=
    List.getElem?_zip_eq_some.2 ⟨hkey, by rw [List.getElem?_map, hu]; rfl⟩
  rw [Shape.candidates, List.getElem?_map, hpart]
  rfl

/-! ### Moving a value -/

/-- The motion by an offset for each axis. -/
def offset (d : Axis → Int64) : Motion :=
  .shift (.integer (d .x)) (.integer (d .y))

theorem exists_of_isCoordinate {x : Option Value} (h : isCoordinate x = true) : ∃ v, x = some v := by
  cases x with
  | none => cases h
  | some v => exact ⟨v, rfl⟩

/-- The new coordinates of a mapping, if it is a point. -/
def newPoint (m : Motion) (x y : Option Value) : Option (Value × Value) :=
  match x, y with
  | some u, some v => if isCoordinate x && isCoordinate y then some (Motion.apply m u v) else none
  | _, _ => none

/-- A value is moved as its shape is. -/
def Follows (I : Store → Prop) (d : Axis → Int64) (v : Value) (u : Shape) : Prop :=
  u.Movable d → Throughout I (fun e => e.ask (.move (offset d) v)) (u.moved d).value

/-- The sum that a coordinate becomes fits into 64 bits. -/
theorem shifted_coordinate {i : Nat} {u : Shape} {v : Value}
    (movable : (Shape.node (some keys) us).Movable d) (hu : us[i]? = some u) (hv : v.HasShape I u)
    (axis : Axis) (haxis : (Shape.axes (some keys) (us.map Shape.isNumeric))[i]?.join = some axis) :
    (u.shifted (d axis)).value = Motion.shifted v (.integer (d axis)) := by
  obtain ⟨n, rfl, hfits⟩ := movable.coordinate hu haxis
  cases hv
  show Value.integer (n + d axis) = if _ then _ else _
  rw [if_pos hfits, Int64.ofInt_add, Int64.ofInt_toInt, Int64.ofInt_toInt]

theorem newPoint_of_coordinates {m : Motion} {a b : Value} (ha : isCoordinate (some a) = true)
    (hb : isCoordinate (some b) = true) : newPoint m (some a) (some b) = some (Motion.apply m a b) :=
  if_pos (by rw [ha, hb]; rfl)

theorem newPoint_of_not {m : Motion} {x y : Option Value}
    (h : ¬ (isCoordinate x = true ∧ isCoordinate y = true)) : newPoint m x y = none := by
  unfold newPoint
  split
  · exact if_neg (by rwa [Bool.and_eq_true])
  · rfl

/-- An entry that is no coordinate of the point is moved for itself. -/
theorem placed_other {m : Motion} {point : Option (Value × Value)} {key : String} {v w : Value}
    (other : point = none ∨ Axis.ofKey? key = none)
    (moved : Throughout I (fun e => e.ask (.move m v)) w) : Placed I m point (key, v) w := by
  unfold Placed
  obtain rfl | hkey := other
  · exact moved
  · simp only [hkey]
    exact moved

/-- The entry for an axis of a point becomes the new coordinate. -/
theorem placed_coordinate {key : String} {v w : Value}
    (point : isCoordinate (found keys vs .x) = true ∧ isCoordinate (found keys vs .y) = true)
    (hfound : found keys vs axis = some v) (hform : Axis.ofKey? key = some axis)
    (hw : w = Motion.shifted v (.integer (d axis))) :
    Placed I (offset d) (newPoint (offset d) (found keys vs .x) (found keys vs .y)) (key, v) w := by
  obtain ⟨a, hx⟩ := exists_of_isCoordinate point.1
  obtain ⟨b, hy⟩ := exists_of_isCoordinate point.2
  rw [hx, hy] at point ⊢
  rw [newPoint_of_coordinates point.1 point.2]
  unfold Placed
  simp only [hform]
  cases axis with
  | x =>
    cases hx.symm.trans hfound
    exact hw
  | y =>
    cases hy.symm.trans hfound
    exact hw

/-- A mapping is a point if it has numbers under the keys for both axes. -/
theorem axes_eq_ite (distinct : ((keys.zip vs).map fun e => Text.lower e.1).Nodup)
    (inner : Forall₂ (Value.HasShape I) vs us) :
    Shape.axes (some keys) (us.map Shape.isNumeric) =
      if isCoordinate (found keys vs .x) = true ∧ isCoordinate (found keys vs .y) = true then
        Shape.candidates keys (us.map Shape.isNumeric)
      else [] := by
  rw [Shape.axes, Value.HasShape.map_isNumeric_eq inner]
  simp only [mem_candidates_iff distinct]

/-- Each entry of a mapping becomes the part of the moved shape that is in its place. -/
theorem placed_part {i : Nat} {key : String} {u : Shape} {v : Value}
    (distinct : ((keys.zip vs).map fun e => Text.lower e.1).Nodup)
    (inner : Forall₂ (Value.HasShape I) vs us) (movable : (Shape.node (some keys) us).Movable d)
    (hkey : keys[i]? = some key) (hvalue : vs[i]? = some v) (hu : us[i]? = some u)
    (hv : v.HasShape I u) (follows : Follows I d v u) :
    Placed I (offset d) (newPoint (offset d) (found keys vs .x) (found keys vs .y)) (key, v)
      (Shape.movedPart d (Shape.axes (some keys) (us.map Shape.isNumeric))[i]?.join u).value := by
  have hother := follows (movable.part hu)
  have hshifted := shifted_coordinate movable hu hv
  rw [axes_eq_ite distinct inner] at hshifted ⊢
  split
  · next hpoint =>
    rw [if_pos hpoint, candidates_at hkey hu] at hshifted
    rw [candidates_at hkey hu]
    cases hform : Axis.ofKey? key with
    | none =>
      rw [ite_self]
      exact placed_other (.inr hform) hother
    | some axis =>
      -- the entry is the one that is found for the axis, so it is a number
      have hfound := found_of_mem distinct
        (List.mem_of_getElem? (List.getElem?_zip_eq_some.2 ⟨hkey, hvalue⟩)) hform
      have hnumeric : u.isNumeric = true := by
        rw [hv.isNumeric_eq, ← hfound]
        cases axis
        · exact hpoint.1
        · exact hpoint.2
      rw [hform, if_pos hnumeric] at hshifted
      rw [if_pos hnumeric]
      exact placed_coordinate hpoint hfound hform (hshifted axis rfl)
  · next hpoint =>
    rw [newPoint_of_not hpoint]
    exact placed_other (.inl rfl) hother

end

/-- All entries together. -/
theorem placed_parts {entries : Entries} {us : List Shape} (distinct : entries.forms.Nodup)
    (hlength : entries.length = vs.length) (inner : Forall₂ (Value.HasShape I) vs us)
    (ih : Forall₂ (Follows I d) vs us) (movable : (Shape.node (some entries.keys) us).Movable d) :
    Forall₂ (Placed I (offset d)
      (newPoint (offset d) (found entries.keys vs .x) (found entries.keys vs .y))) (entries.keys.zip vs)
      (Shape.values (Shape.movedAll d
        (Shape.axes (some entries.keys) (us.map Shape.isNumeric)) us)) := by
  rw [Shape.values_eq]
  refine List.forall₂_iff_zip.2 ⟨?_, fun {e w} hmem => ?_⟩
  · rw [List.length_map, Shape.length_movedAll, List.length_zip, Entries.keys, List.length_map, hlength,
      min_self, inner.length_eq]
  · obtain ⟨i, hi⟩ := List.getElem?_of_mem hmem
    obtain ⟨he, hw⟩ := List.getElem?_zip_eq_some.1 hi
    obtain ⟨hkey, hvalue⟩ := List.getElem?_zip_eq_some.1 he
    rw [List.getElem?_map, Shape.getElem?_movedAll, Option.map_map] at hw
    obtain ⟨u, hu, rfl⟩ := Option.map_eq_some_iff.1 hw
    have hboth : (e.2, u) ∈ vs.zip us :=
      List.mem_of_getElem? (List.getElem?_zip_eq_some.2 ⟨hvalue, hu⟩)
    exact placed_part (Entries.forms_zip hlength.le ▸ distinct) inner movable hkey hvalue hu
      (List.forall₂_zip inner hboth) (List.forall₂_zip ih hboth)

/-- The new entries have distinct keys still, so none is dropped. -/
theorem follows_mapping {entries : Entries} {us : List Shape} (origin : Option Origin)
    (distinct : entries.forms.Nodup)
    (read : Forall₂ (fun e v => Throughout I (fun eng => eng.read e.2) v) entries vs)
    (inner : Forall₂ (Value.HasShape I) vs us) (ih : Forall₂ (Follows I d) vs us) :
    Follows I d (.mapping entries origin) (.node (some entries.keys) us) := by
  intro movable
  have hentries := throughout_moveEntries read
    (placed_parts distinct read.length_eq inner ih movable)
  have hmove : Throughout I (fun e => e.move (offset d) (.mapping entries origin))
      (.ofEntries (Entries.ofList (entries.keys.zip (Shape.values (Shape.movedAll d
        (Shape.axes (some entries.keys) (us.map Shape.isNumeric)) us))))) :=
    (throughout_readKey? read "x").bind ((throughout_readKey? read "y").bind
      (hentries.bind (k := fun _ es => pure (Value.ofEntries (Entries.ofList es))) .pure))
  rw [Entries.ofList_eq_ofPairs] at hmove
  · exact hmove.ask fun _ => rfl
  · rw [Entries.forms_zip]
    · exact distinct
    · rw [Shape.values_eq, List.length_map, Shape.length_movedAll, ← inner.length_eq, read.length_eq]

theorem movedAll_nil {us : List Shape} : Shape.movedAll d [] us = us.map (Shape.moved d) :=
  List.ext_getElem? fun i => by rw [Shape.getElem?_movedAll, List.getElem?_map]; rfl

theorem follows_list {items : List Value} {us : List Shape} (origin : Option Origin)
    (ih : Forall₂ (Follows I d) items us) : Follows I d (.list items origin) (.node none us) := by
  intro movable
  have hall : Forall₂ (fun v w => Throughout I (fun e => e.ask (.move (offset d) v)) w) items
      (us.map fun u => (u.moved d).value) := by
    refine List.forall₂_iff_zip.2 ⟨by rw [List.length_map, ih.length_eq], fun {v w} hmem => ?_⟩
    obtain ⟨i, hi⟩ := List.getElem?_of_mem hmem
    obtain ⟨hv, hw⟩ := List.getElem?_zip_eq_some.1 hi
    rw [List.getElem?_map] at hw
    obtain ⟨u, hu, rfl⟩ := Option.map_eq_some_iff.1 hw
    exact List.forall₂_zip ih (List.mem_of_getElem? (List.getElem?_zip_eq_some.2 ⟨hv, hu⟩))
      (movable.part hu)
  have hvalue : ((Shape.node none us).moved d).value = .ofItems (us.map fun u => (u.moved d).value) := by
    show Value.ofItems (Shape.values (Shape.movedAll d [] us)) = _
    rw [movedAll_nil, Shape.values_eq, List.map_map]
    rfl
  have hmove : Throughout I (fun e => e.move (offset d) (.list items origin))
      ((Shape.node none us).moved d).value :=
    hvalue ▸ (Throughout.mapM hall).bind (k := fun _ vs => pure (Value.ofItems vs)) .pure
  exact hmove.ask fun _ => rfl

/-- Moving a value is moving its shape. -/
theorem follows {v : Value} {u : Shape} (h : v.HasShape I u) : Follows I d v u := by
  refine Value.HasShape.induct ?leaf (fun origin _ ih => follows_list origin ih) follows_mapping h
  intro v flat _
  have hmove : Throughout I (fun e => e.move (offset d) v) v := by
    cases v with
    | list => cases flat
    | mapping => cases flat
    | _ => exact .pure
  exact hmove.ask fun _ => rfl

/-! ### Moving twice -/

/-- What the function `translate` makes of a value. -/
def Translates (I : Store → Prop) (v : Value) (d : Axis → Int64) (w : Value) : Prop :=
  Throughout I
    (fun e => e.callLibrary .translate [v, .integer (d .x), .integer (d .y)]) w

theorem translates {v : Value} {u : Shape} (h : v.HasShape I u) (movable : u.Movable d) :
    Translates I v d (u.moved d).value :=
  follows h movable

/-- A shape that has the offset added to all coordinates of points, and is like the other one in
everything else. -/
def IsMoved (d : Axis → Int64) (u v : Shape) : Prop :=
  ∀ place, (v.at? place).map Shape.label =
    (u.at? place).map fun s => s.label.shifted ((u.axisAt? place).map d)

/-- Translations compose, on values whose coordinates are integers, nested to any depth.  No sum may leave
the words: neither that of two offsets, which is an offset again, nor that of a coordinate with the first
one or with both.

A value that is translated by nothing is only made anew.  By anything else each coordinate of a point is
moved once, also if the point is part of another one.  The rest stays: which items and which keys there
are, in their spellings and their order, and all other values. -/
theorem translations_compose {v : Value} {u : Shape} {d e f : Axis → Int64} (h : v.HasShape I u)
    (sum : ∀ axis, (f axis).toInt = (d axis).toInt + (e axis).toInt) (hd : u.Movable d)
    (hf : u.Movable f) :
    Translates I v 0 u.value ∧
    ∃ once twice, IsMoved d u once ∧ IsMoved f u twice ∧ Translates I v d once.value ∧
      Translates I once.value e twice.value ∧ Translates I v f twice.value := by
  have hsum : d + e = f := funext fun axis => by
    show d axis + e axis = f axis
    rw [← Int64.ofInt_toInt (f axis), sum, Int64.ofInt_add, Int64.ofInt_toInt, Int64.ofInt_toInt]
  have hzero := translates h hd.zero
  have hagain := translates (h.moved d) (hd.moved sum hf)
  rw [Shape.moved_zero] at hzero
  rw [Shape.moved_moved, hsum] at hagain
  exact ⟨hzero, u.moved d, u.moved f, Shape.moved_at d u, Shape.moved_at f u, translates h hd, hagain,
    translates h hf⟩

/-- An integer that is not read yet. -/
def late : Store :=
  { Store.empty with thunks := #[.pending (.value (.integer (-5)))] }

def corner : Entries :=
  [("y", .ready (.integer 7)), ("x", .ready (.integer 1))]

/-- A point with another one in a list among its entries.  The last entry is no point. -/
def labelled : Entries :=
  [("X", .ready (.integer 3)), ("note", .ready (.list [.mapping corner none] none)), ("Y", .lazy 0),
    ("only", .ready (.mapping [("x", .ready (.integer 1))] none))]

def labelledShape : Shape :=
  .node (some ["X", "note", "Y", "only"])
    [.leaf (.integer 3), .node none [.node (some ["y", "x"]) [.leaf (.integer 7), .leaf (.integer 1)]],
      .leaf (.integer (-5)), .node (some ["x"]) [.leaf (.integer 1)]]

theorem labelled_hasShape : (Value.mapping labelled none).HasShape late.Keeps labelledShape := by
  have hlate : late.Yields (.lazy 0) (.integer (-5)) := .pending rfl
  have hinteger (n : Int64) : (Value.integer n).HasShape late.Keeps (.leaf (.integer n)) := .leaf rfl
  have hcorner : (Value.mapping corner none).HasShape late.Keeps
      (.node (some ["y", "x"]) [.leaf (.integer 7), .leaf (.integer 1)]) :=
    .mapping none (by decide) (.cons .pure (.cons .pure .nil))
      (.cons (hinteger 7) (.cons (hinteger 1) .nil))
  have honly : (Value.mapping [("x", .ready (.integer 1))] none).HasShape late.Keeps
      (.node (some ["x"]) [.leaf (.integer 1)]) :=
    .mapping none (by decide) (.cons .pure .nil) (.cons (hinteger 1) .nil)
  exact .mapping none (by decide)
    (.cons .pure (.cons .pure (.cons hlate.throughout (.cons .pure .nil))))
    (.cons (hinteger 3) (.cons (.list none (.cons hcorner .nil))
      (.cons (hinteger (-5)) (.cons honly .nil))))

theorem labelled_movable {d : Axis → Int64} (low : ∀ axis, -100 ≤ (d axis).toInt)
    (high : ∀ axis, (d axis).toInt ≤ 100) : labelledShape.Movable d := by
  have hfits {n : Int64} (axis : Axis) (hn : -10 ≤ n.toInt ∧ n.toInt ≤ 10) :
      ∃ m : Int64, Shape.leaf (.integer n) = .leaf (.integer m) ∧
        Number.fitsWord (m.toInt + (d axis).toInt) = true := by
    refine ⟨n, rfl, decide_eq_true ?_⟩
    have := low axis
    have := high axis
    unfold Number.leastWord Number.greatestWord
    omega
  have hcorner : (Shape.node (some ["y", "x"]) [.leaf (.integer 7), .leaf (.integer 1)]).Movable d := by
    refine Shape.movable_node (fun axis t hmem => ?_) (by simp [Shape.movable_leaf])
    have haxes : Shape.axes (some ["y", "x"]) [true, true] = [some .y, some .x] := by decide
    obtain ⟨rfl, rfl⟩ | ⟨rfl, rfl⟩ : axis = .y ∧ t = _ ∨ axis = .x ∧ t = _ := by
      simpa [Shape.isNumeric, isCoordinate, haxes] using hmem
    · exact hfits .y (by decide)
    · exact hfits .x (by decide)
  have honly : (Shape.node (some ["x"]) [.leaf (.integer 1)]).Movable d := by
    refine Shape.movable_node (fun axis t hmem => ?_) (by simp [Shape.movable_leaf])
    have haxes : Shape.axes (some ["x"]) [true] = [] := by decide
    simp [Shape.isNumeric, isCoordinate, haxes] at hmem
  have hlist : (Shape.node none
      [.node (some ["y", "x"]) [.leaf (.integer 7), .leaf (.integer 1)]]).Movable d :=
    Shape.movable_node (fun _ _ hmem => nomatch hmem) (by simpa using hcorner)
  refine Shape.movable_node (fun axis t hmem => ?_) (by simp [Shape.movable_leaf, hlist, honly])
  have haxes : Shape.axes (some ["X", "note", "Y", "only"]) [true, false, true, false] =
      [some .x, none, some .y, none] := by decide
  obtain ⟨rfl, rfl⟩ | ⟨rfl, rfl⟩ : axis = .x ∧ t = _ ∨ axis = .y ∧ t = _ := by
    simpa [Shape.isNumeric, isCoordinate, haxes] using hmem
  · exact hfits .x (by decide)
  · exact hfits .y (by decide)

/-- To the right and down, and up again. -/
def rightAndDown : Axis → Int64
  | .x => 10
  | .y => 20

def up : Axis → Int64
  | .x => 0
  | .y => -70

def rightAndUp : Axis → Int64
  | .x => 10
  | .y => -50

/-- The number that is read late is moved with the rest of its point. -/
theorem labelled_moves :
    (Value.mapping labelled none).HasShape late.Keeps labelledShape ∧
    (∀ axis, (rightAndUp axis).toInt = (rightAndDown axis).toInt + (up axis).toInt) ∧
    labelledShape.Movable rightAndDown ∧ labelledShape.Movable rightAndUp ∧
    Translates late.Keeps (.mapping labelled none) 0 labelledShape.value ∧
    ∃ once twice, IsMoved rightAndDown labelledShape once ∧ IsMoved rightAndUp labelledShape twice ∧
      Translates late.Keeps (.mapping labelled none) rightAndDown once.value ∧
      Translates late.Keeps once.value up twice.value ∧
      Translates late.Keeps (.mapping labelled none) rightAndUp twice.value := by
  have hsum (axis : Axis) : (rightAndUp axis).toInt = (rightAndDown axis).toInt + (up axis).toInt := by
    cases axis <;> decide
  have hdown : labelledShape.Movable rightAndDown :=
    labelled_movable (fun axis => by cases axis <;> decide) fun axis => by cases axis <;> decide
  have hup : labelledShape.Movable rightAndUp :=
    labelled_movable (fun axis => by cases axis <;> decide) fun axis => by cases axis <;> decide
  exact ⟨labelled_hasShape, hsum, hdown, hup, translations_compose labelled_hasShape hsum hdown hup⟩

example : (labelledShape.moved rightAndUp).value = .mapping
    [("X", .ready (.integer 13)),
      ("note", .ready (.list
        [.mapping [("y", .ready (.integer (-43))), ("x", .ready (.integer 11))] none] none)),
      ("Y", .ready (.integer (-55))), ("only", .ready (.mapping [("x", .ready (.integer 1))] none))]
    none := by
  rfl

end Formula
end Workbook
