/-
What is computed from alike values without a store.

Types, keys, truth values, comparisons and arithmetic look at a value but follow no
place, so alike values give the same answers and, where the answer is a value, alike
ones.  A number has no place in it at all: two alike numbers are the same number
(`SameNumber`), which is why arithmetic and the mapping `math` need no pairing in what
they yield.  Only comparisons by identity ask that the pairing is one to one.
-/
import Workbook.Proofs.Formula.Arithmetic
import Workbook.Proofs.Pairing

open List (Forall₂)

namespace Workbook

variable {p : Pairing}

/-! ## Values of formulas -/

namespace Value

/-- Two values that are the same number. -/
inductive SameNumber : Value → Value → Prop
  | integer (n : Int64) : SameNumber (.integer n) (.integer n)
  | float (x : Float) : SameNumber (.float x) (.float x)
  | big (n : Int) : SameNumber (.big n) (.big n)

theorem SameNumber.alike {v w : Value} : SameNumber v w → Value.Alike p v w
  | .integer n => .integer n
  | .float x => .float x
  | .big n => .big n

theorem SameNumber.eq {v w : Value} (h : SameNumber v w) : v = w := by
  cases h <;> rfl

theorem ofInt_same (n : Int) : SameNumber (ofInt n) (ofInt n) := by
  unfold ofInt
  split
  · exact .integer _
  · exact .big n

theorem ofInt_alike (n : Int) : Value.Alike p (ofInt n) (ofInt n) :=
  (ofInt_same n).alike

theorem ofItems_alike {vs ws : List Value} (h : Forall₂ (Value.Alike p) vs ws) :
    Value.Alike p (ofItems vs) (ofItems ws) :=
  .list h .none

theorem ofEntries_alike {es fs : Entries} (h : Forall₂ (Keyed.Alike (Slot.Alike p)) es fs) :
    Value.Alike p (ofEntries es) (ofEntries fs) :=
  .mapping h .none

namespace Alike

variable {v w : Value}

theorem typeName_eq (h : Value.Alike p v w) : v.typeName = w.typeName := by
  cases h <;> rfl

theorem isNull_eq (h : Value.Alike p v w) : v.isNull = w.isNull := by
  cases h <;> rfl

theorem int?_eq (h : Value.Alike p v w) : v.int? = w.int? := by
  cases h <;> rfl

theorem float?_eq (h : Value.Alike p v w) : v.float? = w.float? := by
  cases h <;> rfl

/-- Alike values that are numbers are the same. -/
theorem sameNumber (h : Value.Alike p v w) (hv : v.float?.isSome) : SameNumber v w := by
  cases h with
  | integer n => exact .integer n
  | float x => exact .float x
  | big n => exact .big n
  | _ => cases hv

end Alike

end Value

namespace Callable

variable {f g : Callable}

theorem code_name_eq {c d : TypedCode} (h : TypedCode.Alike p c d) : c.name = d.name := by
  cases h <;> rfl

theorem typed_name_eq {f g : TypedFunction} (h : TypedFunction.Alike p f g) :
    f.code.name = g.code.name := by
  cases h with
  | mk _ hc => exact code_name_eq hc

theorem native_name_eq {f g : NativeFunction} (h : NativeFunction.Alike p f g) :
    f.code.name = g.code.name := by
  cases h with
  | mk _ hc =>
    cases hc with
    | bridge hf => exact typed_name_eq hf
    | _ => rfl

theorem name_eq (h : Callable.Alike p f g) : f.name = g.name := by
  cases h with
  | typed hf => exact typed_name_eq hf
  | native hf => exact native_name_eq hf

/-- Identities that are paired one to one are compared with one result. -/
theorem beq_eq {r : Nat → Nat → Prop} (hr : Pairing.Unique r) {a b c d : Nat} (h : r a b)
    (h' : r c d) : (a == c) = (b == d) := by
  rw [Bool.eq_iff_iff, beq_iff_eq, beq_iff_eq]
  exact hr h h'

theorem same_eq (hp : p.OneToOne) {f g f' g' : Callable} (h : Callable.Alike p f g)
    (h' : Callable.Alike p f' g') : f.same f' = g.same g' := by
  cases h with
  | typed hf =>
    cases h' with
    | typed hg =>
      cases hf with
      | mk hi _ =>
        cases hg with
        | mk hj _ => exact beq_eq hp.idents hi hj
    | native hg => rfl
  | native hf =>
    cases h' with
    | typed hg => rfl
    | native hg =>
      cases hf with
      | mk hi _ =>
        cases hg with
        | mk hj _ => exact beq_eq hp.idents hi hj

end Callable

/-! ## Entries -/

namespace Entries

variable {es fs : Entries}

theorem find?_alike (h : Forall₂ (Keyed.Alike (Slot.Alike p)) es fs) (key : String) :
    Option.Rel (Slot.Alike p) (find? es key) (find? fs key) := by
  induction h with
  | nil => exact .none
  | cons he _ ih =>
    cases he with
    | mk k hs =>
      unfold find? at ih ⊢
      simp only [List.find?_cons]
      split
      · exact .some hs
      · exact ih

theorem has_eq (h : Forall₂ (Keyed.Alike (Slot.Alike p)) es fs) (key : String) :
    has es key = has fs key := by
  exact optional_isSome (find?_alike h key)

theorem set_alike (h : Forall₂ (Keyed.Alike (Slot.Alike p)) es fs) (key : String) {s t : Slot}
    (hs : Slot.Alike p s t) :
    Forall₂ (Keyed.Alike (Slot.Alike p)) (set key s es) (set key t fs) := by
  induction h with
  | nil => exact .cons (.mk key hs) .nil
  | cons he ht ih =>
    cases he with
    | mk k hk =>
      rw [set, set]
      split
      · exact .cons (.mk key hs) ht
      · exact .cons (.mk k hk) ih

theorem insert_alike (h : Forall₂ (Keyed.Alike (Slot.Alike p)) es fs) (key : String) {s t : Slot}
    (hs : Slot.Alike p s t) :
    Forall₂ (Keyed.Alike (Slot.Alike p)) (insert es key s) (insert fs key t) := by
  unfold insert insert?
  rw [has_eq h key]
  split
  · exact h
  · exact List.rel_append h (.cons (.mk key hs) .nil)

/-- Entries made of alike lists of values are alike. -/
theorem ofList_alike {ls ms : List (String × Value)}
    (h : Forall₂ (Keyed.Alike (Value.Alike p)) ls ms) :
    Forall₂ (Keyed.Alike (Slot.Alike p)) (ofList ls) (ofList ms) := by
  refine List.rel_foldl ?_ .nil h
  intro es fs hes e f he
  cases he with
  | mk k hv => exact insert_alike hes k (.ready hv)

/-- Entries that are set in turn. -/
theorem setAll_alike {ls ms : List (String × Value)}
    (hl : Forall₂ (Keyed.Alike (Value.Alike p)) ls ms)
    (h : Forall₂ (Keyed.Alike (Slot.Alike p)) es fs) :
    Forall₂ (Keyed.Alike (Slot.Alike p))
      (ls.foldl (fun out (k, v) => set k (.ready v) out) es)
      (ms.foldl (fun out (k, v) => set k (.ready v) out) fs) := by
  refine List.rel_foldl ?_ h hl
  intro es fs hes e f he
  cases he with
  | mk k hv => exact set_alike hes k (.ready hv)

end Entries

/-! ## JSON -/

namespace Value

mutual

/-- What JSON describes has no places in it. -/
theorem ofJson_alike : ∀ j : Json, Value.Alike p (ofJson j) (ofJson j)
  | .null => .null
  | .bool b => .boolean b
  | .integer n => by
    unfold ofJson
    split
    · exact .integer _
    · exact .float _
  | .float x => .float x
  | .string s => .string s
  | .array items => ofItems_alike (itemsOfJson_alike items)
  | .object entries => ofEntries_alike (Entries.ofList_alike (entriesOfJson_alike entries))

theorem itemsOfJson_alike :
    ∀ js : List Json, Forall₂ (Value.Alike p) (itemsOfJson js) (itemsOfJson js)
  | [] => .nil
  | j :: rest => .cons (ofJson_alike j) (itemsOfJson_alike rest)

theorem entriesOfJson_alike : ∀ es : List (String × Json),
    Forall₂ (Keyed.Alike (Value.Alike p)) (entriesOfJson es) (entriesOfJson es)
  | [] => .nil
  | (k, j) :: rest => .cons (.mk k (ofJson_alike j)) (entriesOfJson_alike rest)

end

end Value

/-! ## Arithmetic and order -/

namespace Formula

open Value (SameNumber)

theorem floatArithmetic_same (op : Arithmetic) (x y : Float) :
    ExceptAlike SameNumber (floatArithmetic op x y) (floatArithmetic op x y) := by
  unfold floatArithmetic
  split
  · exact .error _
  · exact .ite (.ok (.float _)) (.error _)

theorem intArithmetic_same (op : Arithmetic) (m n : Int) :
    ExceptAlike SameNumber (intArithmetic op m n) (intArithmetic op m n) := by
  have h (k : Int) : ExceptAlike (ε := Cause) SameNumber (.ok (.ofInt k)) (.ok (.ofInt k)) :=
    .ok (Value.ofInt_same k)
  cases op with
  | add => exact h _
  | sub => exact h _
  | mul => exact h _
  | div => exact .ite (.error _) (.ite (h _) (floatArithmetic_same _ _ _))
  | mod => exact .ite (.error _) (h _)

theorem arithmetic_same (op : Arithmetic) {a a' b b' : Value} (ha : Value.Alike p a a')
    (hb : Value.Alike p b b') : ExceptAlike SameNumber (arithmetic op a b) (arithmetic op a' b') := by
  have hfloats (h : a.int? = none ∨ b.int? = none) :
      ExceptAlike SameNumber (arithmetic op a b) (arithmetic op a' b') := by
    have h' : a'.int? = none ∨ b'.int? = none := by rwa [← ha.int?_eq, ← hb.int?_eq]
    rw [arithmetic_of_not_int h, arithmetic_of_not_int h', ha.float?_eq, hb.float?_eq,
      ha.typeName_eq, hb.typeName_eq]
    split
    · exact floatArithmetic_same _ _ _
    · exact .error _
  cases hm : a.int? with
  | none => exact hfloats (.inl hm)
  | some m =>
    cases hn : b.int? with
    | none => exact hfloats (.inr hn)
    | some n =>
      rw [arithmetic_of_int hm hn, arithmetic_of_int (ha.int?_eq ▸ hm) (hb.int?_eq ▸ hn)]
      exact intArithmetic_same op m n

theorem negate_same {a b : Value} (h : Value.Alike p a b) :
    ExceptAlike SameNumber (negate a) (negate b) := by
  cases h with
  | integer n =>
    rw [negate_of_int (v := .integer n) rfl]
    exact .ok (Value.ofInt_same _)
  | float x => exact .ok (.float _)
  | big n => exact .ok (Value.ofInt_same _)
  | _ => exact .error _

theorem compare?_eq {a a' b b' : Value} (ha : Value.Alike p a a') (hb : Value.Alike p b b') :
    compare? a b = compare? a' b' := by
  cases ha <;> cases hb <;> rfl

/-! ## The mapping `math` -/

namespace MathFunction

variable (f : MathFunction) {vs ws : List Value}

theorem numeric_same (h : Forall₂ (Value.Alike p) vs ws) (i : Nat) :
    ExceptAlike SameNumber (f.numeric vs i) (f.numeric ws i) := by
  have hi := getElem?_alike h i
  unfold numeric
  generalize vs[i]? = x at hi ⊢
  generalize ws[i]? = y at hi ⊢
  cases hi with
  | none => exact .error _
  | some hv =>
    simp only
    rw [← hv.float?_eq]
    split
    · exact .ok (hv.sameNumber ‹_›)
    · exact .error _

theorem double_same (h : Forall₂ (Value.Alike p) vs ws) (i : Nat) :
    ExceptAlike Eq (f.double vs i) (f.double ws i) := by
  refine (f.numeric_same h i).bind fun v w hv => ?_
  rw [hv.eq]
  exact .ok rfl

theorem finite_same (x : Float) : ExceptAlike SameNumber (f.finite x) (f.finite x) :=
  .ite (.ok (.float x)) (.error _)

theorem unary_same (op : Float → Float) (h : Forall₂ (Value.Alike p) vs ws) :
    ExceptAlike SameNumber (f.unary op vs) (f.unary op ws) := by
  refine (f.double_same h 0).bind fun x y hx => ?_
  rw [hx]
  exact f.finite_same _

theorem binary_same (op : Float → Float → Float) (h : Forall₂ (Value.Alike p) vs ws) :
    ExceptAlike SameNumber (f.binary op vs) (f.binary op ws) := by
  refine (f.double_same h 0).bind fun x x' hx => (f.double_same h 1).bind fun y y' hy => ?_
  rw [hx, hy]
  exact f.finite_same _

theorem rounding_same (op : Float → Float) (h : Forall₂ (Value.Alike p) vs ws) :
    ExceptAlike SameNumber (f.rounding op vs) (f.rounding op ws) := by
  refine (f.numeric_same h 0).bind fun v w hv => ?_
  cases hv with
  | integer n => exact .ok (.integer n)
  | big n => exact .ok (.big n)
  | float x =>
    simp only
    split
    · exact .ok (Value.ofInt_same _)
    · exact f.finite_same _

theorem absolute_same (h : Forall₂ (Value.Alike p) vs ws) :
    ExceptAlike SameNumber (f.absolute vs) (f.absolute ws) := by
  refine (f.numeric_same h 0).bind fun v w hv => ?_
  cases hv with
  | integer n => exact .ok (Value.ofInt_same _)
  | big n => exact .ok (Value.ofInt_same _)
  | float x => exact f.finite_same _

/-- The numbers that `extreme` compares. -/
theorem numbers_same (h : Forall₂ (Value.Alike p) vs ws) (is : List Nat) :
    ExceptAlike (Forall₂ SameNumber) (is.mapM (f.numeric vs)) (is.mapM (f.numeric ws)) := by
  induction is with
  | nil => exact .ok .nil
  | cons i is ih =>
    rw [List.mapM_cons, List.mapM_cons]
    exact (f.numeric_same h i).bind fun v w hv => ih.bind fun _ _ hs => .ok (.cons hv hs)

theorem first_same (wanted : Ordering) {v w : Value} (hv : SameNumber v w)
    (h : Forall₂ SameNumber vs ws) :
    SameNumber (vs.foldl (fun best v => if compare? v best = some wanted then v else best) v)
      (ws.foldl (fun best v => if compare? v best = some wanted then v else best) w) := by
  refine List.rel_foldl ?_ hv h
  intro a b hab c d hcd
  simp only [hab.eq, hcd.eq]
  split
  · exact hcd.eq ▸ hcd
  · exact hab.eq ▸ hab

/-- The first of some values in an order, of which there must be one. -/
def best (wanted : Ordering) (vs : List Value) : Except Fault Value := do
  let numbers ← (List.range vs.length).mapM (f.numeric vs)
  match numbers with
  | [] => .error (.runtime ("math." ++ f.name ++ " expects at least one number"))
  | first :: rest =>
    return rest.foldl (fun best v => if compare? v best = some wanted then v else best) first

theorem best_same (wanted : Ordering) (h : Forall₂ (Value.Alike p) vs ws) :
    ExceptAlike SameNumber (f.best wanted vs) (f.best wanted ws) := by
  unfold best
  rw [h.length_eq]
  refine (f.numbers_same h _).bind fun ms ns hm => ?_
  cases hm with
  | nil => exact .error _
  | cons hv hs => exact .ok (first_same wanted hv hs)

/-- Either the arguments count or the items of the list that is the only one. -/
theorem extreme_same (wanted : Ordering) (h : Forall₂ (Value.Alike p) vs ws) :
    ExceptAlike SameNumber (f.extreme wanted vs) (f.extreme wanted ws) := by
  have key {as bs : List Value} (h : Forall₂ (Value.Alike p) as bs) := f.best_same wanted h
  unfold extreme
  cases h with
  | nil => exact key .nil
  | cons hv hs =>
    cases hs with
    | nil =>
      cases hv with
      | list items _ => exact key items
      | _ => exact key (.cons (by constructor <;> assumption) .nil)
    | cons hw hs => cases hv <;> exact key (.cons (by constructor <;> assumption) (.cons hw hs))

theorem clamped_same (h : Forall₂ (Value.Alike p) vs ws) :
    ExceptAlike SameNumber (f.clamped vs) (f.clamped ws) := by
  refine (f.numeric_same h 0).bind fun v v' hv => (f.numeric_same h 1).bind fun l l' hl =>
    (f.numeric_same h 2).bind fun u u' hu => ?_
  rw [hv.eq, hl.eq, hu.eq]
  exact .ite (.ok (hl.eq ▸ hl)) (.ite (.ok (hu.eq ▸ hu)) (.ok (hv.eq ▸ hv)))

theorem power_same (h : Forall₂ (Value.Alike p) vs ws) :
    ExceptAlike SameNumber (f.power vs) (f.power ws) := by
  refine (f.numeric_same h 0).bind fun v v' hv => (f.numeric_same h 1).bind fun w w' hw => ?_
  have hb := f.binary_same Float.pow h
  cases hv with
  | integer b =>
    cases hw with
    | integer e => exact .ite (.ok (Value.ofInt_same _)) hb
    | float x => exact hb
    | big n => exact hb
  | float x => exact hb
  | big n => exact hb

/-- The functions of `math` yield the same number for alike arguments. -/
theorem apply_same (h : Forall₂ (Value.Alike p) vs ws) :
    ExceptAlike SameNumber (f.apply vs) (f.apply ws) := by
  cases f with
  | abs => exact absolute_same _ h
  | floor | ceil | round | trunc => exact rounding_same _ _ h
  | min | max => exact extreme_same _ _ h
  | clamp => exact clamped_same _ h
  | pow => exact power_same _ h
  | sqrt | sin | cos | tan | asin | acos | atan | exp | log => exact unary_same _ _ h
  | atan2 | hypot => exact binary_same _ _ h

end MathFunction

/-! ## Moving points -/

theorem double_eq (what : String) {v w : Option Value} (h : Option.Rel (Value.Alike p) v w) :
    ExceptAlike Eq (LibraryFunction.double what v) (LibraryFunction.double what w) := by
  cases h with
  | none => exact .error _
  | some h =>
    unfold LibraryFunction.double
    cases h with
    | integer n => exact .ok rfl
    | float x => exact .ok rfl
    | function h => exact .error _
    | _ => exact .error _

theorem isCoordinate_eq {v w : Option Value} (h : Option.Rel (Value.Alike p) v w) :
    isCoordinate v = isCoordinate w := by
  cases h with
  | none => rfl
  | some h => cases h <;> rfl

theorem shifted_alike {a a' b b' : Value} (ha : Value.Alike p a a') (hb : Value.Alike p b b') :
    Value.Alike p (Motion.shifted a b) (Motion.shifted a' b') := by
  have hd : Value.Alike p (.float (a.float?.getD 0 + b.float?.getD 0))
      (.float (a'.float?.getD 0 + b'.float?.getD 0)) := by
    rw [ha.float?_eq, hb.float?_eq]
    exact .float _
  cases ha with
  | integer m =>
    cases hb with
    | integer n =>
      unfold Motion.shifted
      simp only
      split
      · exact .integer _
      · exact .float _
    | _ => exact hd
  | _ => exact hd

end Formula

/-- Two motions with alike offsets, or with one angle. -/
inductive Motion.Alike (p : Pairing) : Motion → Motion → Prop
  | shift {dx dx' dy dy' : Value} (hx : Value.Alike p dx dx') (hy : Value.Alike p dy dy') :
      Motion.Alike p (.shift dx dy) (.shift dx' dy')
  | turn (sine cosine : Float) : Motion.Alike p (.turn sine cosine) (.turn sine cosine)

theorem Motion.Alike.mono {p q : Pairing} {m m' : Motion} :
    Motion.Alike p m m' → p.Within q → Motion.Alike q m m'
  | .shift hx hy, h => .shift (hx.mono h) (hy.mono h)
  | .turn sine cosine, _ => .turn sine cosine

/-- The moved coordinates of a point. -/
theorem Motion.apply_alike {m m' : Motion} (hm : Motion.Alike p m m') {x x' y y' : Value}
    (hx : Value.Alike p x x') (hy : Value.Alike p y y') :
    Value.Alike p (Formula.Motion.apply m x y).1 (Formula.Motion.apply m' x' y').1 ∧
      Value.Alike p (Formula.Motion.apply m x y).2 (Formula.Motion.apply m' x' y').2 := by
  cases hm with
  | shift hdx hdy => exact ⟨Formula.shifted_alike hx hdx, Formula.shifted_alike hy hdy⟩
  | turn sine cosine =>
    unfold Formula.Motion.apply
    rw [hx.float?_eq, hy.float?_eq]
    exact ⟨.float _, .float _⟩

/-- A point is moved if both its coordinates are there. -/
theorem Motion.point_alike {m m' : Motion} {x x' y y' : Option Value} (hm : Motion.Alike p m m')
    (hx : Option.Rel (Value.Alike p) x x') (hy : Option.Rel (Value.Alike p) y y') :
    Option.Rel (fun a b => Value.Alike p a.1 b.1 ∧ Value.Alike p a.2 b.2)
      (match x, y with
        | some u, some v =>
          if Formula.isCoordinate x && Formula.isCoordinate y then some (Formula.Motion.apply m u v)
          else none
        | _, _ => none)
      (match x', y' with
        | some u, some v =>
          if Formula.isCoordinate x' && Formula.isCoordinate y' then
            some (Formula.Motion.apply m' u v)
          else none
        | _, _ => none) := by
  rw [Formula.isCoordinate_eq hx, Formula.isCoordinate_eq hy]
  cases hx with
  | none => exact .none
  | some hx =>
    cases hy with
    | none => exact .none
    | some hy =>
      simp only
      split
      · exact .some (Motion.apply_alike hm hx hy)
      · exact .none

/-! ## Native values -/

namespace Native

section

variable {v w : Native}

namespace Alike

theorem typeOf_eq (h : Native.Alike p v w) : v.typeOf = w.typeOf := by
  cases h <;> rfl

theorem isNullish_eq (h : Native.Alike p v w) : v.isNullish = w.isNullish := by
  cases h <;> rfl

theorem isTruthy_eq (h : Native.Alike p v w) : v.isTruthy = w.isTruthy := by
  cases h <;> rfl

/-- Only the undefined value is alike the undefined one. -/
theorem undefined_iff (h : Native.Alike p v w) : v = .undefined ↔ w = .undefined := by
  cases h <;> simp

theorem unboolean (h : Native.Alike p v w) : Native.Alike p v.unboolean w.unboolean := by
  cases h with
  | boolean b => exact .number _
  | undefined => exact .undefined
  | null => exact .null
  | number x => exact .number x
  | big n => exact .big n
  | string s => exact .string s
  | date n => exact .date n
  | bytes h => exact .bytes h
  | array h => exact .array h
  | object h => exact .object h
  | function h => exact .function h
  | marker name => exact .marker name

end Alike

theorem function_id_beq (hp : p.OneToOne) {f g f' g' : NativeFunction}
    (h : NativeFunction.Alike p f g) (h' : NativeFunction.Alike p f' g') :
    (f.id == f'.id) = (g.id == g'.id) := by
  cases h with
  | mk hi _ =>
    cases h' with
    | mk hj _ => exact Callable.beq_eq hp.idents hi hj

theorem bytes_id_beq (hp : p.OneToOne) {b c b' c' : Bytes} (h : Bytes.Alike p b c)
    (h' : Bytes.Alike p b' c') : (b.id == b'.id) = (c.id == c'.id) := by
  cases h with
  | mk _ hi =>
    cases h' with
    | mk _ hj => exact Callable.beq_eq hp.idents hi hj

/-- Containers, byte strings and functions are compared by place and identity, which are
paired one to one. -/
theorem strictEquals_eq (hp : p.OneToOne) {v w v' w' : Native} (h : Native.Alike p v w)
    (h' : Native.Alike p v' w') : v.strictEquals v' = w.strictEquals w' := by
  cases h with
  | bytes hb =>
    cases h' with
    | bytes hc => exact bytes_id_beq hp hb hc
    | _ => rfl
  | array ha =>
    cases h' with
    | array hb => exact Callable.beq_eq hp.arrays ha hb
    | _ => rfl
  | object ha =>
    cases h' with
    | object hb => exact Callable.beq_eq hp.objects ha hb
    | _ => rfl
  | function hf =>
    cases h' with
    | function hg => exact function_id_beq hp hf hg
    | _ => rfl
  | _ => cases h' <;> rfl

theorem numericEquals_eq (hp : p.OneToOne) {v w v' w' : Native} (h : Native.Alike p v w)
    (h' : Native.Alike p v' w') : v.numericEquals v' = w.numericEquals w' := by
  have hs := strictEquals_eq hp h h'
  cases h with
  | number x =>
    cases h' with
    | string s => rfl
    | _ => exact hs
  | string s =>
    cases h' with
    | number x => rfl
    | _ => exact hs
  | _ => exact hs

theorem looseEquals_eq (hp : p.OneToOne) {v w v' w' : Native} (h : Native.Alike p v w)
    (h' : Native.Alike p v' w') : v.looseEquals v' = w.looseEquals w' := by
  have hs := strictEquals_eq hp h h'
  have hn := numericEquals_eq hp h h'
  have hu := numericEquals_eq hp h.unboolean h'.unboolean
  unfold looseEquals
  rw [h.isNullish_eq, h'.isNullish_eq]
  split
  · rfl
  · cases h with
    | boolean b =>
      cases h' with
      | boolean c => rfl
      | _ => exact hu
    | _ =>
      cases h' with
      | boolean c => exact hu
      | _ => exact hn

end

theorem ofNumber_alike (x : Float) : Value.Alike p (ofNumber x) (ofNumber x) := by
  unfold ofNumber
  split
  · split
    · exact Value.ofInt_alike _
    · exact .float x
  · exact .null

end Native

end Workbook
