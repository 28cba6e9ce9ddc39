/-
What is read from two stores through alike values.

`Store.Alike p s t` says what programs can find out about the stores `s` and `t` when
they ask about places that `p` pairs: the contents of containers, what conversions make
of values, the variables of blocks, and what evaluations and executions belong to.  It
says nothing about places that are not paired, so either store may hold more than the
other.

The rest of the module carries this through the functions that read the store and
change nothing: operators, properties, and the methods of strings and numbers.
-/
import Workbook.Proofs.Pairing.Value

open List (Forall₂)

namespace Workbook

/-! ## Alike stores -/

/-- Two variables with alike values, both constant or neither. -/
structure Variable.Alike (p : Pairing) (v w : Variable) : Prop where
  value : Native.Alike p v.value w.value
  constant : v.constant = w.constant

/-- Two stores in which paired places show the same. -/
structure Store.Alike (p : Pairing) (s t : Store) : Prop where
  items : ∀ {a b : Nat}, p.arrays a b → Forall₂ (Native.Alike p) (s.items a).toList (t.items b).toList
  fields : ∀ {a b : Nat}, p.objects a b →
    Forall₂ (Keyed.Alike (Native.Alike p)) (s.fields a) (t.fields b)
  text : ∀ {v w : Native}, Native.Alike p v w → v.text s = w.text t
  number : ∀ {v w : Native}, Native.Alike p v w → v.toNumber s = w.toNumber t
  value : ∀ {v w : Native}, Native.Alike p v w →
    ExceptAlike (Value.Alike p) (v.toValue s) (w.toValue t)
  json : ∀ {v w : Native}, Native.Alike p v w → v.toJson s = w.toJson t
  currentArray : ∀ {o o' : Option Origin}, Option.Rel (Origin.Alike p.arrays) o o' →
    Option.Rel (Native.Alike p) (Engine.currentArray s o) (Engine.currentArray t o')
  currentObject : ∀ {o o' : Option Origin}, Option.Rel (Origin.Alike p.objects) o o' →
    Option.Rel (Native.Alike p) (Engine.currentObject s o) (Engine.currentObject t o')
  resolve : ∀ {a b : Nat}, p.blocks a b → ∀ name : String,
    Option.Rel (fun x y => p.blocks x.1 y.1 ∧ Variable.Alike p x.2 y.2)
      (s.resolve? a name) (t.resolve? b name)
  declared : ∀ {a b : Nat}, p.blocks a b → ∀ name : String,
    (s.blocks[a]?).any (fun b => (b.bindings.lookup name).isSome) =
      (t.blocks[b]?).any (fun b => (b.bindings.lookup name).isSome)
  evaluation : ∀ {a b : Nat}, p.evaluations a b →
    Option.Rel (fun e e' => Scope.Alike p (Value.Alike p) e.scope e'.scope)
      s.evaluations[a]? t.evaluations[b]?
  execution : ∀ {a b : Nat}, p.executions a b →
    Option.Rel (Execution.Alike p) s.executions[a]? t.executions[b]?
  oneToOne : p.OneToOne

namespace Store

theorem variable_alike_self (v : Variable) : Variable.Alike .same v v :=
  ⟨Native.alike_self _, rfl⟩

theorem fields_alike_self (fs : Fields) : Forall₂ (Keyed.Alike (Native.Alike .same)) fs fs :=
  List.forall₂_same.2 fun ⟨k, v⟩ _ => .mk k (Native.alike_self v)

/-- A scope means the same as itself if values are alike themselves. -/
theorem scope_alike_self {α : Type} {R : α → α → Prop} (hR : ∀ a, R a a) (s : Scope α) :
    Scope.Alike .same R s s := by
  cases s with
  | fixed bs =>
    exact .fixed (List.forall₂_same.2 fun ⟨k, x⟩ _ => .mk k (ExceptAlike.refl hR x))
  | folder place key => exact .folder key rfl

/-- A store is alike itself. -/
theorem alike_self (s : Store) : Store.Alike .same s s where
  items := by
    rintro a _ rfl
    exact List.forall₂_same.2 fun v _ => Native.alike_self v
  fields := by
    rintro a _ rfl
    exact fields_alike_self _
  text h := by rw [Native.eq_of_alike h]
  number h := by rw [Native.eq_of_alike h]
  value h := by
    rw [Native.eq_of_alike h]
    exact .refl Value.alike_self _
  json h := by rw [Native.eq_of_alike h]
  currentArray h := by
    rw [optional_eq (fun _ _ => Origin.eq_of_alike) h]
    exact optional_refl Native.alike_self _
  currentObject h := by
    rw [optional_eq (fun _ _ => Origin.eq_of_alike) h]
    exact optional_refl Native.alike_self _
  resolve := by
    rintro a _ rfl name
    exact optional_refl (fun x => ⟨rfl, variable_alike_self x.2⟩) _
  declared := by
    rintro a _ rfl name
    rfl
  evaluation := by
    rintro a _ rfl
    exact optional_refl (fun e => scope_alike_self Value.alike_self e.scope) _
  execution := by
    rintro a _ rfl
    exact optional_refl
      (fun e => ⟨scope_alike_self Native.alike_self e.scope, fields_alike_self e.known⟩) _
  oneToOne := Pairing.same_oneToOne

end Store

variable {p : Pairing} {s t : Store}

namespace Store.Alike

theorem valueOf? (h : Store.Alike p s t) {a b : Nat} (hab : p.blocks a b) (name : String) :
    Option.Rel (Native.Alike p) (s.valueOf? a name) (t.valueOf? b name) :=
  optional_map (h.resolve hab name) fun _ _ hv => hv.2.value

/-- Alike lists of values have the same numbers. -/
theorem numbers (h : Store.Alike p s t) {vs ws : List Native} (hv : Forall₂ (Native.Alike p) vs ws) :
    vs.map (·.toNumber s) = ws.map (·.toNumber t) := by
  induction hv with
  | nil => rfl
  | cons hv _ ih => rw [List.map_cons, List.map_cons, h.number hv, ih]

/-- Alike lists of values have the same texts. -/
theorem texts (h : Store.Alike p s t) {vs ws : List Native} (hv : Forall₂ (Native.Alike p) vs ws) :
    vs.map (·.text s) = ws.map (·.text t) := by
  induction hv with
  | nil => rfl
  | cons hv _ ih => rw [List.map_cons, List.map_cons, h.text hv, ih]

end Store.Alike

/-! ## Operators -/

namespace Native

variable {v w : Native}

theorem primitive_alike (h : Store.Alike p s t) (hv : Native.Alike p v w) :
    Native.Alike p (v.primitive s) (w.primitive t) := by
  have ht : Native.Alike p (.string (v.text s)) (.string (w.text t)) := by
    rw [h.text hv]
    exact .string _
  cases hv with
  | array ha => exact ht
  | object ha => exact ht
  | function hf => exact ht
  | date n => exact ht
  | undefined => exact .undefined
  | null => exact .null
  | boolean b => exact .boolean b
  | number x => exact .number x
  | big n => exact .big n
  | string s => exact .string s
  | bytes hb => exact .bytes hb
  | marker name => exact .marker name

theorem bigArithmetic_alike (op : Script.BinaryOp) (m n : Int) :
    ExceptAlike (Native.Alike p) (bigArithmetic op m n) (bigArithmetic op m n) := by
  have hb (k : Int) : ExceptAlike (ε := Cause) (Native.Alike p) (.ok (.big k)) (.ok (.big k)) :=
    .ok (.big k)
  cases op with
  | div | mod => exact .ite (.error _) (hb _)
  | pow => exact .ite (.error _) (.ite (.error _) (hb _))
  | _ => exact hb _

theorem arithmetic_alike (h : Store.Alike p s t) (op : Script.BinaryOp) {v' w' : Native}
    (hv : Native.Alike p v w) (hv' : Native.Alike p v' w') :
    ExceptAlike (Native.Alike p) (arithmetic s op v v') (arithmetic t op w w') := by
  have hf : ExceptAlike (ε := Cause) (Native.Alike p)
      (.ok (.number (floatArithmetic op (v.toNumber s) (v'.toNumber s))))
      (.ok (.number (floatArithmetic op (w.toNumber t) (w'.toNumber t)))) := by
    rw [h.number hv, h.number hv']
    exact .ok (.number _)
  cases hv with
  | big m =>
    cases hv' with
    | big n => exact bigArithmetic_alike op m n
    | _ => exact .error _
  | _ =>
    cases hv' with
    | big n => exact .error _
    | _ => exact hf

theorem add_alike (h : Store.Alike p s t) {v' w' : Native}
    (hv : Native.Alike p v w) (hv' : Native.Alike p v' w') :
    ExceptAlike (Native.Alike p) (add s v v') (add t w w') := by
  have hp := primitive_alike h hv
  have hp' := primitive_alike h hv'
  unfold add
  generalize v.primitive s = a at hp ⊢
  generalize w.primitive t = b at hp ⊢
  generalize v'.primitive s = a' at hp' ⊢
  generalize w'.primitive t = b' at hp' ⊢
  have ha := arithmetic_alike h .add hp hp'
  have ht := h.text hp
  cases hp with
  | string t =>
    simp only
    rw [h.text hp']
    exact .ok (.string _)
  | _ =>
    cases hp' with
    | string u =>
      simp only
      rw [ht]
      exact .ok (.string _)
    | _ => exact ha

theorem order?_eq (h : Store.Alike p s t) {v' w' : Native} (hv : Native.Alike p v w)
    (hv' : Native.Alike p v' w') : order? s v v' = order? t w w' := by
  have hp := primitive_alike h hv
  have hp' := primitive_alike h hv'
  unfold order?
  generalize v.primitive s = a at hp ⊢
  generalize w.primitive t = b at hp ⊢
  generalize v'.primitive s = a' at hp' ⊢
  generalize w'.primitive t = b' at hp' ⊢
  have hn : Number.compare? (a.toNumber s) (a'.toNumber s) =
      Number.compare? (b.toNumber t) (b'.toNumber t) := by
    rw [h.number hp, h.number hp']
  cases hp with
  | string t =>
    cases hp' with
    | string u => rfl
    | _ => exact hn
  | big m =>
    cases hp' with
    | big n => rfl
    | _ => exact hn
  | _ => exact hn

theorem ordered_alike (h : Store.Alike p s t) (test : Ordering → Bool) {v' w' : Native}
    (hv : Native.Alike p v w) (hv' : Native.Alike p v' w') :
    Native.Alike p (ordered s test v v') (ordered t test w w') := by
  unfold ordered
  rw [order?_eq h hv hv']
  exact .boolean _

theorem binary_alike (h : Store.Alike p s t) (op : Script.BinaryOp) {v' w' : Native}
    (hv : Native.Alike p v w) (hv' : Native.Alike p v' w') :
    ExceptAlike (Native.Alike p) (binary s op v v') (binary t op w w') := by
  cases op with
  | add => exact add_alike h hv hv'
  | sub | mul | div | mod | pow => exact arithmetic_alike h _ hv hv'
  | eq | notEq =>
    unfold binary
    rw [looseEquals_eq h.oneToOne hv hv']
    exact .ok (.boolean _)
  | strictEq | strictNotEq =>
    unfold binary
    rw [strictEquals_eq h.oneToOne hv hv']
    exact .ok (.boolean _)
  | less | greater | lessEq | greaterEq => exact .ok (ordered_alike h _ hv hv')

theorem negate_alike (h : Store.Alike p s t) (hv : Native.Alike p v w) :
    Native.Alike p (negate s v) (negate t w) := by
  have hn : Native.Alike p (.number (-(v.toNumber s))) (.number (-(w.toNumber t))) := by
    rw [h.number hv]
    exact .number _
  cases hv with
  | big n => exact .big _
  | _ => exact hn

theorem plus_alike (h : Store.Alike p s t) (hv : Native.Alike p v w) :
    ExceptAlike (Native.Alike p) (plus s v) (plus t w) := by
  have hn : ExceptAlike (ε := Cause) (Native.Alike p) (.ok (.number (v.toNumber s)))
      (.ok (.number (w.toNumber t))) := by
    rw [h.number hv]
    exact .ok (.number _)
  cases hv with
  | big n => exact .error _
  | _ => exact hn

theorem counted_alike (h : Store.Alike p s t) (hv : Native.Alike p v w) :
    Native.Alike p (counted s v).1 (counted t w).1 ∧
      Native.Alike p (counted s v).2 (counted t w).2 := by
  have hn : Native.Alike p (.number (v.toNumber s)) (.number (w.toNumber t)) := by
    rw [h.number hv]
    exact .number _
  cases hv with
  | big n => exact ⟨.big n, .big 1⟩
  | _ => exact ⟨hn, .number 1⟩

/-! ## Properties -/

theorem strings_alike (ts : List String) :
    Forall₂ (Native.Alike p) (ts.map .string) (ts.map .string) := by
  induction ts with
  | nil => exact .nil
  | cons t _ ih => exact .cons (.string t) ih

theorem ofChar_alike (cs : List Char) :
    Forall₂ (Native.Alike p) (cs.map ofChar) (cs.map ofChar) := by
  induction cs with
  | nil => exact .nil
  | cons c _ ih => exact .cons (.string _) ih

theorem ofByte_alike (bs : List UInt8) :
    Forall₂ (Native.Alike p) (bs.map ofByte) (bs.map ofByte) := by
  induction bs with
  | nil => exact .nil
  | cons b _ ih => exact .cons (.number _) ih

theorem itemProperty_alike (key : String) (length : Nat) {f g : Nat → Option Native}
    (h : ∀ i, Option.Rel (Native.Alike p) (f i) (g i)) :
    Native.Alike p (itemProperty key length f) (itemProperty key length g) := by
  unfold itemProperty
  split
  · exact .number _
  · cases position? key with
    | none => exact .undefined
    | some i => exact optional_getD (h i) .undefined

theorem property_alike (h : Store.Alike p s t) (hv : Native.Alike p v w) (key : String) :
    ExceptAlike (Native.Alike p) (property s v key) (property t w key) := by
  cases hv with
  | null => exact .error _
  | undefined => exact .error _
  | array ha =>
    have hi := h.items ha
    have hl : (s.items _).size = (t.items _).size := hi.length_eq
    unfold property
    simp only
    rw [hl]
    refine .ok (itemProperty_alike _ _ fun i => ?_)
    have := getElem?_alike hi i
    rwa [Array.getElem?_toList, Array.getElem?_toList] at this
  | string u =>
    exact .ok (itemProperty_alike _ _ fun i => optional_refl_map _ fun c => .string _)
  | bytes hb =>
    cases hb with
    | mk data _ =>
      exact .ok (itemProperty_alike _ _ fun i => optional_refl_map _ fun b => .number _)
  | object ho => exact .ok (optional_getD (Keyed.lookup_alike (h.fields ho) key) .undefined)
  | function hf =>
    unfold property
    simp only
    rw [Callable.native_name_eq hf]
    split
    · exact .ok (.string _)
    · exact .ok .undefined
  | _ => exact .ok .undefined

theorem numbered_alike {vs ws : List Native} (h : Forall₂ (Native.Alike p) vs ws) :
    Forall₂ (Keyed.Alike (Native.Alike p)) (numbered vs) (numbered ws) := by
  unfold numbered
  rw [List.forall₂_iff_get] at h ⊢
  refine ⟨by simpa using h.1, fun i hi hj => ?_⟩
  simpa using .mk _ (h.2 i (by simpa using hi) (by simpa using hj))

theorem properties_alike (h : Store.Alike p s t) (hv : Native.Alike p v w) :
    Forall₂ (Keyed.Alike (Native.Alike p)) (properties s v) (properties t w) := by
  cases hv with
  | object ho => exact h.fields ho
  | array ha => exact numbered_alike (h.items ha)
  | string u => exact numbered_alike (ofChar_alike _)
  | _ => exact .nil

theorem walk_alike (h : Store.Alike p s t) (hv : Native.Alike p v w) :
    ExceptAlike (Forall₂ (Native.Alike p)) (walk s v) (walk t w) := by
  cases hv with
  | array ha => exact .ok (h.items ha)
  | string u => exact .ok (ofChar_alike _)
  | bytes hb =>
    cases hb with
    | mk data _ => exact .ok (ofByte_alike _)
  | _ => exact .error _

theorem thrownText_eq (h : Store.Alike p s t) (hv : Native.Alike p v w) :
    thrownText s v = thrownText t w := by
  have ht := h.text hv
  cases hv with
  | object ho =>
    have hm := Keyed.lookup_alike (h.fields ho) "message"
    unfold thrownText
    simp only
    generalize (s.fields _).lookup "message" = x at hm ⊢
    generalize (t.fields _).lookup "message" = y at hm ⊢
    cases hm with
    | none => exact ht
    | some hm =>
      cases hm with
      | string m => rfl
      | _ => exact ht
  | _ => exact ht

theorem resize_alike (n : Nat) {xs ys : Array Native}
    (h : Forall₂ (Native.Alike p) xs.toList ys.toList) :
    Forall₂ (Native.Alike p) (resize n xs).toList (resize n ys).toList := by
  have hl : xs.size = ys.size := h.length_eq
  unfold resize
  rw [hl]
  split
  · simpa using List.forall₂_take n h
  · rw [Array.toList_append, Array.toList_append]
    exact List.rel_append h (List.forall₂_same.2 fun v hv => by
      rw [Array.toList_replicate, List.mem_replicate] at hv
      rw [hv.2]
      exact .undefined)

theorem set_alike {vs ws : List Native} (h : Forall₂ (Native.Alike p) vs ws) (i : Nat)
    (hv : Native.Alike p v w) : Forall₂ (Native.Alike p) (vs.set i v) (ws.set i w) := by
  induction h generalizing i with
  | nil => exact .nil
  | cons hx ht ih =>
    cases i with
    | zero => exact .cons hv ht
    | succ i => exact .cons hx (ih i)

theorem setItem_alike (i : Nat) (hv : Native.Alike p v w) {xs ys : Array Native}
    (h : Forall₂ (Native.Alike p) xs.toList ys.toList) :
    Forall₂ (Native.Alike p) (setItem i v xs).toList (setItem i w ys).toList := by
  have hl : xs.size = ys.size := h.length_eq
  unfold setItem
  rw [hl, Array.toList_setIfInBounds, Array.toList_setIfInBounds]
  refine set_alike ?_ i hv
  split
  · exact h
  · exact resize_alike _ h

end Native

/-! ## Methods -/

namespace Script

variable {vs ws : List Native}

theorem argument_alike (h : Forall₂ (Native.Alike p) vs ws) (i : Nat) :
    Native.Alike p (argument vs i) (argument ws i) :=
  optional_getD (getElem?_alike h i) .undefined

/-- A function of an argument that is special where the argument is missing. -/
theorem bound_eq (h : Store.Alike p s t) {v w : Native} (hv : Native.Alike p v w)
    (length standard : Nat) : bound s v length standard = bound t w length standard := by
  have hn := h.number hv
  cases hv with
  | undefined => rfl
  | _ =>
    unfold bound
    simp only
    rw [hn]

theorem partBound_eq (h : Store.Alike p s t) {v w : Native} (hv : Native.Alike p v w)
    (length standard : Nat) : partBound s v length standard = partBound t w length standard := by
  have hn := h.number hv
  cases hv with
  | undefined => rfl
  | _ =>
    unfold partBound
    simp only
    rw [hn]

theorem text?_eq (h : Store.Alike p s t) (hv : Forall₂ (Native.Alike p) vs ws) (i : Nat) :
    text? s vs i = text? t ws i := by
  have ha := argument_alike hv i
  have ht := h.text ha
  unfold text?
  generalize argument vs i = v at ha ht ⊢
  generalize argument ws i = w at ha ht ⊢
  cases ha with
  | undefined => rfl
  | _ => exact congrArg some ht

theorem text_eq (h : Store.Alike p s t) (hv : Forall₂ (Native.Alike p) vs ws) (i : Nat) :
    text s vs i = text t ws i := by
  unfold text
  rw [text?_eq h hv]

theorem padding_eq (h : Store.Alike p s t) (u : String) (hv : Forall₂ (Native.Alike p) vs ws) :
    padding s u vs = padding t u ws := by
  unfold padding
  rw [h.number (argument_alike hv 0), text?_eq h hv]

theorem repeated_eq (h : Store.Alike p s t) (u : String) (hv : Forall₂ (Native.Alike p) vs ws) :
    repeated s u vs = repeated t u ws := by
  unfold repeated
  rw [h.number (argument_alike hv 0)]

theorem splitParts_alike (h : Store.Alike p s t) (cs : List Char)
    (hv : Forall₂ (Native.Alike p) vs ws) :
    Forall₂ (Native.Alike p) (splitParts s cs vs) (splitParts t cs ws) := by
  have ha := argument_alike hv 1
  have hn := h.number ha
  have hs (ps : List (List Char)) : Forall₂ (Native.Alike p)
      (ps.map fun q => .string (String.ofList q)) (ps.map fun q => .string (String.ofList q)) := by
    induction ps with
    | nil => exact .nil
    | cons q _ ih => exact .cons (.string _) ih
  unfold splitParts
  rw [text?_eq h hv]
  generalize argument vs 1 = v at ha hn ⊢
  generalize argument ws 1 = w at ha hn ⊢
  cases ha with
  | undefined => exact hs _
  | _ =>
    simp only
    rw [hn]
    exact hs _

theorem toFixed_eq (h : Store.Alike p s t) (x : Float) {v w : Native} (hv : Native.Alike p v w) :
    toFixed s x v = toFixed t x w := by
  have hn := h.number hv
  unfold toFixed
  cases hv with
  | undefined => simp only
  | _ => simp only [hn]

theorem numberText_eq (h : Store.Alike p s t) (x : Float) {v w : Native}
    (hv : Native.Alike p v w) : numberText s x v = numberText t x w := by
  have hn := h.number hv
  cases hv with
  | undefined => rfl
  | _ =>
    unfold numberText
    simp only
    rw [hn]

theorem applyNumberMethod_alike (h : Store.Alike p s t) (x : Float) (m : NumberMethod)
    (hv : Forall₂ (Native.Alike p) vs ws) :
    ExceptAlike (Native.Alike p) (applyNumberMethod s x m vs) (applyNumberMethod t x m ws) := by
  have hs (r : Except Cause String) :
      ExceptAlike (Native.Alike p) (r.map .string) (r.map .string) := by
    cases r with
    | ok u => exact .ok (.string u)
    | error e => exact .error e
  unfold applyNumberMethod
  rw [toFixed_eq h x (argument_alike hv 0), numberText_eq h x (argument_alike hv 0)]
  cases m with
  | toFixed => exact hs _
  | toString => exact hs _

theorem applyDateMethod_alike (n : Int) (m : DateMethod) :
    Native.Alike p (applyDateMethod n m) (applyDateMethod n m) := by
  cases m with
  | isoText | text => exact .string _
  | _ => exact .number _

end Script

namespace Engine

variable {vs ws : List Native}

theorem joinedItems_alike (h : Store.Alike p s t) (hv : Forall₂ (Native.Alike p) vs ws) :
    Forall₂ (Native.Alike p) (joinedItems s vs) (joinedItems t ws) := by
  refine List.rel_flatMap hv ?_
  intro v w hv
  cases hv with
  | array ha => exact h.items ha
  | _ => exact .cons (by constructor <;> assumption) .nil

theorem joinedText_eq (h : Store.Alike p s t) (hv : Forall₂ (Native.Alike p) vs ws)
    (separator : String) : joinedText s vs separator = joinedText t ws separator := by
  unfold joinedText
  congr 1
  induction hv with
  | nil => rfl
  | cons hv _ ih => rw [List.map_cons, List.map_cons, hv.isNullish_eq, h.text hv, ih]

theorem isNotANumber_eq {v w : Native} (hv : Native.Alike p v w) :
    isNotANumber v = isNotANumber w := by
  cases hv <;> rfl

end Engine

end Workbook
