/-
Values of two stores that are the same up to where things stand.

A value names arrays, objects, blocks, lazy entries, evaluations, executions and
sessions by their places, and functions by identities.  Two runs that do the same give
out different places, so their values are compared through a `Pairing`, which says which
places and identities stand for one another.  Two values are *alike* under a pairing if
they differ in nothing else.

Everything that looks into a value without following a place gives the same answer on
alike values; the lemmas for this stand with the relations.  `mono` says that more
pairs only make more values alike, and `eq_of_alike` and `alike_self` say that under the
pairing of all places with themselves alike means equal.
-/
import Workbook.Engine
import Mathlib.Data.List.Forall2

open List (Forall₂)

namespace Workbook

/-! ## Keyed lists and results -/

namespace Keyed

variable {α β : Type} {R S : α → β → Prop}

/-- Two entries with one key and related values. -/
inductive Alike (R : α → β → Prop) : String × α → String × β → Prop
  | mk (key : String) {a : α} {b : β} (h : R a b) : Alike R (key, a) (key, b)

theorem Alike.key_eq {e : String × α} {f : String × β} (h : Alike R e f) : e.1 = f.1 := by
  cases h
  rfl

theorem Alike.value {e : String × α} {f : String × β} (h : Alike R e f) : R e.2 f.2 := by
  cases h
  assumption

theorem Alike.imp (h : ∀ a b, R a b → S a b) (e : String × α) (f : String × β) :
    Alike R e f → Alike S e f
  | .mk key h' => .mk key (h _ _ h')

/-- Lists of alike entries have the same keys. -/
theorem keys_eq {es : List (String × α)} {fs : List (String × β)} (h : Forall₂ (Alike R) es fs) :
    es.map (·.1) = fs.map (·.1) := by
  induction h with
  | nil => rfl
  | cons he _ ih => rw [List.map_cons, List.map_cons, he.key_eq, ih]

theorem values_alike {es : List (String × α)} {fs : List (String × β)}
    (h : Forall₂ (Alike R) es fs) : Forall₂ R (es.map (·.2)) (fs.map (·.2)) := by
  induction h with
  | nil => exact .nil
  | cons he _ ih => exact .cons he.value ih

theorem lookup_alike {es : List (String × α)} {fs : List (String × β)}
    (h : Forall₂ (Alike R) es fs) (key : String) :
    Option.Rel R (es.lookup key) (fs.lookup key) := by
  induction h with
  | nil => exact .none
  | cons he _ ih =>
    cases he with
    | mk k hv =>
      rw [List.lookup_cons, List.lookup_cons]
      cases key == k with
      | true => exact .some hv
      | false => exact ih

theorem put_alike {es : List (String × α)} {fs : List (String × β)}
    (h : Forall₂ (Alike R) es fs) (key : String) {a : α} {b : β} (hab : R a b) :
    Forall₂ (Alike R) (put key a es) (put key b fs) := by
  induction h with
  | nil => exact .cons (.mk key hab) .nil
  | cons he ht ih =>
    cases he with
    | mk k hv =>
      by_cases hk : k = key
      · rw [put, put, if_pos hk, if_pos hk]
        exact .cons (.mk k hab) ht
      · rw [put, put, if_neg hk, if_neg hk]
        exact .cons (.mk k hv) ih

theorem putAll_alike {es added : List (String × α)} {fs added' : List (String × β)}
    (ha : Forall₂ (Alike R) added added') (h : Forall₂ (Alike R) es fs) :
    Forall₂ (Alike R) (putAll added es) (putAll added' fs) := by
  induction ha generalizing es fs with
  | nil => exact h
  | cons he _ ih =>
    cases he with
    | mk k hv => exact ih (put_alike h k hv)

theorem remove_alike {es : List (String × α)} {fs : List (String × β)}
    (h : Forall₂ (Alike R) es fs) (key : String) :
    Forall₂ (Alike R) (remove key es) (remove key fs) := by
  induction h with
  | nil => exact .nil
  | cons he _ ih =>
    cases he with
    | mk k hv =>
      rw [remove, remove, List.filter_cons, List.filter_cons]
      by_cases hk : k = key
      · rw [if_neg (by simp [hk]), if_neg (by simp [hk])]
        exact ih
      · rw [if_pos (by simp [hk]), if_pos (by simp [hk])]
        exact .cons (.mk k hv) ih

end Keyed

/-- Two results of computations that may fail: the same failure, or related values. -/
inductive ExceptAlike {ε α β : Type} (R : α → β → Prop) : Except ε α → Except ε β → Prop
  | ok {a : α} {b : β} (h : R a b) : ExceptAlike R (.ok a) (.ok b)
  | error (e : ε) : ExceptAlike R (.error e) (.error e)

namespace ExceptAlike

variable {ε α β γ δ : Type} {R S : α → β → Prop} {T : γ → δ → Prop}

theorem imp (h : ∀ a b, R a b → S a b) {x : Except ε α} {y : Except ε β} :
    ExceptAlike R x y → ExceptAlike S x y
  | .ok h' => .ok (h _ _ h')
  | .error e => .error e

theorem bind {x : Except ε α} {y : Except ε β} {f : α → Except ε γ} {g : β → Except ε δ}
    (h : ExceptAlike R x y) (hf : ∀ a b, R a b → ExceptAlike T (f a) (g b)) :
    ExceptAlike T (x >>= f) (y >>= g) := by
  cases h with
  | ok h => exact hf _ _ h
  | error e => exact .error e

theorem map {x : Except ε α} {y : Except ε β} {f : α → γ} {g : β → δ}
    (h : ExceptAlike R x y) (hf : ∀ a b, R a b → T (f a) (g b)) :
    ExceptAlike T (f <$> x) (g <$> y) := by
  cases h with
  | ok h => exact .ok (hf _ _ h)
  | error e => exact .error e

theorem ite {c : Prop} [Decidable c] {x x' : Except ε α} {y y' : Except ε β}
    (h : ExceptAlike R x y) (h' : ExceptAlike R x' y') :
    ExceptAlike R (if c then x else x') (if c then y else y') := by
  split
  · exact h
  · exact h'

/-- A result is alike itself if its value is. -/
theorem refl {R : α → α → Prop} (h : ∀ a, R a a) (x : Except ε α) : ExceptAlike R x x := by
  cases x with
  | ok a => exact .ok (h a)
  | error e => exact .error e

end ExceptAlike

theorem optional_imp {α β : Type} {R S : α → β → Prop} (h : ∀ a b, R a b → S a b)
    {x : Option α} {y : Option β} : Option.Rel R x y → Option.Rel S x y
  | .some h' => .some (h _ _ h')
  | .none => .none

theorem optional_isSome {α β : Type} {R : α → β → Prop} {x : Option α} {y : Option β}
    (h : Option.Rel R x y) : x.isSome = y.isSome := by
  cases h <;> rfl

theorem optional_getD {α β : Type} {R : α → β → Prop} {x : Option α} {y : Option β} {a : α} {b : β}
    (h : Option.Rel R x y) (hd : R a b) : R (x.getD a) (y.getD b) := by
  cases h with
  | none => exact hd
  | some h => exact h

theorem optional_map {α β γ δ : Type} {R : α → β → Prop} {S : γ → δ → Prop} {x : Option α}
    {y : Option β} {f : α → γ} {g : β → δ} (h : Option.Rel R x y)
    (hf : ∀ a b, R a b → S (f a) (g b)) : Option.Rel S (x.map f) (y.map g) := by
  cases h with
  | none => exact .none
  | some h => exact .some (hf _ _ h)

/-- What an optional value is mapped to, related with itself. -/
theorem optional_refl_map {α β : Type} {R : β → β → Prop} {f : α → β} (x : Option α)
    (h : ∀ a, R (f a) (f a)) : Option.Rel R (x.map f) (x.map f) := by
  cases x with
  | none => exact .none
  | some a => exact .some (h a)

/-- Items at one position of related lists. -/
theorem getElem?_alike {α β : Type} {R : α → β → Prop} {as : List α} {bs : List β}
    (h : Forall₂ R as bs) (i : Nat) : Option.Rel R as[i]? bs[i]? := by
  induction h generalizing i with
  | nil => exact .none
  | cons hv _ ih =>
    cases i with
    | zero => exact .some hv
    | succ i => simpa using ih i

/-! ## Pairings -/

/-- Which places and identities of one store stand for which of another. -/
structure Pairing where
  arrays : Nat → Nat → Prop
  objects : Nat → Nat → Prop
  blocks : Nat → Nat → Prop
  thunks : Nat → Nat → Prop
  evaluations : Nat → Nat → Prop
  executions : Nat → Nat → Prop
  sessions : Nat → Nat → Prop
  idents : Nat → Nat → Prop

namespace Pairing

/-- Whether every pair of one pairing is a pair of another. -/
structure Within (p q : Pairing) : Prop where
  arrays : ∀ {a b}, p.arrays a b → q.arrays a b
  objects : ∀ {a b}, p.objects a b → q.objects a b
  blocks : ∀ {a b}, p.blocks a b → q.blocks a b
  thunks : ∀ {a b}, p.thunks a b → q.thunks a b
  evaluations : ∀ {a b}, p.evaluations a b → q.evaluations a b
  executions : ∀ {a b}, p.executions a b → q.executions a b
  sessions : ∀ {a b}, p.sessions a b → q.sessions a b
  idents : ∀ {a b}, p.idents a b → q.idents a b

/-- A relation that pairs no number with two. -/
def Unique (r : Nat → Nat → Prop) : Prop :=
  ∀ {a b c d}, r a b → r c d → (a = c ↔ b = d)

/-- Containers and identities, which programs compare, are paired one to one. -/
structure OneToOne (p : Pairing) : Prop where
  arrays : Unique p.arrays
  objects : Unique p.objects
  idents : Unique p.idents

/-- Every place and identity paired with itself. -/
def same : Pairing :=
  ⟨Eq, Eq, Eq, Eq, Eq, Eq, Eq, Eq⟩

theorem unique_eq : Unique Eq := by
  intro a b c d h h'
  rw [h, h']

theorem same_oneToOne : same.OneToOne :=
  ⟨unique_eq, unique_eq, unique_eq⟩

end Pairing

/-! ## Values -/

/-- Two origins at paired containers and the same version. -/
inductive Origin.Alike (r : Nat → Nat → Prop) : Origin → Origin → Prop
  | mk (version : Nat) {a b : Nat} (h : r a b) : Origin.Alike r ⟨a, version⟩ ⟨b, version⟩

/-- Two byte strings with the same bytes. -/
inductive Bytes.Alike (p : Pairing) : Bytes → Bytes → Prop
  | mk (data : List UInt8) {a b : Nat} (h : p.idents a b) : Bytes.Alike p ⟨a, data⟩ ⟨b, data⟩

mutual

/-- Two values that differ in paired places and identities only. -/
inductive Value.Alike (p : Pairing) : Value → Value → Prop
  | null : Value.Alike p .null .null
  | boolean (b : Bool) : Value.Alike p (.boolean b) (.boolean b)
  | integer (n : Int64) : Value.Alike p (.integer n) (.integer n)
  | float (x : Float) : Value.Alike p (.float x) (.float x)
  | big (n : Int) : Value.Alike p (.big n) (.big n)
  | string (s : String) : Value.Alike p (.string s) (.string s)
  | date (n : Int) : Value.Alike p (.date n) (.date n)
  | bytes {b c : Bytes} (h : Bytes.Alike p b c) : Value.Alike p (.bytes b) (.bytes c)
  | list {vs ws : List Value} {o o' : Option Origin} (items : Forall₂ (Value.Alike p) vs ws)
      (origin : Option.Rel (Origin.Alike p.arrays) o o') :
      Value.Alike p (.list vs o) (.list ws o')
  | mapping {es fs : List (String × Slot)} {o o' : Option Origin}
      (entries : Forall₂ (Keyed.Alike (Slot.Alike p)) es fs)
      (origin : Option.Rel (Origin.Alike p.objects) o o') :
      Value.Alike p (.mapping es o) (.mapping fs o')
  | function {f g : Callable} (h : Callable.Alike p f g) :
      Value.Alike p (.function f) (.function g)
  | error (kind message : String) {v w : Option Value} (payload : Option.Rel (Value.Alike p) v w) :
      Value.Alike p (.error kind message v) (.error kind message w)
  | signal (marker : String) : Value.Alike p (.signal marker) (.signal marker)

/-- Two slots with alike values or paired lazy entries. -/
inductive Slot.Alike (p : Pairing) : Slot → Slot → Prop
  | ready {v w : Value} (h : Value.Alike p v w) : Slot.Alike p (.ready v) (.ready w)
  | lazy {t u : Nat} (h : p.thunks t u) : Slot.Alike p (.lazy t) (.lazy u)

/-- Two functions of one language that are alike. -/
inductive Callable.Alike (p : Pairing) : Callable → Callable → Prop
  | typed {f g : TypedFunction} (h : TypedFunction.Alike p f g) :
      Callable.Alike p (.typed f) (.typed g)
  | native {f g : NativeFunction} (h : NativeFunction.Alike p f g) :
      Callable.Alike p (.native f) (.native g)

/-- Two functions with paired identities and alike code. -/
inductive TypedFunction.Alike (p : Pairing) : TypedFunction → TypedFunction → Prop
  | mk {i j : Nat} {c d : TypedCode} (id : p.idents i j) (code : TypedCode.Alike p c d) :
      TypedFunction.Alike p (.mk i c) (.mk j d)

/-- Code that does the same with alike values. -/
inductive TypedCode.Alike (p : Pairing) : TypedCode → TypedCode → Prop
  | lambda (parameters : List String) (body : Formula.Expr) {c d : Nat}
      {ls ms : List (String × Value)} (context : p.evaluations c d)
      (locals : Forall₂ (Keyed.Alike (Value.Alike p)) ls ms) :
      TypedCode.Alike p (.lambda c ls parameters body) (.lambda d ms parameters body)
  | math (f : Formula.MathFunction) : TypedCode.Alike p (.math f) (.math f)
  | library (f : Formula.LibraryFunction) : TypedCode.Alike p (.library f) (.library f)
  | listMethod (m : Formula.ListMethod) {vs ws : List Value}
      (items : Forall₂ (Value.Alike p) vs ws) :
      TypedCode.Alike p (.listMethod vs m) (.listMethod ws m)
  | stringMethod (s : String) (m : Formula.StringMethod) :
      TypedCode.Alike p (.stringMethod s m) (.stringMethod s m)
  | mappingMethod (m : Formula.MappingMethod) {es fs : List (String × Slot)}
      (entries : Forall₂ (Keyed.Alike (Slot.Alike p)) es fs) :
      TypedCode.Alike p (.mappingMethod es m) (.mappingMethod fs m)
  | importer (folder : String) {a b : Nat} (session : p.sessions a b) :
      TypedCode.Alike p (.importer a folder) (.importer b folder)
  | host (name : String) (reply : Reply) : TypedCode.Alike p (.host name reply) (.host name reply)

/-- Two native functions with paired identities and alike code. -/
inductive NativeFunction.Alike (p : Pairing) : NativeFunction → NativeFunction → Prop
  | mk {i j : Nat} {c d : NativeCode} (id : p.idents i j) (code : NativeCode.Alike p c d) :
      NativeFunction.Alike p (.mk i c) (.mk j d)

/-- Native code that does the same with alike values. -/
inductive NativeCode.Alike (p : Pairing) : NativeCode → NativeCode → Prop
  | script (f : Script.Function) (name : String) {r r' b b' : Nat} (run : p.executions r r')
      (block : p.blocks b b') : NativeCode.Alike p (.script r b f name) (.script r' b' f name)
  | builtin (b : Script.Builtin) : NativeCode.Alike p (.builtin b) (.builtin b)
  | host (name : String) (reply : Reply) : NativeCode.Alike p (.host name reply) (.host name reply)
  | bridge {f g : TypedFunction} (h : TypedFunction.Alike p f g) :
      NativeCode.Alike p (.bridge f) (.bridge g)

end

/-- Two native values that differ in paired places and identities only. -/
inductive Native.Alike (p : Pairing) : Native → Native → Prop
  | undefined : Native.Alike p .undefined .undefined
  | null : Native.Alike p .null .null
  | boolean (b : Bool) : Native.Alike p (.boolean b) (.boolean b)
  | number (x : Float) : Native.Alike p (.number x) (.number x)
  | big (n : Int) : Native.Alike p (.big n) (.big n)
  | string (s : String) : Native.Alike p (.string s) (.string s)
  | date (n : Int) : Native.Alike p (.date n) (.date n)
  | bytes {b c : Bytes} (h : Bytes.Alike p b c) : Native.Alike p (.bytes b) (.bytes c)
  | array {a b : Nat} (h : p.arrays a b) : Native.Alike p (.array a) (.array b)
  | object {a b : Nat} (h : p.objects a b) : Native.Alike p (.object a) (.object b)
  | function {f g : NativeFunction} (h : NativeFunction.Alike p f g) :
      Native.Alike p (.function f) (.function g)
  | marker (name : String) : Native.Alike p (.marker name) (.marker name)

/-- Two outcomes: the same failure, or alike values in both forms. -/
inductive Outcome.Alike (p : Pairing) : Outcome → Outcome → Prop
  | value {m n : Native} {v w : Value} (native : Native.Alike p m n) (typed : Value.Alike p v w) :
      Outcome.Alike p (.value m v) (.value n w)
  | failure (first : Detail) (more : List Detail) :
      Outcome.Alike p (.failure first more) (.failure first more)

/-- Two results with paired identities and alike outcomes. -/
structure Result.Alike (p : Pairing) (r r' : Result) : Prop where
  id : p.idents r.id r'.id
  outcome : Outcome.Alike p r.outcome r'.outcome

/-- Two scopes whose names mean alike values. -/
inductive Scope.Alike {α : Type} (p : Pairing) (R : α → α → Prop) : Scope α → Scope α → Prop
  | fixed {bs cs : List (String × Except Fault α)}
      (h : Forall₂ (Keyed.Alike (ExceptAlike R)) bs cs) : Scope.Alike p R (.fixed bs) (.fixed cs)
  | folder (key : String) {a b : Nat} (h : p.sessions a b) :
      Scope.Alike p R (.folder a key) (.folder b key)

/-- Two executions with alike scopes and alike names read so far. -/
structure Execution.Alike (p : Pairing) (e e' : Execution) : Prop where
  scope : Scope.Alike p (Native.Alike p) e.scope e'.scope
  known : Forall₂ (Keyed.Alike (Native.Alike p)) e.known e'.known

/-- Two sessions in which names mean the same. -/
structure Session.Alike (p : Pairing) (s s' : Session) : Prop where
  place : s.outline.place? = s'.outline.place?
  overrides : Forall₂ (Keyed.Alike (Value.Alike p)) s.overrides s'.overrides
  timeVariable : s.settings.timeVariable = s'.settings.timeVariable
  time : s.time = s'.time
  library : Value.Alike p s.library s'.library
  math : Value.Alike p s.math s'.math

/-! ## More pairs -/

section Mono

variable {p q : Pairing}

theorem Origin.Alike.imp {r s : Nat → Nat → Prop} (h : ∀ {a b}, r a b → s a b) (a b : Origin) :
    Origin.Alike r a b → Origin.Alike s a b
  | .mk version h' => .mk version (h h')

theorem Bytes.Alike.mono (h : p.Within q) {b c : Bytes} : Bytes.Alike p b c → Bytes.Alike q b c
  | .mk data h' => .mk data (h.idents h')

mutual

theorem Value.Alike.mono {v w : Value} :
    Value.Alike p v w → p.Within q → Value.Alike q v w
  | .null, _ => .null
  | .boolean b, _ => .boolean b
  | .integer n, _ => .integer n
  | .float x, _ => .float x
  | .big n, _ => .big n
  | .string s, _ => .string s
  | .date n, _ => .date n
  | .bytes hb, h => .bytes (hb.mono h)
  | .list items origin, h =>
    .list (Value.forall_mono items h) (optional_imp (Origin.Alike.imp h.arrays) origin)
  | .mapping entries origin, h =>
    .mapping (Slot.forall_mono entries h) (optional_imp (Origin.Alike.imp h.objects) origin)
  | .function hf, h => .function (hf.mono h)
  | .error k m .none, _ => .error k m .none
  | .error k m (.some hv), h => .error k m (.some (hv.mono h))
  | .signal m, _ => .signal m
termination_by sizeOf v

theorem Value.forall_mono {vs ws : List Value} :
    Forall₂ (Value.Alike p) vs ws → p.Within q → Forall₂ (Value.Alike q) vs ws
  | .nil, _ => .nil
  | .cons hv hs, h => .cons (hv.mono h) (Value.forall_mono hs h)
termination_by sizeOf vs

theorem Slot.forall_mono {es fs : List (String × Slot)} :
    Forall₂ (Keyed.Alike (Slot.Alike p)) es fs → p.Within q →
      Forall₂ (Keyed.Alike (Slot.Alike q)) es fs
  | .nil, _ => .nil
  | .cons (.mk k (.ready hv)) hs, h => .cons (.mk k (.ready (hv.mono h))) (Slot.forall_mono hs h)
  | .cons (.mk k (.lazy ht)) hs, h => .cons (.mk k (.lazy (h.thunks ht))) (Slot.forall_mono hs h)
termination_by sizeOf es

theorem Value.locals_mono {ls ms : List (String × Value)} :
    Forall₂ (Keyed.Alike (Value.Alike p)) ls ms → p.Within q →
      Forall₂ (Keyed.Alike (Value.Alike q)) ls ms
  | .nil, _ => .nil
  | .cons (.mk k hv) hs, h => .cons (.mk k (hv.mono h)) (Value.locals_mono hs h)
termination_by sizeOf ls

theorem Callable.Alike.mono {f g : Callable} :
    Callable.Alike p f g → p.Within q → Callable.Alike q f g
  | .typed hf, h => .typed (hf.mono h)
  | .native hf, h => .native (hf.mono h)
termination_by sizeOf f

theorem TypedFunction.Alike.mono {f g : TypedFunction} :
    TypedFunction.Alike p f g → p.Within q → TypedFunction.Alike q f g
  | .mk id hc, h => .mk (h.idents id) (hc.mono h)
termination_by sizeOf f

theorem TypedCode.Alike.mono {c d : TypedCode} :
    TypedCode.Alike p c d → p.Within q → TypedCode.Alike q c d
  | .lambda ps body hc hs, h => .lambda ps body (h.evaluations hc) (Value.locals_mono hs h)
  | .math f, _ => .math f
  | .library f, _ => .library f
  | .listMethod m hs, h => .listMethod m (Value.forall_mono hs h)
  | .stringMethod s m, _ => .stringMethod s m
  | .mappingMethod m hs, h => .mappingMethod m (Slot.forall_mono hs h)
  | .importer folder hs, h => .importer folder (h.sessions hs)
  | .host name reply, _ => .host name reply
termination_by sizeOf c

theorem NativeFunction.Alike.mono {f g : NativeFunction} :
    NativeFunction.Alike p f g → p.Within q → NativeFunction.Alike q f g
  | .mk id hc, h => .mk (h.idents id) (hc.mono h)
termination_by sizeOf f

theorem NativeCode.Alike.mono {c d : NativeCode} :
    NativeCode.Alike p c d → p.Within q → NativeCode.Alike q c d
  | .script f name hr hb, h => .script f name (h.executions hr) (h.blocks hb)
  | .builtin b, _ => .builtin b
  | .host name reply, _ => .host name reply
  | .bridge hf, h => .bridge (hf.mono h)
termination_by sizeOf c

end

theorem Native.Alike.mono {v w : Native} :
    Native.Alike p v w → p.Within q → Native.Alike q v w
  | .undefined, _ => .undefined
  | .null, _ => .null
  | .boolean b, _ => .boolean b
  | .number x, _ => .number x
  | .big n, _ => .big n
  | .string s, _ => .string s
  | .date n, _ => .date n
  | .bytes hb, h => .bytes (hb.mono h)
  | .array ha, h => .array (h.arrays ha)
  | .object ho, h => .object (h.objects ho)
  | .function hf, h => .function (hf.mono h)
  | .marker name, _ => .marker name

theorem Native.forall_mono {vs ws : List Native} (hv : Forall₂ (Native.Alike p) vs ws)
    (h : p.Within q) : Forall₂ (Native.Alike q) vs ws :=
  hv.imp fun _ _ hv => hv.mono h

theorem Native.fields_mono {fs gs : Fields} (hf : Forall₂ (Keyed.Alike (Native.Alike p)) fs gs)
    (h : p.Within q) : Forall₂ (Keyed.Alike (Native.Alike q)) fs gs :=
  hf.imp (Keyed.Alike.imp fun _ _ hv => hv.mono h)

theorem Outcome.Alike.mono {o o' : Outcome} :
    Outcome.Alike p o o' → p.Within q → Outcome.Alike q o o'
  | .value hn hv, h => .value (hn.mono h) (hv.mono h)
  | .failure first more, _ => .failure first more

theorem Outcome.Alike.toValue {o o' : Outcome} : Outcome.Alike p o o' →
    Value.Alike p o.toValue o'.toValue
  | .value _ hv => hv
  | .failure _ _ => .error _ _ .none

theorem Result.Alike.mono {r r' : Result} (hr : Result.Alike p r r') (h : p.Within q) :
    Result.Alike q r r' :=
  ⟨h.idents hr.id, hr.outcome.mono h⟩

theorem Scope.Alike.mono {α : Type} {R S : α → α → Prop} (hRS : ∀ a b, R a b → S a b)
    {s s' : Scope α} : Scope.Alike p R s s' → p.Within q → Scope.Alike q S s s'
  | .fixed hb, _ => .fixed (hb.imp (Keyed.Alike.imp fun _ _ => ExceptAlike.imp hRS))
  | .folder key hs, h => .folder key (h.sessions hs)

theorem Execution.Alike.mono {e e' : Execution} (he : Execution.Alike p e e')
    (h : p.Within q) : Execution.Alike q e e' :=
  ⟨he.scope.mono (fun _ _ hv => hv.mono h) h, Native.fields_mono he.known h⟩

theorem Session.Alike.mono {s s' : Session} (hs : Session.Alike p s s') (h : p.Within q) :
    Session.Alike q s s' :=
  ⟨hs.place, Value.locals_mono hs.overrides h, hs.timeVariable, hs.time, hs.library.mono h,
    hs.math.mono h⟩

end Mono

/-! ## Pairs of equals -/

section Same

theorem optional_refl {α : Type} {R : α → α → Prop} (h : ∀ a, R a a) (x : Option α) :
    Option.Rel R x x := by
  cases x with
  | none => exact .none
  | some a => exact .some (h a)

namespace Pairing.Within

theorem refl (p : Pairing) : p.Within p :=
  ⟨id, id, id, id, id, id, id, id⟩

theorem trans {p q r : Pairing} (h : p.Within q) (h' : q.Within r) : p.Within r :=
  ⟨h'.arrays ∘ h.arrays, h'.objects ∘ h.objects, h'.blocks ∘ h.blocks, h'.thunks ∘ h.thunks,
    h'.evaluations ∘ h.evaluations, h'.executions ∘ h.executions, h'.sessions ∘ h.sessions,
    h'.idents ∘ h.idents⟩

end Pairing.Within

mutual

theorem Value.alike_self : ∀ v : Value, Value.Alike .same v v
  | .null => .null
  | .boolean b => .boolean b
  | .integer n => .integer n
  | .float x => .float x
  | .big n => .big n
  | .string s => .string s
  | .date n => .date n
  | .bytes ⟨_, data⟩ => .bytes (.mk data rfl)
  | .list vs o => .list (Value.forall_self vs) (optional_refl (fun ⟨_, n⟩ => .mk n rfl) o)
  | .mapping es o => .mapping (Slot.forall_self es) (optional_refl (fun ⟨_, n⟩ => .mk n rfl) o)
  | .function f => .function (Callable.alike_self f)
  | .error k m none => .error k m .none
  | .error k m (some v) => .error k m (.some (Value.alike_self v))
  | .signal m => .signal m

theorem Value.forall_self : ∀ vs : List Value, Forall₂ (Value.Alike .same) vs vs
  | [] => .nil
  | v :: vs => .cons (Value.alike_self v) (Value.forall_self vs)

theorem Slot.forall_self :
    ∀ es : List (String × Slot), Forall₂ (Keyed.Alike (Slot.Alike .same)) es es
  | [] => .nil
  | (k, .ready v) :: es => .cons (.mk k (.ready (Value.alike_self v))) (Slot.forall_self es)
  | (k, .lazy _) :: es => .cons (.mk k (.lazy rfl)) (Slot.forall_self es)

theorem Value.locals_self :
    ∀ ls : List (String × Value), Forall₂ (Keyed.Alike (Value.Alike .same)) ls ls
  | [] => .nil
  | (k, v) :: ls => .cons (.mk k (Value.alike_self v)) (Value.locals_self ls)

theorem Callable.alike_self : ∀ f : Callable, Callable.Alike .same f f
  | .typed f => .typed (TypedFunction.alike_self f)
  | .native f => .native (NativeFunction.alike_self f)

theorem TypedFunction.alike_self : ∀ f : TypedFunction, TypedFunction.Alike .same f f
  | .mk _ c => .mk rfl (TypedCode.alike_self c)

theorem TypedCode.alike_self : ∀ c : TypedCode, TypedCode.Alike .same c c
  | .lambda _ ls ps body => .lambda ps body rfl (Value.locals_self ls)
  | .math f => .math f
  | .library f => .library f
  | .listMethod vs m => .listMethod m (Value.forall_self vs)
  | .stringMethod s m => .stringMethod s m
  | .mappingMethod es m => .mappingMethod m (Slot.forall_self es)
  | .importer _ folder => .importer folder rfl
  | .host name reply => .host name reply

theorem NativeFunction.alike_self : ∀ f : NativeFunction, NativeFunction.Alike .same f f
  | .mk _ c => .mk rfl (NativeCode.alike_self c)

theorem NativeCode.alike_self : ∀ c : NativeCode, NativeCode.Alike .same c c
  | .script _ _ f name => .script f name rfl rfl
  | .builtin b => .builtin b
  | .host name reply => .host name reply
  | .bridge f => .bridge (TypedFunction.alike_self f)

end

theorem Native.alike_self : ∀ v : Native, Native.Alike .same v v
  | .undefined => .undefined
  | .null => .null
  | .boolean b => .boolean b
  | .number x => .number x
  | .big n => .big n
  | .string s => .string s
  | .date n => .date n
  | .bytes ⟨_, data⟩ => .bytes (.mk data rfl)
  | .array _ => .array rfl
  | .object _ => .object rfl
  | .function f => .function (NativeFunction.alike_self f)
  | .marker name => .marker name

theorem Outcome.alike_self : ∀ o : Outcome, Outcome.Alike .same o o
  | .value n v => .value (Native.alike_self n) (Value.alike_self v)
  | .failure first more => .failure first more

theorem Result.alike_self (r : Result) : Result.Alike .same r r :=
  ⟨rfl, r.outcome.alike_self⟩

theorem Origin.eq_of_alike {a b : Origin} : Origin.Alike Eq a b → a = b
  | .mk _ rfl => rfl

theorem Bytes.eq_of_alike {b c : Bytes} : Bytes.Alike .same b c → b = c
  | .mk _ rfl => rfl

theorem optional_eq {α : Type} {R : α → α → Prop} (h : ∀ a b, R a b → a = b) {x y : Option α} :
    Option.Rel R x y → x = y
  | .none => rfl
  | .some h' => congrArg some (h _ _ h')

mutual

theorem Value.eq_of_alike {v w : Value} : Value.Alike .same v w → v = w
  | .null => rfl
  | .boolean _ => rfl
  | .integer _ => rfl
  | .float _ => rfl
  | .big _ => rfl
  | .string _ => rfl
  | .date _ => rfl
  | .bytes h => congrArg Value.bytes (Bytes.eq_of_alike h)
  | .list items origin =>
    congrArg₂ Value.list (Value.eq_of_forall items)
      (optional_eq (fun _ _ => Origin.eq_of_alike) origin)
  | .mapping entries origin =>
    congrArg₂ Value.mapping (Slot.eq_of_forall entries)
      (optional_eq (fun _ _ => Origin.eq_of_alike) origin)
  | .function h => congrArg Value.function (Callable.eq_of_alike h)
  | .error _ _ .none => rfl
  | .error k m (.some h) => congrArg (Value.error k m ∘ some) (Value.eq_of_alike h)
  | .signal _ => rfl
termination_by sizeOf v

theorem Value.eq_of_forall {vs ws : List Value} : Forall₂ (Value.Alike .same) vs ws → vs = ws
  | .nil => rfl
  | .cons h hs => congrArg₂ List.cons (Value.eq_of_alike h) (Value.eq_of_forall hs)
termination_by sizeOf vs

theorem Slot.eq_of_forall {es fs : List (String × Slot)} :
    Forall₂ (Keyed.Alike (Slot.Alike .same)) es fs → es = fs
  | .nil => rfl
  | .cons (.mk k (.ready h)) hs =>
    congrArg₂ (fun v es => (k, Slot.ready v) :: es) (Value.eq_of_alike h) (Slot.eq_of_forall hs)
  | .cons (.mk k (.lazy h)) hs =>
    congrArg₂ (fun t es => (k, Slot.lazy t) :: es) h (Slot.eq_of_forall hs)
termination_by sizeOf es

theorem Value.eq_of_locals {ls ms : List (String × Value)} :
    Forall₂ (Keyed.Alike (Value.Alike .same)) ls ms → ls = ms
  | .nil => rfl
  | .cons (.mk k h) hs =>
    congrArg₂ (fun v ls => (k, v) :: ls) (Value.eq_of_alike h) (Value.eq_of_locals hs)
termination_by sizeOf ls

theorem Callable.eq_of_alike {f g : Callable} : Callable.Alike .same f g → f = g
  | .typed h => congrArg Callable.typed (TypedFunction.eq_of_alike h)
  | .native h => congrArg Callable.native (NativeFunction.eq_of_alike h)
termination_by sizeOf f

theorem TypedFunction.eq_of_alike {f g : TypedFunction} : TypedFunction.Alike .same f g → f = g
  | .mk id h => congrArg₂ TypedFunction.mk id (TypedCode.eq_of_alike h)
termination_by sizeOf f

theorem TypedCode.eq_of_alike {c d : TypedCode} : TypedCode.Alike .same c d → c = d
  | .lambda ps body hc hs =>
    congrArg₂ (fun c ls => TypedCode.lambda c ls ps body) hc (Value.eq_of_locals hs)
  | .math _ => rfl
  | .library _ => rfl
  | .listMethod m hs => congrArg (TypedCode.listMethod · m) (Value.eq_of_forall hs)
  | .stringMethod _ _ => rfl
  | .mappingMethod m hs => congrArg (TypedCode.mappingMethod · m) (Slot.eq_of_forall hs)
  | .importer folder h => congrArg (TypedCode.importer · folder) h
  | .host _ _ => rfl
termination_by sizeOf c

theorem NativeFunction.eq_of_alike {f g : NativeFunction} : NativeFunction.Alike .same f g → f = g
  | .mk id h => congrArg₂ NativeFunction.mk id (NativeCode.eq_of_alike h)
termination_by sizeOf f

theorem NativeCode.eq_of_alike {c d : NativeCode} : NativeCode.Alike .same c d → c = d
  | .script f name hr hb => congrArg₂ (fun r b => NativeCode.script r b f name) hr hb
  | .builtin _ => rfl
  | .host _ _ => rfl
  | .bridge h => congrArg NativeCode.bridge (TypedFunction.eq_of_alike h)
termination_by sizeOf c

end

theorem Native.eq_of_alike {v w : Native} : Native.Alike .same v w → v = w
  | .undefined => rfl
  | .null => rfl
  | .boolean _ => rfl
  | .number _ => rfl
  | .big _ => rfl
  | .string _ => rfl
  | .date _ => rfl
  | .bytes h => congrArg Native.bytes (Bytes.eq_of_alike h)
  | .array h => congrArg Native.array h
  | .object h => congrArg Native.object h
  | .function h => congrArg Native.function (NativeFunction.eq_of_alike h)
  | .marker _ => rfl

theorem Outcome.eq_of_alike {o o' : Outcome} : Outcome.Alike .same o o' → o = o'
  | .value hn hv => congrArg₂ Outcome.value (Native.eq_of_alike hn) (Value.eq_of_alike hv)
  | .failure _ _ => rfl

theorem Result.eq_of_alike {r r' : Result} (h : Result.Alike .same r r') : r = r' := by
  obtain ⟨id, outcome⟩ := r
  obtain ⟨id', outcome'⟩ := r'
  rw [Result.mk.injEq]
  exact ⟨h.id, Outcome.eq_of_alike h.outcome⟩

end Same

end Workbook
