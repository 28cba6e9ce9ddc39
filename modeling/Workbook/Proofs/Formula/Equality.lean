/-
Equality in formulas is an equivalence, but for doubles.

Two values without doubles are equal exactly if they mean the same (`Means.compares`).  What a mapping
means is a function on the forms of its keys, so neither the order nor the spelling of the keys counts.
It is compared from one side only: the mappings have as many entries, and each entry of the one has its
equal in the other.  Since no two keys of a mapping have one form, nothing is left over in the other
(`Holds.eq_iff`).

From this it is read off that equality is reflexive, symmetric and transitive, that integers are equal
by value, and when mappings are equal (`equality_laws`).

Entries can be lazy.  The values are compared in stores in which reading them comes to one value each
(`Throughout`), and a value means something if it is nested finitely deep.

Integers are compared as they are, and so are doubles.  An integer and a double are compared as doubles,
that is, the integer is rounded first; since rounding takes it past no double, they are still in order,
except that the double which the integer is rounded to counts as equal (`numbers_are_compared`).  That
happens to integers beyond `Number.exactBound` only, but there it makes numbers equal that are not, and
equality is not transitive (`different_numbers_are_equal`).
-/
import Mathlib
import Workbook.Engine
import Workbook.Proofs.Mapping
import Workbook.Proofs.Number.Order
import Workbook.Proofs.Walk.Form

open List (Forall₂)

namespace Workbook

/-! ## What is the same in all stores -/

/-- A computation that comes to `a` in all of these stores, with enough fuel, and does not leave
them. -/
def Throughout (I : Store → Prop) {α : Type} (x : Engine → Run α) (a : α) : Prop :=
  ∃ bound, ∀ fuel, bound ≤ fuel → ∀ s, I s → ∃ s', x (Engine.ofFuel fuel) s = .ok a s' ∧ I s'

namespace Throughout

variable {I : Store → Prop} {α β : Type} {x : Engine → Run α} {a b : α}

theorem pure : Throughout I (fun _ => Pure.pure a) a :=
  ⟨0, fun _ _ s hs => ⟨s, rfl, hs⟩⟩

theorem bind {k : Engine → α → Run β} {b : β} (h : Throughout I x a) (h' : Throughout I (fun e => k e a) b) :
    Throughout I (fun e => x e >>= k e) b := by
  obtain ⟨bound, hx⟩ := h
  obtain ⟨bound', hk⟩ := h'
  refine ⟨max bound bound', fun fuel hfuel s hs => ?_⟩
  obtain ⟨s₁, hrun, hs₁⟩ := hx fuel (by omega) s hs
  obtain ⟨s₂, hrest, hs₂⟩ := hk fuel (by omega) s₁ hs₁
  exact ⟨s₂, (Run.bind_run hrun).trans hrest, hs₂⟩

theorem map (f : α → β) (h : Throughout I x a) : Throughout I (fun e => f <$> x e) (f a) := by
  obtain ⟨bound, hx⟩ := h
  refine ⟨bound, fun fuel hfuel s hs => ?_⟩
  obtain ⟨s₁, hrun, hs₁⟩ := hx fuel hfuel s hs
  refine ⟨s₁, ?_, hs₁⟩
  show EStateM.map f (x (Engine.ofFuel fuel)) s = _
  unfold EStateM.map
  rw [hrun]

/-- What an engine answers is what the engine inside of it comes to. -/
theorem ask {r : Request α} (h : Throughout I x a)
    (answers : ∀ fuel, (Engine.ofFuel (fuel + 1)).ask r = x (Engine.ofFuel fuel)) :
    Throughout I (fun e => e.ask r) a := by
  obtain ⟨bound, hx⟩ := h
  refine ⟨bound + 1, fun fuel hfuel s hs => ?_⟩
  obtain ⟨fuel, rfl⟩ : ∃ f, fuel = f + 1 := ⟨fuel - 1, by omega⟩
  show ∃ s', (Engine.ofFuel (fuel + 1)).ask r s = .ok a s' ∧ I s'
  rw [answers]
  exact hx fuel (by omega) s hs

theorem unique {s : Store} (hs : I s) (h : Throughout I x a) (h' : Throughout I x b) : a = b := by
  obtain ⟨bound, hx⟩ := h
  obtain ⟨bound', hx'⟩ := h'
  obtain ⟨_, hrun, -⟩ := hx (max bound bound') (by omega) s hs
  obtain ⟨_, hrun', -⟩ := hx' (max bound bound') (by omega) s hs
  cases hrun.symm.trans hrun'
  rfl

end Throughout

/-- What an entry yields is read in all stores that keep it. -/
theorem Store.Yields.throughout {s : Store} {slot : Slot} {v : Value} (h : s.Yields slot v) :
    Throughout s.Keeps (fun e => e.read slot) v := by
  refine ⟨1, fun fuel hfuel s₁ hs₁ => ?_⟩
  obtain ⟨fuel, rfl⟩ : ∃ f, fuel = f + 1 := ⟨fuel - 1, by omega⟩
  obtain ⟨s₂, hread, h₁₂⟩ := Engine.read_yields (hs₁.yields _ _ h) fuel
  exact ⟨s₂, hread, hs₁.trans h₁₂⟩

namespace Formula

/-! ## Values without doubles -/

/-- A value that has no double in it, however its lists and mappings are nested. -/
inductive Floatless (I : Store → Prop) : Value → Prop
  | null : Floatless I .null
  | boolean (b : Bool) : Floatless I (.boolean b)
  | integer (n : Int64) : Floatless I (.integer n)
  | big (n : Int) : Floatless I (.big n)
  | string (s : String) : Floatless I (.string s)
  | date (milliseconds : Int) : Floatless I (.date milliseconds)
  | bytes (b : Bytes) : Floatless I (.bytes b)
  | list {items : List Value} {origin : Option Origin} (each : ∀ v ∈ items, Floatless I v) :
    Floatless I (.list items origin)
  | mapping {entries : Entries} {origin : Option Origin} (distinct : entries.forms.Nodup)
    (read : ∀ form slot, entries.Under form slot → ∃ v, Throughout I (fun e => e.read slot) v)
    (each : ∀ form slot v, entries.Under form slot → Throughout I (fun e => e.read slot) v →
      Floatless I v) : Floatless I (.mapping entries origin)
  | function (f : Callable) : Floatless I (.function f)
  | error (kind message : String) (payload : Option Value) : Floatless I (.error kind message payload)
  | signal (marker : String) : Floatless I (.signal marker)

/-! ## Meanings -/

/-- What equality looks at in a value. -/
inductive Meaning
  | null
  | boolean (b : Bool)
  | integer (n : Int)
  | string (s : String)
  | date (milliseconds : Int)
  | bytes (data : List UInt8)
  | list (items : List Meaning)
  | mapping (entries : String → Option Meaning)
  | typed (id : Nat)
  | native (id : Nat)
  | error (kind message : String)
  | signal (marker : String)

/-- What a value means in these stores. -/
inductive Means (I : Store → Prop) : Value → Meaning → Prop
  | null : Means I .null .null
  | boolean (b : Bool) : Means I (.boolean b) (.boolean b)
  | integer (n : Int64) : Means I (.integer n) (.integer n.toInt)
  | big (n : Int) : Means I (.big n) (.integer n)
  | string (s : String) : Means I (.string s) (.string s)
  | date (milliseconds : Int) : Means I (.date milliseconds) (.date milliseconds)
  | bytes (b : Bytes) : Means I (.bytes b) (.bytes b.data)
  | list {items : List Value} {ms : List Meaning} {origin : Option Origin}
    (length : items.length = ms.length)
    (each : ∀ i (h : i < items.length) (h' : i < ms.length), Means I items[i] ms[i]) :
    Means I (.list items origin) (.list ms)
  | mapping {entries : Entries} {ms : String → Option Meaning} {origin : Option Origin}
    (distinct : entries.forms.Nodup) (keys : ∀ form, (ms form).isSome ↔ form ∈ entries.forms)
    (read : ∀ form slot, entries.Under form slot → ∃ v, Throughout I (fun e => e.read slot) v)
    (each : ∀ form slot v m, entries.Under form slot → Throughout I (fun e => e.read slot) v →
      ms form = some m → Means I v m) : Means I (.mapping entries origin) (.mapping ms)
  | typed (f : TypedFunction) : Means I (.function (.typed f)) (.typed f.id)
  | native (f : NativeFunction) : Means I (.function (.native f)) (.native f.id)
  | error (kind message : String) (payload : Option Value) :
    Means I (.error kind message payload) (.error kind message)
  | signal (marker : String) : Means I (.signal marker) (.signal marker)

/-- Entries that stand for a function on the forms of their keys; `P` relates values and what they
mean. -/
structure Holds (I : Store → Prop) (P : Value → Meaning → Prop) (entries : Entries)
    (ms : String → Option Meaning) : Prop where
  distinct : entries.forms.Nodup
  keys : ∀ form, (ms form).isSome ↔ form ∈ entries.forms
  read : ∀ form slot, entries.Under form slot → ∃ v, Throughout I (fun e => e.read slot) v
  each : ∀ form slot v m, entries.Under form slot → Throughout I (fun e => e.read slot) v →
    ms form = some m → P v m

variable {I : Store → Prop} {P Q : Value → Meaning → Prop} {es fs : Entries}
  {ms ns : String → Option Meaning} {a b : Value} {m n : Meaning} {s : Store}

namespace Holds

/-- The value that is read from an entry, and what it means. -/
theorem of_under (h : Holds I P es ms) {form : String} {slot : Slot} (hslot : es.Under form slot) :
    ∃ v m, Throughout I (fun e => e.read slot) v ∧ ms form = some m ∧ P v m := by
  obtain ⟨v, hv⟩ := h.read form slot hslot
  obtain ⟨m, hm⟩ := Option.isSome_iff_exists.1 ((h.keys form).2 hslot.mem_forms)
  exact ⟨v, m, hv, hm, h.each form slot v m hslot hv hm⟩

theorem of_not_mem (h : Holds I P es ms) {form : String} (hform : form ∉ es.forms) :
    ms form = none :=
  Option.not_isSome_iff_eq_none.1 (mt (h.keys form).1 hform)

/-- Mappings are the same if they have as many entries, and each entry of the one is in the other:
nothing can be left over there. -/
theorem eq_iff (h : Holds I P es ms) (h' : Holds I Q fs ns) :
    ms = ns ↔ es.length = fs.length ∧ ∀ e ∈ es, ms (Text.lower e.1) = ns (Text.lower e.1) := by
  have hlength (entries : Entries) : entries.forms.length = entries.length := List.length_map _
  constructor
  · rintro rfl
    have hperm : es.forms.Perm fs.forms :=
      (List.perm_ext_iff_of_nodup h.distinct h'.distinct).2 fun form =>
        (h.keys form).symm.trans (h'.keys form)
    exact ⟨by rw [← hlength, ← hlength, hperm.length_eq], fun _ _ => rfl⟩
  · rintro ⟨hcount, hsame⟩
    have hforms {form : String} (hform : form ∈ es.forms) : ms form = ns form := by
      obtain ⟨e, he, rfl⟩ := List.mem_map.1 hform
      exact hsame e he
    have hsubset : es.forms ⊆ fs.forms := fun form hform => by
      rw [← h'.keys, ← hforms hform]
      exact (h.keys form).2 hform
    have hperm : es.forms.Perm fs.forms :=
      (List.subperm_of_subset h.distinct hsubset).perm_of_length_le
        (by rw [hlength, hlength, hcount])
    funext form
    by_cases hform : form ∈ es.forms
    · exact hforms hform
    · rw [h.of_not_mem hform, h'.of_not_mem (mt hperm.mem_iff.2 hform)]

end Holds

/-! ## Deciding what values mean -/

/-- A comparison that always comes to an answer: whether `c` holds. -/
def Decides (I : Store → Prop) (x : Engine → Run Bool) (c : Prop) : Prop :=
  ∃ r : Bool, (r = true ↔ c) ∧ Throughout I x r

namespace Decides

theorem pure {r : Bool} {x : Engine → Run Bool} {c : Prop} (h : ∀ e, x e = Pure.pure r)
    (hr : r = true ↔ c) : Decides I x c :=
  ⟨r, hr, by rw [funext h]; exact .pure⟩

/-- Different meanings that no comparison has to look at. -/
theorem unlike {x : Engine → Run Bool} {c : Prop} (h : ∀ e, x e = Pure.pure false) (hc : ¬ c) :
    Decides I x c :=
  .pure h (by simpa using hc)

theorem after {α : Type} {x : Engine → Run α} {v : α} {k : Engine → α → Run Bool} {c : Prop}
    (hx : Throughout I x v) (h : Decides I (fun e => k e v) c) :
    Decides I (fun e => x e >>= k e) c := by
  obtain ⟨r, hr, hk⟩ := h
  exact ⟨r, hr, hx.bind hk⟩

/-- Two comparisons one after the other, the second one only if the first one holds. -/
theorem and {x y : Engine → Run Bool} {c d : Prop} (h : Decides I x c) (h' : Decides I y d) :
    Decides I (fun e => x e >>= fun r => if r then y e else Pure.pure false) (c ∧ d) := by
  obtain ⟨r, hr, hx⟩ := h
  obtain ⟨r', hr', hy⟩ := h'
  cases r with
  | true => exact ⟨r', by rw [hr', ← hr]; simp, hx.bind hy⟩
  | false => exact ⟨false, by rw [← hr]; simp, hx.bind .pure⟩

/-- A comparison that is only made if the sizes agree. -/
theorem counted {x : Engine → Run Bool} {p c d : Prop} [Decidable p] (hd : d ↔ p ∧ c)
    (h : p → Decides I x c) : Decides I (fun e => if p then x e else Pure.pure false) d := by
  by_cases hp : p
  · obtain ⟨r, hr, hx⟩ := h hp
    simp only [if_pos hp]
    exact ⟨r, hr.trans ⟨fun hc => hd.2 ⟨hp, hc⟩, fun hd' => (hd.1 hd').2⟩, hx⟩
  · exact .unlike (fun _ => if_neg hp) fun hd' => hp (hd.1 hd').1

theorem ask (h : Decides I (fun e => e.equal a b) (m = n)) :
    Decides I (fun e => e.ask (.equal a b)) (m = n) := by
  obtain ⟨r, hr, hx⟩ := h
  exact ⟨r, hr, hx.ask fun _ => rfl⟩

end Decides

/-- A value whose comparison with every other one decides whether that one means `m`. -/
def Compares (I : Store → Prop) (a : Value) (m : Meaning) : Prop :=
  ∀ b n, Means I b n → Decides I (fun e => e.ask (.equal a b)) (m = n)

/-- Items are compared in pairs. -/
theorem decides_equalItems {as bs : List Value} {ms ns : List Meaning}
    (h : Forall₂ (Compares I) as ms) (h' : Forall₂ (Means I) bs ns) (hlen : as.length = bs.length) :
    Decides I (fun e => e.equalItems as bs) (ms = ns) := by
  induction h generalizing bs ns with
  | nil =>
    cases h' with
    | nil => exact .pure (fun _ => rfl) (by simp)
    | cons _ _ => cases hlen
  | cons here _ ih =>
    cases h' with
    | nil => cases hlen
    | cons hb rest =>
      have hall := (here _ _ hb).and (ih rest (Nat.succ.inj hlen))
      rw [List.cons.injEq]
      exact hall

/-- What is found under a key. -/
theorem Holds.readKey? (h : Holds I P es ms) (key : String) :
    (Text.lower key ∉ es.forms ∧ Throughout I (fun e => e.readKey? es key) none) ∨
    ∃ v m, Throughout I (fun e => e.readKey? es key) (some v) ∧ ms (Text.lower key) = some m ∧ P v m := by
  unfold Engine.readKey?
  cases hfind : es.find? key with
  | none => exact .inl ⟨Entries.find?_eq_none_iff.1 hfind, .pure⟩
  | some slot =>
    obtain ⟨v, m, hv, hm, hP⟩ := h.of_under (Entries.under_of_find? hfind)
    exact .inr ⟨v, m, hv.map some, hm, hP⟩

/-- Each entry is looked for in the other mapping. -/
theorem decides_equalEntries (h : Holds I (Compares I) es ms) (h' : Holds I (Means I) fs ns)
    {rest : Entries} (hrest : ∀ e ∈ rest, e ∈ es) :
    Decides I (fun e => e.equalEntries fs rest)
      (∀ e ∈ rest, ms (Text.lower e.1) = ns (Text.lower e.1)) := by
  induction rest with
  | nil => exact .pure (fun _ => rfl) (by simp)
  | cons e rest ih =>
    obtain ⟨key, slot⟩ := e
    rw [List.forall_mem_cons] at hrest ⊢
    obtain ⟨v, m, hv, hm, here⟩ := h.of_under (Entries.under_of_mem hrest.1)
    refine .after hv ?_
    obtain ⟨hmissing, hnone⟩ | ⟨w, n, hsome, hn, hw⟩ := h'.readKey? key
    · refine .after hnone (.unlike (fun _ => rfl) fun hall => ?_)
      have heq := hall.1
      rw [hm, h'.of_not_mem hmissing] at heq
      cases heq
    · refine .after hsome ?_
      rw [hm, hn, Option.some.injEq]
      exact (here w n hw).and (ih hrest.2)

/-- Equality is decided, and it is that of meanings. -/
theorem Means.compares (ha : Means I a m) : Compares I a m := by
  intro b n hb
  refine Decides.ask ?_
  induction ha generalizing b n with
  | null =>
    cases hb with
    | null => exact .pure (fun _ => rfl) (by simp)
    | _ => exact .unlike (fun _ => rfl) nofun
  | boolean x =>
    cases hb with
    | boolean y => exact .pure (fun _ => rfl) (by simp)
    | _ => exact .unlike (fun _ => rfl) nofun
  | integer k =>
    cases hb with
    | integer l | big l => exact .pure (fun _ => rfl) (by simp)
    | _ => exact .unlike (fun _ => rfl) nofun
  | big k =>
    cases hb with
    | integer l | big l => exact .pure (fun _ => rfl) (by simp)
    | _ => exact .unlike (fun _ => rfl) nofun
  | string x =>
    cases hb with
    | string y => exact .pure (fun _ => rfl) (by simp)
    | _ => exact .unlike (fun _ => rfl) nofun
  | date x =>
    cases hb with
    | date y => exact .pure (fun _ => rfl) (by simp)
    | _ => exact .unlike (fun _ => rfl) nofun
  | bytes x =>
    cases hb with
    | bytes y => exact .pure (fun _ => rfl) (by simp)
    | _ => exact .unlike (fun _ => rfl) nofun
  | @list items ms _ length each ih =>
    cases hb with
    | @list items' ns _ length' each' =>
      have hitems : Forall₂ (Compares I) items ms :=
        List.forall₂_iff_get.2 ⟨length, fun i h h' b n hb => (ih i h h' b n hb).ask⟩
      have hitems' : Forall₂ (Means I) items' ns := List.forall₂_iff_get.2 ⟨length', each'⟩
      refine .counted ?_ (decides_equalItems hitems hitems')
      rw [Meaning.list.injEq, length, length']
      exact ⟨fun h => ⟨congrArg List.length h, h⟩, And.right⟩
    | _ => exact .unlike (fun _ => rfl) nofun
  | @mapping es ms _ distinct keys read each ih =>
    cases hb with
    | @mapping fs ns _ distinct' keys' read' each' =>
      have hes : Holds I (Compares I) es ms :=
        ⟨distinct, keys, read, fun form slot v m hslot hv hm b n hb =>
          (ih form slot v m hslot hv hm b n hb).ask⟩
      have hfs : Holds I (Means I) fs ns := ⟨distinct', keys', read', each'⟩
      refine .counted ?_ fun _ => decides_equalEntries hes hfs fun _ he => he
      rw [Meaning.mapping.injEq]
      exact hes.eq_iff hfs
    | _ => exact .unlike (fun _ => rfl) nofun
  | typed f =>
    cases hb with
    | typed g => exact .pure (fun _ => rfl) (by simp [Callable.same])
    | native g => exact .unlike (fun _ => rfl) nofun
    | _ => exact .unlike (fun _ => rfl) nofun
  | native f =>
    cases hb with
    | native g => exact .pure (fun _ => rfl) (by simp [Callable.same])
    | _ => exact .unlike (fun _ => rfl) nofun
  | error kind message payload =>
    cases hb with
    | error kind' message' payload' => exact .pure (fun _ => rfl) (by simp)
    | _ => exact .unlike (fun _ => rfl) nofun
  | signal x =>
    cases hb with
    | signal y => exact .pure (fun _ => rfl) (by simp)
    | _ => exact .unlike (fun _ => rfl) nofun

/-! ## Every value without doubles means something -/

theorem means_of_int? {k : Int} (h : a.int? = some k) : Means I a (.integer k) := by
  cases a with
  | integer n =>
    cases h
    exact .integer _
  | big n =>
    cases h
    exact .big _
  | _ => cases h

theorem Floatless.means (hs : I s) (h : Floatless I a) : ∃ m, Means I a m := by
  induction h with
  | null => exact ⟨_, .null⟩
  | boolean b => exact ⟨_, .boolean b⟩
  | integer n => exact ⟨_, .integer n⟩
  | big n => exact ⟨_, .big n⟩
  | string x => exact ⟨_, .string x⟩
  | date x => exact ⟨_, .date x⟩
  | bytes b => exact ⟨_, .bytes b⟩
  | @list items _ _ ih =>
    choose f hf using ih
    refine ⟨.list (items.attach.map fun v => f v.1 v.2), .list (by simp) fun i h h' => ?_⟩
    rw [List.getElem_map, List.getElem_attach]
    exact hf _ _
  | @mapping es _ distinct read each ih =>
    have hform (form : String) : ∃ o : Option Meaning, (o.isSome ↔ form ∈ es.forms) ∧
        ∀ slot v m, es.Under form slot → Throughout I (fun e => e.read slot) v → o = some m →
          Means I v m := by
      by_cases hmem : form ∈ es.forms
      · obtain ⟨slot, hslot⟩ := Entries.exists_under hmem
        obtain ⟨v, hv⟩ := read form slot hslot
        obtain ⟨m, hm⟩ := ih form slot v hslot hv
        refine ⟨some m, by simpa using hmem, fun slot' v' m' hslot' hv' hm' => ?_⟩
        obtain rfl := hslot.unique distinct hslot'
        obtain rfl := hv.unique hs hv'
        cases hm'
        exact hm
      · exact ⟨none, by simpa using hmem, fun _ _ _ _ _ h => nomatch h⟩
    choose ms hms using hform
    exact ⟨.mapping ms, .mapping distinct (fun form => (hms form).1) read fun form => (hms form).2⟩
  | function f =>
    cases f with
    | typed f => exact ⟨_, .typed f⟩
    | native f => exact ⟨_, .native f⟩
  | error kind message payload => exact ⟨_, .error kind message payload⟩
  | signal x => exact ⟨_, .signal x⟩

/-! ## The laws -/

/-- Values that are equal in formulas. -/
def Equal (I : Store → Prop) (a b : Value) : Prop :=
  Throughout I (fun e => e.ask (.equal a b)) true

theorem equal_iff (hs : I s) (ha : Means I a m) (hb : Means I b n) : Equal I a b ↔ m = n := by
  obtain ⟨r, hr, hx⟩ := ha.compares b n hb
  rw [← hr]
  constructor
  · exact fun h => hx.unique hs h
  · rintro rfl
    exact hx

/-- Equality of values without doubles is decided. -/
theorem Floatless.decides (hs : I s) (ha : Floatless I a) (hb : Floatless I b) :
    Decides I (fun e => e.ask (.equal a b)) (Equal I a b) := by
  obtain ⟨m, hm⟩ := ha.means hs
  obtain ⟨n, hn⟩ := hb.means hs
  rw [equal_iff hs hm hn]
  exact hm.compares b n hn

/-- An item that equals a value is looked for from the front. -/
theorem decides_hasItem (hs : I s) {items : List Value} (hitems : ∀ v ∈ items, Floatless I v)
    (hb : Floatless I b) :
    Decides I (fun e => e.hasItem b items) (∃ v ∈ items, Equal I v b) := by
  induction items with
  | nil => exact .pure (fun _ => rfl) (by simp)
  | cons v items ih =>
    rw [List.forall_mem_cons] at hitems
    obtain ⟨r, hr, hx⟩ := hitems.1.decides hs hb
    obtain ⟨r', hr', hy⟩ := ih hitems.2
    rw [List.exists_mem_cons_iff]
    cases r with
    | true => exact ⟨true, by simp [← hr], hx.bind .pure⟩
    | false => exact ⟨r', by simp [← hr, hr'], hx.bind hy⟩

/-- What equality of values without doubles is like. -/
structure EqualityLaws (I : Store → Prop) : Prop where
  /-- Two values are equal or not, and always the same of both. -/
  decided : ∀ {a b}, Floatless I a → Floatless I b → ∃! r, Throughout I (fun e => e.ask (.equal a b)) r
  refl : ∀ {a}, Floatless I a → Equal I a a
  symm : ∀ {a b}, Floatless I a → Floatless I b → Equal I a b → Equal I b a
  trans : ∀ {a b c}, Floatless I a → Floatless I b → Floatless I c → Equal I a b → Equal I b c →
    Equal I a c
  /-- The tags of integers do not count. -/
  integers : ∀ {a b k l}, a.int? = some k → b.int? = some l → (Equal I a b ↔ k = l)
  lists : ∀ {as bs o o'}, Floatless I (.list as o) → Floatless I (.list bs o') →
    (Equal I (.list as o) (.list bs o') ↔ Forall₂ (Equal I) as bs)
  /-- Neither the order of the keys counts nor how they are spelled. -/
  mappings : ∀ {es fs : Entries} {o o'}, Floatless I (.mapping es o) → Floatless I (.mapping fs o') →
    (Equal I (.mapping es o) (.mapping fs o') ↔ (∀ form, form ∈ es.forms ↔ form ∈ fs.forms) ∧
      ∀ form slot slot' v w, es.Under form slot → fs.Under form slot' →
        Throughout I (fun e => e.read slot) v → Throughout I (fun e => e.read slot') w → Equal I v w)
  /-- Functions are equal only to themselves, whatever they do. -/
  functions : ∀ {f g : Callable}, Equal I (.function f) (.function g) ↔ f.same g = true
  /-- What else failed values hold does not count. -/
  errors : ∀ {kind message kind' message' p p'},
    Equal I (.error kind message p) (.error kind' message' p') ↔ kind = kind' ∧ message = message'
  /-- The operators are this equality. -/
  operators : ∀ {a b r}, Throughout I (fun e => e.ask (.equal a b)) r →
    Throughout I (fun e => e.applyBinary .eq a b) (.boolean r) ∧
      Throughout I (fun e => e.applyBinary .notEq a b) (.boolean !r)
  /-- A list contains what one of its items equals. -/
  contains : ∀ {items b}, (∀ v ∈ items, Floatless I v) → Floatless I b →
    ∃ r : Bool, (r = true ↔ ∃ v ∈ items, Equal I v b) ∧
      Throughout I (fun e => e.callListMethod items .contains [b]) (.boolean r)

/-- Items are equal in pairs. -/
theorem equal_list (hs : I s) {as bs : List Value} {o o' : Option Origin}
    (ha : Floatless I (.list as o)) (hb : Floatless I (.list bs o')) :
    Equal I (.list as o) (.list bs o') ↔ Forall₂ (Equal I) as bs := by
  obtain ⟨m, hm⟩ := ha.means hs
  obtain ⟨n, hn⟩ := hb.means hs
  rw [equal_iff hs hm hn]
  cases hm with
  | @list _ ms _ length each =>
    cases hn with
    | @list _ ns _ length' each' =>
      rw [Meaning.list.injEq, List.forall₂_iff_get]
      constructor
      · rintro rfl
        exact ⟨length.trans length'.symm, fun i h h' =>
          (equal_iff hs (each i h (length ▸ h)) (each' i h' (length ▸ h))).2 rfl⟩
      · rintro ⟨hlen, hall⟩
        refine List.ext_getElem (by omega) fun i h h' => ?_
        exact (equal_iff hs (each i (by omega) h) (each' i (by omega) h')).1 (hall i _ _)

/-- Entries under the same forms are equal. -/
theorem equal_mapping (hs : I s) {o o' : Option Origin} (ha : Floatless I (.mapping es o))
    (hb : Floatless I (.mapping fs o')) :
    Equal I (.mapping es o) (.mapping fs o') ↔ (∀ form, form ∈ es.forms ↔ form ∈ fs.forms) ∧
      ∀ form slot slot' v w, es.Under form slot → fs.Under form slot' →
        Throughout I (fun e => e.read slot) v → Throughout I (fun e => e.read slot') w → Equal I v w := by
  obtain ⟨m, hm⟩ := ha.means hs
  obtain ⟨n, hn⟩ := hb.means hs
  rw [equal_iff hs hm hn]
  cases hm with
  | @mapping _ ms _ distinct keys read each =>
    cases hn with
    | @mapping _ ns _ distinct' keys' read' each' =>
      have hes : Holds I (Means I) es ms := ⟨distinct, keys, read, each⟩
      have hfs : Holds I (Means I) fs ns := ⟨distinct', keys', read', each'⟩
      rw [Meaning.mapping.injEq]
      constructor
      · rintro rfl
        refine ⟨fun form => (keys form).symm.trans (keys' form), ?_⟩
        intro form slot slot' v w hslot hslot' hv hw
        obtain ⟨m, hm⟩ := Option.isSome_iff_exists.1 ((keys form).2 hslot.mem_forms)
        exact (equal_iff hs (each _ _ _ _ hslot hv hm) (each' _ _ _ _ hslot' hw hm)).2 rfl
      · rintro ⟨hforms, hequal⟩
        funext form
        by_cases hform : form ∈ es.forms
        · obtain ⟨slot, hslot⟩ := Entries.exists_under hform
          obtain ⟨slot', hslot'⟩ := Entries.exists_under ((hforms form).1 hform)
          obtain ⟨v, m, hv, hm, hvm⟩ := hes.of_under hslot
          obtain ⟨w, n, hw, hn, hwn⟩ := hfs.of_under hslot'
          rw [hm, hn, (equal_iff hs hvm hwn).1 (hequal _ _ _ _ _ hslot hslot' hv hw)]
        · rw [hes.of_not_mem hform, hfs.of_not_mem (mt (hforms form).2 hform)]

/-- Equality of values without doubles is an equivalence: that of meaning the same. -/
theorem equality_laws (hs : I s) : EqualityLaws I where
  decided ha hb := by
    obtain ⟨r, -, hr⟩ := ha.decides hs hb
    exact ⟨r, hr, fun r' hr' => hr'.unique hs hr⟩
  refl ha := by
    obtain ⟨m, hm⟩ := ha.means hs
    exact (equal_iff hs hm hm).2 rfl
  symm ha hb h := by
    obtain ⟨m, hm⟩ := ha.means hs
    obtain ⟨n, hn⟩ := hb.means hs
    exact (equal_iff hs hn hm).2 ((equal_iff hs hm hn).1 h).symm
  trans ha hb hc h h' := by
    obtain ⟨m, hm⟩ := ha.means hs
    obtain ⟨n, hn⟩ := hb.means hs
    obtain ⟨k, hk⟩ := hc.means hs
    exact (equal_iff hs hm hk).2 (((equal_iff hs hm hn).1 h).trans ((equal_iff hs hn hk).1 h'))
  integers ha hb := by
    rw [equal_iff hs (means_of_int? ha) (means_of_int? hb), Meaning.integer.injEq]
  lists ha hb := equal_list hs ha hb
  mappings ha hb := equal_mapping hs ha hb
  functions {f g} := by
    have hsame : Throughout I (fun e => e.ask (.equal (.function f) (.function g))) (f.same g) :=
      Throughout.pure.ask fun _ => rfl
    refine ⟨hsame.unique hs, fun h => ?_⟩
    rw [h] at hsame
    exact hsame
  errors := by
    intros
    rw [equal_iff hs (.error _ _ _) (.error _ _ _), Meaning.error.injEq]
  operators h := ⟨h.bind .pure, h.bind .pure⟩
  contains hitems hb := by
    obtain ⟨r, hr, hx⟩ := decides_hasItem hs hitems hb
    exact ⟨r, hr, hx.bind .pure⟩

/-- A mapping has no double in it if its entries yield values without. -/
theorem Floatless.of_yields {o : Option Origin} (distinct : es.forms.Nodup)
    (h : ∀ e ∈ es, ∃ v, s.Yields e.2 v ∧ Floatless s.Keeps v) : Floatless s.Keeps (.mapping es o) := by
  refine .mapping distinct (fun form slot hslot => ?_) fun form slot v hslot hv => ?_
  · obtain ⟨key, hmem, -⟩ := hslot
    obtain ⟨v, hv, -⟩ := h _ hmem
    exact ⟨v, hv.throughout⟩
  · obtain ⟨key, hmem, -⟩ := hslot
    obtain ⟨w, hw, hfloatless⟩ := h _ hmem
    obtain rfl := hw.throughout.unique (.refl s) hv
    exact hfloatless

/-! ### Two spellings -/

/-- Two entries, one put off and one read before. -/
def sizeAndRows : Store :=
  { Store.empty with
    thunks := #[.pending (.value (.integer 1)), .done (.list [.big 2, .null] none)] }

def sizeFirst : Entries :=
  [("Size", .lazy 0), ("rows", .lazy 1)]

def rowsFirst : Entries :=
  [("ROWS", .ready (.list [.integer 2, .null] none)), ("size", .ready (.big 1))]

/-- Mappings in two spellings and orders are equal, from either side. -/
theorem spellings_are_equal : EqualityLaws sizeAndRows.Keeps ∧
    Equal sizeAndRows.Keeps (.mapping sizeFirst none) (.mapping rowsFirst none) ∧
    Equal sizeAndRows.Keeps (.mapping rowsFirst none) (.mapping sizeFirst none) := by
  have laws : EqualityLaws sizeAndRows.Keeps := equality_laws (.refl sizeAndRows)
  have hsize : sizeAndRows.Yields (.lazy 0) (.integer 1) := .pending rfl
  have hrows : sizeAndRows.Yields (.lazy 1) (.list [.big 2, .null] none) := .done rfl
  have hitems {v : Value} (hv : Floatless sizeAndRows.Keeps v) :
      Floatless sizeAndRows.Keeps (.list [v, .null] none) := by
    refine .list fun u hu => ?_
    obtain rfl | rfl := List.mem_pair.1 hu
    · exact hv
    · exact .null
  have ha : Floatless sizeAndRows.Keeps (.mapping sizeFirst none) := by
    refine .of_yields (by decide) fun e he => ?_
    obtain rfl | rfl := List.mem_pair.1 he
    · exact ⟨_, hsize, .integer 1⟩
    · exact ⟨_, hrows, hitems (.big 2)⟩
  have hb : Floatless sizeAndRows.Keeps (.mapping rowsFirst none) := by
    refine .of_yields (by decide) fun e he => ?_
    obtain rfl | rfl := List.mem_pair.1 he
    · exact ⟨_, .ready, hitems (.integer 2)⟩
    · exact ⟨_, .ready, .big 1⟩
  have hone : Equal sizeAndRows.Keeps (.integer 1) (.big 1) :=
    (laws.integers (rfl : (Value.integer 1).int? = some 1) rfl).2 rfl
  have htwo : Equal sizeAndRows.Keeps (.list [.big 2, .null] none) (.list [.integer 2, .null] none) := by
    refine (laws.lists (hitems (.big 2)) (hitems (.integer 2))).2 ?_
    have hfirst := (laws.integers (rfl : (Value.big 2).int? = some 2)
      (rfl : (Value.integer 2).int? = some 2)).2 rfl
    exact .cons hfirst (.cons (laws.refl .null) .nil)
  have hequal : Equal sizeAndRows.Keeps (.mapping sizeFirst none) (.mapping rowsFirst none) := by
    refine (laws.mappings ha hb).2 ⟨fun form => ?_, ?_⟩
    · have hforms : sizeFirst.forms = ["size", "rows"] := by decide
      have hforms' : rowsFirst.forms = ["rows", "size"] := by decide
      rw [hforms, hforms', List.mem_pair, List.mem_pair, or_comm]
    · rintro form slot slot' v w ⟨key, hmem, rfl⟩ ⟨key', hmem', hform⟩ hv hw
      obtain hkey | hkey := List.mem_pair.1 hmem <;>
        obtain hkey' | hkey' := List.mem_pair.1 hmem' <;> cases hkey <;> cases hkey'
      · exact absurd hform (by decide)
      · obtain rfl := hsize.throughout.unique (.refl _) hv
        obtain rfl := Store.Yields.ready.throughout.unique (.refl _) hw
        exact hone
      · obtain rfl := hrows.throughout.unique (.refl _) hv
        obtain rfl := Store.Yields.ready.throughout.unique (.refl _) hw
        exact htwo
      · exact absurd hform (by decide)
  exact ⟨laws, hequal, laws.symm ha hb hequal⟩

end Formula

/-! ## Numbers -/

/-- The number that a value is, if it is an integer or a finite double. -/
def Value.number? : Value → Option ℚ
  | .float x => Number.value? x
  | v => v.int?.map (↑)

namespace Formula

/-- What comparing two values comes to. -/
structure ComparesAs (a b : Value) (o : Ordering) : Prop where
  order : compare? a b = some o
  equal : ∀ e : Engine, e.equal a b = pure (o == .eq)

/-- An integer, and a double that it is rounded to but which is not the same number. -/
def Rounded (n : Int) (x : Float) : Prop :=
  (Number.ofInt n == x) = true ∧ Number.value? x ≠ some (n : ℚ)

/-- Two values of which one is an integer, and the other is the double that it is rounded to but not the
same number. -/
def Blurred (a b : Value) : Prop :=
  ∃ n x, Rounded n x ∧ (a.int? = some n ∧ b = .float x ∨ a = .float x ∧ b.int? = some n)

/-- Only long integers are changed by rounding. -/
theorem Rounded.long {n : Int} {x : Float} (h : Rounded n x) : Number.exactBound < n.natAbs := by
  by_contra bound
  exact h.2 (Number.value?_of_beq h.1 ▸ Number.value?_ofInt (not_lt.1 bound))

theorem compare_intCast (m n : Int) : compare (m : ℚ) n = compare m n := by
  obtain h | rfl | h := lt_trichotomy m n
  · rw [compare_lt_iff_lt.2 h, compare_lt_iff_lt.2 (Int.cast_lt.2 h)]
  · rw [compare_eq_iff_eq.2 rfl, compare_eq_iff_eq.2 rfl]
  · rw [compare_gt_iff_gt.2 h, compare_gt_iff_gt.2 (Int.cast_lt.2 h)]

section

variable {a b : Value} {m n : Int} {x y : Float} {p q : ℚ}

theorem compares_ints (ha : a.int? = some m) (hb : b.int? = some n) :
    ComparesAs a b (compare (m : ℚ) n) := by
  rw [compare_intCast]
  have hequal : (m == n) = (compare m n == .eq) := by
    rw [Bool.eq_iff_iff, beq_iff_eq, beq_iff_eq, compare_eq_iff_eq]
  cases a <;> cases ha <;> cases b <;> cases hb <;>
    exact ⟨rfl, fun _ => congrArg pure hequal⟩

theorem compares_floats (hx : Number.value? x = some p) (hy : Number.value? y = some q) :
    ComparesAs (.float x) (.float y) (compare p q) := by
  obtain ⟨horder, hequal⟩ := Number.compare?_eq hx hy
  exact ⟨horder, fun _ => congrArg pure hequal⟩

/-- An integer and a double are compared as doubles. -/
theorem compares_as_floats {o o' : Ordering} (ha : a.int? = some n)
    (order : Number.compare? (Number.ofInt n) x = some o)
    (order' : Number.compare? x (Number.ofInt n) = some o')
    (equal : (Number.ofInt n == x) = (o == .eq)) (equal' : (x == Number.ofInt n) = (o' == .eq)) :
    ComparesAs a (.float x) o ∧ ComparesAs (.float x) a o' := by
  cases a <;> cases ha <;>
    exact ⟨⟨order, fun _ => congrArg pure equal⟩, ⟨order', fun _ => congrArg pure equal'⟩⟩

/-- An integer and a double are compared by value, unless rounding makes them equal. -/
theorem compares_int_float (ha : a.int? = some n) (hx : Number.value? x = some q) :
    (¬ Rounded n x → ComparesAs a (.float x) (compare (n : ℚ) q) ∧
      ComparesAs (.float x) a (compare q n)) ∧
    (Rounded n x → ComparesAs a (.float x) .eq ∧ ComparesAs (.float x) a .eq) := by
  obtain ⟨⟨horder, horder'⟩, hswap, hsame⟩ := Number.compare?_ofInt n hx
  by_cases heq : (Number.ofInt n == x) = true
  · rw [if_pos heq] at horder horder'
    have hequal := compares_as_floats ha horder horder' heq (hswap.trans heq)
    refine ⟨fun hrounded => ?_, fun _ => hequal⟩
    have hq : q = n := by
      by_contra hne
      exact hrounded ⟨heq, fun hn => hne (Option.some.inj (hx.symm.trans hn))⟩
    rw [hq, compare_eq_iff_eq.2 rfl]
    exact hequal
  · have hne : q ≠ n := mt hsame heq
    rw [if_neg heq] at horder horder'
    rw [Bool.not_eq_true] at heq
    refine ⟨fun _ => compares_as_floats ha horder horder' ?_ ?_, fun hrounded => ?_⟩
    · rw [heq, eq_comm, beq_eq_false_iff_ne]
      exact mt compare_eq_iff_eq.1 hne.symm
    · rw [hswap, heq, eq_comm, beq_eq_false_iff_ne]
      exact mt compare_eq_iff_eq.1 hne
    · exact absurd (heq.symm.trans hrounded.1) nofun

/-- A number is an integer or a double. -/
theorem number?_cases (hp : a.number? = some p) :
    (∃ n : Int, a.int? = some n ∧ p = n) ∨ ∃ x, a = .float x ∧ Number.value? x = some p := by
  cases a with
  | float x => exact .inr ⟨x, rfl, hp⟩
  | integer n => exact .inl ⟨_, rfl, (Option.some.inj hp).symm⟩
  | big n => exact .inl ⟨_, rfl, (Option.some.inj hp).symm⟩
  | _ => cases hp

theorem Blurred.symm (h : Blurred a b) : Blurred b a := by
  obtain ⟨n, x, hrounded, htags⟩ := h
  exact ⟨n, x, hrounded, htags.symm.imp And.symm And.symm⟩

theorem blurred_iff (ha : a.int? = some n) : Blurred a (.float x) ↔ Rounded n x := by
  refine ⟨?_, fun h => ⟨n, x, h, .inl ⟨ha, rfl⟩⟩⟩
  rintro ⟨m, y, hrounded, ⟨hm, hy⟩ | ⟨rfl, -⟩⟩
  · cases ha.symm.trans hm
    cases hy
    exact hrounded
  · cases ha

theorem not_blurred_ints (ha : a.int? = some m) (hb : b.int? = some n) : ¬ Blurred a b := by
  rintro ⟨_, x, -, ⟨-, rfl⟩ | ⟨rfl, -⟩⟩
  · cases hb
  · cases ha

theorem not_blurred_floats : ¬ Blurred (.float x) (.float y) := by
  rintro ⟨_, _, -, ⟨h, -⟩ | ⟨-, h⟩⟩ <;> cases h

/-- Numbers are compared by value, except that a long integer counts as equal to the double that it is
rounded to. -/
theorem numbers_are_compared (hp : a.number? = some p) (hq : b.number? = some q) :
    (¬ Blurred a b → ComparesAs a b (compare p q)) ∧
      (Blurred a b → p ≠ q ∧ ComparesAs a b .eq ∧
        ∃ n, (a.int? = some n ∨ b.int? = some n) ∧ Number.exactBound < n.natAbs) := by
  obtain ⟨m, ha, rfl⟩ | ⟨x, rfl, hx⟩ := number?_cases hp <;>
    obtain ⟨n, hb, rfl⟩ | ⟨y, rfl, hy⟩ := number?_cases hq
  · exact ⟨fun _ => compares_ints ha hb, fun h => absurd h (not_blurred_ints ha hb)⟩
  · obtain ⟨hexact, hrounded⟩ := compares_int_float ha hy
    rw [blurred_iff ha]
    refine ⟨fun h => (hexact h).1, fun h => ⟨?_, (hrounded h).1, m, .inl ha, h.long⟩⟩
    rintro rfl
    exact h.2 hy
  · obtain ⟨hexact, hrounded⟩ := compares_int_float hb hx
    have hblurred : Blurred (.float x) b ↔ Rounded n x :=
      ⟨fun h => (blurred_iff hb).1 h.symm, fun h => ((blurred_iff hb).2 h).symm⟩
    rw [hblurred]
    refine ⟨fun h => (hexact h).2, fun h => ⟨?_, (hrounded h).2, n, .inr hb, h.long⟩⟩
    rintro rfl
    exact h.2 hx
  · exact ⟨fun _ => compares_floats hx hy, fun h => absurd h not_blurred_floats⟩

end

/-! ## A long integer -/

/-- The double that 2 ^ 53 and 2 ^ 53 + 1 are rounded to. -/
def longDouble : Float :=
  Float.ofBits 0x4340000000000000

theorem value?_longDouble : Number.value? longDouble = some 9007199254740992 := by
  have hexact : Number.exact longDouble = .finite false (2 ^ 52) 1 := rfl
  rw [Number.value?_of_exact hexact]
  norm_num

theorem rounded_longDouble : Rounded 9007199254740993 longDouble := by
  refine ⟨rfl, ?_⟩
  rw [value?_longDouble]
  norm_num

/-- Of two integers that are larger than a double, one is rounded to it. -/
theorem long_integers_are_compared :
    (Value.number? (.integer 9007199254740993) = some 9007199254740993 ∧
      ComparesAs (.integer 9007199254740993) (.float longDouble) .eq) ∧
    (Value.number? (.integer 9007199254740994) = some 9007199254740994 ∧
      ComparesAs (.integer 9007199254740994) (.float longDouble) .gt) := by
  have hrounded : Blurred (.integer 9007199254740993) (.float longDouble) :=
    (blurred_iff rfl).2 rounded_longDouble
  have hexact : ¬ Blurred (.integer 9007199254740994) (.float longDouble) :=
    fun h => absurd ((blurred_iff rfl).1 h).1 (by decide)
  have hlong : Value.number? (.float longDouble) = some 9007199254740992 := value?_longDouble
  have hnumber : Value.number? (.integer 9007199254740994) = some 9007199254740994 := rfl
  have hcompare := (numbers_are_compared hnumber hlong).1 hexact
  rw [compare_gt_iff_gt.2 (by norm_num)] at hcompare
  exact ⟨⟨rfl, ((numbers_are_compared rfl hlong).2 hrounded).2.1⟩, hnumber, hcompare⟩

/-- A long integer is equal to a double that is equal to another integer. -/
theorem different_numbers_are_equal :
    Value.number? (.integer 9007199254740993) = some 9007199254740993 ∧
    Value.number? (.float longDouble) = some 9007199254740992 ∧
    ComparesAs (.integer 9007199254740993) (.float longDouble) .eq ∧
    ComparesAs (.float longDouble) (.integer 9007199254740992) .eq ∧
    ComparesAs (.integer 9007199254740993) (.integer 9007199254740992) .gt :=
  ⟨rfl, value?_longDouble, ⟨rfl, fun _ => rfl⟩, ⟨rfl, fun _ => rfl⟩, ⟨rfl, fun _ => rfl⟩⟩

end Formula
end Workbook
