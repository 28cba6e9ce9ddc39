/-
Heaps of arrays and objects, and what freezing makes of them.

`Store.Becomes` makes containers, modifies and freezes them, any number of times and in any
order, so that they may share and contain one another in any way.  `Store.freeze` passes by what
is frozen already; that nothing behind it is left out rests on an invariant of heaps
(`Store.Firm`): what is in a frozen container is frozen.  Freezing breaks it on the way and has
restored it at the end.  `freezing_reaches_all` says what freezing comes to, and that what was
reached by it is never modified again.
-/
import Mathlib
import Workbook.Proofs.Session.Captured
import Workbook.Proofs.Snapshot

namespace Workbook

/-! ## Heaps -/

/-- A modification of a container that is there, by which nothing is put into containers that is
not there. -/
inductive Modification.Within (s : Store) : Modification → Prop
  | items {place : Nat} {f : Store → Except Cause (Array Native → Array Native)}
      (there : place < s.arrays.size)
      (put : ∀ g, f (s.modifyArray place .counted) = .ok g →
        ∀ v ∈ (g (s.items place)).toList, s.Has v) : Within s (.items place f)
  | fields {place : Nat} {f : Fields → Fields} (there : place < s.objects.size)
      (put : ∀ e ∈ f (s.fields place), s.Has e.2) : Within s (.fields place f)
  | freeze {v : Native} (there : s.Has v) : Within s (.freeze v)
  | newArray {items : Array Native} (there : ∀ v ∈ items.toList, s.Has v) :
      Within s (.newArray items)
  | newObject {fields : Fields} (there : ∀ e ∈ fields, s.Has e.2) : Within s (.newObject fields)

/-- What becomes of a store through modifications of its containers. -/
inductive Store.Becomes (s : Store) : Store → Prop
  | refl : Becomes s s
  | step {t : Store} {m : Modification} (before : Becomes s t) (within : m.Within t) :
      Becomes s (m.run.last t)

namespace Store

theorem Becomes.head {s t : Store} {m : Modification} (within : m.Within s)
    (after : (m.run.last s).Becomes t) : s.Becomes t := by
  induction after with
  | refl => exact .step .refl within
  | step _ hm ih => exact .step ih hm

/-! ### What a modification keeps -/

theorem bound_modifyArray (s : Store) (place : Nat)
    (f : Container (Array Native) → Container (Array Native)) :
    (s.modifyArray place f).bound = s.bound :=
  bound_congr Array.size_modify rfl

theorem bound_modifyObject (s : Store) (place : Nat) (f : Container Fields → Container Fields) :
    (s.modifyObject place f).bound = s.bound :=
  bound_congr rfl Array.size_modify

theorem items_counted (s : Store) (place : Nat) :
    (s.modifyArray place .counted).items place = s.items place := by
  unfold items modifyArray
  rw [Array.getElem?_modify, if_pos rfl]
  cases s.arrays[place]? <;> rfl

theorem fields_counted (s : Store) (place : Nat) :
    (s.modifyObject place .counted).fields place = s.fields place := by
  unfold fields modifyObject
  rw [Array.getElem?_modify, if_pos rfl]
  cases s.objects[place]? <;> rfl

namespace Firm

variable {s : Store} (h : s.Firm)
include h

/-- Counting a modification of an array that is not frozen. -/
theorem countArray {place : Nat} (there : place < s.arrays.size)
    (hz : s.arrayFrozen place = false) : (s.modifyArray place .counted).Firm :=
  h.modifyArray ⟨rfl, there⟩ hz (fun _ _ hc => ⟨hc.content, congrArg (· + 1) hc.version, hc.frozen⟩)
    fun _ => rfl

/-- New contents for an array that is not frozen. -/
theorem rewriteArray {place : Nat} {g : Array Native → Array Native}
    (there : place < s.arrays.size) (hz : s.arrayFrozen place = false)
    (put : ∀ v ∈ (g (s.items place)).toList, s.Has v) : (s.modifyArray place (.mapped g)).Firm := by
  obtain ⟨c, hc⟩ : ∃ c, s.arrays[place]? = some c := ⟨_, Array.getElem?_eq_getElem there⟩
  -- as a change that does not look at the container, it maps alike containers to alike ones
  have hconst : s.modifyArray place (.mapped g) =
      s.modifyArray place (.mapped fun _ => g c.content) := by
    unfold Store.modifyArray
    rw [modify_congr fun d hd => ?_]
    rw [hc] at hd
    cases hd
    rfl
  rw [hconst]
  refine h.modifyArray ⟨rfl, there⟩ hz (fun c' d' hcd => ⟨?_, hcd.version, hcd.frozen⟩) fun _ => rfl
  exact List.forall₂_same.2 (items_of_some hc ▸ put)

theorem countObject {place : Nat} (there : place < s.objects.size)
    (hz : s.objectFrozen place = false) : (s.modifyObject place .counted).Firm :=
  h.modifyObject ⟨rfl, there⟩ hz (fun _ _ hc => ⟨hc.content, congrArg (· + 1) hc.version, hc.frozen⟩)
    fun _ => rfl

theorem rewriteObject {place : Nat} {g : Fields → Fields} (there : place < s.objects.size)
    (hz : s.objectFrozen place = false) (put : ∀ e ∈ g (s.fields place), s.Has e.2) :
    (s.modifyObject place (.mapped g)).Firm := by
  obtain ⟨c, hc⟩ : ∃ c, s.objects[place]? = some c := ⟨_, Array.getElem?_eq_getElem there⟩
  have hconst : s.modifyObject place (.mapped g) =
      s.modifyObject place (.mapped fun _ => g c.content) := by
    unfold Store.modifyObject
    rw [modify_congr fun d hd => ?_]
    rw [hc] at hd
    cases hd
    rfl
  rw [hconst]
  refine h.modifyObject ⟨rfl, there⟩ hz (fun c' d' hcd => ⟨?_, hcd.version, hcd.frozen⟩) fun _ => rfl
  exact List.forall₂_same.2 fun e he => .mk e.1 (put e ((fields_of_some hc).symm ▸ he))

/-- A modification keeps a store firm, and does nothing to frozen containers. -/
theorem modification {m : Modification} (hm : m.Within s) :
    (m.run.last s).Firm ∧ s.FrozenKept (m.run.last s) := by
  cases hm with
  | @items place f there put =>
    show ((Run.rewriteItems place f).last s).Firm ∧ s.FrozenKept ((Run.rewriteItems place f).last s)
    unfold Run.last
    rw [Coupling.rewriteItems_run]
    cases hz : s.arrayFrozen place with
    | true => exact ⟨h, .refl s⟩
    | false =>
      have counted := h.countArray there hz
      have kept := (ordinary_modifyArray hz .counted).toFrozenKept
      have hz' : (s.modifyArray place .counted).arrayFrozen place = false :=
        (Coupling.arrayFrozen_modifyArray s place (f := .counted) fun _ => rfl).trans hz
      cases hf : f (s.modifyArray place .counted) with
      | error c => exact ⟨counted, kept⟩
      | ok g =>
        refine ⟨counted.rewriteArray (by simpa [Store.modifyArray] using there) hz' ?_,
          kept.trans (ordinary_modifyArray hz' _).toFrozenKept⟩
        rw [items_counted]
        unfold Has
        rw [bound_modifyArray]
        exact put g hf
  | @fields place f there put =>
    show ((Run.modifyFields place f).last s).Firm ∧ s.FrozenKept ((Run.modifyFields place f).last s)
    unfold Run.last
    rw [Coupling.modifyFields_run]
    cases hz : s.objectFrozen place with
    | true => exact ⟨h, .refl s⟩
    | false =>
      have counted := h.countObject there hz
      have kept := (ordinary_modifyObject hz .counted).toFrozenKept
      have hz' : (s.modifyObject place .counted).objectFrozen place = false :=
        (Coupling.objectFrozen_modifyObject s place (f := .counted) fun _ => rfl).trans hz
      refine ⟨counted.rewriteObject (by simpa [Store.modifyObject] using there) hz' ?_,
        kept.trans (ordinary_modifyObject hz' _).toFrozenKept⟩
      rw [fields_counted]
      unfold Has
      rw [bound_modifyObject]
      exact put
  | freeze there =>
    obtain ⟨firm, freezes, -⟩ := h.freeze there
    exact ⟨firm, freezes.ordinary.toFrozenKept⟩
  | newArray there => exact ⟨h.newArray there, (s.ordinary_newArray _).toFrozenKept⟩
  | newObject there => exact ⟨h.newObject there, (s.ordinary_newObject _).toFrozenKept⟩

/-- So does any number of them. -/
theorem becomes {t : Store} (ht : s.Becomes t) : t.Firm ∧ s.FrozenKept t := by
  induction ht with
  | refl => exact ⟨h, .refl s⟩
  | step _ within ih =>
    obtain ⟨firm, kept⟩ := ih
    obtain ⟨firm', kept'⟩ := firm.modification within
    exact ⟨firm', kept.trans kept'⟩

end Firm

/-! ## The walk -/

/-- Freezing values one after another, each with everything in it, as far as it takes: a walk
without an end would have no derivation. -/
inductive FreezesInto : Store → List Native → Store → Prop
  | nil (s : Store) : FreezesInto s [] s
  | cons {s t u : Store} {v : Native} {vs : List Native}
      (inner : FreezesInto (s.freezeOne v).1 (s.freezeOne v).2 t) (rest : FreezesInto t vs u) :
      FreezesInto s (v :: vs) u

theorem FreezesInto.unique {s t u : Store} {vs : List Native} (ht : s.FreezesInto vs t)
    (hu : s.FreezesInto vs u) : t = u := by
  induction ht generalizing u with
  | nil s =>
    cases hu
    rfl
  | cons _ _ ihinner ihrest =>
    cases hu with
    | cons inner rest =>
      obtain rfl := ihinner inner
      exact ihrest rest

/-- The walk ends, for it goes into a container only after it has frozen one. -/
theorem freezesInto_freezeAll {fuel : Nat} {s : Store} (vs : List Native) (h : s.unfrozen < fuel) :
    s.FreezesInto vs (freezeAll fuel s vs) := by
  induction fuel generalizing s vs with
  | zero => exact absurd h (Nat.not_lt_zero _)
  | succ fuel ih =>
    induction vs generalizing s with
    | nil => exact .nil s
    | cons v vs ihv =>
      rw [freezeAll_cons]
      obtain hv | hv := s.freezeOne_lt v
      · rw [hv, freezeAll_nil]
        refine .cons ?_ (ihv h)
        rw [hv]
        exact .nil s
      · have hle := unfrozen_freezeAll_le fuel (s.freezeOne v).1 (s.freezeOne v).2
        exact .cons (ih _ (by omega)) (ihv (by omega))

theorem freezesInto_iff (s t : Store) (v : Native) : s.FreezesInto [v] t ↔ t = s.freeze v := by
  have hends : s.FreezesInto [v] (s.freeze v) :=
    freezesInto_freezeAll [v] (Nat.lt_succ_of_le s.unfrozen_le)
  refine ⟨fun h => h.unique hends, ?_⟩
  rintro rfl
  exact hends

end Store

/-! ## What is frozen -/

/-- A container and what it is later: frozen if it was or if `p` holds, and otherwise the same. -/
structure Container.FrozenIf {α : Type} (p : Prop) (c d : Container α) : Prop where
  content : d.content = c.content
  version : d.version = c.version
  frozen : d.frozen = true ↔ c.frozen = true ∨ p

/-- A store in which the containers that are reached from a value are frozen, and a store before
that, which is otherwise the same. -/
structure Store.FrozenFrom (s : Store) (v : Native) (t : Store) : Prop where
  arrays : ∀ place : Nat, Option.Rel (Container.FrozenIf (s.Reaches v (.array place)))
    s.arrays[place]? t.arrays[place]?
  objects : ∀ place : Nat, Option.Rel (Container.FrozenIf (s.Reaches v (.object place)))
    s.objects[place]? t.objects[place]?
  rest : t = { s with arrays := t.arrays, objects := t.objects }

/-- A value that cannot be modified: if it is an array or object, every modification fails and
leaves the store as it is. -/
def Store.Refuses (s : Store) : Native → Prop
  | .array place => ∀ f, Run.rewriteItems place f s = Run.fault Run.frozenFault s
  | .object place => ∀ f, Run.modifyFields place f s = Run.fault Run.frozenFault s
  | _ => True

/-- Two stores with the same containers, except that other ones are frozen. -/
structure Store.SameSealed (s t : Store) : Prop where
  arrays : ∀ place : Nat, (t.arrays[place]?).map Container.sealed =
    (s.arrays[place]?).map Container.sealed
  objects : ∀ place : Nat, (t.objects[place]?).map Container.sealed =
    (s.objects[place]?).map Container.sealed

namespace Container

variable {α : Type} {p : Prop}

theorem sealed_modify (cs : Array (Container α)) (place other : Nat) :
    ((cs.modify place .sealed)[other]?).map sealed = (cs[other]?).map sealed := by
  rw [Array.getElem?_modify]
  split
  · rw [Option.map_map]
    rfl
  · rfl

/-- Containers that are the same when frozen, of which one is frozen exactly if the other was or
`p` holds. -/
theorem frozenIf_rel {o o' : Option (Container α)} (h : o'.map sealed = o.map sealed)
    (frozen : ∀ c d, o = some c → o' = some d → (d.frozen = true ↔ c.frozen = true ∨ p)) :
    Option.Rel (FrozenIf p) o o' := by
  cases o with
  | none =>
    rw [Option.map_none, Option.map_eq_none_iff] at h
    rw [h]
    exact .none
  | some c =>
    obtain ⟨d, rfl, hcd⟩ := Option.map_eq_some_iff.1 h
    have hcontent : d.sealed.content = c.sealed.content := congrArg content hcd
    have hversion : d.sealed.version = c.sealed.version := congrArg version hcd
    exact .some ⟨hcontent, hversion, frozen c d rfl rfl⟩

end Container

namespace Store

variable {s : Store}

theorem sameSealed_freeze (s : Store) (v : Native) : s.SameSealed (s.freeze v) := by
  refine freezeAll_of_freezeOne (fun _ => ⟨fun _ => rfl, fun _ => rfl⟩) (fun h h' =>
    ⟨fun place => (h'.arrays place).trans (h.arrays place),
      fun place => (h'.objects place).trans (h.objects place)⟩) (fun s v => ?_) _ s [v]
  obtain h | ⟨place, c, -, -, -, h⟩ | ⟨place, c, -, -, -, h⟩ := s.freezeOne_shape v
  · rw [h]
    exact ⟨fun _ => rfl, fun _ => rfl⟩
  · rw [h]
    exact ⟨Container.sealed_modify s.arrays place, fun _ => rfl⟩
  · rw [h]
    exact ⟨fun _ => rfl, Container.sealed_modify s.objects place⟩

theorem sealed_array {place : Nat} {c : Container (Array Native)} (hc : s.arrays[place]? = some c) :
    s.Sealed (.array place) ↔ c.frozen = true := by
  simp [Sealed, hc]

theorem sealed_object {place : Nat} {c : Container Fields} (hc : s.objects[place]? = some c) :
    s.Sealed (.object place) ↔ c.frozen = true := by
  simp [Sealed, hc]

theorem SameAt.sealed {t : Store} {u : Native} (h : s.SameAt t u) (ht : t.Sealed u) : s.Sealed u := by
  cases u with
  | array place =>
    obtain ⟨c, hc, hf⟩ := ht
    exact ⟨c, h.symm.trans hc, hf⟩
  | object place =>
    obtain ⟨c, hc, hf⟩ := ht
    exact ⟨c, h.symm.trans hc, hf⟩
  | _ => trivial

namespace Firm

variable (h : s.Firm) {v : Native} (hv : s.Has v)
include h hv

/-- Frozen is what was frozen before and whatever is reached from the value. -/
theorem sealed_freeze_iff (u : Native) : (s.freeze v).Sealed u ↔ s.Sealed u ∨ s.Reaches v u := by
  obtain ⟨firm, freezes, sealed⟩ := h.freeze hv
  constructor
  · intro hu
    obtain hr | hsame := s.sameAt_freeze u v
    · exact .inr hr
    · exact .inl (hsame.sealed hu)
  · rintro (hu | hr)
    · exact hu.mono freezes.ordinary.toFrozenKept
    · exact sealed.reaches firm.tight ((sameContents_freezeAll _ s [v]).reaches hr)

theorem frozenFrom_freeze : s.FrozenFrom v (s.freeze v) where
  arrays place := by
    refine Container.frozenIf_rel ((s.sameSealed_freeze v).arrays place) fun c d hc hd => ?_
    rw [← sealed_array hc, ← sealed_array hd]
    exact h.sealed_freeze_iff hv (.array place)
  objects place := by
    refine Container.frozenIf_rel ((s.sameSealed_freeze v).objects place) fun c d hc hd => ?_
    rw [← sealed_object hc, ← sealed_object hd]
    exact h.sealed_freeze_iff hv (.object place)
  rest := by
    obtain ⟨arrays, objects, heq, -, -⟩ := s.freeze_run v
    rw [heq]

end Firm

theorem Sealed.refuses {v : Native} (h : s.Sealed v) : s.Refuses v := by
  cases v with
  | array place =>
    obtain ⟨c, hc, hf⟩ := h
    intro f
    rw [Coupling.rewriteItems_run, arrayFrozen, hc, Option.any_some, hf]
    rfl
  | object place =>
    obtain ⟨c, hc, hf⟩ := h
    intro f
    rw [Coupling.modifyFields_run, objectFrozen, hc, Option.any_some, hf]
    rfl
  | _ => trivial

end Store

/-- In every heap, with any sharing and cycles and with any containers frozen before, freezing a
value comes to an end, and then exactly those containers are frozen that were or that are reached
from the value; their contents and versions are as they were, and so is the rest of the store.
What a frozen container contains is frozen in every heap, and whatever is reached from it refuses
to be modified and stays the same whatever becomes of the heap. -/
theorem freezing_reaches_all {s : Store} (heap : Store.empty.Becomes s) :
    (∀ v, s.Has v → (∀ t, s.FreezesInto [v] t ↔ t = s.freeze v) ∧ s.FrozenFrom v (s.freeze v) ∧
      ∀ u, s.Reaches v u → (s.freeze v).Sealed u) ∧
    s.FrozenAll s.Sealed ∧
    ∀ v u, s.Sealed v → s.Reaches v u →
      s.Sealed u ∧ s.Refuses u ∧ ∀ t, s.Becomes t → s.SameAt t u ∧ t.Refuses u := by
  obtain ⟨firm, -⟩ := Store.firm_empty.becomes heap
  refine ⟨fun v hv => ⟨fun t => s.freezesInto_iff t v, firm.frozenFrom_freeze hv,
    fun u hu => (firm.sealed_freeze_iff hv u).2 (.inr hu)⟩, firm.tight, fun v u hv hu => ?_⟩
  have sealed := hv.reaches firm.tight hu
  refine ⟨sealed, sealed.refuses, fun t ht => ?_⟩
  obtain ⟨-, kept⟩ := firm.becomes ht
  exact ⟨sealed.sameAt kept, (sealed.mono kept).refuses⟩

/-! ### An object and an array in one another -/

/-- A frozen array in an object and in an array that contain one another, and an array that
contains the object. -/
def tangle : List Modification :=
  [.newArray #[.boolean true], .freeze (.array 0), .newObject [("xs", .array 0)],
    .newArray #[.object 0, .array 0], .fields 0 (· ++ [("back", .array 1)]), .newArray #[.object 0]]

def tangled : Store :=
  Modification.after tangle .empty

theorem tangled_heap : Store.empty.Becomes tangled := by
  have array (s : Store) (place : Nat) (h : place < s.arrays.size) : s.Has (.array place) :=
    .array ⟨rfl, h⟩
  have object (s : Store) (place : Nat) (h : place < s.objects.size) : s.Has (.object place) :=
    .object ⟨rfl, h⟩
  refine .head (m := .newArray #[.boolean true]) (.newArray ?_) ?_
  · simpa using .boolean true
  refine .head (m := .freeze (.array 0)) (.freeze (array _ 0 (by decide))) ?_
  refine .head (m := .newObject [("xs", .array 0)]) (.newObject ?_) ?_
  · simpa using array _ 0 (by decide)
  refine .head (m := .newArray #[.object 0, .array 0]) (.newArray fun v hv => ?_) ?_
  · obtain rfl | rfl : v = .object 0 ∨ v = .array 0 := by simpa using hv
    · exact object _ 0 (by decide)
    · exact array _ 0 (by decide)
  refine .head (m := .fields 0 (· ++ [("back", Native.array 1)])) (.fields (by decide) fun e he => ?_) ?_
  · have he : e ∈ [("xs", .array 0), ("back", .array 1)] := he
    obtain rfl | rfl : e = ("xs", .array 0) ∨ e = ("back", .array 1) := by simpa using he
    · exact array _ 0 (by decide)
    · exact array _ 1 (by decide)
  refine .head (m := .newArray #[.object 0]) (.newArray ?_) .refl
  simpa using object _ 0 (by decide)

/-- The object is frozen with the arrays in it; the array around it is not. -/
theorem tangled_freeze : Store.empty.Becomes tangled ∧ tangled.Has (.object 0) ∧
    tangled.FrozenFrom (.object 0) (tangled.freeze (.object 0)) ∧
    (tangled.freeze (.object 0)).Sealed (.array 1) ∧
    (tangled.freeze (.object 0)).arrays.toList.map (·.frozen) = [true, true, false] ∧
    ∀ t, tangled.Becomes t → tangled.SameAt t (.array 0) := by
  have there : tangled.Has (.object 0) := .object ⟨rfl, by decide⟩
  obtain ⟨freezes, -, stays⟩ := freezing_reaches_all tangled_heap
  obtain ⟨-, frozen, reached⟩ := freezes _ there
  refine ⟨tangled_heap, there, frozen, reached (.array 1) ?_, by decide, fun t ht => ?_⟩
  · have fields : tangled.objects[0]? = some ⟨[("xs", .array 0), ("back", .array 1)], 1, false⟩ := rfl
    exact .field fields (List.mem_cons_of_mem _ List.mem_cons_self) (.refl (.array 1))
  · obtain ⟨-, -, later⟩ := stays (.array 0) (.array 0) ⟨_, rfl, rfl⟩ (.refl _)
    exact (later t ht).1

end Workbook
