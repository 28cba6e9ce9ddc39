/-
Values that native ones were converted to, and their way back.

A converted value is a snapshot of the containers that it came from, and it remembers how often
each of them had been modified.  `Native.toValue` takes the snapshot; the request `native` turns it
back and hands out the very containers that are unmodified.  What they contain may have been
modified all the same: `shared_item_changes` is an example.  As long as no container that is handed
out contains a modified one, what comes back holds what the snapshot holds
(`snapshot_comes_back`).
-/
import Workbook.Proofs.Coupling.Depth
import Workbook.Proofs.Session.Query

open List (Forall₂)

namespace Workbook

/-! ## Modifications -/

namespace Container

variable {α : Type} {c c' c'' : Container α} {cs cs' cs'' : Array (Container α)}

/-- A container later on: unless it has been modified, it holds what it held. -/
def Follows (c c' : Container α) : Prop :=
  c.version ≤ c'.version ∧ (c'.version = c.version → c'.content = c.content)

/-- Containers later on, of which there may be more. -/
def AllFollow (cs cs' : Array (Container α)) : Prop :=
  ∀ (place : Nat) (c : Container α), cs[place]? = some c →
    ∃ c', cs'[place]? = some c' ∧ c.Follows c'

theorem Follows.refl (c : Container α) : c.Follows c :=
  ⟨Nat.le_refl _, fun _ => rfl⟩

theorem Follows.trans (h : c.Follows c') (h' : c'.Follows c'') : c.Follows c'' := by
  obtain ⟨hle, hsame⟩ := h
  obtain ⟨hle', hsame'⟩ := h'
  refine ⟨by omega, fun heq => ?_⟩
  have hc' : c'.version = c.version := by omega
  rw [hsame' (by omega), hsame hc']

theorem AllFollow.refl (cs : Array (Container α)) : AllFollow cs cs :=
  fun _ c hc => ⟨c, hc, .refl c⟩

theorem AllFollow.trans (h : AllFollow cs cs') (h' : AllFollow cs' cs'') : AllFollow cs cs'' := by
  intro place c hc
  obtain ⟨c', hc', hcc'⟩ := h place c hc
  obtain ⟨c'', hc'', hcc''⟩ := h' place c' hc'
  exact ⟨c'', hc'', hcc'.trans hcc''⟩

theorem allFollow_push (cs : Array (Container α)) (c : Container α) : AllFollow cs (cs.push c) :=
  fun _ c hc => ⟨c, Store.push_getElem? hc, .refl c⟩

theorem allFollow_modify (cs : Array (Container α)) (place : Nat)
    {f : Container α → Container α} (h : ∀ c : Container α, c.Follows (f c)) :
    AllFollow cs (cs.modify place f) := by
  intro other c hc
  rw [Array.getElem?_modify, hc]
  by_cases ho : place = other
  · rw [if_pos ho]
    exact ⟨f c, rfl, h c⟩
  · rw [if_neg ho]
    exact ⟨c, rfl, .refl c⟩

theorem follows_sealed (c : Container α) : c.Follows c.sealed :=
  ⟨Nat.le_refl _, fun _ => rfl⟩

theorem follows_counted (c : Container α) : c.Follows c.counted :=
  ⟨Nat.le_succ _, fun h => absurd h (Nat.succ_ne_self _)⟩

/-- A modification is counted before it is made. -/
theorem follows_mapped (f : α → α) (c : Container α) : c.Follows (c.counted.mapped f) :=
  ⟨Nat.le_succ _, fun h => absurd h (Nat.succ_ne_self _)⟩

end Container

/-- A store later on: all containers are there, and each holds what it held unless it has been
modified. -/
structure Store.Follows (s s' : Store) : Prop where
  arrays : Container.AllFollow s.arrays s'.arrays
  objects : Container.AllFollow s.objects s'.objects

/-- What may happen to containers.  An array may be modified in a way that is refused once the
modification has been counted. -/
inductive Modification
  | items (place : Nat) (f : Store → Except Cause (Array Native → Array Native))
  | fields (place : Nat) (f : Fields → Fields)
  | freeze (v : Native)
  | newArray (items : Array Native)
  | newObject (fields : Fields)

namespace Modification

def run : Modification → Run Unit
  | .items place f => Run.rewriteItems place f
  | .fields place f => Run.modifyFields place f
  | .freeze v => Run.freeze v
  | .newArray content => do let _ ← Run.newArray content
  | .newObject content => do let _ ← Run.newObject content

/-- The store after several modifications, of which some may have been refused. -/
def after (ms : List Modification) (s : Store) : Store :=
  ms.foldl (fun s m => m.run.last s) s

end Modification

namespace Store

variable {s s' s'' : Store}

theorem Follows.refl (s : Store) : s.Follows s :=
  ⟨.refl _, .refl _⟩

theorem Follows.trans (h : s.Follows s') (h' : s'.Follows s'') : s.Follows s'' :=
  ⟨h.arrays.trans h'.arrays, h.objects.trans h'.objects⟩

theorem follows_modifyArray (s : Store) (place : Nat)
    {f : Container (Array Native) → Container (Array Native)}
    (h : ∀ c : Container (Array Native), c.Follows (f c)) :
    s.Follows (s.modifyArray place f) :=
  ⟨Container.allFollow_modify _ place h, .refl _⟩

theorem follows_modifyObject (s : Store) (place : Nat)
    {f : Container Fields → Container Fields} (h : ∀ c : Container Fields, c.Follows (f c)) :
    s.Follows (s.modifyObject place f) :=
  ⟨.refl _, Container.allFollow_modify _ place h⟩

theorem follows_freezeOne (s : Store) (v : Native) : s.Follows (s.freezeOne v).1 := by
  obtain h | ⟨place, c, -, -, -, h⟩ | ⟨place, c, -, -, -, h⟩ := s.freezeOne_shape v
  · rw [h]
    exact .refl s
  · rw [h]
    exact follows_modifyArray s place Container.follows_sealed
  · rw [h]
    exact follows_modifyObject s place Container.follows_sealed

/-- Two changes in one place. -/
theorem modify_modify {α : Type} (as : Array α) (place : Nat) (f g : α → α) :
    (as.modify place f).modify place g = as.modify place (g ∘ f) := by
  apply Array.ext_getElem?
  intro other
  simp only [Array.getElem?_modify]
  by_cases ho : place = other
  · simp only [if_pos ho, Option.map_map]
  · simp only [if_neg ho]

theorem follows_modification (m : Modification) (s : Store) : s.Follows (m.run.last s) := by
  cases m with
  | items place f =>
    have hcounted := follows_modifyArray s place Container.follows_counted
    show s.Follows ((Run.rewriteItems place f).last s)
    unfold Run.last
    rw [Coupling.rewriteItems_run]
    cases s.arrayFrozen place with
    | true => exact .refl s
    | false =>
      cases f (s.modifyArray place .counted) with
      | error c => exact hcounted
      | ok g =>
        refine ⟨?_, .refl _⟩
        show Container.AllFollow s.arrays ((s.arrays.modify place .counted).modify place (.mapped g))
        rw [modify_modify]
        exact Container.allFollow_modify _ place (Container.follows_mapped g)
  | fields place f =>
    show s.Follows ((Run.modifyFields place f).last s)
    unfold Run.last
    rw [Coupling.modifyFields_run]
    cases s.objectFrozen place with
    | true => exact .refl s
    | false =>
      refine ⟨.refl _, ?_⟩
      show Container.AllFollow s.objects ((s.objects.modify place .counted).modify place (.mapped f))
      rw [modify_modify]
      exact Container.allFollow_modify _ place (Container.follows_mapped f)
  | freeze v => exact freezeAll_of_freezeOne .refl .trans follows_freezeOne _ s [v]
  | newArray items => exact ⟨Container.allFollow_push _ _, .refl _⟩
  | newObject fields => exact ⟨.refl _, Container.allFollow_push _ _⟩

/-- Whatever is modified, a store is followed by what becomes of it. -/
theorem follows_after (ms : List Modification) (s : Store) : s.Follows (Modification.after ms s) := by
  induction ms generalizing s with
  | nil => exact .refl s
  | cons m ms ih => exact (follows_modification m s).trans (ih _)

end Store

/-! ## Stores that grow -/

namespace Store

/-- A store with the same containers, and maybe more. -/
structure Grows (s s' : Store) : Prop where
  arrays : ∀ (place : Nat) (c : Container (Array Native)), s.arrays[place]? = some c →
    s'.arrays[place]? = some c
  objects : ∀ (place : Nat) (c : Container Fields), s.objects[place]? = some c →
    s'.objects[place]? = some c

variable {s s' s'' : Store}

theorem Grows.refl (s : Store) : s.Grows s :=
  ⟨fun _ _ h => h, fun _ _ h => h⟩

theorem Grows.trans (h : s.Grows s') (h' : s'.Grows s'') : s.Grows s'' :=
  ⟨fun place c hc => h'.arrays place c (h.arrays place c hc),
    fun place c hc => h'.objects place c (h.objects place c hc)⟩

theorem Grows.follows (h : s.Grows s') : s.Follows s' :=
  ⟨fun place c hc => ⟨c, h.arrays place c hc, .refl c⟩,
    fun place c hc => ⟨c, h.objects place c hc, .refl c⟩⟩

theorem grows_newArray (s : Store) (c : Container (Array Native)) :
    s.Grows { s with arrays := s.arrays.push c } :=
  ⟨fun _ _ h => push_getElem? h, fun _ _ h => h⟩

theorem grows_newObject (s : Store) (c : Container Fields) :
    s.Grows { s with objects := s.objects.push c } :=
  ⟨fun _ _ h => h, fun _ _ h => push_getElem? h⟩

/-- A value whose container, if it is one, is there. -/
def Contains (s : Store) : Native → Prop
  | .array place => place < s.arrays.size
  | .object place => place < s.objects.size
  | _ => True

/-- A store in which all containers are there that others contain. -/
structure Closed (s : Store) : Prop where
  arrays : ∀ (place : Nat) (c : Container (Array Native)), s.arrays[place]? = some c →
    ∀ v ∈ c.content, s.Contains v
  objects : ∀ (place : Nat) (c : Container Fields), s.objects[place]? = some c →
    ∀ f ∈ c.content, s.Contains f.2

end Store

/-! ## Snapshots -/

namespace Value

/-- The native form of a value that is neither a container nor a function of formulas. -/
def scalar? : Value → Option Native
  | null => some .null
  | boolean b => some (.boolean b)
  | integer n =>
    some (if n.toInt.natAbs ≤ Number.exactBound then .number (Number.ofInt n.toInt)
      else .big n.toInt)
  | float x => some (.number x)
  | big n => some (.big n)
  | string s => some (.string s)
  | date n => some (.date n)
  | bytes b => some (.bytes b)
  | function (.native f) => some (.function f)
  | signal m => some (.marker m)
  | list .. | mapping .. | function (.typed _) | error .. => none

/-- A snapshot of which nothing has been modified since. -/
inductive Unmodified (s : Store) : Value → Prop
  | scalar {v : Value} (h : v.scalar?.isSome) : Unmodified s v
  | list {items : List Value} {o : Option Origin} (current : (Engine.currentArray s o).isSome)
      (items_unmodified : ∀ v ∈ items, Unmodified s v) : Unmodified s (.list items o)
  | mapping {entries : Entries} {o : Option Origin} (current : (Engine.currentObject s o).isSome)
      (entries_unmodified : ∀ key v, (key, .ready v) ∈ entries → Unmodified s v) :
      Unmodified s (.mapping entries o)

/-- A snapshot in which no container that is unmodified contains one that has been modified. -/
inductive Unspoiled (s : Store) : Value → Prop
  | scalar {v : Value} (h : v.scalar?.isSome) : Unspoiled s v
  | list {items : List Value} {o : Option Origin} (items_unspoiled : ∀ v ∈ items, Unspoiled s v)
      (unmodified : (Engine.currentArray s o).isSome → ∀ v ∈ items, Unmodified s v) :
      Unspoiled s (.list items o)
  | mapping {entries : Entries} {o : Option Origin}
      (entries_unspoiled : ∀ key v, (key, .ready v) ∈ entries → Unspoiled s v)
      (unmodified : (Engine.currentObject s o).isSome →
        ∀ key v, (key, .ready v) ∈ entries → Unmodified s v) :
      Unspoiled s (.mapping entries o)

end Value

/-- A native value holds what a value of formulas holds, all the way down.  A scalar is the native
form of the value, or one that is converted to it.  Of the keys of an object that agree up to case
the first counts. -/
inductive Native.Denotes (s : Store) : Native → Value → Prop
  | scalar {v : Value} {n : Native} (h : v.scalar? = some n) : Denotes s n v
  | converted {v : Value} {n : Native} (h : ∀ t, n.toValue t = .ok v) : Denotes s n v
  | array {place : Nat} {c : Container (Array Native)} {items : List Value} {o : Option Origin}
      (there : s.arrays[place]? = some c) (items_denoted : Forall₂ (Denotes s) c.content.toList items) :
      Denotes s (.array place) (.list items o)
  | object {place : Nat} {c : Container Fields} {kept : Fields} {es : List (String × Value)}
      {o : Option Origin} (there : s.objects[place]? = some c) (sublist : kept.Sublist c.content)
      (keys : kept.map (·.1) = es.map (·.1))
      (fields_denoted : Forall₂ (Denotes s) (kept.map (·.2)) (es.map (·.2)))
      (all_keys : ∀ f ∈ c.content, Entries.has (es.map fun e => (e.1, .ready e.2)) f.1) :
      Denotes s (.object place) (.mapping (es.map fun e => (e.1, .ready e.2)) o)

/-! ## Taking a snapshot -/

namespace Native

theorem collect_eq_ok {α β : Type} {f : α → Except Fault β} {as : List α} {bs : List β}
    (h : collect f as = .ok bs) : Forall₂ (fun a b => f a = .ok b) as bs := by
  induction as generalizing bs with
  | nil =>
    cases h
    exact .nil
  | cons a as ih =>
    rw [collect] at h
    cases ha : f a with
    | error e =>
      rw [ha] at h
      cases h
    | ok b =>
      cases has : collect f as with
      | error e =>
        rw [ha, has] at h
        cases h
      | ok bs' =>
        rw [ha, has] at h
        cases h
        exact .cons ha (ih has)

variable {s : Store} {fuel place : Nat} {outer : List Native} {t : Value}

theorem toValueIn_array {c : Container (Array Native)} (hc : s.arrays[place]? = some c)
    (h : (array place).toValueIn s fuel outer = .ok t) :
    ∃ fuel' items, fuel = fuel' + 1 ∧
      Forall₂ (fun n v => n.toValueIn s fuel' (array place :: outer) = .ok v) c.content.toList items ∧
      t = .list items (some ⟨place, c.version⟩) := by
  cases fuel with
  | zero => cases h
  | succ fuel =>
    unfold toValueIn at h
    split at h
    · cases h
    · have hitems : s.items place = c.content := by
        unfold Store.items
        rw [hc]
      rw [hitems, hc] at h
      cases hcollect : collect (toValueIn s fuel (array place :: outer)) c.content.toList with
      | error e =>
        rw [hcollect] at h
        cases h
      | ok items =>
        rw [hcollect] at h
        cases h
        exact ⟨fuel, items, rfl, collect_eq_ok hcollect, rfl⟩

theorem toValueIn_object {c : Container Fields} (hc : s.objects[place]? = some c)
    (h : (object place).toValueIn s fuel outer = .ok t) :
    ∃ fuel' es, fuel = fuel' + 1 ∧
      Forall₂ (fun f e => f.1 = e.1 ∧ f.2.toValueIn s fuel' (object place :: outer) = .ok e.2)
        c.content es ∧
      t = .mapping (Entries.ofList es) (some ⟨place, c.version⟩) := by
  cases fuel with
  | zero => cases h
  | succ fuel =>
    unfold toValueIn at h
    split at h
    · cases h
    · have hfields : s.fields place = c.content := by
        unfold Store.fields
        rw [hc]
      rw [hfields, hc] at h
      cases hcollect : collect (fun f : String × Native =>
          (f.1, ·) <$> toValueIn s fuel (object place :: outer) f.2) c.content with
      | error e =>
        rw [hcollect] at h
        cases h
      | ok es =>
        rw [hcollect] at h
        cases h
        refine ⟨fuel, es, rfl, (collect_eq_ok hcollect).imp fun f e he => ?_, rfl⟩
        cases hf : toValueIn s fuel (object place :: outer) f.2 with
        | error _ =>
          rw [hf] at he
          cases he
        | ok v =>
          rw [hf] at he
          cases he
          exact ⟨rfl, rfl⟩

/-- A value that is no container is converted to a scalar, in every store. -/
theorem toValueIn_scalar {v : Native} (array : ∀ place, v ≠ array place)
    (object : ∀ place, v ≠ object place) (h : v.toValueIn s fuel outer = .ok t) :
    t.scalar?.isSome ∧ ∀ s, v.toValue s = .ok t := by
  have scalar_ofInt (n : Int) : (Value.ofInt n).scalar?.isSome := by
    unfold Value.ofInt
    split <;> rfl
  cases v with
  | array place => exact absurd rfl (array place)
  | object place => exact absurd rfl (object place)
  | number x =>
    have ht : ofNumber x = t := by
      unfold toValueIn at h
      exact Except.ok.inj h
    refine ⟨?_, fun s => ?_⟩
    · rw [← ht]
      unfold ofNumber
      split
      · split
        · exact scalar_ofInt _
        · rfl
      · rfl
    · rw [← ht]
      rfl
  | big n =>
    have ht : Value.ofInt n = t := by
      unfold toValueIn at h
      exact Except.ok.inj h
    rw [← ht]
    exact ⟨scalar_ofInt n, fun _ => rfl⟩
  | _ =>
    unfold toValueIn at h
    cases h
    exact ⟨rfl, fun _ => rfl⟩

end Native

/-! ### Keys that agree up to case -/

namespace Entries

/-- Entries that have been computed. -/
def ofPairs (es : List (String × Value)) : Entries :=
  es.map fun e => (e.1, .ready e.2)

theorem has_iff {entries : Entries} {key : String} :
    entries.has key ↔ ∃ e ∈ entries, Text.lower e.1 = Text.lower key := by
  simp [has, find?]

theorem has_append {as bs : Entries} {key : String} (h : as.has key) : (as ++ bs).has key := by
  obtain ⟨e, he, hkey⟩ := has_iff.1 h
  exact has_iff.2 ⟨e, List.mem_append_left bs he, hkey⟩

/-- Of related pairs, those whose keys come first up to case become entries. -/
theorem foldl_insert_kept {α : Type} {R : String × α → String × Value → Prop}
    {fs : List (String × α)} {es : List (String × Value)} (h : Forall₂ R fs es)
    (key_eq : ∀ {f e}, R f e → f.1 = e.1) (done : List (String × Value)) :
    ∃ kept es', kept.Sublist fs ∧ Forall₂ R kept es' ∧
      es.foldl (fun out e => insert out e.1 (.ready e.2)) (ofPairs done) = ofPairs (done ++ es') ∧
      ∀ f ∈ fs, (ofPairs (done ++ es')).has f.1 := by
  induction h generalizing done with
  | nil => exact ⟨[], [], .slnil, .nil, by simp, fun _ h => absurd h List.not_mem_nil⟩
  | @cons f e fs es hfe hrest ih =>
    rw [List.foldl_cons]
    by_cases hhas : (ofPairs done).has e.1
    · have hinsert : insert (ofPairs done) e.1 (.ready e.2) = ofPairs done := by
        unfold insert insert?
        rw [if_pos hhas]
        rfl
      obtain ⟨kept, es', hsub, hkept, hfold, hall⟩ := ih done
      refine ⟨kept, es', hsub.cons f, hkept, by rw [hinsert, hfold], ?_⟩
      intro f' hf'
      rcases List.mem_cons.1 hf' with rfl | hf'
      · rw [key_eq hfe]
        unfold ofPairs at hhas ⊢
        rw [List.map_append]
        exact has_append hhas
      · exact hall f' hf'
    · have hinsert : insert (ofPairs done) e.1 (.ready e.2) = ofPairs (done ++ [e]) := by
        unfold insert insert?
        rw [if_neg hhas]
        simp [ofPairs]
      obtain ⟨kept, es', hsub, hkept, hfold, hall⟩ := ih (done ++ [e])
      rw [List.append_assoc, List.singleton_append] at hfold hall
      refine ⟨f :: kept, e :: es', hsub.cons_cons f, .cons hfe hkept, by rw [hinsert, hfold], ?_⟩
      intro f' hf'
      rcases List.mem_cons.1 hf' with rfl | hf'
      · rw [key_eq hfe]
        refine has_iff.2 ⟨(e.1, .ready e.2), ?_, rfl⟩
        exact List.mem_map_of_mem (List.mem_append_right done List.mem_cons_self)
      · exact hall f' hf'

end Entries

/-! ## Turning a snapshot back -/

/-- What is related pairwise is so for a reason that knows the members. -/
theorem forall₂_imp_mem {α β : Type} {R S : α → β → Prop} {as : List α} {bs : List β}
    (h : Forall₂ R as bs) (hRS : ∀ a ∈ as, ∀ b ∈ bs, R a b → S a b) : Forall₂ S as bs := by
  induction h with
  | nil => exact .nil
  | cons hab _ ih =>
    refine .cons (hRS _ List.mem_cons_self _ List.mem_cons_self hab) (ih fun a ha b hb => ?_)
    exact hRS a (List.mem_cons_of_mem _ ha) b (List.mem_cons_of_mem _ hb)

theorem forall₂_mem_right {α β : Type} {R : α → β → Prop} {as : List α} {bs : List β}
    (h : Forall₂ R as bs) {b : β} (hb : b ∈ bs) : ∃ a ∈ as, R a b := by
  induction h with
  | nil => cases hb
  | @cons a' b' as bs hab _ ih =>
    rcases List.mem_cons.1 hb with rfl | hb
    · exact ⟨a', List.mem_cons_self, hab⟩
    · obtain ⟨a, ha, hab⟩ := ih hb
      exact ⟨a, List.mem_cons_of_mem _ ha, hab⟩

/-- Pairs with one key each, apart. -/
theorem forall₂_pairs {α β : Type} {R : α → β → Prop} {as : List (String × α)}
    {bs : List (String × β)} (h : Forall₂ (fun a b => a.1 = b.1 ∧ R a.2 b.2) as bs) :
    as.map (·.1) = bs.map (·.1) ∧ Forall₂ R (as.map (·.2)) (bs.map (·.2)) := by
  induction h with
  | nil => exact ⟨rfl, .nil⟩
  | cons hab _ ih =>
    obtain ⟨hkeys, hvalues⟩ := ih
    exact ⟨congrArg₂ List.cons hab.1 hkeys, .cons hab.2 hvalues⟩

namespace Engine

variable {s s' : Store}

theorem currentArray_some (s : Store) (o : Origin) : currentArray s (some o) =
    (s.arrays[o.container]?).bind fun c =>
      if c.version = o.version then some (.array o.container) else none :=
  rfl

theorem currentObject_some (s : Store) (o : Origin) : currentObject s (some o) =
    (s.objects[o.container]?).bind fun c =>
      if c.version = o.version then some (.object o.container) else none :=
  rfl

/-- The container of an origin that is current is there with the version of the origin. -/
theorem currentArray_eq_some {o : Origin} {n : Native} (h : currentArray s (some o) = some n) :
    ∃ c, s.arrays[o.container]? = some c ∧ c.version = o.version ∧ n = .array o.container := by
  rw [currentArray_some] at h
  obtain ⟨c, hc, h⟩ := Option.bind_eq_some_iff.1 h
  split at h
  · cases h
    exact ⟨c, hc, by assumption, rfl⟩
  · cases h

theorem currentObject_eq_some {o : Origin} {n : Native} (h : currentObject s (some o) = some n) :
    ∃ c, s.objects[o.container]? = some c ∧ c.version = o.version ∧ n = .object o.container := by
  rw [currentObject_some] at h
  obtain ⟨c, hc, h⟩ := Option.bind_eq_some_iff.1 h
  split at h
  · cases h
    exact ⟨c, hc, by assumption, rfl⟩
  · cases h

theorem currentArray_congr {o : Origin} (h : s'.arrays[o.container]? = s.arrays[o.container]?) :
    currentArray s' (some o) = currentArray s (some o) := by
  rw [currentArray_some, currentArray_some, h]

theorem currentObject_congr {o : Origin} (h : s'.objects[o.container]? = s.objects[o.container]?) :
    currentObject s' (some o) = currentObject s (some o) := by
  rw [currentObject_some, currentObject_some, h]

end Engine

namespace Value

variable {s u : Store} {t : Value}

/-- What is unmodified remains so while containers are made. -/
theorem Unmodified.grows (h : s.Grows u) (ht : t.Unmodified s) : t.Unmodified u := by
  induction ht with
  | scalar ht => exact .scalar ht
  | @list items o current _ ih =>
    refine .list ?_ ih
    cases o with
    | none => cases current
    | some o =>
      obtain ⟨n, hn⟩ := Option.isSome_iff_exists.1 current
      obtain ⟨c, hc, -, -⟩ := Engine.currentArray_eq_some hn
      rw [Engine.currentArray_congr ((h.arrays _ c hc).trans hc.symm)]
      exact current
  | @mapping entries o current _ ih =>
    refine .mapping ?_ ih
    cases o with
    | none => cases current
    | some o =>
      obtain ⟨n, hn⟩ := Option.isSome_iff_exists.1 current
      obtain ⟨c, hc, -, -⟩ := Engine.currentObject_eq_some hn
      rw [Engine.currentObject_congr ((h.objects _ c hc).trans hc.symm)]
      exact current

end Value

/-- A container of which nothing has been modified holds what it held. -/
theorem Native.denotes_of_unmodified {s u : Store} (closed : s.Closed) (later : s.Follows u)
    {fuel : Nat} {outer : List Native} {v : Native} {t : Value} (hv : s.Contains v)
    (h : v.toValueIn s fuel outer = .ok t) (ht : t.Unmodified u) : v.Denotes u t := by
  induction fuel using Nat.strongRecOn generalizing v outer t with
  | ind fuel ih =>
    cases v with
    | array place =>
      obtain ⟨c, hc⟩ : ∃ c, s.arrays[place]? = some c := ⟨_, Array.getElem?_eq_getElem hv⟩
      obtain ⟨fuel', items, rfl, hitems, rfl⟩ := toValueIn_array hc h
      cases ht with
      | scalar ht => cases ht
      | list current items_unmodified =>
        obtain ⟨n, hn⟩ := Option.isSome_iff_exists.1 current
        obtain ⟨c', hc', hversion, -⟩ := Engine.currentArray_eq_some hn
        obtain ⟨c'', hc'', hcc''⟩ := later.arrays place c hc
        obtain rfl : c' = c'' := Option.some.inj (hc'.symm.trans hc'')
        refine .array hc' ?_
        rw [hcc''.2 hversion]
        refine forall₂_imp_mem hitems fun n hn v hv h => ?_
        have hcontains := closed.arrays place c hc n (Array.mem_toList_iff.1 hn)
        exact ih fuel' (Nat.lt_succ_self _) hcontains h (items_unmodified v hv)
    | object place =>
      obtain ⟨c, hc⟩ : ∃ c, s.objects[place]? = some c := ⟨_, Array.getElem?_eq_getElem hv⟩
      obtain ⟨fuel', es, rfl, hes, rfl⟩ := toValueIn_object hc h
      obtain ⟨kept, es', hsub, hkept, hlist, hall⟩ :=
        Entries.foldl_insert_kept hes (fun h => h.1) []
      have hlist : Entries.ofList es = Entries.ofPairs es' := hlist
      rw [hlist] at ht ⊢
      cases ht with
      | scalar ht => cases ht
      | mapping current entries_unmodified =>
        obtain ⟨n, hn⟩ := Option.isSome_iff_exists.1 current
        obtain ⟨c', hc', hversion, -⟩ := Engine.currentObject_eq_some hn
        obtain ⟨c'', hc'', hcc''⟩ := later.objects place c hc
        obtain rfl : c' = c'' := Option.some.inj (hc'.symm.trans hc'')
        have hcontent := hcc''.2 hversion
        obtain ⟨hkeys, hvalues⟩ : kept.map (·.1) = es'.map (·.1) ∧
            Forall₂ (fun n v => n.toValueIn s fuel' (object place :: outer) = .ok v)
              (kept.map (·.2)) (es'.map (·.2)) := forall₂_pairs hkept
        refine .object hc' (hcontent ▸ hsub) hkeys ?_ (hcontent ▸ hall)
        refine forall₂_imp_mem hvalues fun n hn v hv h => ?_
        obtain ⟨f, hf, rfl⟩ := List.mem_map.1 hn
        obtain ⟨e, he, rfl⟩ := List.mem_map.1 hv
        have hcontains := closed.objects place c hc f (hsub.subset hf)
        refine ih fuel' (Nat.lt_succ_self _) hcontains h (entries_unmodified e.1 e.2 ?_)
        exact List.mem_map_of_mem he
    | _ => exact .converted (toValueIn_scalar (by simp) (by simp) h).2

namespace Engine

variable {s : Store}

/-- An engine that, once the store `s` has been reached, turns a value back to what holds the
same, now and whenever more containers have been made. -/
def Restores (e : Engine) (s : Store) (v : Value) : Prop :=
  ∀ s₁, s.Grows s₁ → ∃ n s₂, e.ask (.native v) s₁ = .ok n s₂ ∧ s₁.Grows s₂ ∧
    ∀ u, s₂.Grows u → n.Denotes u v

theorem native_scalar (e : Engine) {v : Value} {n : Native} (h : v.scalar? = some n) (s : Store) :
    e.native v s = .ok n s := by
  cases v with
  | list items o => cases h
  | mapping es o => cases h
  | error kind message payload => cases h
  | function f =>
    cases f with
    | typed f => cases h
    | native f => cases h; rfl
  | _ => cases h; rfl

theorem restores_items {e : Engine} {vs : List Value} (h : ∀ v ∈ vs, e.Restores s v) {s₁ : Store}
    (hs₁ : s.Grows s₁) : ∃ ns s₂, vs.mapM (fun v => e.ask (.native v)) s₁ = .ok ns s₂ ∧
      s₁.Grows s₂ ∧ ∀ u, s₂.Grows u → Forall₂ (Native.Denotes u) ns vs := by
  induction vs generalizing s₁ with
  | nil => exact ⟨[], s₁, rfl, .refl s₁, fun _ _ => .nil⟩
  | cons v vs ih =>
    obtain ⟨n, s₂, hn, h₁₂, hdenotes⟩ := h v List.mem_cons_self s₁ hs₁
    obtain ⟨ns, s₃, hns, h₂₃, hall⟩ :=
      ih (fun w hw => h w (List.mem_cons_of_mem _ hw)) (hs₁.trans h₁₂)
    refine ⟨n :: ns, s₃, ?_, h₁₂.trans h₂₃, fun u hu => ?_⟩
    · rw [List.mapM_cons, Run.bind_run hn, Run.bind_run hns]
      rfl
    · exact .cons (hdenotes u (h₂₃.trans hu)) (hall u hu)

theorem restores_entries {e : Engine} {es : List (String × Value)}
    (h : ∀ x ∈ es, e.Restores s x.2) {s₁ : Store} (hs₁ : s.Grows s₁) :
    ∃ fs s₂, e.entriesNative (Entries.ofPairs es) s₁ = .ok fs s₂ ∧ s₁.Grows s₂ ∧
      fs.map (·.1) = es.map (·.1) ∧
      ∀ u, s₂.Grows u → Forall₂ (Native.Denotes u) (fs.map (·.2)) (es.map (·.2)) := by
  induction es generalizing s₁ with
  | nil => exact ⟨[], s₁, rfl, .refl s₁, rfl, fun _ _ => .nil⟩
  | cons x es ih =>
    obtain ⟨n, s₂, hn, h₁₂, hdenotes⟩ := h x List.mem_cons_self s₁ hs₁
    obtain ⟨fs, s₃, hfs, h₂₃, hkeys, hall⟩ :=
      ih (fun y hy => h y (List.mem_cons_of_mem _ hy)) (hs₁.trans h₁₂)
    refine ⟨(x.1, n) :: fs, s₃, ?_, h₁₂.trans h₂₃, ?_, fun u hu => ?_⟩
    · show (e.ask (.native x.2) >>= fun n => e.entriesNative (Entries.ofPairs es) >>= fun fs =>
        pure ((x.1, n) :: fs) : Run Fields) s₁ = _
      rw [Run.bind_run hn, Run.bind_run hfs]
      rfl
    · rw [List.map_cons, List.map_cons, hkeys]
    · exact .cons (hdenotes u (h₂₃.trans hu)) (hall u hu)

/-- A list whose origin is unmodified is the origin again. -/
theorem native_list_current {e : Engine} {items : List Value} {o : Option Origin} {n : Native}
    (h : currentArray s o = some n) : e.native (.list items o) s = .ok n s := by
  unfold native
  simp only
  rw [Run.get_bind, h]
  rfl

theorem native_mapping_current {e : Engine} {entries : Entries} {o : Option Origin} {n : Native}
    (h : currentObject s o = some n) : e.native (.mapping entries o) s = .ok n s := by
  unfold native
  simp only
  rw [Run.get_bind, h]
  rfl

/-- A list whose origin has been modified is made anew. -/
theorem native_list {e : Engine} {items : List Value} {o : Option Origin} {s₁ : Store}
    (hs₁ : s.Grows s₁) (modified : currentArray s₁ o = none)
    (h : ∀ v ∈ items, e.Restores s v) : ∃ n s₂, e.native (.list items o) s₁ = .ok n s₂ ∧
      s₁.Grows s₂ ∧ ∀ u, s₂.Grows u → n.Denotes u (.list items o) := by
  obtain ⟨ns, s₂, hns, hgrows, hall⟩ := restores_items h hs₁
  have hrun : e.native (.list items o) s₁ = .ok (.array s₂.arrays.size)
      { s₂ with arrays := s₂.arrays.push (.ofContent ns.toArray) } := by
    unfold native
    simp only
    rw [Run.get_bind, modified]
    show (items.mapM (fun v => e.ask (.native v)) >>= fun ns => Run.newArray ns.toArray) s₁ = _
    rw [Run.bind_run hns]
    rfl
  have hnew := s₂.grows_newArray (.ofContent ns.toArray)
  refine ⟨_, _, hrun, hgrows.trans hnew, fun u hu => ?_⟩
  refine .array (hu.arrays _ _ Array.getElem?_push_size) ?_
  exact hall u (hnew.trans hu)

/-- So is a mapping. -/
theorem native_mapping {e : Engine} {es : List (String × Value)} {o : Option Origin} {s₁ : Store}
    (hs₁ : s.Grows s₁) (modified : currentObject s₁ o = none)
    (h : ∀ x ∈ es, e.Restores s x.2) :
    ∃ n s₂, e.native (.mapping (Entries.ofPairs es) o) s₁ = .ok n s₂ ∧
      s₁.Grows s₂ ∧ ∀ u, s₂.Grows u → n.Denotes u (.mapping (Entries.ofPairs es) o) := by
  obtain ⟨fs, s₂, hfs, hgrows, hkeys, hall⟩ := restores_entries h hs₁
  have hrun : e.native (.mapping (Entries.ofPairs es) o) s₁ = .ok (.object s₂.objects.size)
      { s₂ with objects := s₂.objects.push (.ofContent fs) } := by
    unfold native
    simp only
    rw [Run.get_bind, modified]
    show (e.entriesNative (Entries.ofPairs es) >>= fun fs => Run.newObject fs) s₁ = _
    rw [Run.bind_run hfs]
    rfl
  have hnew := s₂.grows_newObject (.ofContent fs)
  refine ⟨_, _, hrun, hgrows.trans hnew, fun u hu => ?_⟩
  refine .object (hu.objects _ _ Array.getElem?_push_size) (List.Sublist.refl _) hkeys
    (hall u (hnew.trans hu)) fun f hf => ?_
  have hmem : f.1 ∈ es.map (·.1) := hkeys ▸ List.mem_map_of_mem hf
  obtain ⟨x, hx, hfx⟩ := List.mem_map.1 hmem
  exact Entries.has_iff.2 ⟨(x.1, .ready x.2), List.mem_map_of_mem hx, congrArg Text.lower hfx⟩

/-- A snapshot that is not spoiled is turned back. -/
theorem restores_snapshot {s₀ : Store} (closed : s₀.Closed) (later : s₀.Follows s) {fuel : Nat}
    {outer : List Native} {v : Native} {t : Value} (hv : s₀.Contains v)
    (h : v.toValueIn s₀ fuel outer = .ok t) (ht : t.Unspoiled s) {nesting : Nat}
    (enough : fuel < nesting) : (Engine.ofFuel nesting).Restores s t := by
  induction fuel using Nat.strongRecOn generalizing v outer t nesting with
  | ind fuel ih =>
    intro s₁ hs₁
    obtain ⟨nesting, rfl⟩ : ∃ n, nesting = n + 1 := ⟨nesting - 1, by omega⟩
    show ∃ n s₂, (Engine.ofFuel nesting).native t s₁ = .ok n s₂ ∧ _
    cases v with
    | array place =>
      obtain ⟨c, hc⟩ : ∃ c, s₀.arrays[place]? = some c := ⟨_, Array.getElem?_eq_getElem hv⟩
      have hconverted := h
      obtain ⟨fuel', items, rfl, hitems, rfl⟩ := Native.toValueIn_array hc h
      obtain ⟨c', hc', -⟩ := later.arrays place c hc
      have hcongr : currentArray s₁ (some ⟨place, c.version⟩) =
          currentArray s (some ⟨place, c.version⟩) :=
        currentArray_congr ((hs₁.arrays place c' hc').trans hc'.symm)
      cases ht with
      | scalar ht => cases ht
      | list items_unspoiled unmodified =>
        cases hcurrent : currentArray s (some ⟨place, c.version⟩) with
        | some n =>
          obtain ⟨-, -, -, rfl⟩ := currentArray_eq_some hcurrent
          refine ⟨.array place, s₁, native_list_current (hcongr.trans hcurrent), .refl s₁,
            fun u hu => ?_⟩
          have hunmodified : (Value.list items (some ⟨place, c.version⟩)).Unmodified s :=
            .list (by rw [hcurrent]; rfl) (unmodified (by rw [hcurrent]; rfl))
          exact Native.denotes_of_unmodified closed (later.trans (hs₁.trans hu).follows) hv hconverted
            (hunmodified.grows (hs₁.trans hu))
        | none =>
          refine native_list hs₁ (hcongr.trans hcurrent) fun w hw => ?_
          obtain ⟨n, hn, hnw⟩ := forall₂_mem_right hitems hw
          have hcontains := closed.arrays place c hc n (Array.mem_toList_iff.1 hn)
          exact ih fuel' (Nat.lt_succ_self _) hcontains hnw (items_unspoiled w hw) (by omega)
    | object place =>
      obtain ⟨c, hc⟩ : ∃ c, s₀.objects[place]? = some c := ⟨_, Array.getElem?_eq_getElem hv⟩
      have hconverted := h
      obtain ⟨fuel', es, rfl, hes, rfl⟩ := Native.toValueIn_object hc h
      obtain ⟨kept, es', hsub, hkept, hlist, -⟩ :=
        Entries.foldl_insert_kept hes (fun h => h.1) []
      have hlist : Entries.ofList es = Entries.ofPairs es' := hlist
      rw [hlist] at ht hconverted ⊢
      obtain ⟨c', hc', -⟩ := later.objects place c hc
      have hcongr : currentObject s₁ (some ⟨place, c.version⟩) =
          currentObject s (some ⟨place, c.version⟩) :=
        currentObject_congr ((hs₁.objects place c' hc').trans hc'.symm)
      cases ht with
      | scalar ht => cases ht
      | mapping entries_unspoiled unmodified =>
        cases hcurrent : currentObject s (some ⟨place, c.version⟩) with
        | some n =>
          obtain ⟨-, -, -, rfl⟩ := currentObject_eq_some hcurrent
          refine ⟨.object place, s₁, native_mapping_current (hcongr.trans hcurrent), .refl s₁,
            fun u hu => ?_⟩
          have hunmodified :
              (Value.mapping (Entries.ofPairs es') (some ⟨place, c.version⟩)).Unmodified s :=
            .mapping (by rw [hcurrent]; rfl) (unmodified (by rw [hcurrent]; rfl))
          exact Native.denotes_of_unmodified closed (later.trans (hs₁.trans hu).follows) hv hconverted
            (hunmodified.grows (hs₁.trans hu))
        | none =>
          refine native_mapping hs₁ (hcongr.trans hcurrent) fun x hx => ?_
          obtain ⟨f, hf, -, hfx⟩ := forall₂_mem_right hkept hx
          have hcontains := closed.objects place c hc f (hsub.subset hf)
          refine ih fuel' (Nat.lt_succ_self _) hcontains hfx (entries_unspoiled x.1 x.2 ?_) (by omega)
          exact List.mem_map_of_mem hx
    | _ =>
      obtain ⟨hscalar, -⟩ := Native.toValueIn_scalar (by simp) (by simp) h
      obtain ⟨n, hn⟩ := Option.isSome_iff_exists.1 hscalar
      exact ⟨n, s₁, native_scalar _ hn s₁, .refl s₁, fun _ _ => .scalar hn⟩

end Engine

/-- A native value is converted, containers are modified, and the snapshot is turned back.  If no
container that is unmodified contains one that has been modified, what comes back holds, at every
position, what the snapshot holds there. -/
theorem snapshot_comes_back {s : Store} (closed : s.Closed) {v : Native} {t : Value}
    (hv : s.Contains v) (h : v.toValue s = .ok t) (ms : List Modification)
    (unspoiled : t.Unspoiled (Modification.after ms s)) {fuel : Nat}
    (enough : s.containers + 1 < fuel) :
    ∃ n s', (Engine.ofFuel fuel).ask (.native t) (Modification.after ms s) = .ok n s' ∧
      (Modification.after ms s).Grows s' ∧ n.Denotes s' t := by
  have hrestores := Engine.restores_snapshot closed (Store.follows_after ms s) hv h unspoiled enough
  obtain ⟨n, s', hrun, hgrows, hdenotes⟩ := hrestores _ (.refl _)
  exact ⟨n, s', hrun, hgrows, hdenotes s' (.refl s')⟩

/-! ### An array in an array -/

/-- An array with an array in it. -/
def nestedArrays : Store :=
  { Store.empty with
    arrays := #[.ofContent #[.boolean true], .ofContent #[.array 0]] }

/-- What the outer one is converted to. -/
def nestedSnapshot : Value :=
  .list [.list [.boolean true] (some ⟨0, 0⟩)] (some ⟨1, 0⟩)

/-- An item more in an array. -/
def pushFalse (place : Nat) : Modification :=
  .items place fun _ => .ok (·.push (.boolean false))

theorem nestedArrays_closed : nestedArrays.Closed where
  arrays place c hc v hv := by
    have hlt := (Array.getElem?_eq_some_iff.1 hc).1
    have hsize : nestedArrays.arrays.size = 2 := rfl
    obtain rfl | rfl : place = 0 ∨ place = 1 := by omega
    · cases hc
      have hv : v ∈ #[Native.boolean true] := hv
      rw [Array.mem_singleton.1 hv]
      trivial
    · cases hc
      have hv : v ∈ #[Native.array 0] := hv
      rw [Array.mem_singleton.1 hv]
      exact Nat.zero_lt_two
  objects place c hc := by
    cases hc

theorem nestedSnapshot_unspoiled :
    nestedSnapshot.Unspoiled (Modification.after [pushFalse 1] nestedArrays) := by
  have hinner : (Value.boolean true).Unmodified (Modification.after [pushFalse 1] nestedArrays) :=
    .scalar rfl
  refine .list ?_ fun hcurrent => ?_
  · intro v hv
    obtain rfl := List.mem_singleton.1 hv
    refine .list ?_ fun _ => ?_
    · intro w hw
      obtain rfl := List.mem_singleton.1 hw
      exact .scalar rfl
    · intro w hw
      obtain rfl := List.mem_singleton.1 hw
      exact hinner
  · cases hcurrent

/-- The outer array is modified and comes back as it was. -/
theorem modified_array_comes_back : nestedArrays.Closed ∧
    (Native.array 1).toValue nestedArrays = .ok nestedSnapshot ∧
    nestedSnapshot.Unspoiled (Modification.after [pushFalse 1] nestedArrays) ∧
    ∃ n s', (Engine.ofFuel 4).ask (.native nestedSnapshot)
        (Modification.after [pushFalse 1] nestedArrays) = .ok n s' ∧
      (Modification.after [pushFalse 1] nestedArrays).Grows s' ∧ n.Denotes s' nestedSnapshot :=
  ⟨nestedArrays_closed, rfl, nestedSnapshot_unspoiled,
    snapshot_comes_back nestedArrays_closed (v := .array 1) Nat.one_lt_two rfl [pushFalse 1]
      nestedSnapshot_unspoiled (by decide)⟩

/-- The inner array is modified: the outer one is handed out still, and does not hold any more what
the snapshot holds. -/
theorem shared_item_changes :
    (Native.array 1).toValue nestedArrays = .ok nestedSnapshot ∧
    (Engine.ofFuel 4).ask (.native nestedSnapshot)
        (Modification.after [pushFalse 0] nestedArrays) =
      .ok (.array 1) (Modification.after [pushFalse 0] nestedArrays) ∧
    ¬ (Native.array 1).Denotes (Modification.after [pushFalse 0] nestedArrays) nestedSnapshot := by
  refine ⟨rfl, rfl, fun houter => ?_⟩
  have hempty (place : Nat) (items : List Value) (o : Option Origin)
      (h : (Native.array place).toValue .empty = .ok (.list items o)) : items = [] := by
    cases h
    rfl
  cases houter with
  | scalar h => cases h
  | converted h => exact absurd (hempty 1 _ _ (h .empty)) (List.cons_ne_nil _ _)
  | array there hitems =>
    cases there
    cases hitems with
    | cons hinner _ =>
      cases hinner with
      | scalar h => cases h
      | converted h => exact absurd (hempty 0 _ _ (h .empty)) (List.cons_ne_nil _ _)
      | array there hitems =>
        cases there
        exact absurd hitems.length_eq (by decide)

end Workbook
