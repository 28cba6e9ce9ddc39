/-
Shared data.

A value from which no cycle is reached unfolds to a tree (`Data`), in which a container that is
shared stands as often as it is come to.  The conversions see nothing but the tree: they have the
same results for every value that unfolds to it, of which `Data.make` makes one that shares
nothing.  `conversions_end` says this, and when the conversions fail.
-/
import Workbook.Proofs.Snapshot
import Workbook.Proofs.Walk.Conversion

open Relation (ReflTransGen TransGen)

namespace Workbook

/-- What is no container is none in any store. -/
theorem Native.plain_everywhere {s : Store} {v : Native} (plain : v.contents s = none) (t : Store) :
    v.contents t = none := by
  cases v with
  | array place => cases plain
  | object place => cases plain
  | _ => rfl

/-! ## Data -/

/-- What a value holds, all the way down.  The keys are those of an object. -/
inductive Data
  | scalar (v : Native)
  | node (keys : Option (List String)) (parts : List Data)

/-- Values one after another with what each of them holds and the containers that it leads to. -/
inductive Gathers (R : Native → Data → List Native → Prop) :
    List Native → List Data → List Native → Prop
  | nil : Gathers R [] [] []
  | cons {v : Native} {d : Data} {ps : List Native} {vs : List Native} {ds : List Data}
      {qs : List Native} (here : R v d ps) (rest : Gathers R vs ds qs) :
      Gathers R (v :: vs) (d :: ds) (ps ++ qs)

/-- A value that holds data, and the containers that it leads to, each of them as often as there
are ways to it. -/
inductive Store.Unfolds (s : Store) : Native → Data → List Native → Prop
  | scalar {v : Native} (plain : v.contents s = none) : Unfolds s v (.scalar v) []
  | container {v : Native} {c : Contents} {ds : List Data} {ps : List Native}
      (there : v.contents s = some c) (inner : Gathers (Unfolds s) c.values ds ps) :
      Unfolds s v (.node c.keys ds) (v :: ps)

namespace Gathers

variable {R S : Native → Data → List Native → Prop} {vs : List Native} {ds : List Data}
  {ps : List Native}

theorem of_mem (h : Gathers R vs ds ps) {v : Native} (hv : v ∈ vs) :
    ∃ d qs, qs ⊆ ps ∧ R v d qs := by
  induction h with
  | nil => cases hv
  | cons here _ ih =>
    obtain rfl | hv := List.mem_cons.1 hv
    · exact ⟨_, _, List.subset_append_left _ _, here⟩
    · obtain ⟨d, qs, hsub, hd⟩ := ih hv
      exact ⟨d, qs, fun q hq => List.mem_append_right _ (hsub hq), hd⟩

theorem of_mem_data (h : Gathers R vs ds ps) {d : Data} (hd : d ∈ ds) : ∃ v ∈ vs, ∃ qs, R v d qs := by
  induction h with
  | nil => cases hd
  | cons here _ ih =>
    obtain rfl | hd := List.mem_cons.1 hd
    · exact ⟨_, List.mem_cons_self, _, here⟩
    · obtain ⟨v, hv, hR⟩ := ih hd
      exact ⟨v, List.mem_cons_of_mem _ hv, hR⟩

theorem imp (h : Gathers R vs ds ps)
    (hRS : ∀ v ∈ vs, ∀ d qs, qs ⊆ ps → R v d qs → S v d qs) : Gathers S vs ds ps := by
  induction h with
  | nil => exact .nil
  | cons here _ ih =>
    refine .cons (hRS _ List.mem_cons_self _ _ (List.subset_append_left _ _) here)
      (ih fun v hv d qs hsub => hRS v (List.mem_cons_of_mem _ hv) d qs fun q hq => ?_)
    exact List.mem_append_right _ (hsub hq)

theorem exists_of_forall (h : ∀ v ∈ vs, ∃ d ps, R v d ps) : ∃ ds ps, Gathers R vs ds ps := by
  induction vs with
  | nil => exact ⟨[], [], .nil⟩
  | cons v vs ih =>
    obtain ⟨d, ps, here⟩ := h v List.mem_cons_self
    obtain ⟨ds, qs, rest⟩ := ih fun u hu => h u (List.mem_cons_of_mem _ hu)
    exact ⟨d :: ds, ps ++ qs, .cons here rest⟩

theorem length_eq (h : Gathers R vs ds ps) : ds.length = vs.length := by
  induction h with
  | nil => rfl
  | cons _ _ ih => rw [List.length_cons, List.length_cons, ih]

end Gathers

namespace Store.Unfolds

variable {s : Store} {v : Native} {d : Data} {ps : List Native}

/-- Induction over what a value holds. -/
theorem induct {P : ∀ v d ps, s.Unfolds v d ps → Prop}
    (scalar : ∀ {v} (plain : v.contents s = none), P v (.scalar v) [] (.scalar plain))
    (container : ∀ {v c ds ps} (h : s.Unfolds v (.node c.keys ds) (v :: ps)),
      v.contents s = some c → Gathers (fun u d qs => ∃ h, P u d qs h) c.values ds ps →
      P v (.node c.keys ds) (v :: ps) h) (h : s.Unfolds v d ps) : P v d ps h :=
  h.rec (motive_1 := fun v d ps h => P v d ps h)
    (motive_2 := fun vs ds ps _ => Gathers (fun u d qs => ∃ h, P u d qs h) vs ds ps)
    scalar (fun there inner ih => container (.container there inner) there ih)
    .nil fun here _ ih ihrest => .cons ⟨here, ih⟩ ihrest

/-- Going on into containers comes to an end. -/
theorem acc (h : s.Unfolds v d ps) : Acc (fun u v => s.Holds v u) v := by
  induction h using induct with
  | scalar plain =>
    refine ⟨_, fun u hu => ?_⟩
    obtain ⟨c, there, -⟩ := hu
    rw [plain] at there
    cases there
  | container _ there inner =>
    refine ⟨_, fun u hu => ?_⟩
    obtain ⟨c, there', hu⟩ := hu
    rw [there] at there'
    cases there'
    obtain ⟨d, qs, -, -, ih⟩ := inner.of_mem hu
    exact ih

/-- So no cycle is reached. -/
theorem not_looped (h : s.Unfolds v d ps) : ¬ s.Looped v := by
  have irrefl {a : Native} (ha : Acc (TransGen fun u v => s.Holds v u) a) :
      ¬ TransGen (fun u v => s.Holds v u) a a := by
    induction ha with
    | intro a _ ih => exact fun hcycle => ih a hcycle hcycle
  have reached {u : Native} (hu : ReflTransGen s.Holds v u) : Acc (fun u v => s.Holds v u) u := by
    induction hu with
    | refl => exact h.acc
    | tail _ hstep ih => exact ih.inv hstep
  rintro ⟨u, hu, hloop⟩
  exact irrefl (reached (Store.reaches_iff.1 hu)).transGen (TransGen.swap u u hloop)

end Store.Unfolds

/-! ## What is seen of data -/

mutual

/-- What a walk makes of data. -/
def Walk.fold {β : Type} (w : Walk β) : Data → Except Fault β
  | .scalar v => w.scalar v
  | .node keys parts => w.build .undefined keys <$> w.foldAll parts

def Walk.foldAll {β : Type} (w : Walk β) : List Data → Except Fault (List β)
  | [] => .ok []
  | d :: ds => do return (← w.fold d) :: (← w.foldAll ds)

end

namespace Data

/-- Whether data is shown as nothing in an array. -/
def isNullish : Data → Bool
  | scalar v => v.isNullish
  | node .. => false

mutual

/-- The text of data. -/
def text : Data → String
  | scalar v => v.textIn .empty 0 []
  | node none parts => ",".intercalate (itemTexts parts)
  | node (some _) _ => "[object Object]"

def itemTexts : List Data → List String
  | [] => []
  | d :: ds => (if d.isNullish then "" else d.text) :: itemTexts ds

end

end Data

/-- A walk that does not look at which container it is in. -/
def Walk.Plain {β : Type} (w : Walk β) : Prop :=
  ∀ v v' keys parts, w.build v keys parts = w.build v' keys parts

namespace Gathers

variable {β : Type} {w : Walk β} {s : Store} {vs : List Native} {ds : List Data} {ps : List Native}

theorem folds {outer : List Native} (h : Gathers (fun v d _ => w.Ends s outer v (w.fold d)) vs ds ps) :
    Collects (w.Ends s) vs outer (w.foldAll ds) := by
  induction h with
  | nil => exact .nil
  | @cons v d ps vs ds qs here _ ih =>
    unfold Walk.foldAll
    cases hd : w.fold d with
    | error f =>
      rw [hd] at here
      exact .fails here
    | ok b =>
      rw [hd] at here
      cases hds : w.foldAll ds with
      | error f =>
        rw [hds] at ih
        exact .later here ih
      | ok bs =>
        rw [hds] at ih
        exact .cons here ih

theorem shows {outer : List Nat}
    (h : Gathers (fun v d _ => d.isNullish = v.isNullish ∧ v.Shows s outer d.text) vs ds ps) :
    Native.ShowsAll s outer vs (Data.itemTexts ds) := by
  induction h with
  | nil => exact .nil
  | @cons v d ps vs ds qs here _ ih =>
    obtain ⟨nullish, here⟩ := here
    unfold Data.itemTexts
    rw [nullish]
    cases hv : v.isNullish with
    | true => exact .nullish hv ih
    | false => exact .cons hv here ih

end Gathers

namespace Store.Unfolds

variable {β : Type} {w : Walk β} {s : Store} {v : Native} {d : Data} {ps : List Native}

/-- What is in a container does not lead back to it. -/
theorem not_back (h : s.Unfolds v d ps) {u : Native} (hu : s.Holds v u) : ¬ s.Reaches u v :=
  fun hback => h.not_looped ⟨v, .refl v, .head' hu (Store.reaches_iff.1 hback)⟩

/-- A walk through what holds data, inside containers that it does not lead to, comes to what the
walk makes of the data. -/
theorem folds (plain : w.Plain) (h : s.Unfolds v d ps) {outer : List Native}
    (apart : ∀ o ∈ outer, ¬ s.Reaches v o) : w.Ends s outer v (w.fold d) := by
  induction h using induct generalizing outer with
  | scalar none => exact .scalar none rfl
  | @container v c ds ps h there inner =>
    have parts : Collects (w.Ends s) c.values (v :: outer) (w.foldAll ds) := by
      refine (inner.imp fun u hu d qs _ hd => ?_).folds
      obtain ⟨-, ih⟩ := hd
      have hv : s.Holds v u := ⟨c, there, hu⟩
      refine ih fun o ho => ?_
      obtain rfl | ho := List.mem_cons.1 ho
      · exact h.not_back hv
      · exact fun hr => apart o ho (Store.reaches_iff.2 (.head hv (Store.reaches_iff.1 hr)))
    refine .container there (fun again => apart v again (.refl v)) parts ?_
    unfold Walk.fold
    rw [funext (plain v .undefined c.keys)]

theorem isNullish_eq (h : s.Unfolds v d ps) : d.isNullish = v.isNullish := by
  cases h with
  | scalar => rfl
  | container there =>
    cases v with
    | array place => rfl
    | object place => rfl
    | _ => cases there

/-- So does the text. -/
theorem shows (h : s.Unfolds v d ps) {outer : List Nat}
    (apart : ∀ o ∈ outer, ¬ s.Reaches v (.array o)) : v.Shows s outer d.text := by
  induction h using induct generalizing outer with
  | scalar plain =>
    refine .plain fun place heq => ?_
    rw [heq] at plain
    cases plain
  | @container v c ds ps h there inner =>
    cases v with
    | array place =>
      obtain rfl : c = ⟨none, (s.items place).toList⟩ := Option.some.inj there.symm
      refine .array (fun again => apart place again (.refl _)) ?_
      refine (inner.imp fun u hu d qs _ hd => ?_).shows
      obtain ⟨hd, ih⟩ := hd
      have hv : s.Holds (.array place) u := ⟨_, there, hu⟩
      refine ⟨hd.isNullish_eq, ih fun o ho => ?_⟩
      obtain rfl | ho := List.mem_cons.1 ho
      · exact h.not_back hv
      · exact fun hr => apart o ho (Store.reaches_iff.2 (.head hv (Store.reaches_iff.1 hr)))
    | object place =>
      obtain rfl := Option.some.inj there.symm
      exact .plain (by simp)
    | _ => cases there

end Store.Unfolds

/-- A value that is converted unfolds. -/
theorem Walk.Ends.unfolds {β : Type} {w : Walk β} {s : Store} {outer : List Native} {v : Native}
    {r : Except Fault β} (h : w.Ends s outer v r) {b : β} (ok : r = .ok b) :
    ∃ d ps, s.Unfolds v d ps := by
  induction h using induct generalizing b with
  | scalar plain => exact ⟨_, _, .scalar plain⟩
  | cyclic => cases ok
  | container _ there _ inner result =>
    obtain ⟨bs, rfl, -⟩ := Walk.map_eq_ok (result.trans ok)
    obtain ⟨ds, ps, hall⟩ := Gathers.exists_of_forall fun u hu => by
      obtain ⟨b, -, ih⟩ := inner.of_ok hu
      exact ih rfl
    exact ⟨_, _, .container there hall⟩

/-! ## Copies -/

mutual

/-- Makes data anew, with a container of its own at every place. -/
def Data.make : Data → Run Native
  | .scalar v => return v
  | .node none parts => do Run.newArray (← Data.makeAll parts).toArray
  | .node (some keys) parts => do Run.newObject (keys.zip (← Data.makeAll parts))

def Data.makeAll : List Data → Run (List Native)
  | [] => return []
  | d :: ds => do
    let v ← d.make
    return v :: (← Data.makeAll ds)

end

/-- What data is after it was made: a value that holds it, in containers of which none was there
before and none is come to in two ways. -/
structure Store.Copied (s : Store) (d : Data) (v : Native) (s' : Store) (ps : List Native) :
    Prop where
  grows : s.Grows s'
  unfolds : s'.Unfolds v d ps
  unshared : ps.Nodup
  new : ∀ p ∈ ps, ¬ s.Contains p
  there : ∀ p ∈ ps, s'.Contains p

/-- The same for several values. -/
structure Store.CopiedAll (s : Store) (ds : List Data) (vs : List Native) (s' : Store)
    (ps : List Native) : Prop where
  grows : s.Grows s'
  unfolds : Gathers s'.Unfolds vs ds ps
  unshared : ps.Nodup
  new : ∀ p ∈ ps, ¬ s.Contains p
  there : ∀ p ∈ ps, s'.Contains p

namespace Store

variable {s t : Store} {v : Native} {d : Data} {ps : List Native}

theorem Grows.contains (h : s.Grows t) (hv : s.Contains v) : t.Contains v := by
  cases v with
  | array place => exact (Array.getElem?_eq_some_iff.1 (h.arrays place _ (Array.getElem?_eq_getElem hv))).1
  | object place =>
    exact (Array.getElem?_eq_some_iff.1 (h.objects place _ (Array.getElem?_eq_getElem hv))).1
  | _ => trivial

theorem Grows.contents_eq (h : s.Grows t) (hv : s.Contains v) : v.contents t = v.contents s := by
  cases v with
  | array place =>
    have hs := Array.getElem?_eq_getElem hv
    rw [Native.contents_array, Native.contents_array, items_of_some hs, items_of_some (h.arrays place _ hs)]
  | object place =>
    have hs := Array.getElem?_eq_getElem hv
    rw [Native.contents_object, Native.contents_object, fields_of_some hs, fields_of_some (h.objects place _ hs)]
  | _ => rfl

/-- What holds data goes on holding it while containers are made. -/
theorem Unfolds.grows (hst : s.Grows t) (h : s.Unfolds v d ps) (there : ∀ p ∈ ps, s.Contains p) :
    t.Unfolds v d ps := by
  induction h using Unfolds.induct with
  | scalar plain => exact .scalar (Native.plain_everywhere plain t)
  | @container v c ds ps _ hc inner =>
    have hv := there v List.mem_cons_self
    refine .container ((hst.contents_eq hv).trans hc) (inner.imp fun u _ d qs hsub hd => ?_)
    obtain ⟨-, ih⟩ := hd
    exact ih fun p hp => there p (List.mem_cons_of_mem _ (hsub hp))

end Store

/-- A new container with copies in it is a copy. -/
theorem Store.CopiedAll.container {s t u : Store} {ds : List Data} {vs ps : List Native}
    (h : s.CopiedAll ds vs t ps) (hu : t.Grows u) {v : Native} {keys : Option (List String)}
    (contents : v.contents u = some ⟨keys, vs⟩) (new : ¬ t.Contains v) (there : u.Contains v) :
    s.Copied (.node keys ds) v u (v :: ps) where
  grows := h.grows.trans hu
  unfolds := by
    refine .container contents (h.unfolds.imp fun w _ d qs hsub hw => hw.grows hu ?_)
    exact fun p hp => h.there p (hsub hp)
  unshared := List.nodup_cons.2 ⟨fun hv => new (h.there v hv), h.unshared⟩
  new := by
    intro p hp
    obtain rfl | hp := List.mem_cons.1 hp
    · exact fun hs => new (h.grows.contains hs)
    · exact h.new p hp
  there := by
    intro p hp
    obtain rfl | hp := List.mem_cons.1 hp
    · exact there
    · exact hu.contains (h.there p hp)

namespace Data

/-- Data of which all scalars are no containers, with a key for each part where there are keys. -/
inductive Formed : Data → Prop
  | scalar {v : Native} (plain : ∀ s, v.contents s = none) : Formed (.scalar v)
  | node {keys : Option (List String)} {parts : List Data}
      (keyed : ∀ ks ∈ keys, ks.length = parts.length) (inner : ∀ d ∈ parts, Formed d) :
      Formed (.node keys parts)

variable {s : Store} {d : Data} {ds : List Data} {ps : List Native}

theorem makeAll_copies (h : ∀ d ∈ ds, ∀ s, ∃ v s' ps, d.make s = .ok v s' ∧ s.Copied d v s' ps)
    (s : Store) : ∃ vs s' ps, makeAll ds s = .ok vs s' ∧ s.CopiedAll ds vs s' ps := by
  induction ds generalizing s with
  | nil => exact ⟨[], s, [], rfl, .refl s, .nil, List.nodup_nil, by simp, by simp⟩
  | cons d ds ih =>
    obtain ⟨v, s₁, ps, hv, hc⟩ := h d List.mem_cons_self s
    obtain ⟨vs, s₂, qs, hvs, hcs⟩ := ih (fun d hd => h d (List.mem_cons_of_mem _ hd)) s₁
    refine ⟨v :: vs, s₂, ps ++ qs, ?_, hc.grows.trans hcs.grows, ?_, ?_, ?_, ?_⟩
    · unfold makeAll
      rw [Run.bind_run hv, Run.bind_run hvs]
      rfl
    · exact .cons (hc.unfolds.grows hcs.grows hc.there) hcs.unfolds
    · exact hc.unshared.append hcs.unshared fun p hp hq => hcs.new p hq (hc.there p hp)
    · intro p hp
      obtain hp | hp := List.mem_append.1 hp
      · exact hc.new p hp
      · exact fun hs => hcs.new p hp (hc.grows.contains hs)
    · intro p hp
      obtain hp | hp := List.mem_append.1 hp
      · exact hcs.grows.contains (hc.there p hp)
      · exact hcs.there p hp

/-- Data is made in any store. -/
theorem Formed.copies (h : d.Formed) (t : Store) :
    ∃ w t' qs, d.make t = .ok w t' ∧ t.Copied d w t' qs := by
  induction h generalizing t with
  | @scalar v plain => exact ⟨v, t, [], rfl, .refl t, .scalar (plain t), List.nodup_nil, by simp, by simp⟩
  | @node keys ds keyed _ ih =>
    obtain ⟨ws, t', qs, hws, hall⟩ := makeAll_copies ih t
    cases keys with
    | none =>
      have hmake : (Data.node none ds).make t = .ok (.array t'.arrays.size)
          { t' with arrays := t'.arrays.push (.ofContent ws.toArray) } := by
        unfold make
        rw [Run.bind_run hws]
        rfl
      have hnew : (Native.array t'.arrays.size).contents
          { t' with arrays := t'.arrays.push (.ofContent ws.toArray) } = some ⟨none, ws⟩ := by
        rw [Native.contents_array, Store.items_of_some Array.getElem?_push_size]
        rfl
      exact ⟨_, _, _, hmake, hall.container (t'.grows_newArray _) hnew
        (Nat.lt_irrefl t'.arrays.size) (by simp [Store.Contains])⟩
    | some keys =>
      have hlength : keys.length = ws.length := (keyed keys rfl).trans hall.unfolds.length_eq
      have hmake : (Data.node (some keys) ds).make t = .ok (.object t'.objects.size)
          { t' with objects := t'.objects.push (.ofContent (keys.zip ws)) } := by
        unfold make
        rw [Run.bind_run hws]
        rfl
      have hnew : (Native.object t'.objects.size).contents
          { t' with objects := t'.objects.push (.ofContent (keys.zip ws)) } =
            some ⟨some keys, ws⟩ := by
        rw [Native.contents_object, Store.fields_of_some Array.getElem?_push_size]
        show some (Contents.mk (some ((keys.zip ws).map Prod.fst)) ((keys.zip ws).map Prod.snd)) = _
        rw [List.map_fst_zip (Nat.le_of_eq hlength), List.map_snd_zip (Nat.le_of_eq hlength.symm)]
      exact ⟨_, _, _, hmake, hall.container (t'.grows_newObject _) hnew
        (Nat.lt_irrefl t'.objects.size) (by simp [Store.Contains])⟩

end Data

/-- An object has as many keys as values. -/
theorem Native.length_keys {s : Store} {v : Native} {c : Contents} (there : v.contents s = some c)
    {keys : List String} (hkeys : c.keys = some keys) : keys.length = c.values.length := by
  cases v with
  | array place =>
    cases there
    cases hkeys
  | object place =>
    cases there
    cases hkeys
    rw [List.length_map, List.length_map]
  | _ => cases there

theorem Store.Unfolds.formed {s : Store} {v : Native} {d : Data} {ps : List Native}
    (h : s.Unfolds v d ps) : d.Formed := by
  induction h using induct with
  | scalar plain => exact .scalar (Native.plain_everywhere plain)
  | container _ there inner =>
    refine .node (fun ks hks => (Native.length_keys there hks).trans inner.length_eq.symm) fun d hd => ?_
    obtain ⟨u, -, qs, -, ih⟩ := inner.of_mem_data hd
    exact ih

theorem Data.make_copies {s : Store} {v : Native} {d : Data} {ps : List Native} (h : s.Unfolds v d ps)
    (t : Store) : ∃ w t' qs, d.make t = .ok w t' ∧ t.Copied d w t' qs :=
  h.formed.copies t

/-! ## The results -/

namespace Value

mutual

/-- A value without the containers that it came from. -/
def bare : Value → Value
  | list items _ => list (bareItems items) none
  | mapping entries _ => mapping (bareEntries entries) none
  | error kind message (some v) => error kind message (some v.bare)
  | v => v

def bareItems : List Value → List Value
  | [] => []
  | v :: rest => v.bare :: bareItems rest

def bareEntries : List (String × Slot) → List (String × Slot)
  | [] => []
  | (k, slot) :: rest => (k, bareSlot slot) :: bareEntries rest

def bareSlot : Slot → Slot
  | .ready v => .ready v.bare
  | .lazy t => .lazy t

end

theorem bare_of_scalar {v : Value} (h : v.scalar?.isSome) : v.bare = v := by
  cases v with
  | list | mapping | error => cases h
  | _ => rfl

theorem bareItems_eq_map (items : List Value) : bareItems items = items.map bare := by
  induction items with
  | nil => rfl
  | cons v items ih => rw [bareItems, List.map_cons, ih]

theorem bareEntries_eq_map (entries : Entries) :
    bareEntries entries = entries.map fun e => (e.1, bareSlot e.2) := by
  induction entries with
  | nil => rfl
  | cons e entries ih => rw [bareEntries, List.map_cons, ih]

theorem bareEntries_insert (entries : Entries) (key : String) (slot : Slot) :
    bareEntries (entries.insert key slot) = Entries.insert (bareEntries entries) key (bareSlot slot) := by
  have hhas : Entries.has (bareEntries entries) key = entries.has key := by
    rw [Bool.eq_iff_iff, Entries.has_iff, Entries.has_iff, bareEntries_eq_map]
    simp
  unfold Entries.insert Entries.insert?
  rw [hhas]
  split
  · rfl
  · simp [bareEntries_eq_map]

/-- The first of each key is kept, whatever the values. -/
theorem bareEntries_ofList (es : List (String × Value)) :
    bareEntries (Entries.ofList es) = Entries.ofList (es.map fun e => (e.1, e.2.bare)) := by
  have hfold (out : Entries) :
      bareEntries (es.foldl (fun out e => Entries.insert out e.1 (.ready e.2)) out) =
        (es.map fun e => (e.1, e.2.bare)).foldl (fun out e => Entries.insert out e.1 (.ready e.2))
          (bareEntries out) := by
    induction es generalizing out with
    | nil => rfl
    | cons e es ih =>
      rw [List.foldl_cons, List.map_cons, List.foldl_cons, ih, bareEntries_insert]
      rfl
  exact hfold []

end Value

namespace Walk

/-- The conversion to a value of formulas that does not remember where containers came from. -/
def bare : Walk Value where
  scalar v := v.toValueIn .empty 0 []
  cyclic := .cyclic
  build _ keys parts :=
    match keys with
    | none => .list parts none
    | some keys => .mapping (Entries.ofList (keys.zip parts)) none

theorem bare_plain : bare.Plain :=
  fun _ _ _ _ => rfl

theorem json_plain : json.Plain :=
  fun _ _ _ _ => rfl

variable {β γ : Type} {w : Walk β} {w' : Walk γ} {s : Store}

/-- A function of what a walk comes to is a walk, if it can be computed on the way. -/
theorem Describes.map {f : Nat → List Native → Native → Except Fault β} (h : w.Describes s f)
    (g : β → γ) (scalar : ∀ v : Native, v.contents s = none → w'.scalar v = g <$> w.scalar v)
    (cyclic : w'.cyclic = w.cyclic)
    (build : ∀ v keys bs, w'.build v keys (bs.map g) = g (w.build v keys bs)) :
    w'.Describes s fun fuel outer v => g <$> f fuel outer v where
  scalar plain := by rw [h.scalar plain, scalar _ plain]
  cyclic there again := by
    rw [h.cyclic there again, cyclic]
    rfl
  container {fuel outer v c} there first := by
    rw [h.container there first, Native.collect_map]
    cases Native.collect (f fuel (v :: outer)) c.values with
    | error e => rfl
    | ok bs => exact congrArg Except.ok (build v c.keys bs).symm

theorem bare_describes (s : Store) :
    bare.Describes s fun fuel outer v => Value.bare <$> v.toValueIn s fuel outer := by
  refine (value_describes s).map Value.bare (fun v plain => ?_) rfl fun v keys bs => ?_
  · show v.toValueIn .empty 0 [] = Value.bare <$> v.toValueIn .empty 0 []
    obtain ⟨t, ht⟩ := Native.toValueIn_plain plain
    obtain ⟨scalar, -⟩ := Native.toValueIn_scalar (fun place h => by rw [h] at plain; cases plain)
      (fun place h => by rw [h] at plain; cases plain) ht
    rw [ht]
    exact congrArg Except.ok (Value.bare_of_scalar scalar).symm
  · cases keys with
    | none => exact congrArg (Value.list · none) (Value.bareItems_eq_map bs).symm
    | some keys =>
      have hes := Value.bareEntries_ofList (keys.zip bs)
      refine congrArg (Value.mapping · none) ((Eq.trans ?_ hes.symm))
      rw [List.zip_map_right]
      rfl

end Walk

/-- A value that holds data is converted to what is made of the data, and nothing else counts. -/
theorem Store.Unfolds.results {s : Store} {v : Native} {d : Data} {ps : List Native}
    (h : s.Unfolds v d ps) :
    (Value.bare <$> v.toValue s) = Walk.bare.fold d ∧ v.toJson s = Walk.json.fold d ∧
      v.text s = d.text := by
  have covers := Native.covers_containers s
  refine ⟨?_, ?_, ?_⟩
  · exact ((Walk.bare_describes s).ends covers).unique (h.folds Walk.bare_plain (by simp))
  · exact (Native.toJson_ends s v).unique (h.folds Walk.json_plain (by simp))
  · exact (Native.text_shows s v).unique (h.shows (by simp))

/-- In every store, with any sharing and any cycles, the conversions of every value come to an
end.  The conversion to a value of formulas fails exactly if a cycle through arrays and objects is
reached, and always as cyclic; the one to JSON exactly if such a cycle or a big integer is.  A
value from which no cycle is reached unfolds to data, of which a copy that shares nothing can be
made in any store; whatever unfolds to the same data is converted to the same. -/
theorem conversions_end (s : Store) (v : Native) :
    (∀ r, (Walk.value s).Ends s [] v r ↔ r = v.toValue s) ∧
    (∀ r, Walk.json.Ends s [] v r ↔ r = v.toJson s) ∧
    (∀ t, v.Shows s [] t ↔ t = v.text s) ∧
    (∀ f, v.toValue s = .error f ↔ f = .cyclic ∧ s.Looped v) ∧
    ((∃ f, v.toJson s = .error f) ↔ s.Looped v ∨ ∃ n, s.Reaches v (.big n)) ∧
    (¬ s.Looped v → ∃ d ps, s.Unfolds v d ps ∧
      ∀ t, ∃ w t' qs, d.make t = .ok w t' ∧ t.Copied d w t' qs) ∧
    ∀ d ps, s.Unfolds v d ps → ∀ (t : Store) (w : Native) (qs : List Native), t.Unfolds w d qs →
      (∃ x y, v.toValue s = .ok x ∧ w.toValue t = .ok y ∧ x.bare = y.bare) ∧
      v.toJson s = w.toJson t ∧ v.text s = w.text t := by
  have accepted {s : Store} {v : Native} (h : ¬ s.Looped v) : ∃ x, v.toValue s = .ok x := by
    cases hx : v.toValue s with
    | error f => exact absurd ((Native.toValue_error_iff s v f).1 hx).2 h
    | ok x => exact ⟨x, rfl⟩
  refine ⟨fun r => ⟨fun h => h.unique (Native.toValue_ends s v), ?_⟩,
    fun r => ⟨fun h => h.unique (Native.toJson_ends s v), ?_⟩,
    fun t => ⟨fun h => h.unique (Native.text_shows s v), ?_⟩,
    Native.toValue_error_iff s v, Native.toJson_fails_iff s v, fun h => ?_,
    fun d ps hd t w qs hw => ?_⟩
  · rintro rfl
    exact Native.toValue_ends s v
  · rintro rfl
    exact Native.toJson_ends s v
  · rintro rfl
    exact Native.text_shows s v
  · obtain ⟨x, hx⟩ := accepted h
    obtain ⟨d, ps, hd⟩ := (Native.toValue_ends s v).unfolds hx
    exact ⟨d, ps, hd, Data.make_copies hd⟩
  · obtain ⟨hvalue, hjson, htext⟩ := hd.results
    obtain ⟨hvalue', hjson', htext'⟩ := hw.results
    obtain ⟨x, hx⟩ := accepted hd.not_looped
    obtain ⟨y, hy⟩ := accepted hw.not_looped
    refine ⟨⟨x, y, hx, hy, ?_⟩, hjson.trans hjson'.symm, htext.trans htext'.symm⟩
    rw [hx] at hvalue
    rw [hy] at hvalue'
    exact Except.ok.inj (hvalue.trans hvalue'.symm)

/-! ### An array that is shared and an object in itself -/

/-- An array that contains another one twice, and an object that contains itself. -/
def twiceAndRound : Store :=
  { Store.empty with
    arrays := #[.ofContent #[.boolean true], .ofContent #[.array 0, .array 0]]
    objects := #[.ofContent [("self", .object 0)]] }

/-- What the outer array holds. -/
def twiceTrue : Data :=
  .node none [.node none [.scalar (.boolean true)], .node none [.scalar (.boolean true)]]

theorem unfolds_twiceTrue :
    twiceAndRound.Unfolds (.array 1) twiceTrue [.array 1, .array 0, .array 0] := by
  have item : Gathers twiceAndRound.Unfolds [.boolean true] [.scalar (.boolean true)] ([] ++ []) :=
    .cons (.scalar rfl) .nil
  have inner : twiceAndRound.Unfolds (.array 0) (.node none [.scalar (.boolean true)]) [.array 0] :=
    .container (c := ⟨none, [.boolean true]⟩) rfl item
  have items : Gathers twiceAndRound.Unfolds [.array 0, .array 0]
      [.node none [.scalar (.boolean true)], .node none [.scalar (.boolean true)]]
      ([Native.array 0] ++ ([Native.array 0] ++ [])) :=
    .cons inner (.cons inner .nil)
  exact .container (c := ⟨none, [.array 0, .array 0]⟩) rfl items

/-- The array is converted as if it were not shared; the object is not. -/
theorem twice_accepted_round_rejected :
    ¬ twiceAndRound.Looped (.array 1) ∧ twiceAndRound.Looped (.object 0) ∧
    (Native.object 0).toValue twiceAndRound = .error .cyclic ∧
    twiceAndRound.Unfolds (.array 1) twiceTrue [.array 1, .array 0, .array 0] ∧
    ∃ w t qs, twiceTrue.make twiceAndRound = .ok w t ∧ twiceAndRound.Copied twiceTrue w t qs ∧
      (Native.array 1).toJson twiceAndRound = w.toJson t ∧
      (Native.array 1).text twiceAndRound = w.text t := by
  obtain ⟨-, -, -, fails, -, -, same⟩ := conversions_end twiceAndRound (.array 1)
  obtain ⟨-, -, -, fails', -⟩ := conversions_end twiceAndRound (.object 0)
  have hloop : twiceAndRound.Looped (.object 0) :=
    ⟨.object 0, .refl _, .single ⟨⟨some ["self"], [.object 0]⟩, rfl, List.mem_singleton_self _⟩⟩
  refine ⟨fun h => ?_, hloop, (fails' .cyclic).2 ⟨rfl, hloop⟩, unfolds_twiceTrue, ?_⟩
  · have hok : ∃ t, (Native.array 1).toValue twiceAndRound = .ok t := ⟨_, rfl⟩
    obtain ⟨t, ht⟩ := hok
    rw [(fails .cyclic).2 ⟨rfl, h⟩] at ht
    cases ht
  · obtain ⟨w, t, qs, hmake, hcopy⟩ := Data.make_copies unfolds_twiceTrue twiceAndRound
    obtain ⟨-, hjson, htext⟩ := same _ _ unfolds_twiceTrue t w qs hcopy.unfolds
    exact ⟨w, t, qs, hmake, hcopy, hjson, htext⟩

end Workbook
