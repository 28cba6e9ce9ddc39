/-
Paths into converted containers.

A formula that goes from a container to its members and items reads a snapshot, in which all is
there already: nothing is executed, and nothing changes.  What it finds there mirrors what is found
in the container by the same steps (`member_mirrors`, `item_mirrors`), and it finds no container
that is not there (`mirrors_of_member`, `mirrors_of_item`).  Turned back, the part of the snapshot
is the very part of the container (`native_mirrors`).
-/
import Workbook.Proofs.Session.Folder
import Workbook.Proofs.Session.Result
import Workbook.Proofs.Snapshot

open List (Forall₂)

namespace Workbook

/-! ## Steps -/

/-- A step from a container to something in it: to the field under a key, or to the item at a
position. -/
inductive Step
  | key (k : String)
  | position (i : Nat)
  deriving DecidableEq, Repr

def Native.IsContainer : Native → Prop
  | array _ | object _ => True
  | _ => False

namespace Store

/-- What is one step inside a value.  Keys are compared without regard to case; of several fields
with a key, the first counts. -/
def inside? (s : Store) : Native → Step → Option Native
  | .object place, .key k =>
    ((s.fields place).find? fun f => Text.lower f.1 == Text.lower k).map (·.2)
  | .array place, .position i => (s.items place)[i]?
  | _, _ => none

/-- What is found in a value by following a path. -/
def at? (s : Store) (n : Native) (path : List Step) : Option Native :=
  path.foldlM s.inside? n

variable {s t : Store} {n m : Native} {path : List Step} {step : Step}

/-- What is one step inside an object that is there. -/
theorem inside?_key {place : Nat} {c : Container Fields} (hc : s.objects[place]? = some c)
    (k : String) : s.inside? (.object place) (.key k) =
      (c.content.find? fun f => Text.lower f.1 == Text.lower k).map (·.2) := by
  have hfields : s.fields place = c.content := by
    unfold fields
    rw [hc]
  rw [← hfields]
  rfl

theorem inside?_position {place : Nat} {c : Container (Array Native)}
    (hc : s.arrays[place]? = some c) (i : Nat) :
    s.inside? (.array place) (.position i) = c.content[i]? := by
  have hitems : s.items place = c.content := by
    unfold items
    rw [hc]
  rw [← hitems]
  rfl

@[simp] theorem at?_nil (s : Store) (n : Native) : s.at? n [] = some n :=
  rfl

theorem at?_concat (s : Store) (n : Native) (path : List Step) (step : Step) :
    s.at? n (path ++ [step]) = (s.at? n path).bind fun m => s.inside? m step := by
  unfold at?
  rw [List.foldlM_append]
  cases path.foldlM s.inside? n with
  | none => rfl
  | some m =>
    show (s.inside? m step).bind some = s.inside? m step
    exact Option.bind_fun_some _

/-- What is a step further is in the container. -/
theorem reaches_inside (h : s.inside? n step = some m) : s.Reaches n m := by
  cases n with
  | object place =>
    cases step with
    | position i => cases h
    | key k =>
      obtain ⟨f, hf, rfl⟩ := Option.map_eq_some_iff.1 h
      have hmem : f ∈ s.fields place := List.mem_of_find?_eq_some hf
      unfold fields at hmem
      cases hc : s.objects[place]? with
      | none =>
        rw [hc] at hmem
        cases hmem
      | some c =>
        rw [hc] at hmem
        exact .field hc hmem (.refl f.2)
  | array place =>
    cases step with
    | key k => cases h
    | position i =>
      have hmem : m ∈ s.items place := Array.mem_of_getElem? h
      unfold items at hmem
      cases hc : s.arrays[place]? with
      | none =>
        rw [hc] at hmem
        simp at hmem
      | some c =>
        rw [hc] at hmem
        exact .item hc hmem (.refl m)
  | _ => cases step <;> cases h

/-- What is a step inside something frozen is the same later. -/
theorem inside?_kept (kept : s.FrozenKept t) (hn : s.Sealed n) (step : Step) :
    t.inside? n step = s.inside? n step := by
  cases n with
  | object place =>
    obtain ⟨c, hc, hf⟩ := hn
    cases step with
    | position i => rfl
    | key k =>
      rw [inside?_key (kept.objects place c hc hf), inside?_key hc]
  | array place =>
    obtain ⟨c, hc, hf⟩ := hn
    cases step with
    | key k => rfl
    | position i =>
      rw [inside?_position (kept.arrays place c hc hf), inside?_position hc]
  | _ => cases step <;> rfl

/-- What is found in something frozen is frozen, and the same is found later. -/
theorem at?_kept (tight : s.FrozenAll s.Sealed) (kept : s.FrozenKept t) (hn : s.Sealed n)
    (path : List Step) :
    t.at? n path = s.at? n path ∧ ∀ m, s.at? n path = some m → s.Sealed m := by
  induction path using List.reverseRecOn with
  | nil =>
    refine ⟨rfl, fun m hm => ?_⟩
    cases hm
    exact hn
  | append_singleton path step ih =>
    obtain ⟨hpath, hsealed⟩ := ih
    rw [at?_concat, at?_concat, hpath]
    cases hm : s.at? n path with
    | none => exact ⟨rfl, fun _ h => nomatch h⟩
    | some m =>
      have hm := hsealed m hm
      refine ⟨inside?_kept kept hm step, fun m' hm' => ?_⟩
      exact hm.reaches tight (reaches_inside hm')

end Store

/-! ## What names a step -/

namespace Value

/-- The position that a number designates. -/
def position? (index : Value) : Option Nat :=
  let natural (n : Int) : Option Nat := if 0 ≤ n ∧ n < UInt64.size then some n.toNat else none
  match index with
  | integer n => natural n.toInt
  | float x => if Number.isIntegral x then (Number.truncated? x).bind natural else none
  | _ => none

/-- The steps that an index may stand for; which of them it is depends on the container. -/
inductive Names : Value → Step → Prop
  | text (k : String) : Names (.string k) (.key k)
  | digits (n : Int64) : Names (.integer n) (.key (Json.integerText n.toInt))
  | number {index : Value} {i : Nat} (h : index.position? = some i) : Names index (.position i)

/-- A value that is no container, nor does it become one. -/
def Flat : Value → Prop
  | list .. | mapping .. | error .. => False
  | _ => True

theorem flat_of_scalar {v : Value} (h : v.scalar?.isSome) : v.Flat := by
  cases v with
  | list _ _ => cases h
  | mapping _ _ => cases h
  | error _ _ _ => cases h
  | _ => trivial

theorem flat_ofInt (n : Int) : (Value.ofInt n).Flat := by
  unfold ofInt
  split <;> trivial

end Value

theorem Engine.position_run (e : Engine) {w : Value} {i : Nat} (h : w.position? = some i)
    (u : Store) : e.position w u = .ok (some i) u := by
  cases w with
  | integer n =>
    have h : (if 0 ≤ n.toInt ∧ n.toInt < UInt64.size then some n.toInt.toNat else none) = some i := h
    unfold position
    simp only
    rw [h]
    rfl
  | float x =>
    unfold Value.position? at h
    unfold position
    simp only at h ⊢
    split at h
    · rename_i hintegral
      rw [if_pos hintegral, h]
      rfl
    · cases h
  | _ => cases h

/-- A position that is designated is the one that the number designates. -/
theorem Engine.position_eq_some {e : Engine} {w : Value} {i : Nat} {u u' : Store}
    (h : e.position w u = .ok (some i) u') : w.position? = some i := by
  have mismatch {x : Run String} {f : String → String} :
      (do Run.mismatch (f (← x)) : Run (Option Nat)) u ≠ .ok (some i) u' := by
    intro h
    obtain ⟨text, u₁, -, h⟩ := Run.bind_eq_ok h
    cases h
  cases w with
  | integer n =>
    unfold position at h
    exact (EStateM.Result.ok.inj h).1
  | float x =>
    unfold position at h
    unfold Value.position?
    simp only at h ⊢
    split at h
    · rename_i hintegral
      rw [if_pos hintegral]
      exact (EStateM.Result.ok.inj h).1
    · exact absurd h mismatch
  | _ => exact absurd h mismatch

/-! ## Mirrors -/

/-- A frozen value, and a part of a snapshot that it was converted to. -/
structure Store.Mirrors (s : Store) (n : Native) (v : Value) : Prop where
  frozen : s.Sealed n
  converted : ∃ fuel outer, n.toValueIn s fuel outer = .ok v

/-- Of related lists, what is found first in each is related. -/
theorem find?_forall₂ {α β : Type} {R : α → β → Prop} {p : α → Bool} {q : β → Bool} {as : List α}
    {bs : List β} (h : Forall₂ R as bs) (hpq : ∀ a b, R a b → p a = q b) :
    Option.Rel R (as.find? p) (bs.find? q) := by
  induction h with
  | nil => exact .none
  | @cons a b as bs hab _ ih =>
    rw [List.find?_cons, List.find?_cons, ← hpq a b hab]
    cases p a with
    | true => exact .some hab
    | false => exact ih

theorem getElem?_forall₂ {α β : Type} {R : α → β → Prop} {as : List α} {bs : List β}
    (h : Forall₂ R as bs) (i : Nat) : Option.Rel R as[i]? bs[i]? := by
  induction h generalizing i with
  | nil => exact .none
  | cons hab _ ih =>
    cases i with
    | zero => exact .some hab
    | succ i => exact ih i

namespace Entries

/-- Under a key, the entries made of a list have what the list has first. -/
theorem find?_foldl_insert (es : List (String × Value)) (out : Entries) (key : String) :
    (es.foldl (fun out e => insert out e.1 (.ready e.2)) out).find? key =
      (out.find? key).or
        ((es.find? fun e => Text.lower e.1 == Text.lower key).map fun e => .ready e.2) := by
  induction es generalizing out with
  | nil => simp
  | cons e es ih =>
    rw [List.foldl_cons, ih]
    cases hout : out.find? key with
    | some slot =>
      rw [find?_insert_of_some hout]
      rfl
    | none =>
      rw [find?_insert_of_none hout, List.find?_cons]
      by_cases hkey : Text.lower e.1 = Text.lower key
      · simp [hkey]
      · have hfalse : (Text.lower e.1 == Text.lower key) = false := by simpa using hkey
        simp [hkey, hfalse]

theorem find?_ofList (es : List (String × Value)) (key : String) :
    (Entries.ofList es).find? key =
      (es.find? fun e => Text.lower e.1 == Text.lower key).map fun e => .ready e.2 :=
  find?_foldl_insert es [] key

end Entries

namespace Store

variable {s : Store} {n : Native} {v : Value} {place : Nat}

/-- The fields of a frozen object are mirrored by the entries of the mapping. -/
theorem Mirrors.object (tight : s.FrozenAll s.Sealed) (h : s.Mirrors (.object place) v) :
    ∃ c entries, s.objects[place]? = some c ∧ v = .mapping entries (some ⟨place, c.version⟩) ∧
      ∀ k, Option.Rel (fun m slot => ∃ w, slot = .ready w ∧ s.Mirrors m w)
        (s.inside? (.object place) (.key k)) (Entries.find? entries k) := by
  obtain ⟨⟨c, hc, hf⟩, fuel, outer, hv⟩ := h
  obtain ⟨fuel', es, rfl, hes, rfl⟩ := Native.toValueIn_object hc hv
  refine ⟨c, _, hc, rfl, fun k => ?_⟩
  have hes : Forall₂ (fun f e => f.1 = e.1 ∧ s.Mirrors f.2 e.2) c.content es :=
    forall₂_imp_mem hes fun f hmem e _ hfe =>
      ⟨hfe.1, tight.objects place c hc hf f hmem, _, _, hfe.2⟩
  have hfind := find?_forall₂ (p := fun f => Text.lower f.1 == Text.lower k)
    (q := fun e => Text.lower e.1 == Text.lower k) hes fun f e hfe => by rw [hfe.1]
  rw [Entries.find?_ofList, inside?_key hc]
  generalize c.content.find? _ = x at hfind ⊢
  generalize es.find? _ = y at hfind ⊢
  cases hfind with
  | none => exact .none
  | some hfe => exact .some ⟨_, rfl, hfe.2⟩

/-- The items of a frozen array are mirrored by the items of the list. -/
theorem Mirrors.array (tight : s.FrozenAll s.Sealed) (h : s.Mirrors (.array place) v) :
    ∃ c items, s.arrays[place]? = some c ∧ v = .list items (some ⟨place, c.version⟩) ∧
      ∀ i, Option.Rel s.Mirrors (s.inside? (.array place) (.position i)) items[i]? := by
  obtain ⟨⟨c, hc, hf⟩, fuel, outer, hv⟩ := h
  obtain ⟨fuel', items, rfl, hitems, rfl⟩ := Native.toValueIn_array hc hv
  refine ⟨c, items, hc, rfl, fun i => ?_⟩
  have hitems : Forall₂ s.Mirrors c.content.toList items :=
    forall₂_imp_mem hitems fun m hmem w _ hmw =>
      ⟨tight.arrays place c hc hf m (Array.mem_toList_iff.1 hmem), _, _, hmw⟩
  have hitem := getElem?_forall₂ hitems i
  rw [Array.getElem?_toList] at hitem
  rw [inside?_position hc]
  exact hitem

/-- What is no container is mirrored by what is none. -/
theorem Mirrors.flat (h : s.Mirrors n v) (hn : ¬ n.IsContainer) : v.Flat := by
  obtain ⟨-, fuel, outer, hv⟩ := h
  refine Value.flat_of_scalar (Native.toValueIn_scalar ?_ ?_ hv).1
  · rintro place rfl
    exact hn trivial
  · rintro place rfl
    exact hn trivial

/-- A part of a snapshot does not stand for a failure. -/
theorem Mirrors.checked (tight : s.FrozenAll s.Sealed) (h : s.Mirrors n v) (name : String) :
    Formula.checkedRead name v = pure v := by
  cases v with
  | error kind message payload =>
    by_cases hn : n.IsContainer
    · cases n with
      | array place =>
        obtain ⟨_, _, -, hv, -⟩ := h.array tight
        cases hv
      | object place =>
        obtain ⟨_, _, -, hv, -⟩ := h.object tight
        cases hv
      | _ => exact hn.elim
    · exact (h.flat hn).elim
  | _ => rfl

end Store

/-! ## Members and items of snapshots -/

namespace Engine

variable {s : Store} {n m : Native} {v w v' : Value} {e : Engine} {u u' : Store} {name : String}

theorem readEntry_ready {entries : Entries} (h : Entries.find? entries name = some (.ready w))
    (checked : Formula.checkedRead name w = pure w) (u : Store) :
    e.readEntry entries name u = .ok w u := by
  have hread : e.readKey? entries name u = .ok (some w) u := by
    unfold readKey?
    rw [h]
    rfl
  unfold readEntry
  rw [Run.bind_run hread]
  simp only
  rw [checked]
  rfl

theorem readEntry_none {entries : Entries} (h : Entries.find? entries name = none) (u : Store) :
    e.readEntry entries name u = .ok .null u := by
  have hread : e.readKey? entries name u = .ok none u := by
    unfold readKey?
    rw [h]
    rfl
  unfold readEntry
  rw [Run.bind_run hread]
  rfl

/-- The member of a snapshot is the snapshot of the field. -/
theorem member_mirrors (tight : s.FrozenAll s.Sealed) (h : s.Mirrors n v)
    (hm : s.inside? n (.key name) = some m) :
    ∃ w, s.Mirrors m w ∧ ∀ (e : Engine) (u : Store), e.member v name u = .ok w u := by
  cases n with
  | object place =>
    obtain ⟨c, entries, -, rfl, hentries⟩ := h.object tight
    have hentry := hentries name
    rw [hm] at hentry
    cases hfind : Entries.find? entries name with
    | none =>
      rw [hfind] at hentry
      cases hentry
    | some slot =>
      rw [hfind] at hentry
      cases hentry with
      | some hslot =>
        obtain ⟨w, rfl, hw⟩ := hslot
        refine ⟨w, hw, fun e u => ?_⟩
        have hhas : Entries.has entries name = true := by
          unfold Entries.has
          rw [hfind]
          rfl
        unfold member
        simp only
        rw [if_pos hhas]
        exact readEntry_ready hfind (hw.checked tight name) u
  | array place => cases hm
  | _ => cases hm

/-- The item of a snapshot is the snapshot of the item. -/
theorem item_mirrors (tight : s.FrozenAll s.Sealed) (h : s.Mirrors n v) {index : Value} {step : Step}
    (names : index.Names step) (hm : s.inside? n step = some m) :
    ∃ w, s.Mirrors m w ∧ ∀ (e : Engine) (u : Store), e.item v index u = .ok w u := by
  cases n with
  | object place =>
    cases step with
    | position i => cases hm
    | key k =>
      obtain ⟨c, entries, -, rfl, hentries⟩ := h.object tight
      have hentry := hentries k
      rw [hm] at hentry
      cases hfind : Entries.find? entries k with
      | none =>
        rw [hfind] at hentry
        cases hentry
      | some slot =>
        rw [hfind] at hentry
        cases hentry with
        | some hslot =>
          obtain ⟨w, rfl, hw⟩ := hslot
          refine ⟨w, hw, fun e u => ?_⟩
          cases names with
          | text k => exact readEntry_ready hfind (hw.checked tight k) u
          | digits n => exact readEntry_ready hfind (hw.checked tight _) u
  | array place =>
    cases step with
    | key k => cases hm
    | position i =>
      obtain ⟨c, items, -, rfl, hitems⟩ := h.array tight
      have hitem := hitems i
      rw [hm] at hitem
      cases hw : items[i]? with
      | none =>
        rw [hw] at hitem
        cases hitem
      | some w =>
        rw [hw] at hitem
        cases hitem with
        | some hmw =>
          refine ⟨w, hmw, fun e u => ?_⟩
          cases names with
          | number hi =>
            have hrun : (e.position index >>= itemAt (.list items (some ⟨place, c.version⟩))) u =
                .ok w u := by
              rw [Run.bind_run (e.position_run hi u)]
              unfold itemAt
              simp only
              rw [hw]
              rfl
            cases index with
            | integer n => exact hrun
            | float x => exact hrun
            | _ => cases hi
  | _ => cases step <;> cases hm

/-! ### The way back -/

/-- A member that is no entry is no container. -/
theorem member_flat (h : ∀ entries o, v = .mapping entries o → Entries.find? entries name = none)
    (hrun : e.member v name u = .ok w u') : w.Flat := by
  have hnew (code : TypedCode) (hrun : Run.newTyped code u = .ok w u') : w.Flat := by
    cases hrun
    trivial
  cases v with
  | mapping entries o =>
    have hhas : Entries.has entries name = false := by
      unfold Entries.has
      rw [h entries o rfl]
      rfl
    unfold member at hrun
    simp only [hhas, Bool.false_eq_true, if_false] at hrun
    cases hm : Formula.MappingMethod.ofName? name with
    | some m =>
      simp only [hm] at hrun
      exact hnew _ hrun
    | none =>
      simp only [hm] at hrun
      cases hrun
      trivial
  | list items o =>
    unfold member at hrun
    simp only at hrun
    split at hrun
    · cases hrun
      exact Value.flat_ofInt _
    · cases hm : Formula.ListMethod.ofName? name with
      | some m =>
        simp only [hm] at hrun
        exact hnew _ hrun
      | none =>
        simp only [hm] at hrun
        cases hrun
  | string s =>
    unfold member at hrun
    simp only at hrun
    split at hrun
    · cases hrun
      exact Value.flat_ofInt _
    · cases hm : Formula.StringMethod.ofName? name with
      | some m =>
        simp only [hm] at hrun
        exact hnew _ hrun
      | none =>
        simp only [hm] at hrun
        cases hrun
  | bytes b =>
    unfold member at hrun
    simp only at hrun
    split at hrun
    · cases hrun
      exact Value.flat_ofInt _
    · cases hrun
  | _ => cases hrun

/-- What a position leads to is no container, unless it is an item of a list. -/
theorem itemAt_flat {i : Option Nat}
    (h : ∀ items o, v = .list items o → ∀ j, i = some j → items[j]? = none)
    (hrun : itemAt v i u = .ok w u') : w.Flat := by
  cases i with
  | none =>
    cases hrun
    trivial
  | some i =>
    cases v with
    | list items o =>
      unfold itemAt at hrun
      simp only [h items o rfl i rfl] at hrun
      cases hrun
      trivial
    | string s =>
      unfold itemAt at hrun
      simp only at hrun
      cases hi : s.toList[i]? with
      | none =>
        rw [hi] at hrun
        cases hrun
        trivial
      | some c =>
        rw [hi] at hrun
        cases hrun
        trivial
    | bytes b =>
      unfold itemAt at hrun
      simp only at hrun
      cases hi : b.data[i]? with
      | none =>
        rw [hi] at hrun
        cases hrun
        trivial
      | some x =>
        rw [hi] at hrun
        cases hrun
        exact Value.flat_ofInt _
    | _ => cases hrun

/-- What an index leads to is no container, unless it is something in one. -/
theorem item_flat {index : Value}
    (entry : ∀ entries o k, v = .mapping entries o → index.Names (.key k) →
      Entries.find? entries k = none)
    (element : ∀ items o i, v = .list items o → index.Names (.position i) → items[i]? = none)
    (hrun : e.item v index u = .ok w u') : w.Flat := by
  have hat {i : Option Nat} {u₁ : Store} (hi : e.position index u = .ok i u₁)
      (hrun : itemAt v i u₁ = .ok w u') : w.Flat := by
    refine itemAt_flat (fun items o hv j hj => ?_) hrun
    subst hj
    exact element items o j hv (.number (e.position_eq_some hi))
  have hposition (hrun : (e.position index >>= itemAt v) u = .ok w u') : w.Flat := by
    obtain ⟨i, u₁, hi, hrun⟩ := Run.bind_eq_ok hrun
    exact hat hi hrun
  have hentry {entries : Entries} {o : Option Origin} {k : String} (hv : v = .mapping entries o)
      (hk : index.Names (.key k)) (hrun : e.readEntry entries k u = .ok w u') : w.Flat := by
    rw [readEntry_none (entry entries o k hv hk)] at hrun
    cases hrun
    trivial
  cases v with
  | null =>
    obtain ⟨text, u₁, -, hrun⟩ := Run.bind_eq_ok hrun
    cases hrun
  | error kind message payload =>
    obtain ⟨text, u₁, -, hrun⟩ := Run.bind_eq_ok hrun
    cases hrun
  | mapping entries o =>
    cases index with
    | string k => exact hentry rfl (.text k) hrun
    | integer n => exact hentry rfl (.digits n) hrun
    | float x => exact hposition hrun
    | _ => cases hrun
  | _ =>
    cases index with
    | integer n => exact hposition hrun
    | float x => exact hposition hrun
    | _ => cases hrun

/-- A container that is the member of a snapshot is the snapshot of what is there. -/
theorem mirrors_of_member (tight : s.FrozenAll s.Sealed) (h : s.Mirrors n v)
    (hrun : e.member v name u = .ok w u') :
    w.Flat ∨ ∃ m, s.inside? n (.key name) = some m ∧ s.Mirrors m w := by
  cases hm : s.inside? n (.key name) with
  | some m =>
    obtain ⟨w', hw', hrun'⟩ := member_mirrors tight h hm
    cases (hrun' e u).symm.trans hrun
    exact .inr ⟨m, rfl, hw'⟩
  | none =>
    refine .inl (member_flat (fun entries o hv => ?_) hrun)
    cases n with
    | object place =>
      obtain ⟨c, entries', -, rfl, hentries⟩ := h.object tight
      cases hv
      have hentry := hentries name
      rw [hm] at hentry
      cases hfind : Entries.find? entries name with
      | none => rfl
      | some slot =>
        rw [hfind] at hentry
        cases hentry
    | array place =>
      obtain ⟨c, items, -, rfl, -⟩ := h.array tight
      cases hv
    | _ =>
      subst hv
      exact (h.flat fun hn => hn).elim

/-- A container that an index of a snapshot leads to is the snapshot of what is there. -/
theorem mirrors_of_item (tight : s.FrozenAll s.Sealed) (h : s.Mirrors n v) {index : Value}
    (hrun : e.item v index u = .ok w u') :
    w.Flat ∨ ∃ step m, index.Names step ∧ s.inside? n step = some m ∧ s.Mirrors m w := by
  by_cases hstep : ∃ step m, index.Names step ∧ s.inside? n step = some m
  · obtain ⟨step, m, hnames, hm⟩ := hstep
    obtain ⟨w', hw', hrun'⟩ := item_mirrors tight h hnames hm
    cases (hrun' e u).symm.trans hrun
    exact .inr ⟨step, m, hnames, hm, hw'⟩
  · have hnone {step : Step} (hnames : index.Names step) : s.inside? n step = none := by
      cases hm : s.inside? n step with
      | none => rfl
      | some m => exact absurd ⟨step, m, hnames, hm⟩ hstep
    refine .inl (item_flat (fun entries o k hv hk => ?_) (fun items o i hv hi => ?_) hrun)
    · cases n with
      | object place =>
        obtain ⟨c, entries', -, rfl, hentries⟩ := h.object tight
        cases hv
        have hentry := hentries k
        rw [hnone hk] at hentry
        cases hfind : Entries.find? entries k with
        | none => rfl
        | some slot =>
          rw [hfind] at hentry
          cases hentry
      | array place =>
        obtain ⟨c, items, -, rfl, -⟩ := h.array tight
        cases hv
      | _ =>
        subst hv
        exact (h.flat fun hn => hn).elim
    · cases n with
      | object place =>
        obtain ⟨c, entries, -, rfl, -⟩ := h.object tight
        cases hv
      | array place =>
        obtain ⟨c, items', -, rfl, hitems⟩ := h.array tight
        cases hv
        have hitem := hitems i
        rw [hnone hi] at hitem
        cases hw : items[i]? with
        | none => rfl
        | some w =>
          rw [hw] at hitem
          cases hitem
      | _ =>
        subst hv
        exact (h.flat fun hn => hn).elim

/-! ## Native forms -/

/-- The native form of a snapshot is the container itself, as long as it is the same. -/
theorem native_mirrors (tight : s.FrozenAll s.Sealed) (h : s.Mirrors n v) (hn : n.IsContainer)
    (same : u.SameAt s n) (e : Engine) : e.native v u = .ok n u := by
  cases n with
  | array place =>
    obtain ⟨c, items, hc, rfl, -⟩ := h.array tight
    have hu : u.arrays[place]? = some c := same.symm.trans hc
    refine native_list_current ?_
    rw [currentArray_some, hu, Option.bind_some, if_pos rfl]
  | object place =>
    obtain ⟨c, entries, hc, rfl, -⟩ := h.object tight
    have hu : u.objects[place]? = some c := same.symm.trans hc
    refine native_mapping_current ?_
    rw [currentObject_some, hu, Option.bind_some, if_pos rfl]
  | _ => exact hn.elim

/-- What is no container has no container for its native form. -/
theorem native_flat (hv : v.Flat) (hrun : e.native v u = .ok n u') : ¬ n.IsContainer := by
  cases v with
  | list _ _ => exact hv.elim
  | mapping _ _ => exact hv.elim
  | error _ _ _ => exact hv.elim
  | integer n =>
    have hrun := (EStateM.Result.ok.inj hrun).1
    split at hrun
    · subst hrun
      exact id
    · subst hrun
      exact id
  | function f =>
    cases f with
    | native f =>
      cases hrun
      exact id
    | typed f =>
      cases hrun
      exact id
  | _ =>
    cases hrun
    exact id

end Engine
end Workbook
